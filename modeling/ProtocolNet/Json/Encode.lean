import ProtocolNet.Json.Basic
import ProtocolNet.Number.Shortest
import ProtocolNet.Text.Integer
import ProtocolNet.Text.Quoted

namespace ProtocolNet.Json

def unitEscape (unit : Nat) : List Char := '\\' :: 'u' :: Text.hexText 4 unit

def escapedChar (c : Char) : List Char :=
  match c with
  | '"' => ['\\','"']
  | '\\' => ['\\','\\']
  | '\n' => ['\\','n']
  | '\r' => ['\\','r']
  | '\t' => ['\\','t']
  | '\x08' => ['\\','b']
  | '\x0c' => ['\\','f']
  | c =>
    let n := c.toNat
    if 0x20 ≤ n ∧ n ≤ 0x7E then [c]
    else if n ≤ 0xFFFF then unitEscape n
    else
      unitEscape (0xD800 + (n - 0x10000) / 0x400) ++ unitEscape (0xDC00 + (n - 0x10000) % 0x400)

def escapedLetter : Letter → List Char
  | .char c => escapedChar c
  | .lone unit => unitEscape (0xD800 + unit)

def stringText (s : Str) : String := .ofList ('"' :: s.flatMap escapedLetter ++ ['"'])

def floatText : Double → String
  | .nan => "NaN"
  | .infinite negative => if negative then "-Infinity" else "Infinity"
  | x => x.text

mutual

def encode : Json → String
  | .null => "null"
  | .bool value => if value then "true" else "false"
  | .int value => Text.integerText value
  | .float value => floatText value
  | .str value => stringText value
  | .arr items => "[" ++ ", ".intercalate (encodeItems items) ++ "]"
  | .obj fields => "\x7b" ++ ", ".intercalate (encodeFields fields) ++ "\x7d"

def encodeItems : List Json → List String
  | [] => []
  | item :: rest => encode item :: encodeItems rest

def encodeFields : List (Str × Json) → List String
  | [] => []
  | (key,value) :: rest => (stringText key ++ ": " ++ encode value) :: encodeFields rest

end

end ProtocolNet.Json
