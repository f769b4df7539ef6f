import ProtocolNet.Text.Letter
import ProtocolNet.Text.Printable

namespace ProtocolNet.Text

def hexDigit (n : Nat) : Char := Nat.digitChar (n % 16)

def hexText : (width : Nat) → Nat → List Char
  | 0, _ => []
  | width + 1, n => hexText width (n / 16) ++ [hexDigit n]

def codeEscape (code : Nat) : List Char :=
  if code ≤ 0xFF then '\\' :: 'x' :: hexText 2 code
  else if code ≤ 0xFFFF then '\\' :: 'u' :: hexText 4 code
  else '\\' :: 'U' :: hexText 8 code

def quotedChar (quote c : Char) : List Char :=
  if c = quote ∨ c = '\\' then ['\\',c]
  else if c = '\n' then ['\\','n']
  else if c = '\r' then ['\\','r']
  else if c = '\t' then ['\\','t']
  else if isPrintable c then [c]
  else codeEscape c.toNat

def quotedLetter (quote : Char) : Letter → List Char
  | .char c => quotedChar quote c
  | .lone unit => codeEscape (0xD800 + unit)

def quoteFor (s : Str) : Char := if .char '\'' ∈ s ∧ .char '"' ∉ s then '"' else '\''

def quotedChars (s : Str) : List Char :=
  quoteFor s :: s.flatMap (quotedLetter (quoteFor s)) ++ [quoteFor s]

def quoted (s : Str) : String := .ofList (quotedChars s)

def quotedList (items : List Str) : String :=
  "[" ++ ", ".intercalate (items.map quoted) ++ "]"

end ProtocolNet.Text
