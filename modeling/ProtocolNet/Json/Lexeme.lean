import ProtocolNet.Json.Basic
import ProtocolNet.Text.Integer

namespace ProtocolNet.Json

inductive Reason where
  | value | propertyName | colon | comma | extraData
  | unterminatedString | controlCharacter | badEscape | badCodeEscape | byteOrderMark
deriving DecidableEq, Repr

inductive Lexeme where
  | openObject | closeObject | openArray | closeArray | colon | comma
  | scalar (value : Json)
  | string (value : Str)
  | longInteger (digits : Nat)
  | badString (reason : Reason) (offset : Nat)
  | stray
  | fin
deriving Repr

def isGap (c : Char) : Bool := c = ' ' || c = '\t' || c = '\n' || c = '\r'

def hexValue? (c : Char) : Option Nat :=
  if '0' ≤ c ∧ c ≤ '9' then some (c.toNat - '0'.toNat)
  else if 'a' ≤ c ∧ c ≤ 'f' then some (c.toNat - 'a'.toNat + 10)
  else if 'A' ≤ c ∧ c ≤ 'F' then some (c.toNat - 'A'.toNat + 10)
  else none

def codeUnit? (a b c d : Char) : Option Nat :=
  match hexValue? a, hexValue? b, hexValue? c, hexValue? d with
  | some a, some b, some c, some d => some (((a * 16 + b) * 16 + c) * 16 + d)
  | _, _, _, _ => none

def isHighSurrogate (unit : Nat) : Bool := 0xD800 ≤ unit && unit ≤ 0xDBFF

def isLowSurrogate (unit : Nat) : Bool := 0xDC00 ≤ unit && unit ≤ 0xDFFF

def joinSurrogates (high low : Nat) : Char :=
  Char.ofNat (0x10000 + (high - 0xD800) * 0x400 + (low - 0xDC00))

-- Half of a pair that stands alone is kept as what it is.
def unitLetter (unit : Nat) : Letter :=
  if half : 0xD800 ≤ unit ∧ unit < 0xE000 then .lone ⟨unit - 0xD800,by omega⟩
  else .char (Char.ofNat unit)

def simpleEscape? (c : Char) : Option Char :=
  match c with
  | '"' => some '"'
  | '\\' => some '\\'
  | '/' => some '/'
  | 'b' => some '\x08'
  | 'f' => some '\x0c'
  | 'n' => some '\n'
  | 'r' => some '\r'
  | 't' => some '\t'
  | _ => none

inductive Piece where
  | close
  | letter (value : Letter) (length : Nat)
  | bad (reason : Reason) (offset : Nat)

def codeEscapeAt (offset : Nat) (digits : List Char) : Piece :=
  match digits with
  | h1 :: h2 :: h3 :: h4 :: next :: rest =>
    match codeUnit? h1 h2 h3 h4 with
    | none => .bad .badCodeEscape (offset + 1)
    | some unit =>
      if isHighSurrogate unit then
        match next, rest with
        | '\\', 'u' :: l1 :: l2 :: l3 :: l4 :: _ :: _ =>
          match codeUnit? l1 l2 l3 l4 with
          | none => .bad .badCodeEscape (offset + 7)
          | some low =>
            if isLowSurrogate low then .letter (.char (joinSurrogates unit low)) 12
            else .letter (unitLetter unit) 6
        | _, _ => .letter (unitLetter unit) 6
      else .letter (unitLetter unit) 6
  | _ => .bad .badCodeEscape (offset + 1)

def pieceAt (start offset : Nat) (c : Char) (rest : List Char) : Piece :=
  if c = '"' then .close
  else if c.toNat < 0x20 then .bad .controlCharacter offset
  else if c ≠ '\\' then .letter (.char c) 1
  else
    match rest with
    | [] => .bad .unterminatedString start
    | 'u' :: digits => codeEscapeAt offset digits
    | e :: _ =>
      match simpleEscape? e with
      | some value => .letter (.char value) 2
      | none => .bad .badEscape offset

def scanString (start : Nat) :
    (skip offset : Nat) → List Char → Except (Reason × Nat) (Str × Nat)
  | _, _, [] => .error (.unterminatedString,start)
  | skip + 1, offset, _ :: rest => scanString start skip (offset + 1) rest
  | 0, offset, c :: rest =>
    match pieceAt start offset c rest with
    | .close => .ok ([],offset + 1)
    | .letter value length =>
      (scanString start (length - 1) (offset + 1) rest).map fun (s,stop) => (value :: s,stop)
    | .bad reason bad => .error (reason,bad)

def digitRun (s : List Char) : List Char := s.takeWhile Char.isDigit

def wholeDigits (s : List Char) : List Char :=
  match s with
  | '0' :: _ => ['0']
  | _ => digitRun s

def fractionDigits (s : List Char) : List Char :=
  match s with
  | '.' :: rest => digitRun rest
  | _ => []

def scanPower? (s : List Char) : Option (Int × Nat) :=
  match s with
  | e :: rest =>
    if e = 'e' ∨ e = 'E' then
      let (sign,rest) :=
        match rest with
        | '-' :: rest => (some true,rest)
        | '+' :: rest => (some false,rest)
        | rest => (none,rest)
      let digits := digitRun rest
      if digits.isEmpty then none
      else
        let power : Int := Text.digitsValue digits
        some (if sign = some true then -power else power,
          1 + (if sign.isSome then 1 else 0) + digits.length)
    else none
  | [] => none

def scanNumber? (negative : Bool) (s : List Char) : Option (Lexeme × Nat) :=
  let whole := wholeDigits s
  if whole.isEmpty then none
  else
    let rest := s.drop whole.length
    let fraction := fractionDigits rest
    let fractionLength := if fraction.isEmpty then 0 else fraction.length + 1
    match scanPower? (rest.drop fractionLength) with
    | some (power,length) =>
      some (.scalar (.float (.ofDecimal negative (Text.digitsValue (whole ++ fraction))
        (power - fraction.length))),whole.length + fractionLength + length)
    | none =>
      if fraction.isEmpty then
        match Text.readDigits whole with
        | .ok n => some (.scalar (.int (if negative then -(n : Int) else n)),whole.length)
        | .error _ => some (.longInteger whole.length,whole.length)
      else
        some (.scalar (.float (.ofDecimal negative (Text.digitsValue (whole ++ fraction))
          (-fraction.length))),whole.length + fractionLength)

def words : List (List Char × Json) := [
  ("null".toList,.null),("true".toList,.bool true),("false".toList,.bool false),
  ("NaN".toList,.float .nan),("Infinity".toList,.float (.infinite false)),
  ("-Infinity".toList,.float (.infinite true))]

def lexemeAt (offset : Nat) (c : Char) (rest : List Char) : Lexeme × Nat :=
  match c with
  | '\x7b' => (.openObject,1)
  | '\x7d' => (.closeObject,1)
  | '[' => (.openArray,1)
  | ']' => (.closeArray,1)
  | ':' => (.colon,1)
  | ',' => (.comma,1)
  | '"' =>
    match scanString offset 0 (offset + 1) rest with
    | .ok (s,stop) => (.string s,stop - offset)
    | .error (reason,bad) => (.badString reason bad,rest.length + 1)
  | c =>
    match words.find? fun (word,_) => word.isPrefixOf (c :: rest) with
    | some (word,value) => (.scalar value,word.length)
    | none =>
      if c = '-' then
        match scanNumber? true rest with
        | some (lexeme,length) => (lexeme,length + 1)
        | none => (.stray,1)
      else (scanNumber? false (c :: rest)).getD (.stray,1)

def lexemesFrom : (skip offset : Nat) → List Char → List (Nat × Lexeme)
  | _, offset, [] => [(offset,.fin)]
  | skip + 1, offset, _ :: rest => lexemesFrom skip (offset + 1) rest
  | 0, offset, c :: rest =>
    if isGap c then lexemesFrom 0 (offset + 1) rest
    else
      let (lexeme,length) := lexemeAt offset c rest
      (offset,lexeme) :: lexemesFrom (length - 1) (offset + 1) rest

def lexemes (s : List Char) : List (Nat × Lexeme) := lexemesFrom 0 0 s

end ProtocolNet.Json
