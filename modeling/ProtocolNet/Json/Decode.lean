import ProtocolNet.Json.Lexeme

namespace ProtocolNet.Json

inductive DecodeFault where
  | malformed (reason : Reason) (line column offset : Nat)
  | longInteger (digits : Nat)
  | repeatedKey (key : Str)
deriving DecidableEq, Repr

def Reason.text : Reason → String
  | .value => "Expecting value"
  | .propertyName => "Expecting property name enclosed in double quotes"
  | .colon => "Expecting ':' delimiter"
  | .comma => "Expecting ',' delimiter"
  | .extraData => "Extra data"
  | .unterminatedString => "Unterminated string starting at"
  | .controlCharacter => "Invalid control character at"
  | .badEscape => "Invalid \\escape"
  | .badCodeEscape => "Invalid \\uXXXX escape"
  | .byteOrderMark => "Unexpected UTF-8 BOM (decode using utf-8-sig)"

def DecodeFault.message : DecodeFault → Str
  | .malformed reason line column offset =>
    ↑(reason.text ++ s!": line {line} column {column} (char {offset})")
  | .longInteger digits => Text.tooLongMessage digits
  | .repeatedKey key => "Duplicate key '" ++ key ++ "' in net definition"

abbrev Policy := List (Str × Json) → Except DecodeFault Json

def keepLast : Policy := fun pairs => .ok (.obj (lastFields pairs))

def repeated? : List Str → Option Str
  | keys => go [] keys
where
  go (seen : List Str) : List Str → Option Str
    | [] => none
    | key :: rest => if key ∈ seen then some key else go (key :: seen) rest

def refuseRepeated : Policy := fun pairs =>
  match repeated? (pairs.map (·.1)) with
  | some key => .error (.repeatedKey key)
  | none => .ok (.obj pairs)

inductive Frame where
  | array (items : List Json)
  | object (fields : List (Str × Json)) (key : Str)

inductive Expected where
  | value (frames : List Frame)
  | firstItem (frames : List Frame)
  | firstKey (frames : List Frame)
  | key (fields : List (Str × Json)) (frames : List Frame)
  | colon (fields : List (Str × Json)) (key : Str) (frames : List Frame)
  | delimiter (value : Json) (frames : List Frame)

inductive StepFault where
  | at (reason : Reason) (offset : Nat)
  | other (fault : DecodeFault)

abbrev Step := Except StepFault Expected

def refuse (reason : Reason) (offset : Nat) : Step := .error (.at reason offset)

def startValue (offset : Nat) (lexeme : Lexeme) (frames : List Frame) : Step :=
  match lexeme with
  | .scalar value => .ok (.delimiter value frames)
  | .string value => .ok (.delimiter (.str value) frames)
  | .openArray => .ok (.firstItem frames)
  | .openObject => .ok (.firstKey frames)
  | .longInteger digits => .error (.other (.longInteger digits))
  | .badString reason bad => refuse reason bad
  | _ => refuse .value offset

def startKey (offset : Nat) (lexeme : Lexeme) (fields : List (Str × Json))
    (frames : List Frame) : Step :=
  match lexeme with
  | .string key => .ok (.colon fields key frames)
  | .badString reason bad => refuse reason bad
  | _ => refuse .propertyName offset

def closeObject (policy : Policy) (fields : List (Str × Json)) (frames : List Frame) : Step :=
  match policy fields.reverse with
  | .ok value => .ok (.delimiter value frames)
  | .error fault => .error (.other fault)

def step (policy : Policy) (offset : Nat) (lexeme : Lexeme) : Expected → Step
  | .value frames => startValue offset lexeme frames
  | .firstItem frames =>
    match lexeme with
    | .closeArray => .ok (.delimiter (.arr []) frames)
    | _ => startValue offset lexeme (.array [] :: frames)
  | .firstKey frames =>
    match lexeme with
    | .closeObject => closeObject policy [] frames
    | _ => startKey offset lexeme [] frames
  | .key fields frames => startKey offset lexeme fields frames
  | .colon fields key frames =>
    match lexeme with
    | .colon => .ok (.value (.object fields key :: frames))
    | _ => refuse .colon offset
  | .delimiter _ [] => refuse .extraData offset
  | .delimiter value (.array items :: frames) =>
    match lexeme with
    | .comma => .ok (.value (.array (value :: items) :: frames))
    | .closeArray => .ok (.delimiter (.arr (value :: items).reverse) frames)
    | _ => refuse .comma offset
  | .delimiter value (.object fields key :: frames) =>
    match lexeme with
    | .comma => .ok (.key ((key,value) :: fields) frames)
    | .closeObject => closeObject policy ((key,value) :: fields) frames
    | _ => refuse .comma offset

def feed (policy : Policy) : Expected → List (Nat × Lexeme) → Except StepFault Json
  | .delimiter value [], (_,.fin) :: _ => .ok value
  | expected, (offset,lexeme) :: rest =>
    match step policy offset lexeme expected with
    | .ok next => feed policy next rest
    | .error fault => .error fault
  | _, [] => .error (.at .value 0)

def placeOf (s : List Char) (offset : Nat) : Nat × Nat :=
  let before := s.take offset
  (before.count '\n' + 1,(before.reverse.takeWhile (· ≠ '\n')).length + 1)

def StepFault.placed (s : List Char) : StepFault → DecodeFault
  | .at reason offset =>
    let (line,column) := placeOf s offset
    .malformed reason line column offset
  | .other fault => fault

def decodeWith (policy : Policy) (s : List Char) : Except DecodeFault Json :=
  match s with
  | '\uFEFF' :: _ => .error (.malformed .byteOrderMark 1 1 0)
  | _ =>
    match feed policy (.value []) (lexemes s) with
    | .ok value => .ok value
    | .error fault => .error (fault.placed s)

def decode (s : List Char) : Except DecodeFault Json := decodeWith keepLast s

end ProtocolNet.Json
