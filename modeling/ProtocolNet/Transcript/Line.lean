import ProtocolNet.Location
import ProtocolNet.Token
import ProtocolNet.Transcript.Lexer
import ProtocolNet.Transcript.Sentence

namespace ProtocolNet.Transcript

inductive Fault where
  | empty
  | invalidCharacter (c : Char) (offset : Nat)
  | longNumber (fault : Text.IntegerFault)
  | sentence (fault : SentenceFault)
  | noToken (written : String)
  | badToken (written : String) (bad : Token.BadValue)
  | noEvent (written : String)
  | repeatedField (name field : String)
  | badEvent (fault : Event.Fault)
  | badLocation (fault : SourceLocation.Fault)

def unexpectedMessage (value : Str) (placed : Placed) : Str :=
  "Syntax error at '" ++ value ++ "' (type: " ++ placed.lexeme.className ++ ", index: " ++
    Nat.repr placed.start ++ ")"

def SentenceFault.message : SentenceFault → Str
  | .unexpected placed => unexpectedMessage placed.lexeme.text placed
  | .unexpectedEnd => "Syntax error: unexpected end of input"

def numberMessage : Text.IntegerFault → String
  | .tooLong digits => Text.tooLongMessage digits
  | .malformed => "malformed number"

def Fault.message : Fault → Str
  | .empty => "Syntax error: empty input"
  | .invalidCharacter c offset =>
    ↑("Invalid character '" ++ c.toString ++ "' at index " ++ Nat.repr offset)
  | .longNumber fault => numberMessage fault
  | .sentence fault => fault.message
  | .noToken written => "Expected a token literal, got '" ++ written ++ "'"
  | .badToken written bad => "Invalid token literal '" ++ written ++ "': " ++ bad.message
  | .noEvent written => "Expected an event, got '" ++ written ++ "'"
  | .repeatedField name field => ↑(name ++ ": duplicate field '" ++ field ++ "'")
  | .badEvent fault => fault.message
  | .badLocation fault => fault.message

def Placed.valueIn (s : Str) (placed : Placed) : Str :=
  let taken := (s.drop placed.start).take (placed.stop - placed.start)
  match placed.lexeme with
  | .string _ => Text.Backslash.unescapeByPairs (taken.drop 1).dropLast
  | .location _ => Str.trim (taken.drop 1)
  | lexeme => lexeme.text

-- A text with halves of pairs is read as if replacement characters stood for them, which
-- no rule takes but inside quotes, files and comments. What is said of it shows the halves.
def Fault.messageIn (s : Str) : Fault → Str
  | .invalidCharacter _ offset =>
    "Invalid character '" ++ (s.trim.drop offset).take 1 ++ "' at index " ++ Nat.repr offset
  | .sentence (.unexpected placed) => unexpectedMessage (placed.valueIn s.trim) placed
  | .noToken _ => "Expected a token literal, got '" ++ s.trim ++ "'"
  | .badToken _ bad => "Invalid token literal '" ++ s.trim ++ "': " ++ bad.message
  | fault => fault.message

def Scan.sentence (scan : Scan) : Except Fault Sentence :=
  match parse scan.lexemes, scan.ending with
  | .error (.unexpected placed), _ => .error (.sentence (.unexpected placed))
  | _, .invalidCharacter c offset => .error (.invalidCharacter c offset)
  | _, .longNumber fault => .error (.longNumber fault)
  | .error .unexpectedEnd, .endOfText => .error (.sentence .unexpectedEnd)
  | .ok sentence, .endOfText => .ok sentence

def readSentence (s : List Char) : Except Fault Sentence :=
  match Text.trim s with
  | [] => .error .empty
  | text => (scan text).sentence

def literalValue : Option Nat → Json
  | some n => .int n
  | none => .null

def tokenOf (written : String) : Sentence → Except Fault Token
  | .token kind value =>
    match Token.make kind (literalValue value) with
    | .ok token => .ok token
    | .error bad => .error (.badToken written bad)
  | .event .. => .error (.noToken written)

def readToken (s : String) : Except Fault Token := do
  tokenOf (Text.trimmed s) (← readSentence s.toList)

def repeatedField? (fields : Fields) : Option String := go [] fields
where
  go (seen : List String) : Fields → Option String
    | [] => none
    | (name,_) :: rest => if name ∈ seen then some name else go (name :: seen) rest

def locationOf : Option String → Except Fault (Option SourceLocation)
  | none => .ok none
  | some written =>
    match SourceLocation.ofText written with
    | .ok location => .ok (some location)
    | .error fault => .error (.badLocation fault)

def eventOf (written : String) : Sentence → Except Fault (Event × Option SourceLocation)
  | .token .. => .error (.noEvent written)
  | .event name fields location =>
    match repeatedField? fields with
    | some field => .error (.repeatedField name field)
    | none =>
      match Event.make name (fields.map fun (field,value) => (↑field,value.toJson)) with
      | .error fault => .error (.badEvent fault)
      | .ok event => (locationOf location).map (event,·)

def readEvent (s : String) : Except Fault (Event × Option SourceLocation) := do
  eventOf (Text.trimmed s) (← readSentence s.toList)

end ProtocolNet.Transcript
