import ProtocolNet.Event
import ProtocolNet.Transcript.Lexeme

namespace ProtocolNet.Transcript

abbrev Fields := List (String × FieldValue)

--   line   : event LOCATION | event | token
--   event  : NAME ( fields ) | NAME ( )
--   fields : fields , NAME = value | NAME = value
--   value  : NUMBER | STRING | NAME
--   token  : NAME ( NUMBER ) | NAME
inductive Sentence where
  | event (name : String) (fields : Fields) (location : Option String)
  | token (kind : String) (value : Option Nat)
deriving DecidableEq, Repr

inductive Progress where
  | start
  | named (name : String)
  | opened (name : String)
  | numbered (name : String) (value : Nat)
  | tokenClosed (name : String) (value : Nat)
  | fieldNamed (name : String) (fields : Fields) (field : String)
  | valueDue (name : String) (fields : Fields) (field : String)
  | fieldRead (name : String) (fields : Fields)
  | fieldDue (name : String) (fields : Fields)
  | closed (name : String) (fields : Fields)
  | located (name : String) (fields : Fields) (location : String)
deriving DecidableEq, Repr

def fieldValue? : Lexeme → Option FieldValue
  | .number n => some (.number n)
  | .string s | .name s => some (.text s)
  | _ => none

namespace Progress

def step? : Progress → Lexeme → Option Progress
  | .start, .name name => some (.named name)
  | .named name, .lparen => some (.opened name)
  | .opened name, .rparen => some (.closed name [])
  | .opened name, .number value => some (.numbered name value)
  | .opened name, .name field => some (.fieldNamed name [] field)
  | .numbered name value, .rparen => some (.tokenClosed name value)
  | .fieldNamed name fields field, .equals => some (.valueDue name fields field)
  | .valueDue name fields field, lexeme =>
    (fieldValue? lexeme).map fun value => .fieldRead name (fields ++ [(field,value)])
  | .fieldRead name fields, .comma => some (.fieldDue name fields)
  | .fieldRead name fields, .rparen => some (.closed name fields)
  | .fieldDue name fields, .name field => some (.fieldNamed name fields field)
  | .closed name fields, .location location => some (.located name fields location)
  | _, _ => none

def sentence? : Progress → Option Sentence
  | .named name => some (.token name none)
  | .tokenClosed name value => some (.token name (some value))
  | .closed name fields => some (.event name fields none)
  | .located name fields location => some (.event name fields (some location))
  | _ => none

end Progress

inductive SentenceFault where
  | unexpected (lexeme : Placed)
  | unexpectedEnd
deriving DecidableEq, Repr

def parseFrom (progress : Progress) : List Placed → Except SentenceFault Sentence
  | [] =>
    match progress.sentence? with
    | some sentence => .ok sentence
    | none => .error .unexpectedEnd
  | lexeme :: rest =>
    match progress.step? lexeme.lexeme with
    | some next => parseFrom next rest
    | none => .error (.unexpected lexeme)

def parse (lexemes : List Placed) : Except SentenceFault Sentence := parseFrom .start lexemes

end ProtocolNet.Transcript
