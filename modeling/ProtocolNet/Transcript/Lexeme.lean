namespace ProtocolNet.Transcript

inductive Lexeme where
  | name (text : String)
  | number (value : Nat)
  | string (text : String)
  | location (text : String)
  | lparen | rparen | comma | equals
deriving DecidableEq, Repr

namespace Lexeme

def className : Lexeme → String
  | .name _ => "NAME"
  | .number _ => "NUMBER"
  | .string _ => "STRING"
  | .location _ => "LOCATION"
  | .lparen => "LPAREN"
  | .rparen => "RPAREN"
  | .comma => "COMMA"
  | .equals => "EQUALS"

def text : Lexeme → String
  | .name text | .string text | .location text => text
  | .number value => Nat.repr value
  | .lparen => "("
  | .rparen => ")"
  | .comma => ","
  | .equals => "="

end Lexeme

structure Placed where
  lexeme : Lexeme
  line : Nat
  start : Nat
  stop : Nat
deriving DecidableEq, Repr

end ProtocolNet.Transcript
