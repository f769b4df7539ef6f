import ProtocolNet.Text.Backslash
import ProtocolNet.Text.Blank
import ProtocolNet.Text.Integer
import ProtocolNet.Transcript.Lexeme

namespace ProtocolNet.Transcript

inductive Rule where
  | comment | newline | location | name | number | string | lparen | rparen | comma | equals
deriving DecidableEq, Repr

namespace Rule

def all : List Rule :=
  [.comment,.newline,.location,.name,.number,.string,.lparen,.rparen,.comma,.equals]

def isNameStart (c : Char) : Bool := c.isAlpha || c = '_'

def isNameRest (c : Char) : Bool := c.isAlphanum || c = '_'

def isGap (c : Char) : Bool := c = ' ' || c = '\t'

def runLength (p : Char → Bool) (s : List Char) : Nat := (s.takeWhile p).length

def isFileChar (c : Char) : Bool := !Text.isBlank c && c != '@' && c != '#'

def colonDigits? (s : List Char) : Option Nat :=
  match s with
  | ':' :: rest =>
    let digits := runLength Text.isDigit rest
    if digits = 0 then none else some (digits + 1)
  | _ => none

def position? (s : List Char) : Option Nat :=
  match colonDigits? s with
  | none => none
  | some line => (colonDigits? (s.drop line)).map (line + ·)

def locationBody? : List Char → Option Nat
  | [] => none
  | c :: rest =>
    if isFileChar c then
      match locationBody? rest with
      | some length => some (length + 1)
      | none => (position? rest).map (· + 1)
    else none

def stringBody? : List Char → Option Nat
  | [] => none
  | [c] => if c = '"' then some 1 else none
  | c :: d :: rest =>
    if c = '"' then some 1
    else if c = '\n' then none
    else if c = '\\' then
      if d = '\n' then none else (stringBody? rest).map (· + 2)
    else (stringBody? (d :: rest)).map (· + 1)

def length? (rule : Rule) (s : List Char) : Option Nat :=
  match rule, s with
  | .comment, '#' :: rest => some (runLength (· ≠ '\n') rest + 1)
  | .newline, '\n' :: rest => some (runLength (· = '\n') rest + 1)
  | .location, '@' :: rest =>
    let gap := runLength isGap rest
    (locationBody? (rest.drop gap)).map (· + gap + 1)
  | .name, c :: rest => if isNameStart c then some (runLength isNameRest rest + 1) else none
  | .number, c :: rest =>
    if Text.isDigit c then some (runLength Text.isDigit rest + 1) else none
  | .string, '"' :: rest => (stringBody? rest).map (· + 1)
  | .lparen, '(' :: _ => some 1
  | .rparen, ')' :: _ => some 1
  | .comma, ',' :: _ => some 1
  | .equals, '=' :: _ => some 1
  | _, _ => none

def first? (s : List Char) : Option (Rule × Nat) :=
  all.findSome? fun rule => (rule.length? s).map (rule,·)

def lexeme (rule : Rule) (taken : List Char) : Except Text.IntegerFault (Option Lexeme) :=
  match rule with
  | .comment | .newline => .ok none
  | .location => .ok (some (.location (.ofList (Text.trim (taken.drop 1)))))
  | .name => .ok (some (.name (.ofList taken)))
  | .number =>
    match Text.readDigits taken with
    | .ok n => .ok (some (.number n))
    | .error fault => .error fault
  | .string =>
    let inside := (taken.drop 1).dropLast
    .ok (some (.string (.ofList (Text.Backslash.unescapeByPairs inside))))
  | .lparen => .ok (some .lparen)
  | .rparen => .ok (some .rparen)
  | .comma => .ok (some .comma)
  | .equals => .ok (some .equals)

def lineEnds (rule : Rule) (length : Nat) : Nat :=
  match rule with
  | .newline => length
  | _ => 0

end Rule

inductive Ending where
  | endOfText
  | invalidCharacter (c : Char) (offset : Nat)
  | longNumber (fault : Text.IntegerFault)
deriving DecidableEq, Repr

structure Scan where
  lexemes : List Placed
  ending : Ending
deriving DecidableEq, Repr

def Scan.put (lexeme : Placed) (scan : Scan) : Scan := { scan with lexemes := lexeme :: scan.lexemes }

def scanFrom : (skip line offset : Nat) → List Char → Scan
  | _, _, _, [] => ⟨[],.endOfText⟩
  | skip + 1, line, offset, _ :: rest => scanFrom skip line (offset + 1) rest
  | 0, line, offset, c :: rest =>
    if Rule.isGap c then scanFrom 0 line (offset + 1) rest
    else
      match Rule.first? (c :: rest) with
      | none => ⟨[],.invalidCharacter c offset⟩
      | some (rule,length) =>
        let next := scanFrom (length - 1) (line + rule.lineEnds length) (offset + 1) rest
        match rule.lexeme ((c :: rest).take length) with
        | .ok none => next
        | .ok (some lexeme) => next.put ⟨lexeme,line,offset,offset + length⟩
        | .error fault => ⟨[],.longNumber fault⟩

def scan (s : List Char) : Scan := scanFrom 0 1 0 s

end ProtocolNet.Transcript
