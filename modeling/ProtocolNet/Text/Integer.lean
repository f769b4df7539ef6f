import ProtocolNet.Text.Blank
import ProtocolNet.Text.Digit

namespace ProtocolNet.Text

def digitLimit : Nat := 4300

inductive IntegerFault where
  | malformed
  | tooLong (digits : Nat)
deriving DecidableEq, Repr

def tooLongMessage (digits : Nat) : String :=
  s!"Exceeds the limit ({digitLimit} digits) for integer string conversion: value has {digits} " ++
  "digits; use sys.set_int_max_str_digits() to increase the limit"

def writeBound : Nat := Nat.pow 10 digitLimit

def isWritable (n : Nat) : Bool := n < writeBound

def unwritableMessage : String :=
  s!"Exceeds the limit ({digitLimit} digits) for integer string conversion; " ++
  "use sys.set_int_max_str_digits() to increase the limit"

def readDigits (s : List Char) : Except IntegerFault Nat :=
  if s.length ≤ digitLimit then .ok (digitsValue s) else .error (.tooLong s.length)

def isIntegerBlank (c : Char) : Bool := isBlank c && !(0x1C ≤ c.toNat && c.toNat ≤ 0x1F)

def plainDigits? : (gap : Bool) → List Char → Option (List Char)
  | gap, [] => if gap then none else some []
  | gap, c :: rest =>
    if c = '_' then
      if gap then none else plainDigits? true rest
    else if isDigit c then (plainDigits? false rest).map (c :: ·)
    else none

def trimInteger (s : List Char) : List Char :=
  ((s.dropWhile isIntegerBlank).reverse.dropWhile isIntegerBlank).reverse

def splitSign : List Char → Bool × List Char
  | '-' :: rest => (true,rest)
  | '+' :: rest => (false,rest)
  | s => (false,s)

def readInteger (s : List Char) : Except IntegerFault Int :=
  let (negative,digits) := splitSign (trimInteger s)
  match plainDigits? true digits with
  | none => .error .malformed
  | some plain =>
    match readDigits plain with
    | .ok n => .ok (if negative then -(n : Int) else n)
    | .error fault => .error fault

def integerText (n : Int) : String :=
  match n with
  | .ofNat k => Nat.repr k
  | .negSucc k => "-" ++ Nat.repr (k + 1)

example : readInteger " -1_0 ".toList = .ok (-10) := by rfl
example : readInteger "1__0".toList = .error .malformed := by rfl
example : readInteger "".toList = .error .malformed := by rfl
example : readInteger "+".toList = .error .malformed := by rfl

end ProtocolNet.Text
