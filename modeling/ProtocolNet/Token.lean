import ProtocolNet.Table
import ProtocolNet.Json.Display
import ProtocolNet.Text.Fault

namespace ProtocolNet

inductive Token.Kind where
  | tid | lock | loc | region
deriving DecidableEq, Repr

def Token.Kind.text : Token.Kind → String
  | .tid => "Tid"
  | .lock => "Lock"
  | .loc => "Loc"
  | .region => "Region"

def Token.Kind.ofText? (s : Str) : Option Token.Kind :=
  [.tid,.lock,.loc,.region].find? fun kind => ↑kind.text = s

inductive Token where
  | unit
  | ident (kind : Token.Kind) (value : Nat)
deriving DecidableEq, Repr

namespace Token

-- The canonical text. It can only be written if the number in it can.
def text : Token → String
  | .unit => "Unit"
  | .ident kind value => kind.text ++ ("(" ++ (Nat.repr value ++ ")"))

def isWritable : Token → Bool
  | .unit => true
  | .ident _ value => Text.isWritable value

theorem digits_inj {n m : Nat} (same : Nat.toDigits 10 n = Nat.toDigits 10 m) : n = m := by
  have values := congrArg (Nat.ofDigitChars 10 · 0) same
  simpa [Nat.ofDigitChars_ten_toDigits] using values

theorem text_inj {a b : Token} (same : a.text = b.text) : a = b := by
  have chars := congrArg String.toList same
  rcases a with _ | ⟨k,n⟩ <;> rcases b with _ | ⟨l,m⟩
  · rfl
  · cases l <;> simp [text,Kind.text] at chars
  · cases k <;> simp [text,Kind.text] at chars
  · cases k <;> cases l <;> simp [text,Kind.text] at chars <;> rw [digits_inj chars]

instance : Named Token where
  name token := name token.text
  name_inj same := text_inj (Named.name_inj same)

structure BadValue where
  kind : Kind
  value : Json

def BadValue.message (bad : BadValue) : Str :=
  bad.value.told ↑(bad.kind.text ++ " value must be a non-negative integer, got ")

def make (kind : Str) (value : Json) : Except BadValue Token :=
  match Kind.ofText? kind with
  | none => .ok .unit
  | some kind =>
    match value.natural? with
    | some n => .ok (.ident kind n)
    | none => .error ⟨kind,value⟩

end Token

end ProtocolNet
