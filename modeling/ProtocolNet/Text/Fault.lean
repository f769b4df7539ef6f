import ProtocolNet.Text.Integer
import ProtocolNet.Text.Letter
import ProtocolNet.Text.Quoted

namespace ProtocolNet

-- Why a text cannot be made or written: a number has more digits than may be
-- written, or the text has a run of halves that UTF-8 has no form for.
inductive TextFault where
  | unwritable
  | unencodable (unit : Fin 0x800) (position length : Nat)
deriving DecidableEq, Repr

namespace TextFault

def message : TextFault → String
  | .unwritable => Text.unwritableMessage
  | .unencodable unit position length =>
    let place :=
      if length = 1 then
        "character '" ++ .ofList (Text.codeEscape (0xD800 + unit)) ++ s!"' in position {position}"
      else s!"characters in position {position}-{position + length - 1}"
    "'utf-8' codec can't encode " ++ place ++ ": surrogates not allowed"

def gated {α : Type} (writable : Bool) (text : α) : Except TextFault α :=
  if writable then .ok text else .error .unwritable

variable {α : Type} {writable : Bool} {text made : α}

@[simp] theorem gated_true : gated true text = .ok text := rfl

@[simp] theorem gated_false : gated false text = .error .unwritable := rfl

theorem gated_eq_ok : gated writable text = .ok made ↔ writable = true ∧ text = made := by
  cases writable <;> simp

end TextFault

namespace Str

def encodeFrom (position : Nat) : Str → Except TextFault (List Char)
  | [] => .ok []
  | .char c :: rest => (encodeFrom (position + 1) rest).map (c :: ·)
  | .lone unit :: rest =>
    .error (.unencodable unit position ((rest.takeWhile Letter.isLone).length + 1))

-- The characters of a text, strictly: a half that stands alone is a fault.
def encode (s : Str) : Except TextFault String := (encodeFrom 0 s).map .ofList

-- The text with an escape for each half that stands alone.
def withEscapes (s : Str) : String :=
  .ofList (s.flatMap fun
    | .char c => [c]
    | .lone unit => Text.codeEscape (0xD800 + unit))

theorem encodeFrom_chars {position : Nat} (s : List Char) :
    encodeFrom position (s.map .char) = .ok s := by
  induction s generalizing position with
  | nil => rfl
  | cons c rest ih => rw [List.map_cons,encodeFrom,ih]; rfl

@[simp] theorem encode_ofString (s : String) : encode (ofString s) = .ok s := by
  simp [encode,ofString,encodeFrom_chars,Except.map]

theorem chars_of_encodeFrom {position : Nat} {s : Str} {read : List Char}
    (encoded : encodeFrom position s = .ok read) : s = read.map .char := by
  induction s generalizing position read with
  | nil => cases encoded; rfl
  | cons letter rest ih =>
    cases letter with
    | lone unit => cases encoded
    | char c =>
      rw [encodeFrom] at encoded
      cases later : encodeFrom (position + 1) rest with
      | error fault => simp [later,Except.map] at encoded
      | ok tail =>
        simp only [later,Except.map,Except.ok.injEq] at encoded
        rw [← encoded,List.map_cons,← ih later]

theorem encode_eq_ok_iff {s : Str} {read : String} : s.encode = .ok read ↔ s = ofString read := by
  constructor
  · intro encoded
    cases chars : encodeFrom 0 s with
    | error fault => simp [encode,chars,Except.map] at encoded
    | ok list =>
      simp only [encode,chars,Except.map,Except.ok.injEq] at encoded
      rw [← encoded,ofString_ofList,chars_of_encodeFrom chars]
  · rintro rfl; exact encode_ofString read

end Str

end ProtocolNet
