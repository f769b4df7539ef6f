namespace ProtocolNet

-- A character, or half of a surrogate pair that stands alone. Only an escape can
-- write such a half: no file of text holds one, and no text of halves is UTF-8.
inductive Letter where
  | char (c : Char)
  | lone (unit : Fin 0x800)
deriving DecidableEq, Repr

namespace Letter

def code : Letter → Nat
  | .char c => c.toNat
  | .lone unit => 0xD800 + unit

def isLone : Letter → Bool
  | .char _ => false
  | .lone _ => true

-- The character that stands for a letter where halves of pairs are all alike.
def shown : Letter → Char
  | .char c => c
  | .lone _ => '\uFFFD'

theorem code_inj {a b : Letter} (same : a.code = b.code) : a = b := by
  cases a with
  | char c =>
    cases b with
    | char d => exact congrArg char (Char.toNat_inj.mp same)
    | lone unit =>
      have valid := c.valid
      simp only [code,Char.toNat] at same
      simp only [UInt32.isValidChar,Nat.isValidChar] at valid
      omega
  | lone unit =>
    cases b with
    | char d =>
      have valid := d.valid
      simp only [code,Char.toNat] at same
      simp only [UInt32.isValidChar,Nat.isValidChar] at valid
      omega
    | lone other =>
      simp only [code] at same
      exact congrArg lone (Fin.ext (by omega))

end Letter

abbrev Str := List Letter

namespace Str

instance : LawfulBEq Str := List.instLawfulBEq

def ofString (s : String) : Str := s.toList.map .char

instance : Coe String Str := ⟨ofString⟩

theorem char_inj {c d : Char} (same : Letter.char c = .char d) : c = d := Letter.char.inj same

def shown (s : Str) : List Char := s.map Letter.shown

def joined (separator : Str) (pieces : List Str) : Str := (pieces.intersperse separator).flatten

@[simp] theorem ofString_ofList {s : List Char} : ofString (.ofList s) = s.map .char := by
  simp [ofString]

@[simp] theorem ofString_append {s t : String} : ofString (s ++ t) = ofString s ++ ofString t := by
  simp [ofString]

@[simp] theorem ofString_inj {s t : String} : ofString s = ofString t ↔ s = t := by
  refine ⟨fun same => ?_,congrArg ofString⟩
  exact String.toList_inj.mp ((List.map_inj_right fun _ _ => char_inj).mp same)

@[simp] theorem beq_ofString {s t : String} : (ofString s == ofString t) = (s == t) := by
  rw [Bool.eq_iff_iff,beq_iff_eq,beq_iff_eq,ofString_inj]

@[simp] theorem char_mem_ofString {c : Char} {s : String} : .char c ∈ ofString s ↔ c ∈ s.toList := by
  simp [ofString]

end Str

end ProtocolNet
