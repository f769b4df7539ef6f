import ProtocolNet.Proofs.Numerals

namespace ProtocolNet.Text

-- Digits as they are written, with single underscores between them, and the digits alone.
inductive Grouped : List Char → List Char → Prop
  | last {c : Char} (digit : isDigit c = true) : Grouped [c] [c]
  | next {c : Char} {written digits : List Char} (digit : isDigit c = true)
      (later : Grouped written digits) : Grouped (c :: written) (c :: digits)
  | gap {c : Char} {written digits : List Char} (digit : isDigit c = true)
      (later : Grouped written digits) : Grouped (c :: '_' :: written) (c :: digits)

-- A sign, and what it makes of a number.
inductive Signed (n : Nat) : List Char → Int → Prop
  | none : Signed n [] n
  | plus : Signed n ['+'] n
  | minus : Signed n ['-'] (-n)

-- The texts of an integer: blanks around, one sign at most, and digits within the limit.
inductive IntegerText : List Char → Int → Prop
  | written {front back sign written digits : List Char} {n : Int}
      (before : ∀ c ∈ front, isIntegerBlank c = true) (behind : ∀ c ∈ back, isIntegerBlank c = true)
      (signed : Signed (digitsValue digits) sign n) (grouped : Grouped written digits)
      (short : digits.length ≤ digitLimit) : IntegerText (front ++ (sign ++ written ++ back)) n

variable {c : Char} {s written digits sign : List Char} {n : Int} {k : Nat} {negative : Bool}

theorem plainDigits?_digit (digit : isDigit c = true) (gap : Bool) (rest : List Char) :
    plainDigits? gap (c :: rest) = (plainDigits? false rest).map (c :: ·) := by
  rw [plainDigits?,if_neg (ne_of_isDigit digit).1,if_pos digit]

-- What may follow a digit: nothing, more digits, or an underscore and more digits.
theorem plainDigits?_iff (s digits : List Char) :
    (plainDigits? true s = some digits ↔ Grouped s digits) ∧
    (plainDigits? false s = some digits ↔ (s = [] ∧ digits = []) ∨ Grouped s digits ∨
      ∃ rest, s = '_' :: rest ∧ Grouped rest digits) := by
  induction s generalizing digits with
  | nil =>
    refine ⟨⟨nofun,nofun⟩,⟨fun read => .inl ⟨rfl,(Option.some.inj read).symm⟩,?_⟩⟩
    rintro (⟨-,rfl⟩ | grouped | ⟨rest,same,-⟩)
    · rfl
    · cases grouped
    · cases same
  | cons c rest ih =>
    by_cases underscore : c = '_'
    · subst underscore
      have alone : ¬ Grouped ('_' :: rest) digits := fun grouped => by
        cases grouped <;> exact absurd ‹isDigit '_' = true› (by decide)
      rw [plainDigits?,plainDigits?,if_pos rfl,if_pos rfl,if_pos rfl,if_neg Bool.false_ne_true]
      simp [alone,(ih digits).1]
    · by_cases digit : isDigit c = true
      · have behind : ((plainDigits? false rest).map (c :: ·) = some digits) ↔ Grouped (c :: rest) digits := by
          rw [Option.map_eq_some_iff]
          constructor
          · rintro ⟨later,read,rfl⟩
            rcases (ih later).2.mp read with ⟨rfl,rfl⟩ | grouped | ⟨rest,rfl,grouped⟩
            · exact .last digit
            · exact .next digit grouped
            · exact .gap digit grouped
          · intro grouped
            cases grouped with
            | last => exact ⟨[],(ih []).2.mpr (.inl ⟨rfl,rfl⟩),rfl⟩
            | next _ later => exact ⟨_,(ih _).2.mpr (.inr (.inl later)),rfl⟩
            | gap _ later => exact ⟨_,(ih _).2.mpr (.inr (.inr ⟨_,rfl,later⟩)),rfl⟩
        rw [plainDigits?_digit digit,plainDigits?_digit digit,behind]
        simp [underscore]
      · have alone : ¬ Grouped (c :: rest) digits := fun grouped => by
          cases grouped <;> exact digit ‹isDigit c = true›
        rw [plainDigits?,plainDigits?,if_neg underscore,if_neg digit]
        simp [alone,underscore]

theorem Grouped.of_digits (nonempty : s ≠ []) (digits : ∀ c ∈ s, isDigit c = true) : Grouped s s := by
  induction s with
  | nil => exact absurd rfl nonempty
  | cons c rest ih =>
    obtain ⟨first,later⟩ := List.forall_mem_cons.mp digits
    cases rest with
    | nil => exact .last first
    | cons d rest => exact .next first (ih (List.cons_ne_nil _ _) later)

-- Nothing inside an integer is a blank or a colon.
def isIntegerMark (c : Char) : Bool := isDigit c || c = '_' || c = '+' || c = '-'

theorem Grouped.marks (grouped : Grouped written digits) : ∀ c ∈ written, isIntegerMark c = true := by
  have mark : ∀ {c : Char}, isDigit c = true → isIntegerMark c = true := fun digit => by
    simp [isIntegerMark,digit]
  induction grouped with
  | last digit => exact List.forall_mem_singleton.mpr (mark digit)
  | next digit later ih => exact List.forall_mem_cons.mpr ⟨mark digit,ih⟩
  | gap digit later ih =>
    exact List.forall_mem_cons.mpr ⟨mark digit,List.forall_mem_cons.mpr ⟨by decide,ih⟩⟩

theorem Signed.marks (signed : Signed k sign n) : ∀ c ∈ sign, isIntegerMark c = true := by
  cases signed with
  | none => exact List.forall_mem_nil _
  | plus | minus => exact List.forall_mem_singleton.mpr (by decide)

theorem isBlank_of_isIntegerMark (mark : isIntegerMark c = true) : isBlank c = false := by
  simp only [isIntegerMark,Bool.or_eq_true,decide_eq_true_eq] at mark
  rcases mark with ((digit | rfl) | rfl) | rfl
  · exact isBlank_of_isDigit digit
  all_goals decide

theorem ne_colon_of_isIntegerMark (mark : isIntegerMark c = true) : c ≠ ':' := by
  rintro rfl
  exact absurd mark (by decide)

theorem IntegerText.colon_not_mem (text : IntegerText s n) : ':' ∉ s := by
  obtain ⟨before,behind,signed,grouped,-⟩ := text
  have apart : ∀ {blanks : List Char}, (∀ c ∈ blanks, isIntegerBlank c = true) → ':' ∉ blanks :=
    fun each member => absurd (each _ member) (by decide)
  simp only [List.mem_append,not_or]
  exact ⟨apart before,⟨fun member => ne_colon_of_isIntegerMark (signed.marks _ member) rfl,
    fun member => ne_colon_of_isIntegerMark (grouped.marks _ member) rfl⟩,apart behind⟩

-- The sign is split off the text that has one, and no digit is taken for one.
theorem splitSign_iff : splitSign s = (negative,written) ↔
    (negative = true ∧ s = '-' :: written) ∨ (negative = false ∧ s = '+' :: written) ∨
      (negative = false ∧ s = written ∧ s.head? ≠ some '-' ∧ s.head? ≠ some '+') := by
  unfold splitSign
  split
  · simp [eq_comm]
  · simp [eq_comm]
  · rename_i minus plus
    have head : s.head? ≠ some '-' ∧ s.head? ≠ some '+' := by
      cases s with
      | nil => simp
      | cons c rest =>
        refine ⟨fun same => minus rest ?_,fun same => plus rest ?_⟩ <;>
          rw [Option.some.inj same]
    constructor
    · rintro ⟨⟩
      exact .inr (.inr ⟨rfl,rfl,head⟩)
    · rintro (⟨-,rfl⟩ | ⟨-,rfl⟩ | ⟨rfl,rfl,-⟩)
      · exact absurd rfl (minus _)
      · exact absurd rfl (plus _)
      · rfl

theorem Grouped.unsigned (grouped : Grouped written digits) :
    written.head? ≠ some '-' ∧ written.head? ≠ some '+' := by
  cases grouped <;>
    exact ⟨fun same => (ne_of_isDigit ‹_›).2.1 (Option.some.inj same),
      fun same => (ne_of_isDigit ‹_›).2.2.1 (Option.some.inj same)⟩

-- What is read as an integer, and as which one.
theorem readInteger_ok_iff : readInteger s = .ok n ↔ IntegerText s n := by
  constructor
  · intro read
    obtain ⟨front,back,whole,before,behind⟩ := strip_parts isIntegerBlank s
    have core : strip isIntegerBlank s = trimInteger s := rfl
    rw [core] at whole
    cases split : splitSign (trimInteger s) with
    | mk negative written =>
      unfold readInteger at read
      rw [split] at read
      dsimp only at read
      cases plain : plainDigits? true written with
      | none => rw [plain] at read; cases read
      | some digits =>
        have grouped := (plainDigits?_iff written digits).1.mp plain
        rw [plain] at read
        dsimp only at read
        unfold readDigits at read
        by_cases short : digits.length ≤ digitLimit
        · rw [if_pos short] at read
          rcases splitSign_iff.mp split with ⟨rfl,same⟩ | ⟨rfl,same⟩ | ⟨rfl,same,-⟩
          all_goals
            cases read
            rw [whole,same]
          · exact .written before behind .minus grouped short
          · exact .written before behind .plus grouped short
          · exact .written before behind .none grouped short
        · rw [if_neg short] at read
          cases read
  · rintro ⟨before,behind,signed,grouped,short⟩
    rename_i front back sign written digits
    have solid : ∀ c ∈ sign ++ written, isIntegerBlank c = false := by
      intro c member
      have mark := (List.mem_append.mp member).elim (signed.marks c) (grouped.marks c)
      rw [isIntegerBlank,isBlank_of_isIntegerMark mark,Bool.false_and]
    have core : trimInteger (front ++ (sign ++ written ++ back)) = sign ++ written :=
      strip_of_stops before behind (stops_of_forall solid)
        (stops_of_forall fun c member => solid c (List.mem_reverse.mp member))
    have plain := (plainDigits?_iff written digits).1.mpr grouped
    have value : readDigits digits = .ok (digitsValue digits) := if_pos short
    rw [readInteger,core]
    cases signed with
    | none =>
      rw [List.nil_append,splitSign_iff.mpr (.inr (.inr ⟨rfl,rfl,grouped.unsigned⟩))]
      simp only [plain,value]
      rfl
    | plus =>
      rw [List.singleton_append,splitSign_iff.mpr (.inr (.inl ⟨rfl,rfl⟩))]
      simp only [plain,value]
      rfl
    | minus =>
      rw [List.singleton_append,splitSign_iff.mpr (.inl ⟨rfl,rfl⟩)]
      simp only [plain,value]
      rfl

-- The written form of an integer is one of its texts.
theorem integerText_written (writable : isWritable n.natAbs = true) :
    IntegerText (integerText n).toList n := by
  have grouped : ∀ k, Grouped (Nat.toDigits 10 k) (Nat.toDigits 10 k) := fun k =>
    .of_digits Nat.toDigits_ne_nil isDigit_toDigits
  have short : ∀ {k}, isWritable k = true → (Nat.toDigits 10 k).length ≤ digitLimit := by
    intro k writable
    unfold isWritable writeBound at writable
    exact length_toDigits_le (by decide) (of_decide_eq_true writable)
  cases n with
  | ofNat k =>
    have signed : Signed (digitsValue (Nat.toDigits 10 k)) [] k := by
      rw [digitsValue_toDigits]
      exact .none
    have text := IntegerText.written (List.forall_mem_nil _) (List.forall_mem_nil _) signed (grouped k)
      (short writable)
    rw [integerText,Nat.toList_repr]
    simpa using text
  | negSucc k =>
    have signed : Signed (digitsValue (Nat.toDigits 10 (k + 1))) ['-'] (Int.negSucc k) := by
      rw [digitsValue_toDigits]
      exact .minus
    have text := IntegerText.written (List.forall_mem_nil _) (List.forall_mem_nil _) signed (grouped (k + 1))
      (short writable)
    have sign : "-".toList = ['-'] := rfl
    rw [integerText,String.toList_append,sign,Nat.toList_repr]
    simpa using text

theorem isIntegerMark_integerText : ∀ c ∈ (integerText n).toList, isIntegerMark c = true := by
  have digits : ∀ k : Nat, ∀ c ∈ (Nat.repr k).toList, isIntegerMark c = true := by
    intro k c member
    rw [Nat.toList_repr] at member
    simp [isIntegerMark,isDigit_toDigits c member]
  cases n with
  | ofNat k => exact digits k
  | negSucc k =>
    have sign : "-".toList = ['-'] := rfl
    rw [integerText,String.toList_append,sign]
    exact List.forall_mem_cons.mpr ⟨by decide,digits (k + 1)⟩

end ProtocolNet.Text
