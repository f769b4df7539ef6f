import ProtocolNet.Proofs.Spans
import ProtocolNet.Text.Integer

namespace ProtocolNet.Text

variable {c : Char} {s : List Char} {n : Nat}

theorem digitValue?_of_ascii (ascii : c.isDigit = true) :
    digitValue? c = some (c.toNat - '0'.toNat) := by
  have small : c.toNat < 0x80 := by
    simp only [Char.isDigit,Bool.and_eq_true,decide_eq_true_eq] at ascii
    have bound : c.toNat ≤ 57 := ascii.2
    omega
  rw [digitValue?,if_pos small,if_pos ascii]
  rfl

-- On ASCII digits the value is that of the standard library.
theorem digitsValue_eq_ofDigitChars (ascii : ∀ c ∈ s, c.isDigit = true) :
    digitsValue s = Nat.ofDigitChars 10 s 0 := by
  have values : ∀ start, s.foldl (fun n c => 10 * n + (digitValue? c).getD 0) start =
      Nat.ofDigitChars 10 s start := by
    induction s with
    | nil => exact fun _ => rfl
    | cons c rest ih =>
      intro start
      rw [List.foldl_cons,ih (fun d member => ascii d (List.mem_cons_of_mem _ member)),
        digitValue?_of_ascii (ascii c List.mem_cons_self),Nat.ofDigitChars_cons,Option.getD_some]
  exact values 0

theorem ascii_toDigits : ∀ c ∈ Nat.toDigits 10 n, c.isDigit = true :=
  fun _ member => Nat.isDigit_of_mem_toDigits (by decide) (by decide) member

theorem isDigit_toDigits : ∀ c ∈ Nat.toDigits 10 n, isDigit c = true :=
  fun c member => isDigit_of_ascii (ascii_toDigits c member)

-- Only zero is written with a zero in front.
theorem toDigits_ne_zero_cons (positive : 0 < n) (tail : List Char) :
    Nat.toDigits 10 n ≠ '0' :: tail := by
  have table : ∀ k < 10, 0 < k → Nat.digitChar k ≠ '0' := by decide
  induction n using Nat.strongRecOn generalizing tail with
  | ind n ih =>
    intro written
    rw [Nat.toDigits_eq_if (by decide)] at written
    split at written
    · rename_i small
      exact table n small positive (List.cons.inj written).1
    · rename_i large
      obtain ⟨c,front,same⟩ := List.exists_cons_of_ne_nil (Nat.toDigits_ne_nil : Nat.toDigits 10 (n / 10) ≠ [])
      rw [same] at written
      have first : c = '0' := (List.cons.inj written).1
      exact ih (n / 10) (by omega) (by omega) front (first ▸ same)

theorem digitsValue_toDigits : digitsValue (Nat.toDigits 10 n) = n := by
  rw [digitsValue_eq_ofDigitChars ascii_toDigits,Nat.ofDigitChars_ten_toDigits]

theorem length_toDigits_le {limit : Nat} (positive : 0 < limit) (below : n < Nat.pow 10 limit) :
    (Nat.toDigits 10 n).length ≤ limit :=
  (Nat.length_toDigits_le_iff (by decide) positive).mpr below

theorem lt_pow_of_lt {k limit : Nat} (within : k ≤ limit) (small : n < Nat.pow 10 k) :
    n < Nat.pow 10 limit :=
  Nat.lt_of_lt_of_le small (Nat.pow_le_pow_right (by decide) within)

theorem isWritable_of_lt {k : Nat} (small : n < Nat.pow 10 k) (within : k ≤ digitLimit) :
    isWritable n = true := by
  unfold isWritable writeBound
  exact decide_eq_true (lt_pow_of_lt within small)

-- A number that may be written may be read again.
theorem readDigits_toDigits (writable : isWritable n = true) :
    readDigits (Nat.toDigits 10 n) = .ok n := by
  unfold isWritable writeBound at writable
  have short : (Nat.toDigits 10 n).length ≤ digitLimit :=
    length_toDigits_le (by decide) (of_decide_eq_true writable)
  rw [readDigits,if_pos short,digitsValue_toDigits]

theorem digitValue?_lt : (digitValue? c).getD 0 < 10 := by
  unfold digitValue?
  split
  · split
    · rename_i ascii
      simp only [Char.isDigit,Bool.and_eq_true,decide_eq_true_eq] at ascii
      have bound : c.toNat ≤ 57 := ascii.2
      exact show c.toNat - 48 < 10 by omega
    · decide
  · cases found : digitZeros.find? fun start => start ≤ c.toNat && c.toNat < start + 10 with
    | none => exact (by decide : 0 < 10)
    | some start =>
      have within := List.find?_some found
      simp only [Bool.and_eq_true,decide_eq_true_eq] at within
      exact show c.toNat - start < 10 by omega

theorem digitsValue_lt : digitsValue s < Nat.pow 10 s.length := by
  have values : ∀ start, s.foldl (fun n c => 10 * n + (digitValue? c).getD 0) start <
      (start + 1) * Nat.pow 10 s.length := by
    induction s with
    | nil => exact fun start => by simp
    | cons c rest ih =>
      intro start
      have digit : (digitValue? c).getD 0 < 10 := digitValue?_lt
      calc (c :: rest).foldl (fun n c => 10 * n + (digitValue? c).getD 0) start
          < (10 * start + (digitValue? c).getD 0 + 1) * Nat.pow 10 rest.length := ih _
        _ ≤ ((start + 1) * 10) * Nat.pow 10 rest.length := Nat.mul_le_mul_right _ (by omega)
        _ = (start + 1) * Nat.pow 10 (c :: rest).length := by
          rw [Nat.mul_assoc,List.length_cons]
          exact congrArg _ (Nat.mul_comm 10 _)
  have bound := values 0
  rwa [Nat.zero_add,Nat.one_mul] at bound

-- A number that was read may be written.
theorem isWritable_of_readDigits (read : readDigits s = .ok n) : isWritable n = true := by
  unfold readDigits at read
  split at read
  · rename_i short
    cases read
    exact isWritable_of_lt digitsValue_lt short
  · cases read

-- What holds of the ten characters from each zero on holds of every digit.
theorem of_isDigit {p : Char → Prop}
    (table : ∀ first ∈ digitZeros, ∀ k < 10, p (Char.ofNat (first + k))) (digit : isDigit c = true) :
    p c := by
  have block : ∃ first ∈ digitZeros, first ≤ c.toNat ∧ c.toNat < first + 10 := by
    by_cases ascii : c.toNat < 0x80
    · simp only [isDigit,digitValue?,if_pos ascii,Option.isSome_ite,Char.isDigit,Bool.and_eq_true,
        decide_eq_true_eq] at digit
      have low : 48 ≤ c.toNat := digit.1
      have high : c.toNat ≤ 57 := digit.2
      exact ⟨0x30,by decide,low,by omega⟩
    · simpa only [isDigit,digitValue?,if_neg ascii,Option.isSome_map,List.find?_isSome,
        Bool.and_eq_true,decide_eq_true_eq] using digit
  obtain ⟨first,member,low,high⟩ := block
  have here := table first member (c.toNat - first) (by omega)
  rwa [Nat.add_sub_cancel' low,Char.ofNat_toNat] at here

theorem isBlank_of_isDigit (digit : isDigit c = true) : isBlank c = false :=
  of_isDigit (p := fun c => isBlank c = false) (by decide) digit

theorem ne_of_isDigit (digit : isDigit c = true) : c ≠ '_' ∧ c ≠ '-' ∧ c ≠ '+' ∧ c ≠ ':' :=
  of_isDigit (p := fun c => c ≠ '_' ∧ c ≠ '-' ∧ c ≠ '+' ∧ c ≠ ':') (by decide) digit

theorem plainDigits?_of_digits (digits : ∀ c ∈ s, isDigit c = true) :
    plainDigits? false s = some s := by
  induction s with
  | nil => rfl
  | cons c rest ih =>
    have digit := digits c List.mem_cons_self
    rw [plainDigits?,if_neg (ne_of_isDigit digit).1,if_pos digit,
      ih fun d member => digits d (List.mem_cons_of_mem _ member),Option.map_some]

theorem trimInteger_of_digits (digits : ∀ c ∈ s, isDigit c = true) : trimInteger s = s := by
  have solid : ∀ c ∈ s, isIntegerBlank c = false := fun c member => by
    rw [isIntegerBlank,isBlank_of_isDigit (digits c member),Bool.false_and]
  have last := stops_of_forall fun c member => solid c (List.mem_reverse.mp member)
  rw [trimInteger,dropWhile_of_stops (stops_of_forall solid),dropWhile_of_stops last,
    List.reverse_reverse]

-- Digits alone, without blanks, sign and underscores, are read as they stand.
theorem readInteger_of_digits (digits : ∀ c ∈ s, isDigit c = true) (nonempty : s ≠ []) :
    readInteger s = (readDigits s).map Int.ofNat := by
  cases s with
  | nil => exact absurd rfl nonempty
  | cons c rest =>
    obtain ⟨underscore,minus,plus,_⟩ := ne_of_isDigit (digits c List.mem_cons_self)
    have unsigned : splitSign (c :: rest) = (false,c :: rest) := by
      unfold splitSign
      split
      · rename_i same; cases same; exact absurd rfl minus
      · rename_i same; cases same; exact absurd rfl plus
      · rfl
    have plain : plainDigits? true (c :: rest) = some (c :: rest) := by
      rw [← plainDigits?_of_digits digits,plainDigits?,plainDigits?,if_neg underscore,if_neg underscore]
    rw [readInteger,trimInteger_of_digits digits,unsigned]
    simp only [plain]
    cases readDigits (c :: rest) <;> rfl

end ProtocolNet.Text
