import Mathlib.Data.List.Chain
import ProtocolNet.Json.Encode
import ProtocolNet.Json.Lexeme
import ProtocolNet.Proofs.Numerals

namespace ProtocolNet

-- No half of a pair stands right before its other half: the two would be read back as the
-- character that they make.
def Str.Apart (s : Str) : Prop := s.IsChain fun former latter =>
  ¬ (Json.isHighSurrogate former.code = true ∧ Json.isLowSurrogate latter.code = true)

instance (s : Str) : Decidable s.Apart := inferInstanceAs (Decidable (List.IsChain _ s))

namespace Json

variable {c d : Char} {rest taken : List Char} {n high low start offset : Nat} {letter : Letter}
  {s : Str}

theorem hexValue?_hexDigit (n : Nat) : hexValue? (Text.hexDigit n) = some (n % 16) := by
  have table : ∀ k < 16, hexValue? (Nat.digitChar k) = some k := by decide
  exact table (n % 16) (Nat.mod_lt n (by decide))

theorem hexText_four (n : Nat) : Text.hexText 4 n =
    [Text.hexDigit (n / 16 / 16 / 16),Text.hexDigit (n / 16 / 16),Text.hexDigit (n / 16),
      Text.hexDigit n] := rfl

theorem codeUnit?_digits (small : n < 0x10000) :
    codeUnit? (Text.hexDigit (n / 16 / 16 / 16)) (Text.hexDigit (n / 16 / 16))
      (Text.hexDigit (n / 16)) (Text.hexDigit n) = some n := by
  simp only [codeUnit?,hexValue?_hexDigit,Option.some.injEq]
  omega

-- A code unit by itself; some character stands behind its digits.
theorem codeEscapeAt_unit (small : n < 0x10000) (alone : isHighSurrogate n = false) :
    codeEscapeAt offset (Text.hexText 4 n ++ c :: rest) = .letter (unitLetter n) 6 := by
  simp [codeEscapeAt,hexText_four,codeUnit?_digits small,alone]

-- Two code units that make one character.
theorem codeEscapeAt_pair (former : isHighSurrogate high = true) (latter : isLowSurrogate low = true) :
    codeEscapeAt offset (Text.hexText 4 high ++ (unitEscape low ++ c :: rest)) =
      .letter (.char (joinSurrogates high low)) 12 := by
  have small : high < 0x10000 := by
    simp only [isHighSurrogate,Bool.and_eq_true,decide_eq_true_eq] at former
    omega
  have small' : low < 0x10000 := by
    simp only [isLowSurrogate,Bool.and_eq_true,decide_eq_true_eq] at latter
    omega
  simp [codeEscapeAt,unitEscape,hexText_four,codeUnit?_digits small,codeUnit?_digits small',former,latter]

-- The first half of a pair by itself, before a character, another escape, and another code unit.
theorem codeEscapeAt_before (former : isHighSurrogate n = true) (plain : c ≠ '\\') :
    codeEscapeAt offset (Text.hexText 4 n ++ c :: rest) = .letter (unitLetter n) 6 := by
  have small : n < 0x10000 := by
    simp only [isHighSurrogate,Bool.and_eq_true,decide_eq_true_eq] at former
    omega
  simp [codeEscapeAt,hexText_four,codeUnit?_digits small,former,plain]

theorem codeEscapeAt_beforeSimple (former : isHighSurrogate n = true) (simple : c ≠ 'u') :
    codeEscapeAt offset (Text.hexText 4 n ++ '\\' :: c :: rest) = .letter (unitLetter n) 6 := by
  have small : n < 0x10000 := by
    simp only [isHighSurrogate,Bool.and_eq_true,decide_eq_true_eq] at former
    omega
  simp [codeEscapeAt,hexText_four,codeUnit?_digits small,former,simple]

theorem codeEscapeAt_beforeUnit (former : isHighSurrogate high = true) (small : n < 0x10000)
    (other : isLowSurrogate n = false) :
    codeEscapeAt offset (Text.hexText 4 high ++ (unitEscape n ++ c :: rest)) =
      .letter (unitLetter high) 6 := by
  have small' : high < 0x10000 := by
    simp only [isHighSurrogate,Bool.and_eq_true,decide_eq_true_eq] at former
    omega
  simp [codeEscapeAt,unitEscape,hexText_four,codeUnit?_digits small,codeUnit?_digits small',former,other]

theorem whole_of_char (c : Char) : isHighSurrogate c.toNat = false ∧ isLowSurrogate c.toNat = false := by
  have valid : c.toNat < 0xD800 ∨ 0xDFFF < c.toNat ∧ c.toNat < 0x110000 := c.valid
  constructor
  · simp only [isHighSurrogate,Bool.and_eq_false_iff,decide_eq_false_iff_not]
    omega
  · simp only [isLowSurrogate,Bool.and_eq_false_iff,decide_eq_false_iff_not]
    omega

-- A text of characters has no halves at all.
theorem apart_of_chars (s : List Char) : Str.Apart (s.map .char) := by
  refine List.isChain_iff_forall_rel_of_append_cons_cons.mpr fun former latter front back divided => ?_
  have member : former ∈ s.map Letter.char := by rw [divided]; simp
  obtain ⟨c,_,rfl⟩ := List.mem_map.mp member
  intro both
  exact Bool.false_ne_true ((whole_of_char c).1.symm.trans both.1)

theorem apart_ofString (s : String) : Str.Apart s := apart_of_chars s.toList

theorem unitLetter_char (c : Char) : unitLetter c.toNat = .char c := by
  have valid : c.toNat < 0xD800 ∨ 0xDFFF < c.toNat ∧ c.toNat < 0x110000 := c.valid
  rw [unitLetter,dif_neg (by omega),Char.ofNat_toNat]

theorem unitLetter_lone (unit : Fin 0x800) : unitLetter (0xD800 + unit) = .lone unit := by
  rw [unitLetter,dif_pos (by omega)]
  simp

theorem joinSurrogates_toNat (far : 0xFFFF < c.toNat) :
    isHighSurrogate (0xD800 + (c.toNat - 0x10000) / 0x400) = true ∧
      isLowSurrogate (0xDC00 + (c.toNat - 0x10000) % 0x400) = true ∧
      joinSurrogates (0xD800 + (c.toNat - 0x10000) / 0x400)
        (0xDC00 + (c.toNat - 0x10000) % 0x400) = c := by
  have valid : c.toNat < 0xD800 ∨ 0xDFFF < c.toNat ∧ c.toNat < 0x110000 := c.valid
  refine ⟨?_,?_,?_⟩
  · simp only [isHighSurrogate,Bool.and_eq_true,decide_eq_true_eq]
    omega
  · simp only [isLowSurrogate,Bool.and_eq_true,decide_eq_true_eq]
    omega
  · have code : 0x10000 + (0xD800 + (c.toNat - 0x10000) / 0x400 - 0xD800) * 0x400 +
        (0xDC00 + (c.toNat - 0x10000) % 0x400 - 0xDC00) = c.toNat := by omega
    rw [joinSurrogates,code,Char.ofNat_toNat]

theorem pieceAt_codeEscape (digits : List Char) :
    pieceAt start offset '\\' ('u' :: digits) = codeEscapeAt offset digits := rfl

-- Every character is read back from how it is written, in the middle of a string.
theorem pieceAt_escapedChar (start offset : Nat) (c next : Char) (rest : List Char) :
    ∃ d tail, escapedChar c = d :: tail ∧
      pieceAt start offset d (tail ++ next :: rest) = .letter (.char c) (tail.length + 1) := by
  unfold escapedChar
  split
  case h_8 quote slash _ _ _ _ _ =>
    dsimp only
    split
    · rename_i printable
      refine ⟨c,[],rfl,?_⟩
      unfold pieceAt
      rw [if_neg quote,if_neg (Nat.not_lt.mpr printable.1),if_pos slash]
      rfl
    · split
      · rename_i near
        refine ⟨_,_,rfl,?_⟩
        rw [List.cons_append,pieceAt_codeEscape,
          codeEscapeAt_unit (Nat.lt_succ_of_le near) (whole_of_char c).1,unitLetter_char]
        rfl
      · rename_i far
        obtain ⟨former,latter,same⟩ := joinSurrogates_toNat (Nat.not_le.mp far)
        refine ⟨'\\','u' :: (Text.hexText 4 _ ++ unitEscape _),rfl,?_⟩
        rw [List.cons_append,pieceAt_codeEscape,List.append_assoc,codeEscapeAt_pair former latter,same]
        rfl
  all_goals exact ⟨_,_,rfl,rfl⟩

-- How a letter starts that is not the latter half of a pair.
theorem escapedLetter_cases (other : isLowSurrogate letter.code = false) :
    (∃ c tail, escapedLetter letter = c :: tail ∧ c ≠ '\\') ∨
    (∃ c tail, escapedLetter letter = '\\' :: c :: tail ∧ c ≠ 'u') ∨
    ∃ unit tail, escapedLetter letter = unitEscape unit ++ tail ∧ unit < 0x10000 ∧
      isLowSurrogate unit = false := by
  cases letter with
  | lone unit =>
    have small : 0xD800 + unit.val < 0x10000 := by omega
    exact .inr (.inr ⟨0xD800 + unit,[],(List.append_nil _).symm,small,other⟩)
  | char c =>
    have same : escapedLetter (.char c) = escapedChar c := rfl
    rw [same]
    unfold escapedChar
    split
    case h_8 quote slash _ _ _ _ _ =>
      dsimp only
      split
      · exact .inl ⟨c,[],rfl,slash⟩
      · split
        · rename_i near
          exact .inr (.inr ⟨c.toNat,[],(List.append_nil _).symm,Nat.lt_succ_of_le near,other⟩)
        · rename_i far
          have valid : c.toNat < 0xD800 ∨ 0xDFFF < c.toNat ∧ c.toNat < 0x110000 := c.valid
          refine .inr (.inr ⟨_,_,rfl,by omega,?_⟩)
          simp only [isLowSurrogate,Bool.and_eq_false_iff,decide_eq_false_iff_not]
          omega
    all_goals exact .inr (.inl ⟨_,_,rfl,by decide⟩)

-- The first half of a pair stays alone before anything but the second half.
theorem codeEscapeAt_alone (former : isHighSurrogate n = true)
    (apart : ∀ next, s.head? = some next → isLowSurrogate next.code = false) :
    codeEscapeAt offset (Text.hexText 4 n ++ (s.flatMap escapedLetter ++ '"' :: rest)) =
      .letter (unitLetter n) 6 := by
  cases s with
  | nil => exact codeEscapeAt_before former (by decide)
  | cons next later =>
    obtain ⟨d,behind,divided⟩ : ∃ d behind, later.flatMap escapedLetter ++ '"' :: rest = d :: behind :=
      List.exists_cons_of_ne_nil (by simp)
    rw [List.flatMap_cons,List.append_assoc,divided]
    rcases escapedLetter_cases (apart next rfl) with
      ⟨c,tail,written,plain⟩ | ⟨c,tail,written,simple⟩ | ⟨unit,tail,written,small,other⟩
    · rw [written]; exact codeEscapeAt_before former plain
    · rw [written]; exact codeEscapeAt_beforeSimple former simple
    · rw [written,List.append_assoc]
      cases tail <;> exact codeEscapeAt_beforeUnit former small other

-- So is every letter, unless the one behind it makes a pair with it.
theorem pieceAt_escaped (start offset : Nat) (rest : List Char) (apart : Str.Apart (letter :: s)) :
    ∃ d tail, escapedLetter letter = d :: tail ∧
      pieceAt start offset d (tail ++ (s.flatMap escapedLetter ++ '"' :: rest)) =
        .letter letter (tail.length + 1) := by
  cases letter with
  | char c =>
    obtain ⟨d,behind,divided⟩ : ∃ d behind, s.flatMap escapedLetter ++ '"' :: rest = d :: behind :=
      List.exists_cons_of_ne_nil (by simp)
    rw [divided]
    exact pieceAt_escapedChar start offset c d behind
  | lone unit =>
    refine ⟨'\\','u' :: Text.hexText 4 (0xD800 + unit),rfl,?_⟩
    rw [List.cons_append,pieceAt_codeEscape]
    cases former : isHighSurrogate (0xD800 + unit.val) with
    | false =>
      obtain ⟨d,behind,divided⟩ : ∃ d behind, s.flatMap escapedLetter ++ '"' :: rest = d :: behind :=
        List.exists_cons_of_ne_nil (by simp)
      rw [divided,codeEscapeAt_unit (by omega) former,unitLetter_lone]
      rfl
    | true =>
      rw [codeEscapeAt_alone former,unitLetter_lone]
      · rfl
      · intro next head
        obtain ⟨later,rfl⟩ := List.head?_eq_some_iff.mp head
        have free := (List.isChain_cons_cons.mp apart).1
        exact Bool.eq_false_iff.mpr fun latter => free ⟨former,latter⟩

theorem scanString_skip (taken rest : List Char) (offset : Nat) :
    scanString start taken.length offset (taken ++ rest) =
      scanString start 0 (offset + taken.length) rest := by
  induction taken generalizing offset with
  | nil => rfl
  | cons c taken ih =>
    rw [List.length_cons,List.cons_append,scanString,ih,Nat.add_assoc,Nat.add_comm 1]

theorem scanString_escaped (s : Str) (apart : s.Apart) (rest : List Char) (start offset : Nat) :
    scanString start 0 offset (s.flatMap escapedLetter ++ '"' :: rest) =
      .ok (s,offset + (s.flatMap escapedLetter).length + 1) := by
  induction s generalizing offset with
  | nil => rfl
  | cons letter s ih =>
    obtain ⟨d,tail,written,piece⟩ := pieceAt_escaped start offset rest apart
    rw [List.flatMap_cons,List.append_assoc,written,List.cons_append,scanString,piece]
    dsimp only
    rw [Nat.add_sub_cancel,scanString_skip,ih apart.tail]
    simp only [Except.map,List.length_append,List.length_cons]
    congr 2
    omega

-- A written string as a lexeme, with the characters that it takes.
theorem lexemeAt_string (s : Str) (apart : s.Apart) (rest : List Char) (offset : Nat) :
    lexemeAt offset '"' (s.flatMap escapedLetter ++ '"' :: rest) =
      (.string s,(s.flatMap escapedLetter).length + 2) := by
  rw [lexemeAt,scanString_escaped s apart]
  simp only [Prod.mk.injEq,true_and]
  omega

-- What may stand behind a value that is written.
def Ends (rest : List Char) : Prop := ∀ c, rest.head? = some c → c = ',' ∨ c = ']' ∨ c = '\x7d'

@[simp] theorem ends_nil : Ends [] := fun _ none => by cases none

theorem ends_cons (closing : c = ',' ∨ c = ']' ∨ c = '\x7d') : Ends (c :: rest) :=
  fun d same => by cases same; exact closing

theorem Ends.cases (ends : Ends rest) : rest = [] ∨ ∃ c tail, rest = c :: tail ∧
    (c = ',' ∨ c = ']' ∨ c = '\x7d') := by
  cases rest with
  | nil => exact .inl rfl
  | cons c tail => exact .inr ⟨c,tail,rfl,ends c rfl⟩

theorem Ends.stops (ends : Ends rest) : Text.Stops Char.isDigit rest := by
  intro c head
  rcases ends c head with rfl | rfl | rfl <;> rfl

theorem fractionDigits_of_ends (ends : Ends rest) : fractionDigits rest = [] := by
  obtain rfl | ⟨c,tail,rfl,rfl | rfl | rfl⟩ := ends.cases <;> rfl

theorem scanPower?_of_ends (ends : Ends rest) : scanPower? rest = none := by
  obtain rfl | ⟨c,tail,rfl,rfl | rfl | rfl⟩ := ends.cases <;> rfl

-- A numeral starts with a zero only if it is nothing else.
theorem wholeDigits_toDigits (n : Nat) (stops : Text.Stops Char.isDigit rest) :
    wholeDigits (Nat.toDigits 10 n ++ rest) = Nat.toDigits 10 n := by
  rcases Nat.eq_zero_or_pos n with rfl | positive
  · rfl
  · have run : digitRun (Nat.toDigits 10 n ++ rest) = Nat.toDigits 10 n :=
      Text.takeWhile_append_of_stops Text.ascii_toDigits stops
    unfold wholeDigits
    split
    · rename_i later same
      obtain ⟨c,front,written⟩ :=
        List.exists_cons_of_ne_nil (Nat.toDigits_ne_nil : Nat.toDigits 10 n ≠ [])
      rw [written] at same
      have first : c = '0' := (List.cons.inj same).1
      exact absurd (first ▸ written) (Text.toDigits_ne_zero_cons positive front)
    · exact run

theorem scanNumber?_toDigits (negative : Bool) (writable : Text.isWritable n = true)
    (ends : Ends rest) : scanNumber? negative (Nat.toDigits 10 n ++ rest) =
      some (.scalar (.int (if negative then -(n : Int) else n)),(Nat.toDigits 10 n).length) := by
  have nonempty : (Nat.toDigits 10 n).isEmpty = false := by
    rw [List.isEmpty_eq_false_iff]
    exact Nat.toDigits_ne_nil
  simp [scanNumber?,wholeDigits_toDigits n ends.stops,fractionDigits_of_ends ends,
    scanPower?_of_ends ends,Text.readDigits_toDigits writable,nonempty]

-- A character that no lexeme but a number starts with.
def isNumeric (c : Char) : Bool := c.isDigit || c = '-'

theorem lexemeAt_numeric (numeric : isNumeric c = true)
    (noWord : words.find? (fun word => word.1.isPrefixOf (c :: rest)) = none) :
    lexemeAt offset c rest =
      if c = '-' then
        match scanNumber? true rest with
        | some (lexeme,length) => (lexeme,length + 1)
        | none => (.stray,1)
      else (scanNumber? false (c :: rest)).getD (.stray,1) := by
  unfold lexemeAt
  split
  case h_8 =>
    generalize words.find? _ = found at noWord ⊢
    subst noWord
    rfl
  all_goals exact absurd numeric (by decide)

-- No word has a digit in its first two characters.
theorem letters_of_words : ∀ word ∈ words, ∃ d e tail, word.1 = d :: e :: tail ∧
    d.isDigit = false ∧ e.isDigit = false := by
  intro word member
  simp only [words,List.mem_cons,List.not_mem_nil,or_false] at member
  rcases member with rfl | rfl | rfl | rfl | rfl | rfl <;> exact ⟨_,_,_,rfl,rfl,rfl⟩

theorem no_word_of_digit (digit : c.isDigit = true) :
    words.find? (fun word => word.1.isPrefixOf (c :: rest)) = none := by
  refine List.find?_eq_none.mpr fun word member starts => ?_
  obtain ⟨d,e,tail,spelled,other,_⟩ := letters_of_words word member
  rw [spelled,List.isPrefixOf_cons_cons,Bool.and_eq_true,beq_iff_eq] at starts
  rw [starts.1,digit] at other
  cases other

theorem no_word_of_minus (digit : c.isDigit = true) :
    words.find? (fun word => word.1.isPrefixOf ('-' :: c :: rest)) = none := by
  refine List.find?_eq_none.mpr fun word member starts => ?_
  obtain ⟨d,e,tail,spelled,_,other⟩ := letters_of_words word member
  rw [spelled,List.isPrefixOf_cons_cons,List.isPrefixOf_cons_cons,Bool.and_eq_true,Bool.and_eq_true,
    beq_iff_eq,beq_iff_eq] at starts
  rw [starts.2.1,digit] at other
  cases other

theorem lexemeAt_int (n : Int) (writable : Text.isWritable n.natAbs = true) (ends : Ends rest) :
    ∃ c tail, (Text.integerText n).toList = c :: tail ∧ isNumeric c = true ∧
      ∀ offset, lexemeAt offset c (tail ++ rest) = (.scalar (.int n),tail.length + 1) := by
  have number := fun negative => scanNumber?_toDigits negative writable ends
  obtain ⟨c,tail,written⟩ :=
    List.exists_cons_of_ne_nil (Nat.toDigits_ne_nil : Nat.toDigits 10 n.natAbs ≠ [])
  have digit : c.isDigit = true := Text.ascii_toDigits c (by rw [written]; exact List.mem_cons_self)
  have numeric : isNumeric c = true := by rw [isNumeric,digit,Bool.true_or]
  have unsigned : c ≠ '-' := fun same => by rw [same] at digit; cases digit
  simp only [written,List.cons_append] at number
  cases n with
  | ofNat k =>
    refine ⟨c,tail,Nat.toList_repr.trans written,numeric,fun offset => ?_⟩
    rw [lexemeAt_numeric numeric (no_word_of_digit digit),if_neg unsigned,number false]
    rfl
  | negSucc k =>
    have sign : "-".toList = ['-'] := rfl
    refine ⟨'-',c :: tail,?_,rfl,fun offset => ?_⟩
    · rw [Text.integerText,String.toList_append,sign,Nat.toList_repr]
      exact congrArg ('-' :: ·) written
    · rw [List.cons_append,lexemeAt_numeric rfl (no_word_of_minus digit),if_pos rfl,number true]
      rfl

end Json

end ProtocolNet
