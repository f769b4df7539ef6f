import ProtocolNet.Text.Stream

namespace ProtocolNet.Text

namespace Utf8

-- The bytes of a character, by how many they are.
inductive Coded : Char → Bytes → Prop
  | one {a : UInt8} : a < 0x80 → Coded (.ofNat a.toNat) [a]
  | two {a b : UInt8} : ¬a < 0xC2 → a < 0xE0 → isContinuation b = true →
      Coded (.ofNat (a.toNat % 32 * 64 + low6 b)) [a,b]
  | three {a b c : UInt8} : ¬a < 0xE0 → a < 0xF0 → secondOfThree a b = true →
      isContinuation c = true →
      Coded (.ofNat ((a.toNat % 16 * 64 + low6 b) * 64 + low6 c)) [a,b,c]
  | four {a b c d : UInt8} : ¬a < 0xF0 → a < 0xF5 → secondOfFour a b = true →
      isContinuation c = true → isContinuation d = true →
      Coded (.ofNat (((a.toNat % 8 * 64 + low6 b) * 64 + low6 c) * 64 + low6 d)) [a,b,c,d]

variable {c : Char} {n m position : Nat} {bytes front back rest : Bytes} {s : List Char}

-- The six low bits of a number, marked as a byte that follows another one.
def trailing (n : Nat) : UInt8 := .ofNat (n % 64 + 128)

@[simp] theorem toNat_trailing : (trailing n).toNat = n % 64 + 128 := by
  simp only [trailing,UInt8.toNat_ofNat',Nat.reducePow]
  omega

@[simp] theorem low6_trailing : low6 (trailing n) = n % 64 := by
  simp only [low6,toNat_trailing]
  omega

@[simp] theorem isContinuation_trailing : isContinuation (trailing n) = true := by
  simp only [isContinuation,Bool.and_eq_true,decide_eq_true_eq,UInt8.le_iff_toNat_le,
    UInt8.lt_iff_toNat_lt,toNat_trailing,UInt8.reduceToNat]
  omega

theorem bne_of_toNat {a b : UInt8} (different : a.toNat ≠ b.toNat) : (a != b) = true :=
  bne_iff_ne.mpr fun same => different (congrArg UInt8.toNat same)

-- Three bytes are not spent on a small number, nor on half of a pair of units.
theorem secondOfThree_trailing (large : 2048 ≤ n) (small : n ≤ 65535)
    (whole : n < 0xD800 ∨ 0xDFFF < n) :
    secondOfThree (.ofNat (n / 4096 % 16 + 224)) (trailing (n / 64)) = true := by
  simp only [secondOfThree,isContinuation_trailing,Bool.true_and,UInt8.lt_iff_toNat_lt,
    toNat_trailing,UInt8.reduceToNat]
  split
  all_goals
    refine bne_of_toNat ?_
    simp only [UInt8.toNat_ofNat',UInt8.reduceToNat]
    omega

theorem secondOfFour_trailing (large : 65536 ≤ n) (small : n < 0x110000) :
    secondOfFour (.ofNat (n / 262144 % 8 + 240)) (trailing (n / 4096)) = true := by
  simp only [secondOfFour,isContinuation_trailing,Bool.true_and,UInt8.lt_iff_toNat_lt,
    toNat_trailing,UInt8.reduceToNat]
  split
  all_goals
    refine bne_of_toNat ?_
    simp only [UInt8.toNat_ofNat',UInt8.reduceToNat]
    omega

theorem toNat_lead (small : n < 256) : (UInt8.ofNat n).toNat = n := UInt8.toNat_ofNat_of_lt' small

theorem Coded.of_number (coded : Coded (.ofNat m) bytes) (number : m = n) : Coded (.ofNat n) bytes :=
  number ▸ coded

theorem coded_one (small : n ≤ 127) : Coded (.ofNat n) [.ofNat n] := by
  have lead : (UInt8.ofNat n).toNat = n := toNat_lead (by omega)
  refine Coded.of_number (.one ?_) lead
  simp only [UInt8.lt_iff_toNat_lt,lead,UInt8.reduceToNat]
  omega

theorem coded_two (large : 127 < n) (small : n ≤ 2047) :
    Coded (.ofNat n) [.ofNat (n / 64 % 32 + 192),trailing n] := by
  have lead : (UInt8.ofNat (n / 64 % 32 + 192)).toNat = n / 64 % 32 + 192 := toNat_lead (by omega)
  refine Coded.of_number (.two ?_ ?_ isContinuation_trailing) ?_
  all_goals
    simp only [UInt8.lt_iff_toNat_lt,lead,UInt8.reduceToNat,low6_trailing]
    omega

theorem coded_three (large : 2047 < n) (small : n ≤ 65535) (whole : n < 0xD800 ∨ 0xDFFF < n) :
    Coded (.ofNat n) [.ofNat (n / 4096 % 16 + 224),trailing (n / 64),trailing n] := by
  have lead : (UInt8.ofNat (n / 4096 % 16 + 224)).toNat = n / 4096 % 16 + 224 :=
    toNat_lead (by omega)
  refine Coded.of_number (.three ?_ ?_ (secondOfThree_trailing large small whole)
    isContinuation_trailing) ?_
  all_goals
    simp only [UInt8.lt_iff_toNat_lt,lead,UInt8.reduceToNat,low6_trailing]
    omega

theorem coded_four (large : 65535 < n) (small : n < 0x110000) :
    Coded (.ofNat n)
      [.ofNat (n / 262144 % 8 + 240),trailing (n / 4096),trailing (n / 64),trailing n] := by
  have lead : (UInt8.ofNat (n / 262144 % 8 + 240)).toNat = n / 262144 % 8 + 240 :=
    toNat_lead (by omega)
  refine Coded.of_number (.four ?_ ?_ (secondOfFour_trailing large small)
    isContinuation_trailing isContinuation_trailing) ?_
  all_goals
    simp only [UInt8.lt_iff_toNat_lt,lead,UInt8.reduceToNat,low6_trailing]
    omega

theorem coded_encodeChar (c : Char) : Coded c (String.utf8EncodeChar c) := by
  have whole : c.toNat < 0xD800 ∨ 0xDFFF < c.toNat ∧ c.toNat < 0x110000 := c.valid
  have coded : Coded (.ofNat c.toNat) (String.utf8EncodeChar c) := by
    fun_cases String.utf8EncodeChar c with
    | case1 _ small => exact coded_one small
    | case2 _ large small => exact coded_two (Nat.lt_of_not_le large) small
    | case3 n _ large small => exact coded_three (Nat.lt_of_not_le large) small (by omega)
    | case4 n _ _ large => exact coded_four (Nat.lt_of_not_le large) (by omega)
  rwa [Char.ofNat_toNat] at coded

theorem not_lt_of_le {a x y : UInt8} (large : ¬a < y) (below : x ≤ y) : ¬a < x :=
  fun small => large (UInt8.lt_of_lt_of_le small below)

-- A whole character is taken off the front of any bytes.
theorem decodeFrom_coded (coded : Coded c bytes) (position : Nat) (rest : Bytes) :
    decodeFrom position (bytes ++ rest) =
      (decodeFrom (position + bytes.length) rest).map (c :: ·) := by
  cases coded with
  | one small =>
    rw [decodeFrom.eq_def]
    dsimp only [List.cons_append,List.nil_append]
    rw [if_pos small]
    rfl
  | two large small second =>
    rw [decodeFrom.eq_def]
    dsimp only [List.cons_append,List.nil_append]
    rw [if_neg (not_lt_of_le large (by decide)),if_neg large,if_pos small,if_pos second]
    rfl
  | three large small second third =>
    rw [decodeFrom.eq_def]
    dsimp only [List.cons_append,List.nil_append]
    rw [if_neg (not_lt_of_le large (by decide)),if_neg (not_lt_of_le large (by decide)),
      if_neg large,if_pos small,if_pos second,if_pos third]
    rfl
  | four large small second third fourth =>
    rw [decodeFrom.eq_def]
    dsimp only [List.cons_append,List.nil_append]
    rw [if_neg (not_lt_of_le large (by decide)),if_neg (not_lt_of_le large (by decide)),
      if_neg (not_lt_of_le large (by decide)),if_neg large,if_pos small,if_pos second,
      if_pos third,if_pos fourth]
    rfl

-- The front of a character alone is a fault where it starts: more bytes are expected.
theorem decodeFrom_cut (coded : Coded c (front ++ back)) (begun : front ≠ []) (cut : back ≠ [])
    (position : Nat) :
    ∃ length byte, decodeFrom position front = .error ⟨.endOfData,position,length,byte⟩ := by
  obtain ⟨a,front,rfl⟩ := List.exists_cons_of_ne_nil begun
  generalize whole : a :: front ++ back = bytes at coded
  cases coded with
  | one =>
    obtain ⟨-,-,none⟩ : _ ∧ front = [] ∧ back = [] := by simpa using whole
    exact absurd none cut
  | two large small second =>
    cases front with
    | nil =>
      obtain ⟨rfl,-⟩ := List.cons.inj whole
      exact ⟨1,a,by
        rw [decodeFrom,if_neg (not_lt_of_le large (by decide)),if_neg large,if_pos small]⟩
    | cons b front =>
      obtain ⟨-,-,-,none⟩ : _ ∧ _ ∧ front = [] ∧ back = [] := by simpa using whole
      exact absurd none cut
  | three large small second third =>
    have skipped : ¬a < 0x80 ∧ ¬a < 0xC2 := by
      obtain ⟨rfl,-⟩ := List.cons.inj whole
      exact ⟨not_lt_of_le large (by decide),not_lt_of_le large (by decide)⟩
    rcases front with _ | ⟨b,_ | ⟨c,front⟩⟩
    · obtain ⟨rfl,-⟩ := List.cons.inj whole
      exact ⟨1,a,by rw [decodeFrom,if_neg skipped.1,if_neg skipped.2,if_neg large,if_pos small]⟩
    · obtain ⟨rfl,later⟩ := List.cons.inj whole
      obtain ⟨rfl,-⟩ := List.cons.inj later
      exact ⟨2,a,by
        rw [decodeFrom,if_neg skipped.1,if_neg skipped.2,if_neg large,if_pos small,if_pos second]⟩
    · obtain ⟨-,-,-,-,none⟩ : _ ∧ _ ∧ _ ∧ front = [] ∧ back = [] := by simpa using whole
      exact absurd none cut
  | four large small second third fourth =>
    have skipped : ¬a < 0x80 ∧ ¬a < 0xC2 ∧ ¬a < 0xE0 := by
      obtain ⟨rfl,-⟩ := List.cons.inj whole
      exact ⟨not_lt_of_le large (by decide),not_lt_of_le large (by decide),
        not_lt_of_le large (by decide)⟩
    rcases front with _ | ⟨b,_ | ⟨c,_ | ⟨d,front⟩⟩⟩
    · obtain ⟨rfl,-⟩ := List.cons.inj whole
      exact ⟨1,a,by
        rw [decodeFrom,if_neg skipped.1,if_neg skipped.2.1,if_neg skipped.2.2,if_neg large,
          if_pos small]⟩
    · obtain ⟨rfl,later⟩ := List.cons.inj whole
      obtain ⟨rfl,-⟩ := List.cons.inj later
      exact ⟨2,a,by
        rw [decodeFrom,if_neg skipped.1,if_neg skipped.2.1,if_neg skipped.2.2,if_neg large,
          if_pos small,if_pos second]⟩
    · obtain ⟨rfl,later⟩ := List.cons.inj whole
      obtain ⟨rfl,last⟩ := List.cons.inj later
      obtain ⟨rfl,-⟩ := List.cons.inj last
      exact ⟨3,a,by
        rw [decodeFrom,if_neg skipped.1,if_neg skipped.2.1,if_neg skipped.2.2,if_neg large,
          if_pos small,if_pos second,if_pos third]⟩
    · obtain ⟨-,-,-,-,-,none⟩ : _ ∧ _ ∧ _ ∧ _ ∧ front = [] ∧ back = [] := by simpa using whole
      exact absurd none cut

theorem encode_toList (s : String) : encode s = s.toList.flatMap String.utf8EncodeChar := by
  have whole : s.toUTF8 = (String.ofList s.toList).toByteArray := by rw [String.ofList_toList]; rfl
  rw [encode,whole,String.toByteArray_ofList,List.utf8Encode,List.toList_data_toByteArray]

theorem decodeFrom_text (s : List Char) (position : Nat) (rest : Bytes) :
    decodeFrom position (s.flatMap String.utf8EncodeChar ++ rest) =
      (decodeFrom (position + (s.flatMap String.utf8EncodeChar).length) rest).map (s ++ ·) := by
  induction s generalizing position with
  | nil => cases decoded : decodeFrom position rest <;> simp [decoded,Except.map]
  | cons c s ih =>
    rw [List.flatMap_cons,List.append_assoc,decodeFrom_coded (coded_encodeChar c),ih,
      List.length_append,Nat.add_assoc]
    cases decodeFrom _ rest <;> rfl

theorem decode_text (s : List Char) : decode (s.flatMap String.utf8EncodeChar) = .ok s := by
  have decoded := decodeFrom_text s 0 []
  rw [List.append_nil,decodeFrom] at decoded
  rw [decode,decoded]
  exact congrArg Except.ok (List.append_nil s)

-- A place in the bytes of a text lies between two characters or within one.
theorem split_text {s : List Char} (split : front ++ back = s.flatMap String.utf8EncodeChar) :
    ∃ whole later begun, s = whole ++ later ∧
      front = whole.flatMap String.utf8EncodeChar ++ begun ∧
      begun ++ back = later.flatMap String.utf8EncodeChar ∧
      (begun = [] ∨ ∃ c tail, begun ≠ [] ∧ tail ≠ [] ∧ String.utf8EncodeChar c = begun ++ tail) := by
  induction s generalizing front with
  | nil => exact ⟨[],[],[],by simp_all⟩
  | cons c s ih =>
    rw [List.flatMap_cons] at split
    rcases List.append_eq_append_iff.mp split with ⟨tail,bytes,rest⟩ | ⟨more,rfl,rest⟩
    · -- The place is in front of the end of the first character.
      by_cases none : front = []
      · exact ⟨[],c :: s,[],rfl,none,by rw [none] at split; exact split,.inl rfl⟩
      · by_cases done : tail = []
        · subst done
          rw [List.append_nil] at bytes
          exact ⟨[c],s,[],rfl,by simp [bytes],rest,.inl rfl⟩
        · exact ⟨[],c :: s,front,rfl,rfl,split,.inr ⟨c,tail,none,done,bytes⟩⟩
    · obtain ⟨whole,later,begun,rfl,rfl,back,place⟩ := ih rest.symm
      exact ⟨c :: whole,later,begun,rfl,by simp,back,place⟩

end Utf8

open Utf8 (Bytes)

-- Lines without ends of their own, each with one behind it; the last one may do without.
inductive Ended : List (List Char) → List Char → Prop
  | none : Ended [] []
  | last {line : List Char} : line ≠ [] → '\n' ∉ line → '\r' ∉ line → Ended [line] line
  | feed {line text : List Char} {ls : List (List Char)} : '\n' ∉ line → '\r' ∉ line →
      Ended ls text → Ended (line :: ls) (line ++ '\n' :: text)
  | pair {line text : List Char} {ls : List (List Char)} : '\n' ∉ line → '\r' ∉ line →
      Ended ls text → Ended (line :: ls) (line ++ '\r' :: '\n' :: text)
  | carriage {line text : List Char} {ls : List (List Char)} : '\n' ∉ line → '\r' ∉ line →
      text.head? ≠ some '\n' → Ended ls text → Ended (line :: ls) (line ++ '\r' :: text)

variable {s text line : List Char} {ls : List (List Char)} {kept : Bytes}

theorem flatten_blocks (bytes : Bytes) : (blocks bytes).flatten = bytes := by
  fun_induction blocks bytes with
  | case1 => rfl
  | case2 b rest ih => rw [List.flatten_cons,ih,List.take_append_drop]

-- A block of a text gives its whole characters and keeps the one that it begins.
theorem decodeBlock_text {front back : Bytes} (split : front ++ back = s.flatMap String.utf8EncodeChar) :
    ∃ whole later kept, s = whole ++ later ∧ decodeBlock front = .ok (whole,kept) ∧
      kept ++ back = later.flatMap String.utf8EncodeChar := by
  obtain ⟨whole,later,begun,rfl,rfl,rest,place⟩ := Utf8.split_text split
  refine ⟨whole,later,begun,rfl,?_,rest⟩
  rcases place with rfl | ⟨c,tail,started,cut,bytes⟩
  · rw [List.append_nil,decodeBlock,Utf8.decode_text]
  · have coded := Utf8.coded_encodeChar c
    rw [bytes] at coded
    obtain ⟨length,byte,fault⟩ := Utf8.decodeFrom_cut coded started cut
      (0 + (whole.flatMap String.utf8EncodeChar).length)
    have decoded := Utf8.decodeFrom_text whole 0 begun
    rw [fault,← Utf8.decode,Nat.zero_add] at decoded
    rw [decodeBlock,decoded]
    show (Utf8.decode (List.take _ _)).map _ = _
    rw [List.take_left,List.drop_left,Utf8.decode_text]
    rfl

-- Wherever the blocks of a text end, it is read whole.
theorem decodeBlocks_text {chunks : List Bytes}
    (split : kept ++ chunks.flatten = s.flatMap String.utf8EncodeChar) :
    decodeBlocks kept chunks = (s,none) := by
  induction chunks generalizing kept s with
  | nil =>
    rw [List.flatten_nil,List.append_nil] at split
    rw [decodeBlocks,split,Utf8.decode_text]
  | cons block rest ih =>
    rw [List.flatten_cons,← List.append_assoc] at split
    obtain ⟨whole,later,kept,rfl,decoded,split⟩ := decodeBlock_text split
    rw [decodeBlocks,decoded]
    dsimp only
    rw [ih split]

theorem ofBytes_encode (s : String) :
    Stream.ofBytes (Utf8.encode s) = ⟨lines (unifyLineEnds s.toList),none⟩ := by
  have split : [] ++ (blocks (Utf8.encode s)).flatten = s.toList.flatMap String.utf8EncodeChar := by
    rw [flatten_blocks,List.nil_append,Utf8.encode_toList]
  rw [Stream.ofBytes,decodeBlocks_text split]

theorem unifyLineEnds_append (rest : List Char) (single : '\r' ∉ line) :
    unifyLineEnds (line ++ rest) = line ++ unifyLineEnds rest := by
  induction line with
  | nil => rfl
  | cons c line ih =>
    obtain ⟨first,others⟩ := not_or.mp (mt List.mem_cons.mpr single)
    have first : c ≠ '\r' := fun same => first same.symm
    rw [List.cons_append,List.cons_append,unifyLineEnds,if_neg first,ih others]
    rintro _ same
    exact absurd same first

theorem unifyLineEnds_carriage (alone : text.head? ≠ some '\n') :
    unifyLineEnds ('\r' :: text) = '\n' :: unifyLineEnds text := by
  rw [unifyLineEnds,if_pos rfl]
  rintro rest - rfl
  exact alone rfl

theorem linesFrom_last {begun : List Char} (single : '\n' ∉ line)
    (nonempty : begun.reverse ++ line ≠ []) : linesFrom begun line = [begun.reverse ++ line] := by
  induction line generalizing begun with
  | nil =>
    have nonempty : begun ≠ [] := by simpa using nonempty
    rw [linesFrom,if_neg nonempty,List.append_nil]
  | cons c line ih =>
    obtain ⟨first,others⟩ := not_or.mp (mt List.mem_cons.mpr single)
    rw [linesFrom,ih others (by simp),List.reverse_cons,List.append_assoc,List.singleton_append]
    exact fun same => first same.symm

-- However lines end, they are read alike.
theorem Ended.lines (ended : Ended ls text) : Text.lines (unifyLineEnds text) = ls := by
  induction ended with
  | none => rfl
  | last nonempty single single' =>
    have same := unifyLineEnds_append [] single'
    rw [List.append_nil,unifyLineEnds,List.append_nil] at same
    rw [same]
    exact linesFrom_last single nonempty
  | feed single single' _ ih =>
    rw [unifyLineEnds_append _ single',unifyLineEnds,if_neg (by decide),Text.lines,
      linesFrom_append _ single,List.reverse_nil,List.nil_append,← Text.lines,ih]
    exact fun rest same => absurd same (by decide)
  | pair single single' _ ih =>
    rw [unifyLineEnds_append _ single',unifyLineEnds,Text.lines,linesFrom_append _ single,
      List.reverse_nil,List.nil_append,← Text.lines,ih]
  | carriage single single' alone _ ih =>
    rw [unifyLineEnds_append _ single',unifyLineEnds_carriage alone,Text.lines,
      linesFrom_append _ single,List.reverse_nil,List.nil_append,← Text.lines,ih]

theorem ended_unlines (single : ∀ l ∈ ls, '\n' ∉ l ∧ '\r' ∉ l) : Ended ls (unlines ls) := by
  induction ls with
  | nil => exact .none
  | cons l ls ih =>
    obtain ⟨here,later⟩ := List.forall_mem_cons.mp single
    have ended := Ended.feed here.1 here.2 (ih later)
    rwa [List.append_cons] at ended

end ProtocolNet.Text
