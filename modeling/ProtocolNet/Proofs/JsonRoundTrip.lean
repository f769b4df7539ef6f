import ProtocolNet.Json.Decode
import ProtocolNet.Proofs.JsonLexemes

namespace ProtocolNet.Json

mutual

-- Values that survive as text: numbers are integers within the limit on digits, no text has
-- halves of one pair side by side, and no object has a key twice.
def Sound : Json → Prop
  | .null | .bool _ => True
  | .str s => s.Apart
  | .int n => Text.isWritable n.natAbs = true
  | .float _ => False
  | .arr items => SoundItems items
  | .obj fields => (fields.map (·.1)).Nodup ∧ SoundFields fields

def SoundItems : List Json → Prop
  | [] => True
  | item :: rest => Sound item ∧ SoundItems rest

def SoundFields : List (Str × Json) → Prop
  | [] => True
  | (key,value) :: rest => key.Apart ∧ Sound value ∧ SoundFields rest

end

-- Policies that take an object as it is when no key is written twice.
def Faithful (policy : Policy) : Prop :=
  ∀ fields : List (Str × Json), (fields.map (·.1)).Nodup → policy fields = .ok (.obj fields)

-- What becomes of the rest of a text, wherever it stands.
def Feeds (policy : Policy) (expected : Expected) (s : List Char) (result : Json) : Prop :=
  ∀ offset, feed policy expected (lexemesFrom 0 offset s) = .ok result

-- A state in which a value may start, and the frames that are open then.
def Awaits (policy : Policy) (expected : Expected) (frames : List Frame) : Prop :=
  ∀ offset lexeme, lexeme ≠ .closeArray →
    step policy offset lexeme expected = startValue offset lexeme frames

variable {policy : Policy} {expected next : Expected} {c : Char} {taken rest : List Char}
  {value result : Json} {lexeme : Lexeme} {frames : List Frame} {items done : List Json}
  {fields : List (Str × Json)} {key : Str}

theorem lexemesFrom_skip (taken rest : List Char) (offset : Nat) :
    lexemesFrom taken.length offset (taken ++ rest) =
      lexemesFrom 0 (offset + taken.length) rest := by
  induction taken generalizing offset with
  | nil => rfl
  | cons c taken ih => rw [List.length_cons,List.cons_append,lexemesFrom,ih,Nat.add_assoc,Nat.add_comm 1]

theorem Feeds.gap (blank : isGap c = true) (later : Feeds policy expected rest result) :
    Feeds policy expected (c :: rest) result := by
  intro offset
  rw [lexemesFrom,if_pos blank]
  exact later (offset + 1)

theorem Feeds.part (solid : isGap c = false) (unended : lexeme ≠ .fin)
    (read : ∀ offset, lexemeAt offset c (taken ++ rest) = (lexeme,taken.length + 1))
    (stepped : ∀ offset, step policy offset lexeme expected = .ok next)
    (later : Feeds policy next rest result) :
    Feeds policy expected (c :: (taken ++ rest)) result := by
  intro offset
  have fed : ∀ others, feed policy expected ((offset,lexeme) :: others) = feed policy next others := by
    intro others
    rw [feed]
    · rw [stepped]
    · exact fun _ _ same => unended same
  rw [lexemesFrom,solid,if_neg Bool.false_ne_true,read]
  simp only [Nat.add_sub_cancel,lexemesFrom_skip,fed]
  exact later _

-- A lexeme of one character.
theorem Feeds.mark (solid : isGap c = false) (unended : lexeme ≠ .fin)
    (read : ∀ offset, lexemeAt offset c rest = (lexeme,1))
    (stepped : ∀ offset, step policy offset lexeme expected = .ok next)
    (later : Feeds policy next rest result) : Feeds policy expected (c :: rest) result :=
  @Feeds.part policy expected next c [] rest result lexeme solid unended read stepped later

theorem awaits_value : Awaits policy (.value frames) frames := fun _ _ _ => rfl

theorem awaits_firstItem : Awaits policy (.firstItem frames) (.array [] :: frames) := by
  intro offset lexeme other
  cases lexeme <;> first | rfl | exact absurd rfl other

theorem toList_stringText (s : Str) :
    (stringText s).toList = '"' :: (s.flatMap escapedLetter ++ ['"']) := String.toList_ofList

theorem feeds_string {s : Str} (apart : s.Apart)
    (stepped : ∀ offset, step policy offset (.string s) expected = .ok next)
    (later : Feeds policy next rest result) :
    Feeds policy expected ((stringText s).toList ++ rest) result := by
  rw [toList_stringText,List.cons_append]
  refine .part (by decide) Lexeme.noConfusion (fun offset => ?_) stepped later
  rw [List.append_assoc,List.singleton_append,lexemeAt_string s apart]
  simp

theorem ends_behindCommas {others : List String} (ends : Ends rest) :
    Ends (Text.behindCommas others ++ rest) := by
  cases others with
  | nil => exact ends
  | cons => exact ends_cons (.inl rfl)

theorem feeds_scalar (awaits : Awaits policy expected frames) (solid : isGap c = false)
    (read : ∀ offset, lexemeAt offset c (taken ++ rest) = (.scalar value,taken.length + 1))
    (later : Feeds policy (.delimiter value frames) rest result) :
    Feeds policy expected (c :: (taken ++ rest)) result :=
  .part solid Lexeme.noConfusion read (fun offset => awaits offset _ Lexeme.noConfusion) later

theorem isGap_of_isNumeric (numeric : isNumeric c = true) : isGap c = false := by
  refine Bool.eq_false_iff.mpr fun gap => ?_
  simp only [isGap,Bool.or_eq_true,decide_eq_true_eq] at gap
  rcases gap with ((rfl | rfl) | rfl) | rfl <;> exact absurd numeric (by decide)

-- A key with its colon; what follows is its value.
theorem feeds_key (apart : key.Apart)
    (stepped : ∀ offset, step policy offset (.string key) expected =
      .ok (.colon fields key frames))
    (later : Feeds policy (.value (.object fields key :: frames)) rest result) :
    Feeds policy expected ((stringText key).toList ++ ':' :: ' ' :: rest) result :=
  feeds_string apart stepped (.mark rfl Lexeme.noConfusion (fun _ => rfl) (fun _ => rfl) (.gap rfl later))

theorem toList_field (key : Str) (value : Json) : (stringText key ++ ": " ++ value.encode).toList =
    (stringText key).toList ++ ':' :: ' ' :: value.encode.toList := by
  have separator : ": ".toList = [':',' '] := rfl
  rw [String.toList_append,String.toList_append,separator,List.append_assoc]
  rfl

theorem toList_array (items : List Json) (rest : List Char) : (encode (.arr items)).toList ++ rest =
    '[' :: ((", ".intercalate (encodeItems items)).toList ++ ']' :: rest) := by
  have opening : "[".toList = ['['] := rfl
  have closing : "]".toList = [']'] := rfl
  rw [encode,String.toList_append,String.toList_append,opening,closing,List.append_assoc]
  rfl

theorem toList_object (fields : List (Str × Json)) (rest : List Char) :
    (encode (.obj fields)).toList ++ rest =
      '\x7b' :: ((", ".intercalate (encodeFields fields)).toList ++ '\x7d' :: rest) := by
  have opening : "\x7b".toList = ['\x7b'] := rfl
  have closing : "\x7d".toList = ['\x7d'] := rfl
  rw [encode,String.toList_append,String.toList_append,opening,closing,List.append_assoc]
  rfl

theorem behindCommas_cons (first : String) (others : List String) (rest : List Char) :
    Text.behindCommas (first :: others) ++ rest =
      ',' :: ' ' :: (first.toList ++ (Text.behindCommas others ++ rest)) := by
  simp [Text.behindCommas]

theorem closeObject_faithful (faithful : Faithful policy)
    (distinct : ((fields.reverse).map (·.1)).Nodup) :
    closeObject policy fields frames = .ok (.delimiter (.obj fields.reverse) frames) := by
  rw [closeObject,faithful _ distinct]

mutual

theorem feeds_value (faithful : Faithful policy) (value : Json) (sound : value.Sound)
    (expected : Expected) (frames : List Frame) (awaits : Awaits policy expected frames)
    (rest : List Char) (ends : Ends rest) (later : Feeds policy (.delimiter value frames) rest result) :
    Feeds policy expected (value.encode.toList ++ rest) result := by
  cases value with
  | null =>
    show Feeds policy expected ('n' :: (['u','l','l'] ++ rest)) result
    exact feeds_scalar awaits rfl (fun _ => rfl) later
  | bool value =>
    cases value with
    | false =>
      show Feeds policy expected ('f' :: (['a','l','s','e'] ++ rest)) result
      exact feeds_scalar awaits rfl (fun _ => rfl) later
    | true =>
      show Feeds policy expected ('t' :: (['r','u','e'] ++ rest)) result
      exact feeds_scalar awaits rfl (fun _ => rfl) later
  | int n =>
    obtain ⟨c,tail,written,numeric,read⟩ := lexemeAt_int n sound ends
    rw [encode,written,List.cons_append]
    exact feeds_scalar awaits (isGap_of_isNumeric numeric) read later
  | float x => exact sound.elim
  | str s =>
    rw [encode]
    exact feeds_string sound (fun offset => awaits offset _ Lexeme.noConfusion) later
  | arr items =>
    rw [toList_array]
    refine .mark rfl Lexeme.noConfusion (fun _ => rfl)
      (fun offset => awaits offset .openArray Lexeme.noConfusion) ?_
    cases items with
    | nil => exact .mark rfl Lexeme.noConfusion (fun _ => rfl) (fun _ => rfl) later
    | cons item items =>
      obtain ⟨first,others⟩ := sound
      rw [encodeItems,Text.toList_commaSeparated,List.append_assoc]
      exact feeds_value faithful item first _ _ awaits_firstItem _
        (ends_behindCommas (ends_cons (.inr (.inl rfl))))
        (feeds_items faithful items others item [] frames rest later)
  | obj fields =>
    obtain ⟨distinct,sound⟩ := sound
    rw [toList_object]
    refine .mark rfl Lexeme.noConfusion (fun _ => rfl)
      (fun offset => awaits offset .openObject Lexeme.noConfusion) ?_
    cases fields with
    | nil =>
      exact .mark rfl Lexeme.noConfusion (fun _ => rfl)
        (fun _ => closeObject_faithful faithful List.nodup_nil) later
    | cons field fields =>
      obtain ⟨key,value⟩ := field
      obtain ⟨apart,first,others⟩ := sound
      rw [encodeFields,Text.toList_commaSeparated,toList_field]
      simp only [List.append_assoc,List.cons_append]
      refine feeds_key apart (fun _ => rfl) ?_
      exact feeds_value faithful value first _ _ awaits_value _
        (ends_behindCommas (ends_cons (.inr (.inr rfl))))
        (feeds_fields faithful fields others value key [] frames rest distinct later)

theorem feeds_items (faithful : Faithful policy) (items : List Json) (sound : SoundItems items)
    (value : Json) (done : List Json) (frames : List Frame) (rest : List Char)
    (later : Feeds policy (.delimiter (.arr (done.reverse ++ value :: items)) frames) rest result) :
    Feeds policy (.delimiter value (.array done :: frames))
      (Text.behindCommas (encodeItems items) ++ ']' :: rest) result := by
  cases items with
  | nil =>
    refine .mark rfl Lexeme.noConfusion (fun _ => rfl) (fun _ => rfl) ?_
    rwa [List.reverse_cons]
  | cons item items =>
    obtain ⟨first,others⟩ := sound
    rw [encodeItems,behindCommas_cons]
    refine .mark rfl Lexeme.noConfusion (fun _ => rfl) (fun _ => rfl) (.gap rfl ?_)
    refine feeds_value faithful item first _ _ awaits_value _
      (ends_behindCommas (ends_cons (.inr (.inl rfl))))
      (feeds_items faithful items others item (value :: done) frames rest ?_)
    rwa [List.reverse_cons,List.append_assoc]

theorem feeds_fields (faithful : Faithful policy) (fields : List (Str × Json))
    (sound : SoundFields fields) (value : Json) (key : Str) (done : List (Str × Json))
    (frames : List Frame) (rest : List Char)
    (distinct : ((done.reverse ++ (key,value) :: fields).map (·.1)).Nodup)
    (later : Feeds policy (.delimiter (.obj (done.reverse ++ (key,value) :: fields)) frames) rest
      result) :
    Feeds policy (.delimiter value (.object done key :: frames))
      (Text.behindCommas (encodeFields fields) ++ '\x7d' :: rest) result := by
  cases fields with
  | nil =>
    rw [← List.reverse_cons] at distinct later
    exact .mark rfl Lexeme.noConfusion (fun _ => rfl)
      (fun _ => closeObject_faithful faithful distinct) later
  | cons field fields =>
    obtain ⟨next,item⟩ := field
    obtain ⟨apart,first,others⟩ := sound
    rw [encodeFields,behindCommas_cons,toList_field]
    simp only [List.append_assoc,List.cons_append]
    refine .mark rfl Lexeme.noConfusion (fun _ => rfl) (fun _ => rfl) (.gap rfl ?_)
    refine feeds_key apart (fun _ => rfl) ?_
    refine feeds_value faithful item first _ _ awaits_value _
      (ends_behindCommas (ends_cons (.inr (.inr rfl))))
      (feeds_fields faithful fields others item next ((key,value) :: done) frames rest ?_ ?_)
    · rwa [List.reverse_cons,List.append_assoc]
    · rwa [List.reverse_cons,List.append_assoc]

end

theorem setField_new {pairs : List (Str × Json)} (new : key ∉ pairs.map (·.1)) :
    setField key value pairs = pairs ++ [(key,value)] := by
  induction pairs with
  | nil => rfl
  | cons pair pairs ih =>
    rw [List.map_cons,List.mem_cons,not_or] at new
    rw [setField,if_neg (Ne.symm new.1),ih new.2]
    rfl

theorem lastFields_of_nodup (fields done : List (Str × Json))
    (distinct : ((done ++ fields).map (·.1)).Nodup) :
    fields.foldl (fun fields (key,value) => setField key value fields) done = done ++ fields := by
  induction fields generalizing done with
  | nil => exact (List.append_nil done).symm
  | cons field fields ih =>
    obtain ⟨key,value⟩ := field
    have new : key ∉ done.map (·.1) := by
      rw [List.map_append,List.map_cons] at distinct
      exact fun member => (List.nodup_append.mp distinct).2.2 key member key List.mem_cons_self rfl
    rw [List.append_cons] at distinct ⊢
    rw [List.foldl_cons]
    dsimp only
    rw [setField_new new,ih _ distinct]

theorem keepLast_faithful : Faithful keepLast := by
  intro fields distinct
  rw [keepLast,lastFields,lastFields_of_nodup fields [] distinct]
  rfl

theorem decodeWith_of_feeds {s : List Char} (unmarked : s.head? ≠ some '\uFEFF')
    (fed : Feeds policy (.value []) s result) : decodeWith policy s = .ok result := by
  unfold decodeWith
  split
  · exact absurd rfl unmarked
  · rw [lexemes,fed 0]

theorem head?_encode (value : Json) (sound : value.Sound) :
    value.encode.toList.head? ≠ some '\uFEFF' := by
  cases value with
  | null => simp [encode]
  | bool value => cases value <;> simp [encode]
  | int n =>
    obtain ⟨c,tail,written,numeric,_⟩ := lexemeAt_int n sound ends_nil
    rw [encode,written,List.head?_cons]
    rintro ⟨⟩
    exact absurd numeric (by decide)
  | float x => exact sound.elim
  | str s => rw [encode,toList_stringText,List.head?_cons]; simp
  | arr items => rw [← List.append_nil (encode _).toList,toList_array,List.head?_cons]; simp
  | obj fields => rw [← List.append_nil (encode _).toList,toList_object,List.head?_cons]; simp

-- A sound value is read back from its text.
theorem decodeWith_encode (faithful : Faithful policy) (value : Json) (sound : value.Sound) :
    decodeWith policy value.encode.toList = .ok value := by
  have fed : Feeds policy (.value []) (value.encode.toList ++ []) value :=
    feeds_value faithful value sound _ _ awaits_value [] ends_nil fun _ => rfl
  rw [List.append_nil] at fed
  exact decodeWith_of_feeds (head?_encode value sound) fed

theorem decode_encode (value : Json) (sound : value.Sound) :
    decode value.encode.toList = .ok value := decodeWith_encode keepLast_faithful value sound

-- A text without control characters, so that it cannot be broken over lines.
def OneLine (s : List Char) : Prop := ∀ c ∈ s, 0x20 ≤ c.toNat

theorem OneLine.append {s t : List Char} (former : OneLine s) (latter : OneLine t) :
    OneLine (s ++ t) := List.forall_mem_append.mpr ⟨former,latter⟩

theorem OneLine.unbroken {s : List Char} (one : OneLine s) : '\n' ∉ s ∧ '\r' ∉ s :=
  ⟨fun member => absurd (one _ member) (by decide),fun member => absurd (one _ member) (by decide)⟩

theorem oneLine_hexText (width n : Nat) : OneLine (Text.hexText width n) := by
  have digits : ∀ m < 16, 0x20 ≤ (Nat.digitChar m).toNat := by decide
  induction width generalizing n with
  | zero => exact List.forall_mem_nil _
  | succ width ih =>
    exact (ih (n / 16)).append (List.forall_mem_singleton.mpr (digits _ (Nat.mod_lt n (by decide))))

theorem oneLine_unitEscape (unit : Nat) : OneLine (unitEscape unit) :=
  List.forall_mem_cons.mpr ⟨by decide,List.forall_mem_cons.mpr ⟨by decide,oneLine_hexText 4 unit⟩⟩

theorem oneLine_escapedChar (c : Char) : OneLine (escapedChar c) := by
  unfold escapedChar
  split
  iterate 7 exact List.forall_mem_cons.mpr ⟨by decide,List.forall_mem_singleton.mpr (by decide)⟩
  dsimp only
  split
  · rename_i ascii
    exact List.forall_mem_singleton.mpr ascii.1
  · split
    · exact oneLine_unitEscape _
    · exact (oneLine_unitEscape _).append (oneLine_unitEscape _)

theorem oneLine_stringText (s : Str) : OneLine (stringText s).toList := by
  have letters : OneLine (s.flatMap escapedLetter) := by
    intro c member
    obtain ⟨letter,-,inside⟩ := List.mem_flatMap.mp member
    cases letter with
    | char d => exact oneLine_escapedChar d c inside
    | lone unit => exact oneLine_unitEscape _ c inside
  have quote : OneLine ['"'] := List.forall_mem_singleton.mpr (by decide)
  rw [stringText,String.toList_ofList]
  exact List.forall_mem_cons.mpr ⟨by decide,letters.append quote⟩

theorem oneLine_integerText (n : Int) : OneLine (Text.integerText n).toList := by
  have digits : ∀ k : Nat, OneLine (Nat.repr k).toList := by
    intro k c member
    rw [Nat.toList_repr] at member
    have ascii := Text.ascii_toDigits c member
    simp only [Char.isDigit,Bool.and_eq_true,decide_eq_true_eq] at ascii
    exact Nat.le_trans (by decide) (UInt32.le_iff_toNat_le.mp ascii.1)
  cases n with
  | ofNat k => exact digits k
  | negSucc k =>
    have sign : "-".toList = ['-'] := rfl
    rw [Text.integerText,String.toList_append,sign]
    exact List.forall_mem_cons.mpr ⟨by decide,digits (k + 1)⟩

theorem oneLine_commaSeparated {parts : List String} (each : ∀ part ∈ parts, OneLine part.toList) :
    OneLine (", ".intercalate parts).toList := by
  cases parts with
  | nil => exact List.forall_mem_nil _
  | cons first others =>
    obtain ⟨here,later⟩ := List.forall_mem_cons.mp each
    rw [Text.toList_commaSeparated]
    refine OneLine.append here fun c member => ?_
    obtain ⟨other,inside,found⟩ := List.mem_flatMap.mp member
    have comma : OneLine (',' :: ' ' :: other.toList) := List.forall_mem_cons.mpr
      ⟨by decide,List.forall_mem_cons.mpr ⟨by decide,later other inside⟩⟩
    exact comma c found

mutual

-- A sound value is written on one line.
theorem oneLine_encode (value : Json) (sound : value.Sound) : OneLine value.encode.toList := by
  cases value with
  | null => simp [OneLine,encode]
  | bool value => cases value <;> simp [OneLine,encode]
  | int n => exact oneLine_integerText n
  | float x => exact sound.elim
  | str s => exact oneLine_stringText s
  | arr items =>
    rw [← List.append_nil (encode _).toList,toList_array]
    have close : OneLine [']'] := List.forall_mem_singleton.mpr (by decide)
    exact List.forall_mem_cons.mpr
      ⟨by decide,(oneLine_commaSeparated (oneLine_items items sound)).append close⟩
  | obj fields =>
    rw [← List.append_nil (encode _).toList,toList_object]
    have close : OneLine ['\x7d'] := List.forall_mem_singleton.mpr (by decide)
    exact List.forall_mem_cons.mpr
      ⟨by decide,(oneLine_commaSeparated (oneLine_fields fields sound.2)).append close⟩

theorem oneLine_items (items : List Json) (sound : SoundItems items) :
    ∀ part ∈ encodeItems items, OneLine part.toList := by
  cases items with
  | nil => exact List.forall_mem_nil _
  | cons item rest =>
    exact List.forall_mem_cons.mpr ⟨oneLine_encode item sound.1,oneLine_items rest sound.2⟩

theorem oneLine_fields (fields : List (Str × Json)) (sound : SoundFields fields) :
    ∀ part ∈ encodeFields fields, OneLine part.toList := by
  cases fields with
  | nil => exact List.forall_mem_nil _
  | cons field rest =>
    obtain ⟨key,value⟩ := field
    refine List.forall_mem_cons.mpr ⟨?_,oneLine_fields rest sound.2.2⟩
    rw [toList_field]
    exact (oneLine_stringText key).append (List.forall_mem_cons.mpr
      ⟨by decide,List.forall_mem_cons.mpr ⟨by decide,oneLine_encode value sound.2.1⟩⟩)

end

end ProtocolNet.Json
