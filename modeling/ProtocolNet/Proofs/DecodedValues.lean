import ProtocolNet.Json.Display
import ProtocolNet.Proofs.JsonRoundTrip

namespace ProtocolNet.Json

-- No object inside a value has a key twice. Whatever a text decodes to is such a value.
inductive Distinct : Json → Prop
  | null : Distinct .null
  | bool (value : Bool) : Distinct (.bool value)
  | int (n : Int) : Distinct (.int n)
  | float (x : Double) : Distinct (.float x)
  | str (s : Str) : Distinct (.str s)
  | arr {items : List Json} (each : ∀ item ∈ items, Distinct item) : Distinct (.arr items)
  | obj {fields : List (Str × Json)} (keys : (fields.map (·.1)).Nodup)
      (each : ∀ field ∈ fields, Distinct field.2) : Distinct (.obj fields)

-- What one lexeme can be decoded to: neither an array nor an object, and no number that is too
-- long to be written.
inductive Scalar : Json → Prop
  | null : Scalar .null
  | bool (value : Bool) : Scalar (.bool value)
  | int {n : Int} (writable : Text.isWritable n.natAbs = true) : Scalar (.int n)
  | float (x : Double) : Scalar (.float x)

-- A property that decoding keeps as it builds values from smaller ones.
structure Kept (policy : Policy) (good : Json → Prop) : Prop where
  scalar : ∀ {value : Json}, Scalar value → good value
  text : ∀ s : Str, good (.str s)
  array : ∀ {items : List Json}, (∀ item ∈ items, good item) → good (.arr items)
  object : ∀ {fields : List (Str × Json)} {value : Json}, (∀ field ∈ fields, good field.2) →
    policy fields = .ok value → good value

-- Lexemes that are fed one by one up to the end of the text.
inductive Fed (policy : Policy) : Expected → List (Nat × Lexeme) → Json → Prop
  | done {value : Json} {offset : Nat} {rest : List (Nat × Lexeme)} :
      Fed policy (.delimiter value []) ((offset,.fin) :: rest) value
  | next {expected next : Expected} {offset : Nat} {lexeme : Lexeme} {rest : List (Nat × Lexeme)}
      {value : Json} (stepped : step policy offset lexeme expected = .ok next)
      (later : Fed policy next rest value) : Fed policy expected ((offset,lexeme) :: rest) value

variable {policy : Policy} {good : Json → Prop} {expected next : Expected} {frames : List Frame}
  {lexeme : Lexeme} {value : Json} {offset length : Nat} {c : Char} {rest s : List Char}
  {negative : Bool} {items : List Json} {fields pairs : List (Str × Json)} {key : Str}

def Frame.Holds (good : Json → Prop) : Frame → Prop
  | .array items => ∀ item ∈ items, good item
  | .object fields _ => ∀ field ∈ fields, good field.2

-- All values that decoding has at hand have the property.
def Expected.Holds (good : Json → Prop) : Expected → Prop
  | .value frames | .firstItem frames | .firstKey frames => ∀ frame ∈ frames, frame.Holds good
  | .key fields frames | .colon fields _ frames =>
    (∀ field ∈ fields, good field.2) ∧ ∀ frame ∈ frames, frame.Holds good
  | .delimiter value frames => good value ∧ ∀ frame ∈ frames, frame.Holds good

theorem scalar_of_scanNumber? (scanned : scanNumber? negative s = some (.scalar value,length)) :
    Scalar value := by
  unfold scanNumber? at scanned
  dsimp only at scanned
  by_cases empty : (wholeDigits s).isEmpty = true
  · rw [if_pos empty] at scanned
    cases scanned
  · rw [if_neg empty] at scanned
    split at scanned
    · cases scanned
      exact .float _
    · by_cases whole : (fractionDigits (s.drop (wholeDigits s).length)).isEmpty = true
      · rw [if_pos whole] at scanned
        cases read : Text.readDigits (wholeDigits s) with
        | error fault => rw [read] at scanned; cases scanned
        | ok n =>
          rw [read] at scanned
          cases scanned
          refine .int ?_
          have size : (if negative = true then -(n : Int) else n).natAbs = n := by
            cases negative <;> simp
          rw [size]
          exact Text.isWritable_of_readDigits read
      · rw [if_neg whole] at scanned
        cases scanned
        exact .float _

theorem scalar_of_words : ∀ word ∈ words, Scalar word.2 := by
  intro word member
  simp only [words,List.mem_cons,List.not_mem_nil,or_false] at member
  rcases member with rfl | rfl | rfl | rfl | rfl | rfl
  · exact .null
  · exact .bool true
  · exact .bool false
  · exact .float .nan
  · exact .float (.infinite false)
  · exact .float (.infinite true)

theorem scalar_of_lexemeAt (read : lexemeAt offset c rest = (.scalar value,length)) : Scalar value := by
  unfold lexemeAt at read
  split at read
  any_goals cases read
  · split at read <;> cases read
  · split at read
    · rename_i word found
      cases read
      exact scalar_of_words _ (List.mem_of_find?_eq_some found)
    · split at read
      · split at read
        · rename_i lexeme short scanned
          cases read
          exact scalar_of_scanNumber? scanned
        · cases read
      · cases scanned : scanNumber? false (c :: rest) with
        | none => rw [scanned] at read; cases read
        | some found =>
          rw [scanned,Option.getD_some] at read
          cases read
          exact scalar_of_scanNumber? scanned

theorem scalar_of_mem_lexemesFrom {skip : Nat}
    (member : (offset,Lexeme.scalar value) ∈ lexemesFrom skip length s) : Scalar value := by
  induction s generalizing skip length with
  | nil => simp [lexemesFrom] at member
  | cons c rest ih =>
    cases skip with
    | succ skip => exact ih member
    | zero =>
      rw [lexemesFrom] at member
      split at member
      · exact ih member
      · rcases List.mem_cons.mp member with same | later
        · exact scalar_of_lexemeAt (Prod.ext (Prod.mk.inj same).2.symm rfl)
        · exact ih later

theorem startValue_holds (kept : Kept policy good)
    (scalar : ∀ value, lexeme = .scalar value → Scalar value)
    (held : ∀ frame ∈ frames, frame.Holds good)
    (stepped : startValue offset lexeme frames = .ok next) : next.Holds good := by
  cases lexeme with
  | scalar value =>
    cases stepped
    exact ⟨kept.scalar (scalar value rfl),held⟩
  | string s =>
    cases stepped
    exact ⟨kept.text s,held⟩
  | openArray | openObject =>
    cases stepped
    exact held
  | closeObject | closeArray | colon | comma | longInteger | badString | stray | fin => cases stepped

theorem startKey_holds (written : ∀ field ∈ fields, good field.2)
    (held : ∀ frame ∈ frames, frame.Holds good)
    (stepped : startKey offset lexeme fields frames = .ok next) : next.Holds good := by
  cases lexeme with
  | string key =>
    cases stepped
    exact ⟨written,held⟩
  | openArray | openObject | closeObject | closeArray | colon | comma | longInteger | badString | stray
  | fin | scalar => cases stepped

theorem closeObject_holds (kept : Kept policy good) (written : ∀ field ∈ fields, good field.2)
    (held : ∀ frame ∈ frames, frame.Holds good)
    (stepped : closeObject policy fields frames = .ok next) : next.Holds good := by
  unfold closeObject at stepped
  split at stepped
  · rename_i value closed
    cases stepped
    refine ⟨kept.object (fun field member => ?_) closed,held⟩
    exact written field (List.mem_reverse.mp member)
  · cases stepped

theorem step_holds (kept : Kept policy good)
    (scalar : ∀ value, lexeme = .scalar value → Scalar value) (held : expected.Holds good)
    (stepped : step policy offset lexeme expected = .ok next) : next.Holds good := by
  have none : ∀ item : Json, item ∈ [] → good item := fun _ member => absurd member List.not_mem_nil
  have noField : ∀ field : Str × Json, field ∈ [] → good field.2 :=
    fun _ member => absurd member List.not_mem_nil
  unfold step at stepped
  split at stepped
  · exact startValue_holds kept scalar held stepped
  · split at stepped
    · cases stepped
      exact ⟨kept.array none,held⟩
    · have opened : Frame.Holds good (.array []) := none
      exact startValue_holds kept scalar (List.forall_mem_cons.mpr ⟨opened,held⟩) stepped
  · split at stepped
    · exact closeObject_holds kept noField held stepped
    · exact startKey_holds noField held stepped
  · exact startKey_holds held.1 held.2 stepped
  · split at stepped
    · cases stepped
      exact List.forall_mem_cons.mpr held
    · cases stepped
  · cases stepped
  · -- A value inside an array.
    obtain ⟨inside,outside⟩ := List.forall_mem_cons.mp held.2
    have all := List.forall_mem_cons.mpr ⟨held.1,inside⟩
    split at stepped
    · cases stepped
      exact List.forall_mem_cons.mpr ⟨all,outside⟩
    · cases stepped
      refine ⟨kept.array fun item member => ?_,outside⟩
      exact all item (List.mem_reverse.mp member)
    · cases stepped
  · -- A value of a key.
    rename_i value fields key frames
    obtain ⟨inside,outside⟩ := List.forall_mem_cons.mp held.2
    have all : ∀ field ∈ (key,value) :: fields, good field.2 :=
      List.forall_mem_cons.mpr ⟨held.1,inside⟩
    split at stepped
    · cases stepped
      exact ⟨all,outside⟩
    · exact closeObject_holds kept all outside stepped
    · cases stepped

theorem fed_of_feed {placed : List (Nat × Lexeme)} (fed : feed policy expected placed = .ok value) :
    Fed policy expected placed value := by
  induction placed generalizing expected with
  | nil =>
    unfold feed at fed
    split at fed <;> simp_all
  | cons first rest ih =>
    unfold feed at fed
    split at fed
    · rename_i same
      cases same
      cases fed
      exact .done
    · rename_i offset lexeme later _ same
      cases same
      split at fed
      · rename_i next stepped
        exact .next stepped (ih fed)
      · cases fed
    · simp_all

theorem Fed.holds {placed : List (Nat × Lexeme)} (fed : Fed policy expected placed value)
    (kept : Kept policy good)
    (scalars : ∀ offset value, (offset,Lexeme.scalar value) ∈ placed → Scalar value)
    (held : expected.Holds good) : good value := by
  induction fed with
  | done => exact held.1
  | @next expected next offset lexeme rest value stepped later ih =>
    have scalar : ∀ value, lexeme = .scalar value → Scalar value := by
      rintro value rfl
      exact scalars offset value List.mem_cons_self
    refine ih (fun offset value member => ?_) (step_holds kept scalar held stepped)
    exact scalars offset value (List.mem_cons_of_mem _ member)

-- Every decoded value has the properties that decoding keeps.
theorem decodeWith_holds (kept : Kept policy good) (decoded : decodeWith policy s = .ok value) :
    good value := by
  unfold decodeWith at decoded
  split at decoded
  · cases decoded
  · split at decoded
    · rename_i fed
      cases decoded
      have held : (Expected.value []).Holds good := fun _ member => absurd member List.not_mem_nil
      exact (fed_of_feed fed).holds kept (fun _ _ => scalar_of_mem_lexemesFrom) held
    · cases decoded

theorem mem_setField {field : Str × Json} (member : field ∈ setField key value pairs) :
    field = (key,value) ∨ field ∈ pairs := by
  induction pairs with
  | nil => exact .inl (List.mem_singleton.mp member)
  | cons pair pairs ih =>
    rw [setField] at member
    split at member
    · rcases List.mem_cons.mp member with rfl | later
      · exact .inl rfl
      · exact .inr (List.mem_cons_of_mem _ later)
    · rcases List.mem_cons.mp member with rfl | later
      · exact .inr List.mem_cons_self
      · exact (ih later).imp_right (List.mem_cons_of_mem _)

theorem nodup_setField (distinct : (pairs.map (·.1)).Nodup) :
    ((setField key value pairs).map (·.1)).Nodup := by
  induction pairs with
  | nil => simp [setField]
  | cons pair pairs ih =>
    obtain ⟨first,others⟩ := List.nodup_cons.mp distinct
    rw [setField]
    split
    · rename_i same
      exact List.nodup_cons.mpr ⟨same ▸ first,others⟩
    · rename_i apart
      refine List.nodup_cons.mpr ⟨fun member => ?_,ih others⟩
      obtain ⟨field,stored,same⟩ := List.mem_map.mp member
      rcases mem_setField stored with rfl | old
      · exact apart same.symm
      · exact first (same ▸ List.mem_map_of_mem old)

-- What holds of no fields, and of a list of fields with one more set, holds of the last ones.
theorem lastFields_induction {p : List (Str × Json) → Prop} (none : p [])
    (set : ∀ done, p done → ∀ field ∈ pairs, p (setField field.1 field.2 done)) :
    p (lastFields pairs) := by
  have run : ∀ done, p done →
      p (pairs.foldl (fun fields pair => setField pair.1 pair.2 fields) done) := by
    clear none
    induction pairs with
    | nil => exact fun _ held => held
    | cons pair pairs ih =>
      intro done held
      refine ih (fun done held field member => set done held field (List.mem_cons_of_mem _ member)) _ ?_
      exact set done held pair List.mem_cons_self
  exact run [] none

theorem nodup_lastFields : ((lastFields pairs).map (·.1)).Nodup :=
  lastFields_induction (p := fun done => (done.map (·.1)).Nodup) List.nodup_nil
    fun _ distinct _ _ => nodup_setField distinct

theorem mem_lastFields {field : Str × Json} (member : field ∈ lastFields pairs) : field ∈ pairs := by
  refine lastFields_induction (p := fun done => ∀ field ∈ done, field ∈ pairs)
    (List.forall_mem_nil _) (fun done held last written field member => ?_) field member
  rcases mem_setField member with rfl | old
  · exact written
  · exact held field old

theorem repeated?_none_iff {keys : List Str} : repeated? keys = none ↔ keys.Nodup := by
  have run : ∀ seen, repeated?.go seen keys = none ↔ keys.Nodup ∧ ∀ key ∈ keys, key ∉ seen := by
    induction keys with
    | nil => exact fun _ => ⟨fun _ => ⟨List.nodup_nil,List.forall_mem_nil _⟩,fun _ => rfl⟩
    | cons key rest ih =>
      intro seen
      rw [repeated?.go,List.nodup_cons,List.forall_mem_cons]
      split
      · rename_i old
        exact ⟨nofun,fun ⟨_,new,_⟩ => absurd old new⟩
      · rename_i new
        rw [ih (key :: seen)]
        simp only [List.mem_cons,not_or]
        constructor
        · rintro ⟨distinct,apart⟩
          exact ⟨⟨fun member => (apart key member).1 rfl,distinct⟩,new,
            fun other member => (apart other member).2⟩
        · rintro ⟨⟨absent,distinct⟩,_,apart⟩
          exact ⟨distinct,fun other member =>
            ⟨fun same => absent (same ▸ member),apart other member⟩⟩
  rw [repeated?,run []]
  simp

theorem refuseRepeated_faithful : Faithful refuseRepeated := by
  intro fields distinct
  rw [refuseRepeated,repeated?_none_iff.mpr distinct]

theorem areWritable_iff : areWritable items = true ↔ ∀ item ∈ items, item.isWritable = true := by
  induction items with
  | nil => simp [areWritable]
  | cons item items ih => simp [areWritable,ih]

theorem haveWritable_iff : haveWritable fields = true ↔ ∀ field ∈ fields, field.2.isWritable = true := by
  induction fields with
  | nil => simp [haveWritable]
  | cons field fields ih => simp [haveWritable,ih]

-- What an object becomes has fields of the object, and no key twice.
structure Policy.Fair (policy : Policy) : Prop where
  closes : ∀ {pairs : List (Str × Json)} {value : Json}, policy pairs = .ok value →
    ∃ fields, value = .obj fields ∧ (fields.map (·.1)).Nodup ∧ ∀ field ∈ fields, field ∈ pairs

theorem fair_keepLast : Policy.Fair keepLast where
  closes closed := by
    cases closed
    exact ⟨_,rfl,nodup_lastFields,fun _ => mem_lastFields⟩

theorem fair_refuseRepeated : Policy.Fair refuseRepeated where
  closes closed := by
    unfold refuseRepeated at closed
    split at closed
    · cases closed
    · rename_i none
      cases closed
      exact ⟨_,rfl,repeated?_none_iff.mp none,fun _ => id⟩

theorem Policy.Fair.distinct (fair : policy.Fair) : Kept policy Distinct where
  scalar held := by
    cases held with
    | null => exact .null
    | bool value => exact .bool value
    | int => exact .int _
    | float x => exact .float x
  text := .str
  array := .arr
  object each closed := by
    obtain ⟨fields,rfl,keys,old⟩ := fair.closes closed
    exact .obj keys fun field member => each field (old field member)

theorem Policy.Fair.writable (fair : policy.Fair) : Kept policy (·.isWritable = true) where
  scalar held := by
    cases held with
    | int writable => exact writable
    | null | bool | float => rfl
  text _ := rfl
  array := areWritable_iff.mpr
  object each closed := by
    obtain ⟨fields,rfl,_,old⟩ := fair.closes closed
    exact haveWritable_iff.mpr fun field member => each field (old field member)

theorem distinct_of_decodeWith (fair : policy.Fair) (decoded : decodeWith policy s = .ok value) :
    value.Distinct := decodeWith_holds fair.distinct decoded

theorem writable_of_decodeWith (fair : policy.Fair) (decoded : decodeWith policy s = .ok value) :
    value.isWritable = true := decodeWith_holds fair.writable decoded

@[simp] theorem distinct_arr : (Json.arr items).Distinct ↔ ∀ item ∈ items, item.Distinct := by
  constructor
  · intro distinct
    cases distinct with
    | arr each => exact each
  · exact .arr

@[simp] theorem distinct_obj : (Json.obj fields).Distinct ↔
    (fields.map (·.1)).Nodup ∧ ∀ field ∈ fields, field.2.Distinct := by
  constructor
  · intro distinct
    cases distinct with
    | obj keys each => exact ⟨keys,each⟩
  · rintro ⟨keys,each⟩
    exact .obj keys each

theorem Distinct.of_lookup (distinct : (Json.obj fields).Distinct)
    (found : fields.lookup key = some value) : value.Distinct := by
  obtain ⟨front,back,rfl,_⟩ := List.lookup_eq_some_iff.mp found
  exact (distinct_obj.mp distinct).2 (key,value) (by simp)

theorem isWritable_of_lookup (writable : (Json.obj fields).isWritable = true)
    (found : fields.lookup key = some value) : value.isWritable = true := by
  obtain ⟨front,back,rfl,_⟩ := List.lookup_eq_some_iff.mp found
  exact haveWritable_iff.mp writable (key,value) (by simp)

end ProtocolNet.Json
