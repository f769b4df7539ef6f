import Mathlib.Data.List.Duplicate
import ProtocolNet.Net.Loader
import ProtocolNet.Proofs.JsonTrees

namespace ProtocolNet.Json

mutual

-- What is left of a tree when the last value of each key counts.
def settled : Json → Json
  | .arr items => .arr (settledItems items)
  | .obj fields => .obj (lastFields (settledFields fields))
  | .null => .null
  | .bool value => .bool value
  | .int n => .int n
  | .float x => .float x
  | .str s => .str s

def settledItems : List Json → List Json
  | [] => []
  | item :: rest => settled item :: settledItems rest

def settledFields : List (Str × Json) → List (Str × Json)
  | [] => []
  | (key,value) :: rest => (key,settled value) :: settledFields rest

end

-- Some object of a tree has the key twice.
inductive Repeats (key : Str) : Json → Prop
  | here {fields : List (Str × Json)} (twice : List.Duplicate key (fields.map (·.1))) :
      Repeats key (.obj fields)
  | item {items : List Json} {item : Json} (member : item ∈ items) (inside : Repeats key item) :
      Repeats key (.arr items)
  | field {fields : List (Str × Json)} {field : Str × Json} (member : field ∈ fields)
      (inside : Repeats key field.2) : Repeats key (.obj fields)

def settledField (field : Str × Json) : Str × Json := (field.1,settled field.2)

def Frame.settled : Frame → Frame
  | .array items => .array (items.map Json.settled)
  | .object fields key => .object (fields.map settledField) key

def Expected.settled : Expected → Expected
  | .value frames => .value (frames.map Frame.settled)
  | .firstItem frames => .firstItem (frames.map Frame.settled)
  | .firstKey frames => .firstKey (frames.map Frame.settled)
  | .key fields frames => .key (fields.map settledField) (frames.map Frame.settled)
  | .colon fields written frames => .colon (fields.map settledField) written (frames.map Frame.settled)
  | .delimiter last frames => .delimiter last.settled (frames.map Frame.settled)

def Frame.Repeats (key : Str) : Frame → Prop
  | .array items => ∃ item ∈ items, item.Repeats key
  | .object fields _ => ∃ field ∈ fields, field.2.Repeats key

-- Some value that decoding has at hand has the key twice.
def Expected.Repeats (key : Str) : Expected → Prop
  | .value frames | .firstItem frames | .firstKey frames => ∃ frame ∈ frames, frame.Repeats key
  | .key fields frames | .colon fields _ frames =>
    (∃ field ∈ fields, field.2.Repeats key) ∨ ∃ frame ∈ frames, frame.Repeats key
  | .delimiter last frames => last.Repeats key ∨ ∃ frame ∈ frames, frame.Repeats key

variable {expected next : Expected} {frames : List Frame} {lexeme : Lexeme} {value tree : Json}
  {items : List Json} {fields : List (Str × Json)} {key other : Str} {keys : List Str}
  {offset : Nat} {placed : List (Nat × Lexeme)} {s : List Char}

theorem settledItems_eq (items : List Json) : settledItems items = items.map settled := by
  induction items with
  | nil => rfl
  | cons item items ih => rw [settledItems,ih,List.map_cons]

theorem settledFields_eq (fields : List (Str × Json)) :
    settledFields fields = fields.map settledField := by
  induction fields with
  | nil => rfl
  | cons field fields ih => rw [settledFields,ih,List.map_cons]; rfl

theorem settled_arr : (Json.arr items).settled = .arr (items.map settled) := by
  rw [settled,settledItems_eq]

theorem settled_obj : (Json.obj fields).settled = .obj (lastFields (fields.map settledField)) := by
  rw [settled,settledFields_eq]

theorem settled_of_scalar (scalar : Scalar value) : value.settled = value := by
  cases scalar <;> rw [settled]

theorem settled_of_distinct (distinct : tree.Distinct) : tree.settled = tree := by
  induction distinct with
  | null | bool | int | float | str => rw [settled]
  | arr each ih => rw [settled_arr,List.map_congr_left ih,List.map_id']
  | @obj fields keys each ih =>
    have same : ∀ field ∈ fields, settledField field = field := by
      intro field member
      rw [settledField,ih field member]
    rw [settled_obj,List.map_congr_left same,List.map_id',lastFields,lastFields_of_nodup fields [] keys]
    rfl

theorem startValue_settled (scalar : ∀ value, lexeme = .scalar value → Scalar value) :
    startValue offset lexeme (frames.map Frame.settled) =
      (startValue offset lexeme frames).map Expected.settled := by
  cases lexeme with
  | scalar value =>
    show _ = Except.ok (Expected.delimiter value.settled (frames.map Frame.settled))
    rw [settled_of_scalar (scalar value rfl)]
    rfl
  | string s =>
    show _ = Except.ok (Expected.delimiter (Json.str s).settled (frames.map Frame.settled))
    rw [settled]
    rfl
  | openObject | closeObject | openArray | closeArray | colon | comma | longInteger | badString | stray
  | fin => rfl

theorem startKey_settled :
    startKey offset lexeme (fields.map settledField) (frames.map Frame.settled) =
      (startKey offset lexeme fields frames).map Expected.settled := by
  cases lexeme <;> rfl

theorem closeObject_settled :
    closeObject keepLast (fields.map settledField) (frames.map Frame.settled) =
      (closeObject keepAll fields frames).map Expected.settled := by
  show _ = Except.ok (Expected.delimiter (Json.obj fields.reverse).settled (frames.map Frame.settled))
  rw [settled_obj,List.map_reverse]
  rfl

theorem step_settled (scalar : ∀ value, lexeme = .scalar value → Scalar value) :
    step keepLast offset lexeme expected.settled =
      (step keepAll offset lexeme expected).map Expected.settled := by
  cases expected with
  | value frames => exact startValue_settled scalar
  | firstItem frames =>
    have inside := @startValue_settled (.array [] :: frames) lexeme offset scalar
    cases lexeme with
    | closeArray =>
      show _ = Except.ok (Expected.delimiter (Json.arr []).settled (frames.map Frame.settled))
      rw [settled_arr]
      rfl
    | _ => exact inside
  | firstKey frames =>
    have inside := @startKey_settled frames lexeme [] offset
    cases lexeme with
    | closeObject => exact @closeObject_settled frames []
    | _ => exact inside
  | key fields frames => exact startKey_settled
  | colon fields key frames => cases lexeme <;> rfl
  | delimiter value frames =>
    cases frames with
    | nil => rfl
    | cons frame frames =>
      cases frame with
      | array items =>
        cases lexeme with
        | closeArray =>
          show _ = Except.ok (Expected.delimiter (Json.arr (value :: items).reverse).settled
            (frames.map Frame.settled))
          rw [settled_arr,List.map_reverse]
          rfl
        | _ => rfl
      | object fields key =>
        cases lexeme with
        | closeObject => exact @closeObject_settled frames ((key,value) :: fields)
        | _ => rfl

theorem settled_eq_delimiter (same : expected.settled = .delimiter value []) :
    ∃ last, expected = .delimiter last [] := by
  cases expected with
  | delimiter last frames =>
    obtain ⟨_,none⟩ := Expected.delimiter.inj same
    exact ⟨last,by rw [List.map_eq_nil_iff.mp none]⟩
  | _ => cases same

-- Keeping the last value of each key while decoding is keeping all fields, and settling the tree.
theorem feed_settled (scalars : ∀ offset value, (offset,Lexeme.scalar value) ∈ placed → Scalar value) :
    feed keepLast expected.settled placed = (feed keepAll expected placed).map settled := by
  induction placed generalizing expected with
  | nil =>
    rw [feed_nil,feed_nil]
    rfl
  | cons first rest ih =>
    obtain ⟨offset,lexeme⟩ := first
    by_cases final : ∃ last, expected = .delimiter last [] ∧ lexeme = .fin
    · obtain ⟨last,rfl,rfl⟩ := final
      rfl
    · have unended : ∀ last, expected = .delimiter last [] → lexeme ≠ .fin :=
        fun last whole same => final ⟨last,whole,same⟩
      have unsettled : ∀ value, expected.settled = .delimiter value [] → lexeme ≠ .fin := by
        intro value whole
        obtain ⟨last,whole⟩ := settled_eq_delimiter whole
        exact unended last whole
      have scalar : ∀ value, lexeme = .scalar value → Scalar value := by
        rintro value rfl
        exact scalars offset value List.mem_cons_self
      rw [feed_cons unsettled,feed_cons unended,step_settled scalar]
      cases step keepAll offset lexeme expected with
      | error fault => rfl
      | ok next => exact ih fun offset value member => scalars offset value (List.mem_cons_of_mem _ member)

theorem decode_settled : decode s = (decodeWith keepAll s).map settled := by
  have fed : feed keepLast (.value []) (lexemes s) = (feed keepAll (.value []) (lexemes s)).map settled :=
    @feed_settled (.value []) (lexemes s) fun _ _ => scalar_of_mem_lexemesFrom
  unfold decode decodeWith
  split
  · rfl
  · rw [fed]
    cases feed keepAll (.value []) (lexemes s) <;> rfl

-- What decodes is what writes a tree.
theorem decode_ok_iff : decode s = .ok value ↔ ∃ tree, WritesTree s tree ∧ value = tree.settled := by
  rw [decode_settled]
  constructor
  · intro decoded
    cases kept : decodeWith keepAll s with
    | error fault => rw [kept] at decoded; cases decoded
    | ok tree =>
      rw [kept] at decoded
      cases decoded
      exact ⟨tree,writesTree_iff.mpr kept,rfl⟩
  · rintro ⟨tree,writes,rfl⟩
    rw [writesTree_iff.mp writes]
    rfl

theorem not_repeats_of_distinct (distinct : tree.Distinct) : ¬tree.Repeats key := by
  intro repeats
  induction repeats with
  | here twice => exact List.nodup_iff_forall_not_duplicate.mp (distinct_obj.mp distinct).1 key twice
  | item member _ ih => exact ih (distinct_arr.mp distinct _ member)
  | field member _ ih => exact ih ((distinct_obj.mp distinct).2 _ member)

theorem duplicate_of_repeated? (found : repeated? keys = some key) : List.Duplicate key keys := by
  have run : ∀ seen, repeated?.go seen keys = some key →
      List.Duplicate key keys ∨ key ∈ keys ∧ key ∈ seen := by
    clear found
    induction keys with
    | nil => exact nofun
    | cons first rest ih =>
      intro seen found
      rw [repeated?.go] at found
      split at found
      · rename_i old
        cases found
        exact .inr ⟨List.mem_cons_self,old⟩
      · rcases ih _ found with twice | ⟨later,old⟩
        · exact .inl (twice.duplicate_cons first)
        · rcases List.mem_cons.mp old with rfl | old
          · exact .inl (List.Mem.duplicate_cons_self later)
          · exact .inr ⟨List.mem_cons_of_mem _ later,old⟩
  rcases run [] found with twice | ⟨_,none⟩
  · exact twice
  · cases none

theorem startValue_repeats (held : ∃ frame ∈ frames, frame.Repeats key)
    (stepped : startValue offset lexeme frames = .ok next) : next.Repeats key := by
  cases lexeme with
  | scalar | string =>
    cases stepped
    exact .inr held
  | openArray | openObject =>
    cases stepped
    exact held
  | closeObject | closeArray | colon | comma | longInteger | badString | stray | fin => cases stepped

theorem startKey_repeats
    (held : (∃ field ∈ fields, field.2.Repeats key) ∨ ∃ frame ∈ frames, frame.Repeats key)
    (stepped : startKey offset lexeme fields frames = .ok next) : next.Repeats key := by
  cases lexeme with
  | string written =>
    cases stepped
    exact held
  | openArray | openObject | closeObject | closeArray | colon | comma | longInteger | badString | stray
  | fin | scalar => cases stepped

theorem repeats_obj_reverse (held : ∃ field ∈ fields, field.2.Repeats key) :
    (Json.obj fields.reverse).Repeats key := by
  obtain ⟨field,member,inside⟩ := held
  exact .field (List.mem_reverse.mpr member) inside

theorem repeats_arr_reverse (held : ∃ item ∈ items, item.Repeats key) :
    (Json.arr items.reverse).Repeats key := by
  obtain ⟨item,member,inside⟩ := held
  exact .item (List.mem_reverse.mpr member) inside

theorem repeats_inArray : (Expected.delimiter value (.array items :: frames)).Repeats key ↔
    (∃ item ∈ value :: items, item.Repeats key) ∨ ∃ frame ∈ frames, frame.Repeats key := by
  simp only [Expected.Repeats,Frame.Repeats,List.exists_mem_cons_iff,or_assoc]

theorem repeats_inObject : (Expected.delimiter value (.object fields other :: frames)).Repeats key ↔
    (∃ field ∈ (other,value) :: fields, field.2.Repeats key) ∨
      ∃ frame ∈ frames, frame.Repeats key := by
  simp only [Expected.Repeats,Frame.Repeats,List.exists_mem_cons_iff,or_assoc]

-- A key that was written twice in an object stays so, whatever the object becomes part of.
theorem step_repeats (held : expected.Repeats key)
    (stepped : step keepAll offset lexeme expected = .ok next) : next.Repeats key := by
  unfold step at stepped
  split at stepped
  · exact startValue_repeats held stepped
  · split at stepped
    · cases stepped
      exact .inr held
    · exact startValue_repeats (List.exists_mem_cons_iff _ _ _ |>.mpr (.inr held)) stepped
  · split at stepped
    · cases stepped
      exact .inr held
    · exact startKey_repeats (.inr held) stepped
  · exact startKey_repeats held stepped
  · split at stepped
    · cases stepped
      exact (List.exists_mem_cons_iff _ _ _).mpr held
    · cases stepped
  · cases stepped
  · rw [repeats_inArray] at held
    split at stepped
    · cases stepped
      exact (List.exists_mem_cons_iff _ _ _).mpr held
    · cases stepped
      exact held.imp_left repeats_arr_reverse
    · cases stepped
  · rw [repeats_inObject] at held
    split at stepped
    · cases stepped
      exact held
    · cases stepped
      exact held.imp_left repeats_obj_reverse
    · cases stepped

theorem Fed.repeats (fed : Fed keepAll expected placed tree) (held : expected.Repeats key) :
    tree.Repeats key := by
  induction fed with
  | done =>
    rcases held with inside | ⟨_,none,_⟩
    · exact inside
    · cases none
  | next stepped _ ih => exact ih (step_repeats held stepped)

-- One step of a reader that refuses a repeated key: the step of one that keeps all fields, or the
-- refusal of a key that an object now has twice.
def Refuses (key : Str) (refused kept : Step) : Prop :=
  refused = .error (.other (.repeatedKey key)) ∧ ∃ next, kept = .ok next ∧ next.Repeats key

theorem closeObject_refuseRepeated : closeObject refuseRepeated fields frames =
      closeObject keepAll fields frames ∨
    ∃ key, Refuses key (closeObject refuseRepeated fields frames) (closeObject keepAll fields frames) := by
  cases found : repeated? (fields.reverse.map (·.1)) with
  | none =>
    left
    rw [closeObject,refuseRepeated,found]
    rfl
  | some key =>
    right
    refine ⟨key,?_,_,rfl,.inl (.here (duplicate_of_repeated? found))⟩
    rw [closeObject,refuseRepeated,found]

theorem step_refuseRepeated : step refuseRepeated offset lexeme expected =
      step keepAll offset lexeme expected ∨
    ∃ key, Refuses key (step refuseRepeated offset lexeme expected)
      (step keepAll offset lexeme expected) := by
  unfold step
  split
  · exact .inl rfl
  · exact .inl rfl
  · split
    · exact closeObject_refuseRepeated
    · exact .inl rfl
  · exact .inl rfl
  · exact .inl rfl
  · exact .inl rfl
  · exact .inl rfl
  · split
    · exact .inl rfl
    · exact closeObject_refuseRepeated
    · exact .inl rfl

-- Refusing repeated keys while decoding is keeping all fields, until a key is refused that the tree
-- of the whole text has twice.
theorem feed_refuseRepeated : feed refuseRepeated expected placed = feed keepAll expected placed ∨
    ∃ key, feed refuseRepeated expected placed = .error (.other (.repeatedKey key)) ∧
      ∀ tree, feed keepAll expected placed = .ok tree → tree.Repeats key := by
  induction placed generalizing expected with
  | nil =>
    rw [feed_nil,feed_nil]
    exact .inl rfl
  | cons first rest ih =>
    obtain ⟨offset,lexeme⟩ := first
    by_cases final : ∃ last, expected = .delimiter last [] ∧ lexeme = .fin
    · obtain ⟨last,rfl,rfl⟩ := final
      exact .inl rfl
    · have unended : ∀ last, expected = .delimiter last [] → lexeme ≠ .fin :=
        fun last whole same => final ⟨last,whole,same⟩
      rw [feed_cons unended,feed_cons unended]
      rcases @step_refuseRepeated expected lexeme offset with same | ⟨key,refused,next,kept,twice⟩
      · rw [same]
        cases step keepAll offset lexeme expected with
        | error fault => exact .inl rfl
        | ok next => exact ih
      · rw [refused,kept]
        exact .inr ⟨key,rfl,fun tree fed => (fed_of_feed fed).repeats twice⟩

theorem decodeWith_refuseRepeated : decodeWith refuseRepeated s = decodeWith keepAll s ∨
    ∃ key, decodeWith refuseRepeated s = .error (.repeatedKey key) ∧
      ∀ tree, decodeWith keepAll s = .ok tree → tree.Repeats key := by
  unfold decodeWith
  split
  · exact .inl rfl
  · rcases @feed_refuseRepeated (.value []) (lexemes s) with same | ⟨key,refused,twice⟩
    · rw [same]
      exact .inl rfl
    · rw [refused]
      refine .inr ⟨key,rfl,fun tree decoded => twice tree ?_⟩
      split at decoded
      · cases decoded
        assumption
      · cases decoded

end ProtocolNet.Json

namespace ProtocolNet.Net

open Json

variable {source : String} {text : List Char} {tree : Json} {fault : DecodeFault}

theorem ofText_error (refused : decodeWith refuseRepeated text = .error fault) :
    ∃ told, ofText source text = .error told ∧ told.isTold = true := by
  unfold ofText
  rw [refused]
  cases fault with
  | repeatedKey key => exact ⟨_,rfl,rfl⟩
  | malformed | longInteger => exact ⟨_,rfl,rfl⟩

theorem ofText_of_unrepeated (writes : WritesTree text tree) (once : ∀ key, ¬tree.Repeats key) :
    decode text = .ok tree ∧ ofText source text = ofJson tree := by
  rw [writesTree_iff] at writes
  rcases @decodeWith_refuseRepeated text with same | ⟨key,_,twice⟩
  · rw [writes] at same
    refine ⟨?_,?_⟩
    · rw [decode_settled,writes]
      show Except.ok tree.settled = _
      rw [settled_of_distinct (distinct_of_decodeWith fair_refuseRepeated same)]
    · rw [ofText,same]
  · exact absurd (twice tree writes) (once key)

theorem ofText_of_repeated {key : Str} (writes : WritesTree text tree) (twice : tree.Repeats key) :
    ∃ key, tree.Repeats key ∧ ofText source text = .error (.repeatedKey key) := by
  rw [writesTree_iff] at writes
  rcases @decodeWith_refuseRepeated text with same | ⟨refused,closed,held⟩
  · rw [writes] at same
    have distinct := distinct_of_decodeWith fair_refuseRepeated same
    exact absurd twice (not_repeats_of_distinct distinct)
  · refine ⟨refused,held tree writes,?_⟩
    rw [ofText,closed]

theorem ofText_of_unwritten (unwritten : ∀ tree, ¬WritesTree text tree) :
    ∃ fault, ofText source text = .error fault ∧ fault.isTold = true := by
  cases read : decodeWith refuseRepeated text with
  | error fault => exact ofText_error read
  | ok tree =>
    rcases @decodeWith_refuseRepeated text with same | ⟨key,refused,_⟩
    · exact absurd (writesTree_iff.mpr (same ▸ read)) (unwritten tree)
    · rw [refused] at read
      cases read

-- No key is overridden silently. A text whose tree has a key twice in some object is refused for
-- such a key; the text of any other tree is read as the tree, which is what plain decoding gives;
-- and the texts of trees are all that plain decoding accepts.
theorem no_key_overridden (source : String) (text : List Char) :
    (∀ tree key, WritesTree text tree → tree.Repeats key →
      ∃ key, tree.Repeats key ∧ ofText source text = .error (.repeatedKey key) ∧
        (LoadFault.repeatedKey key).isTold = true) ∧
    (∀ tree, WritesTree text tree → (∀ key, ¬tree.Repeats key) →
      decode text = .ok tree ∧ ofText source text = ofJson tree) ∧
    (∀ value, decode text = .ok value ↔ ∃ tree, WritesTree text tree ∧ value = tree.settled) ∧
    ((∀ tree, ¬WritesTree text tree) →
      ∃ fault, ofText source text = .error fault ∧ fault.isTold = true) := by
  refine ⟨fun tree key writes twice => ?_,fun _ => ofText_of_unrepeated,fun _ => decode_ok_iff,
    ofText_of_unwritten⟩
  obtain ⟨refused,held,read⟩ := @ofText_of_repeated source text tree key writes twice
  exact ⟨refused,held,read,rfl⟩

-- The key stands deep in a part that no reader of a net looks at, and is written in two ways.
def aside : List Char := "\x7b\"note\": [\x7b\"a\": 1, \"\\u0061\": 2\x7d]\x7d".toList

def asideTree : Json := .obj [("note",.arr [.obj [("a",.int 1),("a",.int 2)]])]

theorem writesTree_aside : WritesTree aside asideTree := rfl

theorem no_key_overridden_aside : asideTree.Repeats "a" ∧
    (∃ key, ofText "net.json" aside = .error (.repeatedKey key)) ∧
      decode aside = .ok (.obj [("note",.arr [.obj [("a",.int 2)]])]) := by
  have twice : asideTree.Repeats "a" :=
    .field List.mem_cons_self (.item List.mem_cons_self (.here (.cons_mem List.mem_cons_self)))
  obtain ⟨refuses,_,decodes,_⟩ := no_key_overridden "net.json" aside
  obtain ⟨key,_,refused,_⟩ := refuses asideTree "a" writesTree_aside twice
  exact ⟨twice,⟨key,refused⟩,(decodes _).mpr ⟨asideTree,writesTree_aside,rfl⟩⟩

end ProtocolNet.Net
