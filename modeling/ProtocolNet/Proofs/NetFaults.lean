import ProtocolNet.Proofs.Definitions
import ProtocolNet.Proofs.FileTree
import ProtocolNet.Proofs.LongNumerals

namespace ProtocolNet.Net

open Transcript (HasLongNumber)

-- Readings that end in a fault that is not told as one of the definition.
def Untold {α : Type} (result : Load α) : Prop := ∃ fault, result = .error fault ∧ fault.isTold = false

-- The first item that is not good is a bad one.
def First {α : Type} (good bad : α → Prop) (items : List α) : Prop :=
  ∃ before item after, items = before ++ item :: after ∧ (∀ other ∈ before, good other) ∧ bad item

section Readings

variable {α β : Type} {good bad : α → Prop} {item : α} {items : List α} {value : α} {fault : LoadFault}
  {first : Load α} {next : α → Load β}

@[simp] theorem untold_ok : ¬Untold (.ok value : Load α) := by
  rintro ⟨fault,same,_⟩
  cases same

@[simp] theorem untold_error : Untold (.error fault : Load α) ↔ fault.isTold = false := by
  simp [Untold]

-- What is not told is neither a value nor a fault of the definition.
theorem Untold.escapes {result : Load α} (untold : Untold result) : (¬∃ value, result = .ok value) ∧
    ¬∃ fault, result = .error fault ∧ fault.isTold = true := by
  obtain ⟨fault,rfl,untold⟩ := untold
  constructor
  · exact nofun
  · rintro ⟨other,same,told⟩
    cases same
    rw [untold] at told
    cases told

theorem untold_bind_iff : Untold (first >>= next) ↔
    Untold first ∨ ∃ value, first = .ok value ∧ Untold (next value) := by
  cases first with
  | error fault => simp [bind,Except.bind]
  | ok value => simp [bind,Except.bind]

theorem untold_map_iff {f : α → β} : Untold (first.map f) ↔ Untold first := by
  cases first <;> simp [Except.map]

@[simp] theorem first_nil : ¬First good bad [] := by
  rintro ⟨before,item,after,split,_⟩
  cases before <;> cases split

theorem first_cons : First good bad (item :: items) ↔ bad item ∨ good item ∧ First good bad items := by
  constructor
  · rintro ⟨before,found,after,split,all,spoiled⟩
    cases before with
    | nil =>
      cases split
      exact .inl spoiled
    | cons head before =>
      cases split
      obtain ⟨here,others⟩ := List.forall_mem_cons.mp all
      exact .inr ⟨here,before,found,after,rfl,others,spoiled⟩
  · rintro (spoiled | ⟨here,before,found,after,rfl,others,spoiled⟩)
    · exact ⟨[],item,items,rfl,List.forall_mem_nil _,spoiled⟩
    · exact ⟨item :: before,found,after,rfl,List.forall_mem_cons.mpr ⟨here,others⟩,spoiled⟩

-- A list of items ends the reading at its first item that cannot be read.
theorem untold_mapM_iff {f : α → Load β} : Untold (items.mapM f) ↔
    First (fun item => ∃ result, f item = .ok result) (fun item => Untold (f item)) items := by
  induction items with
  | nil => simp [pure,Except.pure]
  | cons item items ih =>
    simp only [List.mapM_cons,untold_bind_iff,first_cons,ih,pure,Except.pure,untold_ok,and_false,
      exists_false,or_false]
    cases f item <;> simp

theorem untold_readItems_iff {read : Str → Json → Load α} {good bad : Json → Prop} {site : Str}
    {index : Nat} {items : List Json}
    (succeeds : ∀ site item, (∃ result, read site item = .ok result) ↔ good item)
    (fails : ∀ site item, Untold (read site item) ↔ bad item) :
    Untold (readItems read site index items) ↔ First good bad items := by
  induction items generalizing index with
  | nil => simp [readItems]
  | cons item items ih =>
    simp only [readItems,untold_bind_iff,first_cons,ih,pure,Except.pure,untold_ok,and_false,
      exists_false,or_false,fails]
    rw [← succeeds (itemSite site index) item]
    cases read (itemSite site index) item <;> simp

end Readings

-- An item of the initial marking that ends the reading: a text whose number is too long, or a value
-- that is no token and whose message would have to show a number that is too long.
inductive SpoiledItem : Json → Prop
  | text {written : Str} (long : HasLongNumber (Text.trim written.shown)) :
      SpoiledItem (.str written)
  | list {items : List Json} (size : items.length ≠ 2)
      (heavy : (Json.arr items).isWritable = false) : SpoiledItem (.arr items)
  | pair {kind value : Json} (untexted : ∀ s, kind ≠ .str s) (heavy : kind.isWritable = false) :
      SpoiledItem (.arr [kind,value])
  | object {fields : List (Str × Json)} {kind : Json} (ofKind : fields.lookup ↑"kind" = some kind)
      (untexted : ∀ s, kind ≠ .str s) (heavy : kind.isWritable = false) : SpoiledItem (.obj fields)
  | number {n : Int} (heavy : Text.isWritable n.natAbs = false) : SpoiledItem (.int n)

def SpoiledArc (value : Json) : Prop := (∀ fields, value ≠ .obj fields) ∧ value.isWritable = false

def HasArcs (fields : List (Str × Json)) (side : Str) : Prop :=
  ∃ items, fields.lookup side = some (.arr items) ∧ ∃ arcs, List.Forall₂ GivesArc items arcs

def SpoiledArcs (fields : List (Str × Json)) (side : Str) : Prop :=
  ∃ items, fields.lookup side = some (.arr items) ∧
    First (fun item => ∃ arc, GivesArc item arc) SpoiledArc items

def SpoiledTransition (entry : Str × Json) : Prop :=
  ∃ fields, entry.2 = .obj fields ∧
    (SpoiledArcs fields "pre" ∨ HasArcs fields "pre" ∧ SpoiledArcs fields "post")

def SpoiledMark (mark : Str × Json) : Prop :=
  ∃ items, mark.2 = .arr items ∧ First (fun item => ∃ token, Denotes item token) SpoiledItem items

def HasPlaces (fields : List (Str × Json)) : Prop :=
  ∃ items, (fields.lookup ↑"places").getD (.arr []) = .arr items ∧ ∀ item ∈ items, ∃ s, item = .str s

def HasMapping (fields : List (Str × Json)) : Prop :=
  ∃ entries, (fields.lookup ↑"event_mapping").getD (.obj []) = .obj entries ∧
    ∀ entry ∈ entries, ∃ s, entry.2 = .str s

-- The definitions that are neither read nor refused as such. All that comes first in the order in
-- which a definition is read is in order.
inductive Spoiled : Json → Prop
  | transitions {fields transitions : List (Str × Json)} (places : HasPlaces fields)
      (found : fields.lookup ↑"transitions" = some (.obj transitions))
      (first : First (fun entry => ∃ transition, DefinesTransition entry transition)
        SpoiledTransition transitions) : Spoiled (.obj fields)
  | marking {fields transitions marks : List (Str × Json)} (places : HasPlaces fields)
      (found : fields.lookup ↑"transitions" = some (.obj transitions))
      (defined : ∀ entry ∈ transitions, ∃ transition, DefinesTransition entry transition)
      (mapping : HasMapping fields)
      (marked : (fields.lookup ↑"initial_marking").getD (.obj []) = .obj marks)
      (first : First ReadableMark SpoiledMark marks) : Spoiled (.obj fields)

variable {value : Json} {fields marks transitions : List (Str × Json)} {site id side : Str}
  {marking : Marking} {written : Str} {entry : Str × Json} {place : Str}
  {table : TransitionTable}

theorem readKindValue_untold_iff {kind : Json} : Untold (readKindValue site kind value) ↔
    (∀ s, kind ≠ .str s) ∧ kind.isWritable = false := by
  cases kind with
  | str s =>
    rw [readKindValue]
    cases Token.make s value <;> simp [LoadFault.isTold]
  | null | bool | int | float | arr | obj => simp [readKindValue,LoadFault.isTold]

theorem readToken_untold_iff : Untold (readInitialToken site (.str written)) ↔
    HasLongNumber (Text.trim written.shown) := by
  have long : HasLongNumber (Text.trim written.shown) ↔
      ∃ fault, Transcript.readToken (.ofList written.shown) = .error (.longNumber fault) := by
    simp only [Transcript.readToken_longNumber_iff,Transcript.readSentence_longNumber_iff,
      String.toList_ofList]
    constructor
    · rintro ⟨lexemes,size,breaks,viable⟩
      exact ⟨_,lexemes,size,rfl,breaks,viable⟩
    · rintro ⟨_,lexemes,size,_,breaks,viable⟩
      exact ⟨lexemes,size,breaks,viable⟩
  rw [long,readInitialToken]
  cases Transcript.readToken (.ofList written.shown) with
  | ok token => simp
  | error fault => cases fault <;> simp [LoadFault.isTold]

theorem spoiledItem_str : SpoiledItem (.str written) ↔ HasLongNumber (Text.trim written.shown) := by
  constructor
  · intro spoiled
    cases spoiled with
    | text long => exact long
  · exact .text

theorem spoiledItem_int {n : Int} : SpoiledItem (.int n) ↔ Text.isWritable n.natAbs = false := by
  constructor
  · intro spoiled
    cases spoiled with
    | number heavy => exact heavy
  · exact .number

theorem spoiledItem_pair {kind : Json} : SpoiledItem (.arr [kind,value]) ↔
    (∀ s, kind ≠ .str s) ∧ kind.isWritable = false := by
  constructor
  · intro spoiled
    cases spoiled with
    | list size => exact absurd rfl size
    | pair untexted heavy => exact ⟨untexted,heavy⟩
  · rintro ⟨untexted,heavy⟩
    exact .pair untexted heavy

theorem spoiledItem_list {items : List Json} (size : items.length ≠ 2) :
    SpoiledItem (.arr items) ↔ (Json.arr items).isWritable = false := by
  constructor
  · intro spoiled
    cases spoiled with
    | list _ heavy => exact heavy
    | pair => exact absurd rfl size
  · exact .list size

-- A missing kind counts as null, which can be shown.
theorem spoiledItem_obj : SpoiledItem (.obj fields) ↔
    (∀ s, Json.orNull (fields.lookup ↑"kind") ≠ .str s) ∧
      (Json.orNull (fields.lookup ↑"kind")).isWritable = false := by
  constructor
  · intro spoiled
    cases spoiled with
    | object ofKind untexted heavy =>
      rw [ofKind]
      exact ⟨untexted,heavy⟩
  · rintro ⟨untexted,heavy⟩
    cases here : fields.lookup ↑"kind" with
    | none =>
      rw [here] at heavy
      cases heavy
    | some kind =>
      rw [here] at untexted heavy
      exact .object here untexted heavy

theorem readInitialToken_untold_iff : Untold (readInitialToken site value) ↔ SpoiledItem value := by
  cases value with
  | null | bool | float =>
    simp only [readInitialToken,untold_error,LoadFault.isTold,Json.isWritable]
    constructor
    · intro untold
      cases untold
    · intro spoiled
      cases spoiled
  | int n =>
    simp only [readInitialToken,untold_error,LoadFault.isTold,Json.isWritable]
    exact spoiledItem_int.symm
  | str written => rw [readToken_untold_iff,spoiledItem_str]
  | arr items =>
    by_cases two : items.length = 2
    · obtain ⟨kind,value,rfl⟩ := List.length_eq_two.mp two
      rw [readInitialToken,readKindValue_untold_iff,spoiledItem_pair]
    · have shape : ∀ kind value, items ≠ [kind,value] := by
        rintro kind value rfl
        exact two rfl
      rw [spoiledItem_list two,readInitialToken]
      · exact untold_error
      · exact shape
  | obj fields => rw [readInitialToken,readKindValue_untold_iff,spoiledItem_obj]

theorem readArc_untold_iff : Untold (readArc site value) ↔ SpoiledArc value := by
  cases value with
  | obj fields =>
    have told : ¬Untold (readPattern site fields) := by
      unfold readPattern
      split
      · split <;> simp [LoadFault.isTold]
      · split
        · split <;> simp
        · simp
    rw [readArc]
    constructor
    · intro untold
      split at untold
      · exact absurd (untold_map_iff.mp untold) told
      · simp [LoadFault.isTold] at untold
    · rintro ⟨other,_⟩
      exact absurd rfl (other fields)
  | null | bool | int | float | str | arr => simp [readArc,SpoiledArc,LoadFault.isTold]

theorem readArcs_untold_iff : Untold (readArcs id side fields) ↔ SpoiledArcs fields side := by
  have succeeds : ∀ site item, (∃ arc, readArc site item = .ok arc) ↔ ∃ arc, GivesArc item arc :=
    fun _ _ => exists_congr fun _ => readArc_ok_iff
  unfold readArcs SpoiledArcs
  split
  · rename_i items here
    simp [here,untold_readItems_iff succeeds fun _ _ => readArc_untold_iff]
  · rename_i other
    simp only [untold_error,LoadFault.isTold,Bool.true_eq_false,false_iff,not_exists,not_and]
    exact fun items here => absurd here (other items)

theorem readTransition_untold_iff :
    Untold (readTransition id value) ↔ SpoiledTransition (id,value) := by
  cases value with
  | obj fields =>
    have arcs : (∃ arcs, readArcs id "pre" fields = .ok arcs) ↔ HasArcs fields "pre" := by
      simp only [readArcs_ok_iff,HasArcs]
      constructor
      · rintro ⟨arcs,items,here,gives⟩
        exact ⟨items,here,arcs,gives⟩
      · rintro ⟨items,here,arcs,gives⟩
        exact ⟨arcs,items,here,gives⟩
    simp only [readTransition,untold_bind_iff,readArcs_untold_iff,pure,Except.pure,untold_ok,and_false,
      exists_false,or_false,SpoiledTransition,Json.obj.injEq,exists_eq_left',exists_and_right,arcs]
  | null | bool | int | float | str | arr => simp [readTransition,SpoiledTransition,LoadFault.isTold]

theorem readTransitions_untold_iff : Untold (readTransitions (.obj transitions)) ↔
    First (fun entry => ∃ transition, DefinesTransition entry transition) SpoiledTransition
      transitions := by
  simp only [readTransitions,untold_bind_iff,untold_mapM_iff,readTransition_ok_iff,
    readTransition_untold_iff,pure,Except.pure,untold_ok,and_false,exists_false,or_false]

theorem readPlace_readable_iff : (∃ after, readPlace marking place value = .ok after) ↔
    ReadableMark (place,value) := by
  simp only [readPlace_ok_iff,ReadableMark]
  constructor
  · rintro ⟨_,items,tokens,rfl,denote,_⟩
    exact ⟨items,rfl,exists_forall₂_iff.mp ⟨tokens,denote⟩⟩
  · rintro ⟨items,here,each⟩
    obtain ⟨tokens,denote⟩ := exists_forall₂_iff.mpr each
    exact ⟨_,items,tokens,here,denote,rfl⟩

theorem readPlace_untold_iff : Untold (readPlace marking place value) ↔ SpoiledMark (place,value) := by
  have succeeds : ∀ site item, (∃ token, readInitialToken site item = .ok token) ↔
      ∃ token, Denotes item token := fun _ _ => exists_congr fun _ => readInitialToken_ok_iff
  cases value with
  | arr items =>
    simp only [readPlace,untold_bind_iff,pure,Except.pure,untold_ok,and_false,exists_false,or_false,
      untold_readItems_iff succeeds fun _ _ => readInitialToken_untold_iff,SpoiledMark,Json.arr.injEq,
      exists_eq_left']
  | null | bool | int | float | str | obj => simp [readPlace,SpoiledMark,LoadFault.isTold]

theorem readMarking_untold_iff : Untold (readMarking (.obj marks)) ↔
    First ReadableMark SpoiledMark marks := by
  have run : ∀ start : Marking,
      Untold (marks.foldlM (fun marking mark => readPlace marking mark.1 mark.2) start) ↔
        First ReadableMark SpoiledMark marks := by
    induction marks with
    | nil => exact fun start => by simp [pure,Except.pure]
    | cons mark marks ih =>
      intro start
      simp only [List.foldlM_cons,untold_bind_iff,first_cons,ih,readPlace_untold_iff,
        exists_and_right,readPlace_readable_iff]
  exact run .empty

theorem told_readPlaces : ¬Untold (readPlaces value) := by
  unfold readPlaces
  split
  · split <;> simp [LoadFault.isTold]
  · simp [LoadFault.isTold]

theorem told_readMapping : ¬Untold (readMapping value) := by
  unfold readMapping
  split
  · split <;> simp [LoadFault.isTold]
  · simp [LoadFault.isTold]

theorem told_readSeedRule {transition : Option Transition} : ¬Untold (readSeedRule id transition value) := by
  unfold readSeedRule
  split
  · split
    · split <;> simp [LoadFault.isTold]
    · simp
  · simp [LoadFault.isTold]

theorem not_first {α : Type} {good bad : α → Prop} {items : List α} (none : ∀ item, ¬bad item) :
    ¬First good bad items := by
  rintro ⟨_,item,_,_,_,spoiled⟩
  exact none item spoiled

theorem told_readSeeds : ¬Untold (readSeeds table value) := by
  have rules : ∀ id value, ¬Untold (readSeedRules table id value) := by
    intro id value
    unfold readSeedRules
    split
    · rw [untold_mapM_iff]
      exact not_first fun _ => told_readSeedRule
    · simp [LoadFault.isTold]
  cases value with
  | obj fields =>
    simp only [readSeeds,untold_bind_iff,untold_mapM_iff,pure,Except.pure,untold_ok,and_false,
      exists_false,or_false]
    exact not_first fun entry => rules entry.1 entry.2
  | null | bool | int | float | str | arr => simp [readSeeds,LoadFault.isTold]

theorem mapM_some_iff {α β : Type} {f : α → Option β} {items : List α} :
    (∃ results, items.mapM f = some results) ↔ ∀ item ∈ items, ∃ result, f item = some result := by
  induction items with
  | nil => simp
  | cons item items ih =>
    rw [List.forall_mem_cons,← ih,List.mapM_cons]
    cases f item with
    | none => simp
    | some result => cases items.mapM f <;> simp

theorem readPlaces_ok_iff : (∃ places, readPlaces ((fields.lookup ↑"places").getD (.arr [])) = .ok places) ↔
    HasPlaces fields := by
  unfold HasPlaces
  generalize (fields.lookup ↑"places").getD (.arr []) = value
  cases value with
  | arr items =>
    simp only [readPlaces,Json.arr.injEq,exists_eq_left',← text?_eq_some_iff,← mapM_some_iff]
    cases items.mapM (·.text?) <;> simp
  | null | bool | int | float | str | obj => simp [readPlaces]

theorem readMapping_ok_iff :
    (∃ mapping, readMapping ((fields.lookup ↑"event_mapping").getD (.obj [])) = .ok mapping) ↔
      HasMapping fields := by
  unfold HasMapping
  generalize (fields.lookup ↑"event_mapping").getD (.obj []) = value
  cases value with
  | obj entries =>
    have each : (∀ entry ∈ entries, ∃ s, entry.2 = .str s) ↔
        ∃ found, entries.mapM (fun entry => (entry.2.text?).map (entry.1,·)) = some found := by
      rw [mapM_some_iff]
      simp [← text?_eq_some_iff]
    simp only [readMapping,Json.obj.injEq,exists_eq_left',each]
    cases entries.mapM (fun entry => (entry.2.text?).map (entry.1,·)) <;> simp
  | null | bool | int | float | str | arr => simp [readMapping]

theorem readTransitions_succeeds_iff : (∃ table, readTransitions (.obj transitions) = .ok table) ↔
    ∀ entry ∈ transitions, ∃ transition, DefinesTransition entry transition := by
  have each : (∀ entry ∈ transitions, ∃ transition, DefinesTransition entry transition) ↔
      ∃ read, (transitions.mapM fun entry => readTransition entry.1 entry.2) = .ok read := by
    simp only [mapM_ok_iff,exists_forall₂_iff,readTransition_ok_iff]
  rw [each]
  simp only [readTransitions]
  cases transitions.mapM fun entry => readTransition entry.1 entry.2 <;>
    simp [bind,Except.bind,pure,Except.pure]

theorem spoiled_of_untold (untold : Untold (ofJson (.obj fields))) : Spoiled (.obj fields) := by
  rw [ofJson] at untold
  rcases untold_bind_iff.mp untold with early | ⟨places,ofPlaces,later⟩
  · exact absurd early told_readPlaces
  have hasPlaces := readPlaces_ok_iff.mp ⟨places,ofPlaces⟩
  cases found : fields.lookup ↑"transitions" with
  | none => simp [found,LoadFault.isTold] at later
  | some document =>
    rw [found] at later
    rcases untold_bind_iff.mp later with early | ⟨table,ofTransitions,later⟩
    · cases document with
      | obj transitions => exact .transitions hasPlaces found (readTransitions_untold_iff.mp early)
      | null | bool | int | float | str | arr => simp [readTransitions,LoadFault.isTold] at early
    rcases untold_bind_iff.mp later with early | ⟨mapping,ofMapping,later⟩
    · exact absurd early told_readMapping
    have hasMapping := readMapping_ok_iff.mp ⟨mapping,ofMapping⟩
    rcases untold_bind_iff.mp later with early | ⟨initial,_,later⟩
    · cases document with
      | obj transitions =>
        have defined := readTransitions_succeeds_iff.mp ⟨table,ofTransitions⟩
        cases marked : (fields.lookup ↑"initial_marking").getD (.obj []) with
        | obj marks =>
          rw [marked] at early
          exact .marking hasPlaces found defined hasMapping marked (readMarking_untold_iff.mp early)
        | null | bool | int | float | str | arr =>
          rw [marked] at early
          simp [Net.readMarking,LoadFault.isTold] at early
      | null | bool | int | float | str | arr => cases ofTransitions
    · cases seeded : fields.lookup ↑"lazy_seed" with
      | none => simp [seeded,bind,Except.bind,pure,Except.pure] at later
      | some rules =>
        rw [seeded] at later
        rcases untold_bind_iff.mp later with early | ⟨_,_,later⟩
        · exact absurd (untold_map_iff.mp early) told_readSeeds
        · exact absurd later untold_ok

-- A definition ends its own reading exactly where it is spoiled; any other fault is told.
theorem ofJson_untold_iff : Untold (ofJson value) ↔ Spoiled value := by
  constructor
  · intro untold
    cases value with
    | obj fields => exact spoiled_of_untold untold
    | null | bool | int | float | str | arr => simp [ofJson,LoadFault.isTold] at untold
  · intro spoiled
    cases spoiled with
    | transitions places found first =>
      obtain ⟨names,ofPlaces⟩ := readPlaces_ok_iff.mpr places
      refine untold_bind_iff.mpr (.inr ⟨names,ofPlaces,?_⟩)
      rw [found]
      exact untold_bind_iff.mpr (.inl (readTransitions_untold_iff.mpr first))
    | marking places found defined mapping marked first =>
      obtain ⟨names,ofPlaces⟩ := readPlaces_ok_iff.mpr places
      obtain ⟨table,ofTransitions⟩ := readTransitions_succeeds_iff.mpr defined
      obtain ⟨targets,ofMapping⟩ := readMapping_ok_iff.mpr mapping
      refine untold_bind_iff.mpr (.inr ⟨names,ofPlaces,?_⟩)
      rw [found]
      refine untold_bind_iff.mpr (.inr ⟨table,ofTransitions,?_⟩)
      refine untold_bind_iff.mpr (.inr ⟨targets,ofMapping,?_⟩)
      rw [marked]
      exact untold_bind_iff.mpr (.inl (readMarking_untold_iff.mpr first))

variable {source : String} {text : List Char} {files : Files} {path : Path}

theorem ofText_untold_iff : Untold (ofText source text) ↔
    ∃ value, Json.decodeWith Json.refuseRepeated text = .ok value ∧ Spoiled value := by
  rw [ofText]
  cases Json.decodeWith Json.refuseRepeated text with
  | ok value => simp [ofJson_untold_iff]
  | error fault => cases fault <;> simp [LoadFault.isTold]

theorem SpoiledItem.text_of_writable {item : Json} (spoiled : SpoiledItem item)
    (writable : item.isWritable = true) :
    ∃ written, item = .str written ∧ HasLongNumber (Text.trim written.shown) := by
  have light : ∀ value : Json, value.isWritable = true → value.isWritable ≠ false := by
    intro value here there
    rw [here] at there
    cases there
  cases spoiled with
  | text long => exact ⟨_,rfl,long⟩
  | list _ heavy => exact absurd heavy (light _ writable)
  | pair _ heavy =>
    exact absurd heavy (light _ (Json.areWritable_iff.mp writable _ List.mem_cons_self))
  | object ofKind _ heavy =>
    exact absurd heavy (light _ (Json.isWritable_of_lookup writable ofKind))
  | @number n heavy => exact absurd heavy (light (.int n) writable)

-- With numbers that may be written, only a number inside the text of a token is too long.
theorem Spoiled.hasLongNumber (spoiled : Spoiled (.obj fields))
    (writable : (Json.obj fields).isWritable = true) :
    ∃ marks place items written, fields.lookup ↑"initial_marking" = some (.obj marks) ∧
      (place,.arr items) ∈ marks ∧ .str written ∈ items ∧
      HasLongNumber (Text.trim written.shown) := by
  cases spoiled with
  | transitions places found first =>
    obtain ⟨before,⟨name,value⟩,after,rfl,_,parts,rfl,sides⟩ := first
    have document := Json.isWritable_of_lookup writable found
    have inside : (Json.obj parts).isWritable = true :=
      Json.haveWritable_iff.mp document (name,.obj parts) (by simp)
    have arcs : ∀ side, ¬SpoiledArcs parts side := by
      rintro side ⟨items,here,_,item,_,rfl,_,_,heavy⟩
      have light := Json.isWritable_of_lookup inside here
      rw [Json.areWritable_iff.mp light item (by simp)] at heavy
      cases heavy
    rcases sides with pre | ⟨_,post⟩
    · exact absurd pre (arcs "pre")
    · exact absurd post (arcs "post")
  | marking places found defined mapping marked first =>
    obtain ⟨before,⟨place,value⟩,after,rfl,_,items,rfl,front,item,back,rfl,_,spoiled⟩ := first
    cases here : fields.lookup ↑"initial_marking" with
    | none => rw [here] at marked; simp at marked
    | some document =>
      rw [here,Option.getD_some] at marked
      subst marked
      have marks := Json.isWritable_of_lookup writable here
      have items := Json.haveWritable_iff.mp marks (place,.arr (front ++ item :: back)) (by simp)
      have light := Json.areWritable_iff.mp items item (by simp)
      obtain ⟨written,rfl,long⟩ := spoiled.text_of_writable light
      exact ⟨_,place,front ++ .str written :: back,written,rfl,by simp,by simp,long⟩

theorem ofFile_untold_iff : Untold (ofFile files path) ↔ path.hasNull = true ∨
    ∃ text, files.readText path = .ok text ∧ Untold (ofText path.text text) := by
  have null : files.readText path = .error (.file .nullCharacter) ↔ path.hasNull = true := by
    rw [← @Files.read_null_iff files path,Files.readText]
    cases files.read path with
    | error fault => simp
    | ok bytes => dsimp only; split <;> simp
  rw [← null,ofFile]
  cases files.readText path with
  | ok text => simp
  | error fault =>
    cases fault with
    | encoding fault => simp [LoadFault.isTold]
    | file fault => cases fault <;> simp [LoadFault.isTold]

theorem validate_of_ok {net : Net} (read : ofFile files path = .ok net) :
    validate files path = .ok [] := by
  rw [validate,read]

theorem validate_of_told {fault : LoadFault} (read : ofFile files path = .error fault)
    (told : fault.isTold = true) : validate files path = .ok [fault.message] := by
  rw [validate,read]
  exact if_pos told

theorem validate_of_untold {fault : LoadFault} (read : ofFile files path = .error fault)
    (untold : fault.isTold = false) : validate files path = .error fault := by
  rw [validate,read]
  exact if_neg (by rw [untold]; exact Bool.false_ne_true)

theorem validate_nil_iff : validate files path = .ok [] ↔ ∃ net, ofFile files path = .ok net := by
  constructor
  · intro valid
    cases read : ofFile files path with
    | ok net => exact ⟨net,rfl⟩
    | error fault =>
      cases told : fault.isTold with
      | true => rw [validate_of_told read told] at valid; cases valid
      | false => rw [validate_of_untold read told] at valid; cases valid
  · rintro ⟨net,read⟩
    exact validate_of_ok read

-- A definition with one text in its initial marking.
def markedBy (written : Str) : Json :=
  .obj [("transitions",.obj []),("initial_marking",.obj [("free",.arr [.str written])])]

theorem spoiled_markedBy (long : HasLongNumber (Text.trim written.shown)) :
    Spoiled (markedBy written) :=
  .marking ⟨[],rfl,List.forall_mem_nil _⟩ rfl (List.forall_mem_nil _)
    ⟨[],rfl,List.forall_mem_nil _⟩ rfl
    (first_cons.mpr (.inl ⟨_,rfl,first_cons.mpr (.inl (.text long))⟩))

theorem decoded_markedBy (apart : written.Apart) :
    Json.decodeWith Json.refuseRepeated (markedBy written).encode.toList = .ok (markedBy written) := by
  refine Json.decodeWith_encode Json.refuseRepeated_faithful _ ?_
  simp [markedBy,Json.Sound,Json.SoundItems,Json.SoundFields,Json.apart_ofString,apart]

def lockOf (digits : List Char) : String := .ofList ("Lock".toList ++ '(' :: (digits ++ [')']))

theorem hasLongNumber_lockOf {digits : List Char} (each : ∀ c ∈ digits, Text.isDigit c = true)
    (long : Text.digitLimit < digits.length) :
    HasLongNumber (Text.trim (Str.shown (lockOf digits))) := by
  have named : Transcript.Lexes.isName "Lock".toList = true := by decide
  rw [Str.shown_ofString,lockOf,String.toList_ofList]
  exact Transcript.hasLongNumber_call named each long

theorem hasLongNumber_ones : HasLongNumber (Text.trim (Str.shown (lockOf (.replicate 4301 '1')))) := by
  have ones : ∀ c ∈ List.replicate 4301 '1', Text.isDigit c = true := by
    intro c member
    rw [List.eq_of_mem_replicate member]
    rfl
  refine hasLongNumber_lockOf ones ?_
  rw [List.length_replicate]
  decide

-- Whatever is wrong with a definition is told, but for numbers that are too long: one inside the
-- text of a token, or one in a value that a message would have to show. From a text only the first
-- can come. Where nothing of the kind stands in the way, a file is checked with no message or one.
theorem definitions_are_told (value : Json) (source : String) (text : List Char) (files : Files)
    (path : Path) :
    (¬Spoiled value → (∃ net, ofJson value = .ok net) ∨
      ∃ fault, ofJson value = .error fault ∧ fault.isTold = true) ∧
    (Spoiled value → ∃ fault, ofJson value = .error fault ∧ fault.isTold = false) ∧
    (Untold (ofText source text) →
      ∃ fields marks place items written, Json.decodeWith Json.refuseRepeated text = .ok (.obj fields) ∧
        fields.lookup ↑"initial_marking" = some (.obj marks) ∧ (place,.arr items) ∈ marks ∧
        .str written ∈ items ∧ HasLongNumber (Text.trim written.shown)) ∧
    (Json.decodeWith Json.refuseRepeated text = .ok value →
      (Untold (ofText source text) ↔ Spoiled value)) ∧
    (validate files path = .ok [] ↔ ∃ net, ofFile files path = .ok net) ∧
    (∀ fault, ofFile files path = .error fault → fault.isTold = true →
      validate files path = .ok [fault.message]) ∧
    (∀ fault, ofFile files path = .error fault → fault.isTold = false →
      validate files path = .error fault) ∧
    (Untold (ofFile files path) ↔ path.hasNull = true ∨
      ∃ text, files.readText path = .ok text ∧ Untold (ofText path.text text)) := by
  refine ⟨?_,ofJson_untold_iff.mpr,?_,?_,validate_nil_iff,fun _ => validate_of_told,
    fun _ => validate_of_untold,ofFile_untold_iff⟩
  · intro sound
    cases read : ofJson value with
    | ok net => exact .inl ⟨net,rfl⟩
    | error fault =>
      cases told : fault.isTold with
      | true => exact .inr ⟨fault,rfl,told⟩
      | false => exact absurd (ofJson_untold_iff.mp ⟨fault,read,told⟩) sound
  · intro untold
    obtain ⟨value,decoded,spoiled⟩ := ofText_untold_iff.mp untold
    have writable := Json.writable_of_decodeWith Json.fair_refuseRepeated decoded
    cases value with
    | obj fields =>
      obtain ⟨marks,place,items,written,marked,listed,member,long⟩ := spoiled.hasLongNumber writable
      exact ⟨fields,marks,place,items,written,decoded,marked,listed,member,long⟩
    | null | bool | int | float | str | arr => cases spoiled
  · intro decoded
    rw [ofText_untold_iff,decoded]
    simp

def netPath : Path := ⟨"",["net.json"]⟩

def netFiles (text : String) : Files :=
  ⟨⟨[("net.json",.file (Text.Utf8.encode text))],by simp⟩,[]⟩

-- A lock without its number is told, one whose number is too long is not, and a file without
-- transitions is checked with one message.
theorem definitions_are_told_lock :
    let overlong := markedBy (lockOf (.replicate 4301 '1'))
    (¬Spoiled (markedBy "Lock(") ∧
      ∃ fault, ofJson (markedBy "Lock(") = .error fault ∧ fault.isTold = true) ∧
    (Spoiled overlong ∧ ∃ fault, ofJson overlong = .error fault ∧ fault.isTold = false) ∧
    (Untold (ofText "net.json" overlong.encode.toList) ∧
      ∃ fields marks place items written,
        Json.decodeWith Json.refuseRepeated overlong.encode.toList = .ok (.obj fields) ∧
        fields.lookup ↑"initial_marking" = some (.obj marks) ∧ (place,.arr items) ∈ marks ∧
        .str written ∈ items ∧ HasLongNumber (Text.trim written.shown)) ∧
    (∃ fault, ofFile (netFiles "\x7b\x7d") netPath = .error fault ∧ fault.isTold = true) ∧
    validate (netFiles "\x7b\x7d") netPath = .ok [↑"Net definition has no 'transitions'"] := by
  intro overlong
  have empty : ofFile (netFiles "\x7b\x7d") netPath = .error .noTransitions := rfl
  have unspoiled : ¬Spoiled (markedBy "Lock(") := by
    intro spoiled
    obtain ⟨fault,read,untold⟩ := ofJson_untold_iff.mpr spoiled
    cases read
    cases untold
  have spoiled : Spoiled overlong := spoiled_markedBy hasLongNumber_ones
  obtain ⟨sound,_,_,_,_,checked,_⟩ :=
    definitions_are_told (markedBy "Lock(") "" [] (netFiles "\x7b\x7d") netPath
  obtain ⟨_,broken,within,decoded,_⟩ :=
    definitions_are_told overlong "net.json" overlong.encode.toList (netFiles "\x7b\x7d") netPath
  have escaped := (decoded (decoded_markedBy (Json.apart_ofString _))).mpr spoiled
  refine ⟨⟨unspoiled,?_⟩,⟨spoiled,broken spoiled⟩,⟨escaped,within escaped⟩,⟨_,empty,rfl⟩,
    checked _ empty rfl⟩
  rcases sound unspoiled with ⟨net,loaded⟩ | refused
  · cases loaded
  · exact refused

-- A lock whose number has too many digits is neither accepted nor told as a fault, be it in a
-- value or in its text.
theorem overlong_lock_escapes :
    let overlong := markedBy (lockOf (.replicate 4301 '1'))
    (¬∃ net, ofJson overlong = .ok net) ∧
    (¬∃ fault, ofJson overlong = .error fault ∧ fault.isTold = true) ∧
    (¬∃ net, ofText "net.json" overlong.encode.toList = .ok net) ∧
    ¬∃ fault, ofText "net.json" overlong.encode.toList = .error fault ∧ fault.isTold = true := by
  intro overlong
  have spoiled : Spoiled overlong := spoiled_markedBy hasLongNumber_ones
  have value := Untold.escapes (ofJson_untold_iff.mpr spoiled)
  have text : Untold (ofText "net.json" overlong.encode.toList) :=
    ofText_untold_iff.mpr ⟨_,decoded_markedBy (Json.apart_ofString _),spoiled⟩
  exact ⟨value.1,value.2,text.escapes.1,text.escapes.2⟩

end ProtocolNet.Net
