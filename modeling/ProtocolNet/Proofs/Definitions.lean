import ProtocolNet.Proofs.CountingFunctions
import ProtocolNet.Proofs.DecodedValues
import ProtocolNet.Proofs.Descriptors
import ProtocolNet.Proofs.Visibility

namespace ProtocolNet

theorem mapM_ok_iff {ε α β : Type} {f : α → Except ε β} {items : List α} {results : List β} :
    items.mapM f = .ok results ↔
      List.Forall₂ (fun item result => f item = .ok result) items results := by
  induction items generalizing results with
  | nil => simp [pure,Except.pure,eq_comm]
  | cons item items ih =>
    simp only [List.mapM_cons,bind_ok_iff,ih,List.forall₂_cons_left_iff,pure,Except.pure,Except.ok.injEq]
    constructor
    · rintro ⟨first,read,others,later,rfl⟩
      exact ⟨first,others,read,later,rfl⟩
    · rintro ⟨first,others,read,later,rfl⟩
      exact ⟨first,read,others,later,rfl⟩

theorem exists_forall₂_iff {α β : Type} {related : α → β → Prop} {items : List α} :
    (∃ results, List.Forall₂ related items results) ↔ ∀ item ∈ items, ∃ result, related item result := by
  induction items with
  | nil => exact ⟨fun _ => List.forall_mem_nil _,fun _ => ⟨[],.nil⟩⟩
  | cons item items ih =>
    rw [List.forall_mem_cons,← ih]
    constructor
    · rintro ⟨_,_ | ⟨first,others⟩⟩
      exact ⟨⟨_,first⟩,_,others⟩
    · rintro ⟨⟨result,first⟩,results,others⟩
      exact ⟨result :: results,.cons first others⟩

theorem exists_of_forall₂ {α β : Type} {related : α → β → Prop} {items : List α} {results : List β}
    (all : List.Forall₂ related items results) {result : β} (member : result ∈ results) :
    ∃ item ∈ items, related item result := by
  induction all with
  | nil => cases member
  | cons first _ ih =>
    rcases List.mem_cons.mp member with rfl | later
    · exact ⟨_,List.mem_cons_self,first⟩
    · obtain ⟨item,there,holds⟩ := ih later
      exact ⟨item,List.mem_cons_of_mem _ there,holds⟩

namespace TransitionTable

variable {transition : Transition} {entries transitions : List Transition}

theorem putLast_new (new : transition.id ∉ entries.map (·.id)) :
    putLast transition entries = entries ++ [transition] := by
  induction entries with
  | nil => rfl
  | cons head rest ih =>
    rw [List.map_cons,List.mem_cons,not_or] at new
    rw [putLast,if_neg (Ne.symm new.1),ih new.2,List.cons_append]

-- Transitions with different ids are kept as they come.
theorem entries_ofList (distinct : (transitions.map (·.id)).Nodup) :
    (ofList transitions).entries = transitions := by
  induction transitions using List.reverseRecOn with
  | nil => rfl
  | append_singleton transitions last ih =>
    rw [List.map_append,List.nodup_append] at distinct
    obtain ⟨old,_,apart⟩ := distinct
    have new : last.id ∉ transitions.map (·.id) := fun member =>
      apart last.id member last.id (List.mem_singleton_self _) rfl
    rw [ofList,List.foldl_concat,← ofList]
    show putLast last (ofList transitions).entries = _
    rw [ih old,putLast_new new]

end TransitionTable

namespace Marking

variable {left right marking : Marking} {place probe : Str} {token : Token} {tokens : List Token}

theorem mem_places_change {f : Bag → Bag} :
    probe ∈ (marking.change place f).places ↔ probe = place ∨ probe ∈ marking.places :=
  Table.mem_keys_put

-- A marking is made of its counts and its stored places.
theorem ext_count (counts : ∀ place token, left.count place token = right.count place token)
    (stored : ∀ place, place ∈ left.places ↔ place ∈ right.places) : left = right := by
  have bags : ∀ place, left.bag place = right.bag place := fun place => Bag.ext_count (counts place)
  have tables : left.table = right.table := by
    apply Table.ext_get?
    intro place
    have present := stored place
    rw [places,places,Table.mem_keys_iff,Table.mem_keys_iff] at present
    have same := bags place
    rw [bag,bag] at same
    cases here : left.table.get? place with
    | none => simp_all
    | some bag =>
      cases there : right.table.get? place with
      | none => simp_all
      | some other => simp_all
  cases left
  cases right
  exact congrArg Marking.mk tables

-- Stores a place and puts tokens into it.
def fill (marking : Marking) (place : Str) (tokens : List Token) : Marking :=
  tokens.foldl (fun marking token => marking.add place token 1) (marking.insert place)

theorem count_fill : (marking.fill place tokens).count probe token =
    marking.count probe token + if place = probe then tokens.count token else 0 := by
  have insert : (marking.insert place).count probe token = marking.count probe token := by
    rw [count,bag_insert,count]
  induction tokens using List.reverseRecOn with
  | nil => simpa [fill] using insert
  | append_singleton tokens last ih =>
    rw [fill,List.foldl_concat,← fill,count_add,ih,List.count_append,List.count_singleton]
    by_cases here : place = probe
    · by_cases same : last = token
      · simp [here,same,Nat.add_assoc]
      · simp [here,same]
    · simp [here]

theorem mem_places_fill :
    probe ∈ (marking.fill place tokens).places ↔ probe = place ∨ probe ∈ marking.places := by
  induction tokens using List.reverseRecOn with
  | nil => exact Table.mem_keys_put
  | append_singleton tokens last ih =>
    rw [fill,List.foldl_concat,← fill,add,mem_places_change,ih,← or_assoc,or_self]

end Marking

namespace Net

open Json (Distinct)

variable {value : Json} {fields marks marks' transitions : List (Str × Json)} {items items' : List Json}
  {place site id : Str} {token : Token} {tokens : List Token} {arcs : List Arc}
  {transition : Transition} {table : TransitionTable} {marking start : Marking} {net : Net} {index : Nat}

instance : Decidable (Denotes value token) :=
  decidable_of_iff ((readInitialToken "" value).toOption = some token) (by
    have read : readInitialToken "" value = .ok token ↔ Denotes value token := readInitialToken_ok_iff
    rw [← read]
    cases readInitialToken "" value <;> simp [Except.toOption])

-- A transition as the document describes it under its id: both lists of arcs, in order.
def DefinesTransition (entry : Str × Json) (transition : Transition) : Prop :=
  transition.id = entry.1 ∧ ∃ fields pre post, entry.2 = .obj fields ∧
    fields.lookup ↑"pre" = some (.arr pre) ∧ List.Forall₂ GivesArc pre transition.pre ∧
    fields.lookup ↑"post" = some (.arr post) ∧ List.Forall₂ GivesArc post transition.post

-- The items that stand under a place.
def listed (marks : List (Str × Json)) (place : Str) : List Json :=
  marks.flatMap fun mark =>
    match mark.2 with
    | .arr items => if mark.1 = place then items else []
    | _ => []

-- What the document says of a marking that is filled from another one.
structure Fills (marks : List (Str × Json)) (start marking : Marking) : Prop where
  count : ∀ place token, marking.count place token =
    start.count place token + (listed marks place).countP (Denotes · token)
  stored : ∀ place, place ∈ marking.places ↔ place ∈ start.places ∨ place ∈ marks.map (·.1)

-- A place has a list, and each item of it is one of a token.
def ReadableMark (mark : Str × Json) : Prop :=
  ∃ items, mark.2 = .arr items ∧ ∀ item ∈ items, ∃ token, Denotes item token

def Readable (marks : List (Str × Json)) : Prop := ∀ mark ∈ marks, ReadableMark mark

-- A rule as the document writes it, and what it writes under an id.
def GivesRule (value : Json) (rule : SeedRule) : Prop :=
  value.field? "place" = some (.str rule.place) ∧
    value.field? "variable" = some (.str rule.identifier)

def GivesRules (value : Json) (rules : List SeedRule) : Prop :=
  ∃ items, value = .arr items ∧ List.Forall₂ GivesRule items rules

-- A table has the rules that the document writes under each id, and none under any other.
def HoldsRules (document : Json) (seeds : Table Str (List SeedRule)) : Prop :=
  ∃ fields, document = .obj fields ∧ ∀ id, Option.Rel GivesRules (fields.lookup id) (seeds.get? id)

-- Two ways to write down the same token.
def SameToken (item item' : Json) : Prop := ∀ token, Denotes item token ↔ Denotes item' token

-- The same places with the same tokens, in another order or written down in other ways.
def Redescribes (marks marks' : List (Str × Json)) : Prop :=
  List.Forall₂ (fun mark mark' => mark.1 = mark'.1 ∧ ∃ items between items', mark.2 = .arr items ∧
    mark'.2 = .arr items' ∧ items.Perm between ∧ List.Forall₂ SameToken between items') marks marks'

theorem readItems_ok_iff {α : Type} {read : Str → Json → Load α} {gives : Json → α → Prop}
    {results : List α} (each : ∀ site item result, read site item = .ok result ↔ gives item result) :
    readItems read site index items = .ok results ↔ List.Forall₂ gives items results := by
  induction items generalizing index results with
  | nil => simp [readItems,eq_comm]
  | cons item items ih =>
    simp only [readItems,bind_ok_iff,each,ih,List.forall₂_cons_left_iff,pure,Except.pure,Except.ok.injEq]
    constructor
    · rintro ⟨first,read,others,later,rfl⟩
      exact ⟨first,others,read,later,rfl⟩
    · rintro ⟨first,others,read,later,rfl⟩
      exact ⟨first,read,others,later,rfl⟩

theorem readArcs_ok_iff {side : Str} : readArcs id side fields = .ok arcs ↔
    ∃ items, fields.lookup side = some (.arr items) ∧ List.Forall₂ GivesArc items arcs := by
  have each : ∀ site item arc, readArc site item = .ok arc ↔ GivesArc item arc :=
    fun _ _ _ => readArc_ok_iff
  unfold readArcs
  split
  · rename_i items here
    simp [here,readItems_ok_iff each]
  · rename_i other
    simp only [reduceCtorEq,false_iff,not_exists,not_and]
    exact fun items here => absurd here (other items)

theorem readTransition_ok_iff :
    readTransition id value = .ok transition ↔ DefinesTransition (id,value) transition := by
  cases value with
  | obj fields =>
    simp only [readTransition,bind_ok_iff,readArcs_ok_iff,pure,Except.pure,Except.ok.injEq]
    constructor
    · rintro ⟨pre,⟨before,ofPre,givesPre⟩,post,⟨after,ofPost,givesPost⟩,rfl⟩
      exact ⟨rfl,fields,before,after,rfl,ofPre,givesPre,ofPost,givesPost⟩
    · rintro ⟨same,found,before,after,here,ofPre,givesPre,ofPost,givesPost⟩
      cases here
      refine ⟨transition.pre,⟨before,ofPre,givesPre⟩,transition.post,⟨after,ofPost,givesPost⟩,?_⟩
      cases transition
      cases same
      rfl
  | null | bool | int | float | str | arr => simp [readTransition,DefinesTransition]

-- The table of transitions holds those of the document, each under its id.
theorem readTransitions_ok_iff (distinct : (transitions.map (·.1)).Nodup) :
    readTransitions (.obj transitions) = .ok table ↔
      List.Forall₂ DefinesTransition transitions table.entries := by
  have ids : ∀ read : List Transition, List.Forall₂ DefinesTransition transitions read →
      (TransitionTable.ofList read).entries = read := by
    intro read defines
    apply TransitionTable.entries_ofList
    have same : read.map (·.id) = transitions.map (·.1) := by
      induction defines with
      | nil => rfl
      | cons defines _ ih =>
        rw [List.map_cons,List.map_cons,defines.1,ih (List.nodup_cons.mp distinct).2]
    rw [same]
    exact distinct
  simp only [readTransitions,bind_ok_iff,mapM_ok_iff,readTransition_ok_iff,pure,Except.pure,
    Except.ok.injEq]
  constructor
  · rintro ⟨read,defines,rfl⟩
    rw [ids read defines]
    exact defines
  · intro defines
    refine ⟨table.entries,defines,?_⟩
    have entries := ids table.entries defines
    cases built : TransitionTable.ofList table.entries
    rw [built] at entries
    cases table
    cases entries
    rfl

theorem readPlace_ok_iff : readPlace start place value = .ok marking ↔
    ∃ items tokens, value = .arr items ∧ List.Forall₂ Denotes items tokens ∧
      marking = start.fill place tokens := by
  have each : ∀ site item token, readInitialToken site item = .ok token ↔ Denotes item token :=
    fun _ _ _ => readInitialToken_ok_iff
  cases value with
  | arr items =>
    simp only [readPlace,bind_ok_iff,readItems_ok_iff each,pure,Except.pure,Except.ok.injEq,
      Json.arr.injEq]
    constructor
    · rintro ⟨tokens,denote,rfl⟩
      exact ⟨items,tokens,rfl,denote,rfl⟩
    · rintro ⟨_,tokens,rfl,denote,rfl⟩
      exact ⟨tokens,denote,rfl⟩
  | null | bool | int | float | str | obj => simp [readPlace]

theorem count_of_denotes (denote : List.Forall₂ Denotes items tokens) :
    tokens.count token = items.countP (Denotes · token) := by
  induction denote with
  | nil => rfl
  | @cons item first items tokens denotes _ ih =>
    rw [List.count_cons,List.countP_cons,ih]
    by_cases same : first = token
    · subst same
      simp [denotes]
    · have other : ¬Denotes item token := fun also => same (denotes.unique also)
      simp [same,other]

theorem listed_cons {name : Str} : listed ((name,.arr items) :: marks) place =
    (if name = place then items else []) ++ listed marks place := rfl

theorem Fills.cons {name : Str} (denote : List.Forall₂ Denotes items tokens)
    (fills : Fills marks (start.fill name tokens) marking) :
    Fills ((name,.arr items) :: marks) start marking := by
  constructor
  · intro place token
    rw [fills.count,Marking.count_fill,listed_cons,List.countP_append,Nat.add_assoc]
    by_cases here : name = place
    · rw [if_pos here,if_pos here,count_of_denotes denote]
    · rw [if_neg here,if_neg here,List.countP_nil]
  · intro place
    rw [fills.stored,Marking.mem_places_fill,List.map_cons,List.mem_cons,or_assoc,or_left_comm]

-- Place after place, the tokens of the document are added to those that are there.
theorem fills_of_ok (read : marks.foldlM (fun marking mark => readPlace marking mark.1 mark.2) start =
    .ok marking) : Readable marks ∧ Fills marks start marking := by
  induction marks generalizing start with
  | nil =>
    cases read
    exact ⟨fun _ member => absurd member List.not_mem_nil,by simp [listed],by simp⟩
  | cons mark marks ih =>
    rw [List.foldlM_cons] at read
    obtain ⟨between,first,later⟩ := bind_ok_iff.mp read
    obtain ⟨items,tokens,here,denote,rfl⟩ := readPlace_ok_iff.mp first
    obtain ⟨readable,fills⟩ := ih later
    obtain ⟨name,stored⟩ := mark
    cases here
    refine ⟨List.forall_mem_cons.mpr ⟨?_,readable⟩,.cons denote fills⟩
    exact ⟨items,rfl,exists_forall₂_iff.mp ⟨tokens,denote⟩⟩

theorem ok_of_readable (readable : Readable marks) (start : Marking) :
    ∃ marking, marks.foldlM (fun marking mark => readPlace marking mark.1 mark.2) start = .ok marking := by
  induction marks generalizing start with
  | nil => exact ⟨start,rfl⟩
  | cons mark marks ih =>
    obtain ⟨⟨items,here,each⟩,others⟩ := List.forall_mem_cons.mp readable
    obtain ⟨tokens,denote⟩ := exists_forall₂_iff.mpr each
    obtain ⟨marking,read⟩ := ih others (start.fill mark.1 tokens)
    refine ⟨marking,?_⟩
    rw [List.foldlM_cons,readPlace_ok_iff.mpr ⟨items,tokens,here,denote,rfl⟩]
    exact read

theorem readMarking_ok_iff : readMarking (.obj marks) = .ok marking ↔
    Readable marks ∧ Fills marks .empty marking := by
  constructor
  · exact fills_of_ok
  · rintro ⟨readable,fills⟩
    obtain ⟨read,ok⟩ := ok_of_readable readable .empty
    obtain ⟨_,also⟩ := fills_of_ok ok
    have same : read = marking := by
      apply Marking.ext_count
      · intro place token
        rw [also.count,fills.count]
      · intro place
        rw [also.stored,fills.stored]
    rw [← same]
    exact ok

theorem SameToken.refl (item : Json) : SameToken item item := fun _ => Iff.rfl

theorem SameToken.of_denotes {item item' : Json} (denotes : Denotes item token)
    (also : Denotes item' token) : SameToken item item' := by
  intro other
  constructor
  · intro denoted
    exact denotes.unique denoted ▸ also
  · intro denoted
    exact also.unique denoted ▸ denotes

theorem countP_of_sameToken (same : List.Forall₂ SameToken items items') :
    items.countP (Denotes · token) = items'.countP (Denotes · token) := by
  induction same with
  | nil => rfl
  | cons same _ ih => rw [List.countP_cons,List.countP_cons,ih,decide_eq_decide.mpr (same token)]

theorem readable_of_sameToken (same : List.Forall₂ SameToken items items')
    (each : ∀ item ∈ items, ∃ token, Denotes item token) :
    ∀ item ∈ items', ∃ token, Denotes item token := by
  induction same with
  | nil => exact each
  | cons same _ ih =>
    obtain ⟨⟨token,denotes⟩,others⟩ := List.forall_mem_cons.mp each
    exact List.forall_mem_cons.mpr ⟨⟨token,(same token).mp denotes⟩,ih others⟩

theorem Redescribes.readable (redescribes : Redescribes marks marks') (readable : Readable marks) :
    Readable marks' := by
  induction redescribes with
  | nil => exact readable
  | cons first _ ih =>
    obtain ⟨⟨found,here,each⟩,others⟩ := List.forall_mem_cons.mp readable
    obtain ⟨_,items,between,items',old,new,perm,same⟩ := first
    cases here.symm.trans old
    have between := fun item member => each item (perm.mem_iff.mpr member)
    exact List.forall_mem_cons.mpr ⟨⟨items',new,readable_of_sameToken same between⟩,ih others⟩

theorem Redescribes.countP (redescribes : Redescribes marks marks') :
    (listed marks place).countP (Denotes · token) = (listed marks' place).countP (Denotes · token) := by
  induction redescribes with
  | nil => rfl
  | @cons mark mark' marks marks' first _ ih =>
    obtain ⟨name,value⟩ := mark
    obtain ⟨name',value'⟩ := mark'
    obtain ⟨rfl,items,between,items',rfl,rfl,perm,same⟩ := first
    rw [listed_cons,listed_cons,List.countP_append,List.countP_append,ih]
    by_cases here : name = place
    · rw [if_pos here,if_pos here,perm.countP_eq,countP_of_sameToken same]
    · rw [if_neg here,if_neg here]

theorem Redescribes.names (redescribes : Redescribes marks marks') :
    marks.map (·.1) = marks'.map (·.1) := by
  induction redescribes with
  | nil => rfl
  | cons first _ ih => rw [List.map_cons,List.map_cons,first.1,ih]

theorem Redescribes.readMarking (redescribes : Redescribes marks marks')
    (read : readMarking (.obj marks) = .ok marking) : readMarking (.obj marks') = .ok marking := by
  obtain ⟨readable,fills⟩ := readMarking_ok_iff.mp read
  refine readMarking_ok_iff.mpr ⟨redescribes.readable readable,?_,?_⟩
  · intro place token
    rw [fills.count,redescribes.countP]
  · intro place
    rw [fills.stored,redescribes.names]

theorem mem_variableNames {identifier : Str} (used : identifier ∈ transition.variableNames) :
    ∃ arc ∈ transition.pre ++ transition.post, arc.pattern = .named identifier := by
  obtain ⟨arc,member,names⟩ := List.mem_filterMap.mp (mem_sortedNames.mp used)
  refine ⟨arc,member,?_⟩
  cases pattern : arc.pattern with
  | constant token => rw [pattern] at names; cases names
  | named other => rw [pattern] at names; cases names; rfl

theorem text?_eq_some_iff {s : Str} : value.text? = some s ↔ value = .str s := by
  cases value <;> simp [Json.text?]

theorem readSeedRule_ok_iff {known : Option Transition} {rule : SeedRule} :
    readSeedRule id known value = .ok rule ↔ GivesRule value rule ∧
      ∀ transition, known = some transition → rule.identifier ∈ transition.variableNames := by
  have written : ∀ {name s : Str}, (value.field? name).bind Json.text? = some s ↔
      value.field? name = some (.str s) := by
    intro name s
    simp only [Option.bind_eq_some_iff,text?_eq_some_iff,exists_eq_right]
  obtain ⟨place,identifier⟩ := rule
  rw [GivesRule,← written,← written]
  unfold readSeedRule
  cases (value.field? "place").bind Json.text? with
  | none => simp
  | some place' =>
    cases (value.field? "variable").bind Json.text? with
    | none => simp
    | some identifier' =>
      cases known with
      | none => simp
      | some transition =>
        by_cases used : identifier' ∈ transition.variableNames
        · simp only [used,if_true,Except.ok.injEq,SeedRule.mk.injEq,Option.some.injEq,forall_eq']
          exact ⟨fun same => ⟨same,same.2 ▸ used⟩,And.left⟩
        · simp only [used,if_false,reduceCtorEq,false_iff,Option.some.injEq,forall_eq',not_and]
          exact fun same => same.2 ▸ used

-- The rules under an id are those that the document writes there, in order, and those of a
-- transition that the document defines name variables of the transition.
theorem readSeedRules_ok_iff {rules : List SeedRule} :
    readSeedRules table id value = .ok rules ↔ GivesRules value rules ∧ ∀ rule ∈ rules,
      ∀ transition, table.find? id = some transition →
        rule.identifier ∈ transition.variableNames := by
  cases value with
  | arr items =>
    simp only [readSeedRules,mapM_ok_iff,readSeedRule_ok_iff,GivesRules,Json.arr.injEq,
      exists_eq_left']
    constructor
    · intro each
      refine ⟨each.imp fun _ _ => And.left,fun rule member => ?_⟩
      obtain ⟨item,-,given⟩ := exists_of_forall₂ each member
      exact given.2
    · rintro ⟨each,used⟩
      induction each with
      | nil => exact .nil
      | cons given _ ih =>
        rw [List.forall_mem_cons] at used
        exact .cons ⟨given,used.1⟩ (ih used.2)
  | null | bool | int | float | str | obj => simp [readSeedRules,GivesRules]

theorem lookup_reverse {υ : Type} {entries : List (Str × υ)} (distinct : (entries.map (·.1)).Nodup)
    (key : Str) : entries.reverse.lookup key = entries.lookup key := by
  induction entries with
  | nil => rfl
  | cons entry rest ih =>
    rw [List.map_cons,List.nodup_cons] at distinct
    rw [List.reverse_cons,List.lookup_append,ih distinct.2,List.lookup_cons,List.lookup_cons]
    by_cases here : key = entry.1
    · have absent : rest.lookup key = none := List.lookup_eq_none_iff.mpr fun other member =>
        bne_iff_ne.mpr fun same => distinct.1 (here.symm.trans same ▸ List.mem_map_of_mem member)
      rw [absent,beq_iff_eq.mpr here]
      rfl
    · rw [beq_eq_false_iff_ne.mpr here]
      simp

theorem lookup_readSeeds {seeds : Table Str (List SeedRule)} (distinct : (fields.map (·.1)).Nodup)
    (read : readSeeds table (.obj fields) = .ok seeds) (id : Str) :
    Option.Rel (fun value rules => readSeedRules table id value = .ok rules) (fields.lookup id)
      (seeds.get? id) := by
  simp only [readSeeds,bind_ok_iff,mapM_ok_iff,pure,Except.pure,Except.ok.injEq] at read
  obtain ⟨entries,each,rfl⟩ := read
  have keys : entries.map (·.1) = fields.map (·.1) := by
    clear distinct
    induction each with
    | nil => rfl
    | cons first _ ih =>
      obtain ⟨rules,-,rfl⟩ := first
      rw [List.map_cons,List.map_cons,ih]
  rw [Table.get?_ofList,lookup_reverse (keys ▸ distinct)]
  clear distinct keys
  induction each with
  | nil => exact .none
  | @cons field _ _ _ first _ ih =>
    obtain ⟨rules,read,rfl⟩ := first
    rw [List.lookup_cons,List.lookup_cons]
    by_cases here : id = field.1
    · subst here
      rw [beq_self_eq_true]
      exact .some read
    · rw [beq_eq_false_iff_ne.mpr here]
      exact ih

-- The rules of a document are held as they are written.
theorem holds_of_readSeeds {seeds : Table Str (List SeedRule)} (distinct : value.Distinct)
    (read : readSeeds table value = .ok seeds) : HoldsRules value seeds := by
  cases value with
  | obj fields =>
    refine ⟨fields,rfl,fun id => ?_⟩
    have found := lookup_readSeeds (Json.distinct_obj.mp distinct).1 read id
    generalize fields.lookup id = written, seeds.get? id = stored at found ⊢
    cases found with
    | none => exact .none
    | some given => exact .some (readSeedRules_ok_iff.mp given).1
  | null | bool | int | float | str | arr => cases read

-- A rule of a transition that the document defines names a variable of the transition.
theorem used_of_readSeeds {seeds : Table Str (List SeedRule)} {rules : List SeedRule} {rule : SeedRule}
    (distinct : value.Distinct) (read : readSeeds table value = .ok seeds)
    (given : seeds.get? id = some rules) (defined : table.find? id = some transition)
    (member : rule ∈ rules) : rule.identifier ∈ transition.variableNames := by
  cases value with
  | obj fields =>
    have found := lookup_readSeeds (Json.distinct_obj.mp distinct).1 read id
    rw [given] at found
    generalize fields.lookup id = written at found
    cases found with
    | some given => exact (readSeedRules_ok_iff.mp given).2 rule member transition defined
  | null | bool | int | float | str | arr => cases read

-- What has been read for the optional part of a document that says which tokens are seeded.
def readOptionalSeeds (transitions : TransitionTable) :
    Option Json → Load (Option (Table Str (List SeedRule)))
  | some rules => (readSeeds transitions rules).map some
  | none => .ok none

-- A document is read part by part, and no part depends on the initial marking.
theorem ofJson_ok_iff : ofJson (.obj fields) = .ok net ↔
    readPlaces ((fields.lookup ↑"places").getD (.arr [])) = .ok net.places ∧
    (∃ written, fields.lookup ↑"transitions" = some written ∧
      readTransitions written = .ok net.transitions) ∧
    readMapping ((fields.lookup ↑"event_mapping").getD (.obj [])) = .ok net.mapping ∧
    Net.readMarking ((fields.lookup ↑"initial_marking").getD (.obj [])) = .ok net.initial ∧
    readOptionalSeeds net.transitions (fields.lookup ↑"lazy_seed") = .ok net.seeds := by
  rw [ofJson,bind_ok_iff]
  constructor
  · rintro ⟨places,ofPlaces,later⟩
    cases written : fields.lookup ↑"transitions" with
    | none => rw [written] at later; cases later
    | some document =>
      simp only [written,bind_ok_iff] at later
      obtain ⟨transitions,ofTransitions,mapping,ofMapping,initial,ofInitial,later⟩ := later
      cases seeded : fields.lookup ↑"lazy_seed" with
      | none =>
        rw [seeded] at later
        cases later
        exact ⟨ofPlaces,⟨document,rfl,ofTransitions⟩,ofMapping,ofInitial,rfl⟩
      | some rules =>
        rw [seeded] at later
        obtain ⟨seeds,ofSeeds,last⟩ := bind_ok_iff.mp later
        cases last
        exact ⟨ofPlaces,⟨document,rfl,ofTransitions⟩,ofMapping,ofInitial,ofSeeds⟩
  · rintro ⟨ofPlaces,⟨document,written,ofTransitions⟩,ofMapping,ofInitial,ofSeeds⟩
    refine ⟨net.places,ofPlaces,?_⟩
    rw [written]
    simp only [bind_ok_iff]
    refine ⟨net.transitions,ofTransitions,net.mapping,ofMapping,net.initial,ofInitial,?_⟩
    cases seeded : fields.lookup ↑"lazy_seed" with
    | none =>
      rw [seeded] at ofSeeds
      cases net
      cases ofSeeds
      rfl
    | some rules =>
      rw [seeded] at ofSeeds
      exact bind_ok_iff.mpr ⟨net.seeds,ofSeeds,rfl⟩

-- An accepted document is kept as it stands. The engine has the transitions of the document, each
-- with its arcs in order, and holds each token as often as the document lists it, however it is
-- written down; the places without tokens are there too, and so are the rules of the seeds.
theorem definition_is_kept (distinct : value.Distinct) (loaded : ofJson value = .ok net) :
    ∃ fields transitions marks, value = .obj fields ∧
      fields.lookup ↑"transitions" = some (.obj transitions) ∧
      List.Forall₂ DefinesTransition transitions net.engine.transitions.entries ∧
      (fields.lookup ↑"initial_marking").getD (.obj []) = .obj marks ∧
      (∀ place token, net.engine.marking.count place token =
        (listed marks place).countP (Denotes · token)) ∧
      (∀ place, place ∈ net.engine.marking.places ↔ place ∈ marks.map (·.1)) ∧
      Option.Rel HoldsRules (fields.lookup ↑"lazy_seed") net.seeds ∧
      (∀ seeds id rules transition, net.seeds = some seeds → seeds.get? id = some rules →
        net.engine.transitions.find? id = some transition → ∀ rule ∈ rules,
          ∃ arc ∈ transition.pre ++ transition.post, arc.pattern = .named rule.identifier) ∧
      ∀ fields' marks', Redescribes marks marks' →
        (∀ key, key ≠ ↑"initial_marking" → fields'.lookup key = fields.lookup key) →
        fields'.lookup ↑"initial_marking" = some (.obj marks') → ofJson (.obj fields') = .ok net := by
  cases value with
  | obj fields =>
    obtain ⟨ofPlaces,⟨written,document,ofTransitions⟩,ofMapping,ofInitial,ofSeeds⟩ :=
      ofJson_ok_iff.mp loaded
    cases written with
    | obj transitions =>
      have keys : (transitions.map (·.1)).Nodup := by
        cases distinct.of_lookup document with
        | obj keys _ => exact keys
      cases marked : (fields.lookup ↑"initial_marking").getD (.obj []) with
      | obj marks =>
        rw [marked] at ofInitial
        obtain ⟨_,fills⟩ := readMarking_ok_iff.mp ofInitial
        refine ⟨fields,transitions,marks,rfl,document,(readTransitions_ok_iff keys).mp ofTransitions,
          marked,?_,?_,?_,?_,?_⟩
        · intro place token
          have none : Marking.empty.count place token = 0 := rfl
          rw [engine,fills.count,none,Nat.zero_add]
        · intro place
          have none : place ∉ Marking.empty.places := List.not_mem_nil
          rw [engine,fills.stored,or_iff_right none]
        · cases declared : fields.lookup ↑"lazy_seed" with
          | none =>
            rw [declared] at ofSeeds
            cases net
            cases ofSeeds
            exact .none
          | some document =>
            rw [declared] at ofSeeds
            cases read : readSeeds net.transitions document with
            | error fault => rw [readOptionalSeeds,read] at ofSeeds; cases ofSeeds
            | ok found =>
              rw [readOptionalSeeds,read] at ofSeeds
              rw [← Except.ok.inj ofSeeds]
              exact .some (holds_of_readSeeds (distinct.of_lookup declared) read)
        · intro seeds id rules transition given ofRules defined rule member
          rw [given] at ofSeeds
          cases declared : fields.lookup ↑"lazy_seed" with
          | none => rw [declared] at ofSeeds; cases ofSeeds
          | some document =>
            rw [declared] at ofSeeds
            cases read : readSeeds net.transitions document with
            | error fault => rw [readOptionalSeeds,read] at ofSeeds; cases ofSeeds
            | ok found =>
              rw [readOptionalSeeds,read] at ofSeeds
              cases ofSeeds
              exact mem_variableNames (used_of_readSeeds (distinct.of_lookup declared) read ofRules
                defined member)
        · intro fields' marks' redescribes others replaced
          apply ofJson_ok_iff.mpr
          rw [others ↑"places" (by decide),others ↑"transitions" (by decide),
            others ↑"event_mapping" (by decide),others ↑"lazy_seed" (by decide),replaced]
          exact ⟨ofPlaces,⟨_,document,ofTransitions⟩,ofMapping,redescribes.readMarking ofInitial,ofSeeds⟩
      | null | bool | int | float | str | arr => rw [marked] at ofInitial; cases ofInitial
    | null | bool | int | float | str | arr => cases ofTransitions
  | null | bool | int | float | str | arr => cases loaded

theorem definition_is_kept_lock :
    let arcs : Json := .obj [("pre",.arr [.obj [("place",.str "idle"),("variable",.str "t")]]),
      ("post",.arr [])]
    let document (tokens : List Json) : Json := .obj [("transitions",.obj [("start",arcs)]),
      ("initial_marking",.obj [("idle",.arr tokens),("held",.arr [])]),
      ("lazy_seed",.obj [("start",.arr [.obj [("place",.str "idle"),("variable",.str "t")]])])]
    let pair : Json := .arr [.str "Tid",.int 1]
    let object : Json := .obj [("kind",.str "Tid"),("value",.int 1)]
    ∃ net, ofJson (document [pair,pair,.str "Unit"]) = .ok net ∧
      net.engine.transitions.ids = [Str.ofString "start"] ∧
      net.engine.marking.count "idle" (.ident .tid 1) = 2 ∧ Str.ofString "held" ∈ net.engine.marking.places ∧
      ofJson (document [.str "Unit",pair,object]) = .ok net := by
  intro arcs document pair object
  obtain ⟨net,loaded⟩ : ∃ net, ofJson (document [pair,pair,.str "Unit"]) = .ok net := ⟨_,rfl⟩
  have distinct : (document [pair,pair,.str "Unit"]).Distinct := by
    simp [document,arcs,pair,Json.Distinct.str,Json.Distinct.int]
  obtain ⟨fields,transitions,marks,same,defined,defines,marked,counts,stored,_,_,again⟩ :=
    definition_is_kept distinct loaded
  cases same
  cases defined
  cases marked
  refine ⟨net,loaded,?_,?_,(stored "held").mpr (by decide),?_⟩
  · rw [engine] at defines
    rw [engine,TransitionTable.ids]
    cases entries : net.transitions.entries with
    | nil => rw [entries] at defines; cases defines
    | cons first rest =>
      rw [entries] at defines
      cases defines with
      | cons here none =>
        cases none
        rw [List.map_singleton,here.1]
  · rw [counts]
    rfl
  · have redescribed : Redescribes [("idle",.arr [pair,pair,.str "Unit"]),("held",.arr [])]
        [("idle",.arr [.str "Unit",pair,object]),("held",.arr [])] := by
      refine .cons ⟨rfl,_,[.str "Unit",pair,pair],_,rfl,rfl,?_,?_⟩ (.cons ?_ .nil)
      · exact @List.perm_append_comm _ [pair,pair] [.str "Unit"]
      · have denotes : Denotes object (.named "Tid" 1) := .object rfl (.number 1)
        exact .cons (.refl _) (.cons (.refl _) (.cons (.of_denotes (.pair (.number 1)) denotes) .nil))
      · exact ⟨rfl,[],[],[],rfl,rfl,.nil,.nil⟩
    refine again _ _ redescribed (fun key other => ?_) rfl
    have apart : (key == ↑"initial_marking") = false := beq_eq_false_iff_ne.mpr other
    simp only [List.lookup_cons,apart]

end Net

end ProtocolNet
