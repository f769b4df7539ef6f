import ProtocolNet.Drawing
import ProtocolNet.Net.Loader
import ProtocolNet.Proofs.Fingerprint
import ProtocolNet.Proofs.Response
import ProtocolNet.Proofs.Spans

namespace ProtocolNet

section

variable {κ υ : Type} [Named κ]

theorem Table.mem_keys_iff {table : Table κ υ} {key : κ} :
    key ∈ table.keys ↔ (table.get? key).isSome = true := by
  rw [Option.isSome_iff_exists,keys,List.mem_map]
  constructor
  · intro found
    obtain ⟨⟨_,value⟩,member,rfl⟩ := found
    exact ⟨value,mem_entries_iff.mp member⟩
  · intro found
    obtain ⟨value,here⟩ := found
    exact ⟨(key,value),mem_entries_iff.mpr here,rfl⟩

theorem Table.mem_keys_put {table : Table κ υ} {key probe : κ} {value : υ} :
    probe ∈ (table.put key value).keys ↔ probe = key ∨ probe ∈ table.keys := by
  rw [mem_keys_iff,mem_keys_iff,get?_put]
  by_cases hit : name key = name probe
  · simp [Named.name_inj hit]
  · have other : probe ≠ key := fun same => hit (congrArg name same.symm)
    simp [hit,other]

theorem mem_sortedNames {names : List κ} {probe : κ} :
    probe ∈ sortedNames names ↔ probe ∈ names := by
  have collected : ∀ table : Table κ Unit, probe ∈ ((names.map fun n => (n,())).foldl
      (fun table entry => table.put entry.1 entry.2) table).keys ↔
        probe ∈ names ∨ probe ∈ table.keys := by
    induction names with
    | nil => intro table; simp
    | cons first rest ih =>
      intro table
      rw [List.map_cons,List.foldl_cons,ih,Table.mem_keys_put,List.mem_cons,or_left_comm,or_assoc]
  have none : probe ∉ (Table.empty : Table κ Unit).keys := List.not_mem_nil
  rw [sortedNames,Table.ofList,collected]
  simp [none]

end

namespace Net

-- A place that the seeding for some event may put a token into for good: the event stands for
-- a transition of the net, or it is stopped by a seed that cannot be told of.
def Seeds (net : Net) (logger : Logger) (place : Str) : Prop :=
  ∃ event token, (place,token) ∈ net.targets event ∧
    ((∃ transition, net.transitionOf event = some transition) ∨
      ∃ pair ∈ net.targets event, Monitor.seedFault? logger pair ≠ none)

-- Whether a picture of the net has the place, or seeding may fill it.
def InSight (net : Net) (logger : Logger) (place : Str) : Prop :=
  place ∈ net.allPlaces ∨ net.Seeds logger place

variable {net : Net} {place : Str} {transition : Transition} {event : Event}

theorem mem_allPlaces : place ∈ net.allPlaces ↔ place ∈ net.places ∨ place ∈ net.initial.places ∨
    ∃ transition ∈ net.transitions.entries,
      ∃ arc ∈ transition.pre ++ transition.post, arc.place = place := by
  simp only [allPlaces,mem_sortedNames,List.mem_append,List.mem_flatMap,List.mem_map,or_assoc]

theorem mem_of_transitionOf (known : net.transitionOf event = some transition) :
    transition ∈ net.transitions.entries := by
  obtain ⟨id,_,found⟩ := Option.bind_eq_some_iff.mp known
  exact List.mem_of_find?_eq_some found

end Net

namespace Marking

theorem mem_places_of_count {marking : Marking} {place : Str} {token : Token}
    (held : 0 < marking.count place token) : place ∈ marking.places := by
  rw [places,Table.mem_keys_iff]
  cases stored : marking.table.get? place with
  | none => simp [count,bag,stored] at held
  | some bag => rfl

end Marking

namespace Monitor

variable {monitor : Monitor} {event : Event} {location : Option SourceLocation} {call : Call}
  {calls : List Call} {net : Net} {config : Option Config} {logger : Logger}
  {journal : Option Journal} {id : Str} {fault : TextFault}

-- An event that is stopped stands for a transition, or its seeding was stopped.
theorem Halts.source (halts : monitor.Halts event id fault) (attached : monitor.Attached)
    (mapped : monitor.net.transitionFor event = some id) :
    (∃ transition, monitor.net.transitionOf event = some transition) ∨
      ∃ pair ∈ monitor.net.targets event, seedFault? monitor.logger pair ≠ none := by
  rcases halts with stop | ⟨-,refused⟩
  · have seeding := @seeds event.binding monitor.logger monitor.engine (monitor.net.seedRules id)
    obtain ⟨front,pair,divided,mute⟩ := seeding.stopped stop
    have last : pair ∈ (monitor.seededFor event id).seeded :=
      divided ▸ List.mem_append_right _ List.mem_cons_self
    exact .inr ⟨pair,targets_eq mapped ▸ (seeding.absent pair last).1,mute ▸ Option.some_ne_none _⟩
  · obtain ⟨-,refusal,refuses,mute⟩ := Engine.fire_text_iff.mp refused
    rcases refuses with ⟨-,rfl⟩ | ⟨transition,known,-,-⟩
    · -- A refusal for want of a transition lacks no tokens, so it can always be told of.
      simp [NotEnabled.isWritable] at mute
    · rw [seededFor_transitions] at known
      exact .inl ⟨transition,(transitionOf_eq attached mapped).mpr known⟩

theorem source_of_stopped (attached : monitor.Attached)
    (became : monitor.fate event = .stopped fault) :
    (∃ transition, monitor.net.transitionOf event = some transition) ∨
      ∃ pair ∈ monitor.net.targets event, seedFault? monitor.logger pair ≠ none := by
  cases course monitor event none with
  | stopped id fault mapped halts => exact halts.source attached mapped
  | ignored unmapped fate | fired id transition mapped known unstopped drawable fate
  | rejected id refusal mapped unstopped refused fate => rw [became] at fate; cases fate

-- All places that hold tokens are in sight.
def Sighted (monitor : Monitor) : Prop :=
  ∀ place token, 0 < monitor.marking.count place token → monitor.net.InSight monitor.logger place

theorem sighted_of_initial (counts : ∀ place token,
    monitor.marking.count place token = monitor.net.initial.count place token) : monitor.Sighted := by
  intro place token held
  rw [counts] at held
  exact .inl (Net.mem_allPlaces.mpr (.inr (.inl (Marking.mem_places_of_count held))))

theorem Sighted.observe (sighted : monitor.Sighted) (attached : monitor.Attached) :
    (monitor.observe event location).monitor.Sighted := by
  intro place token held
  rw [observe_net,observe_logger]
  cases became : monitor.fate event with
  | ignored => exact sighted place token (count_of_ignored became ▸ held)
  | rejected refusal => exact sighted place token (count_of_rejected became ▸ held)
  | stopped fault =>
    -- A token is there before, or it is one of those that were seeded.
    by_cases before : 0 < monitor.marking.count place token
    · exact sighted place token before
    · rw [count_of_stopped became] at held
      have seeded : (place,token) ∈ monitor.seeds? event :=
        List.count_pos_iff.mp (by omega)
      exact .inr ⟨event,token,(mem_seeds? seeded).1,source_of_stopped attached became⟩
  | fired =>
    obtain ⟨transition,known,balance⟩ := count_of_fired location attached became
    have here := balance place token
    rw [seededCounts] at here
    -- A token is there before, is seeded, or is put there by an arc.
    by_cases before : 0 < monitor.marking.count place token
    · exact sighted place token before
    · by_cases target : (place,token) ∈ monitor.net.targets event
      · exact .inr ⟨event,token,target,.inl ⟨transition,known⟩⟩
      · have given : givenCount event.binding transition.post place token ≠ 0 := by
          rw [if_neg target] at here
          omega
        have arcs : (place,token) ∈ arcTargets event.binding transition.post :=
          Decidable.byContradiction fun off => given (givenCount_eq_zero off)
        obtain ⟨arc,member,same⟩ := List.mem_map.mp arcs
        have named : arc.place = place := congrArg Prod.fst same
        exact .inl (Net.mem_allPlaces.mpr (.inr (.inr ⟨transition,Net.mem_of_transitionOf known,
          arc,List.mem_append_right _ member,named⟩)))

theorem Sighted.perform (sighted : monitor.Sighted) (attached : monitor.Attached) :
    (monitor.perform call).Sighted := by
  cases call with
  | observe event location => exact sighted.observe attached
  | reset => exact sighted_of_initial fun _ _ => rfl
  | endExecution => rw [perform_endExecution]; exact sighted
  | clearCoverage => exact sighted
  | close => exact sighted

theorem Sighted.run (sighted : monitor.Sighted) (attached : monitor.Attached) :
    (monitor.run calls).Sighted := by
  induction calls generalizing monitor with
  | nil => exact sighted
  | cons call rest ih => exact ih (sighted.perform attached) (perform_attached attached)

theorem sighted_run : ((startWith net config logger journal).run calls).Sighted :=
  Sighted.run (sighted_of_initial fun _ _ => rfl) startWith_attached

end Monitor

namespace Drawing

variable {net : Net} {marking : Marking} {bag : Bag} {place : Str} {token : Token} {width : Int}
  {drawn told : Str}

theorem graph_eq_ok_iff : graph net marking = .ok drawn ↔
    isWritable net marking = true ∧ Str.joined "\n" (graphLines net marking) = drawn :=
  TextFault.gated_eq_ok

theorem graph_made_iff : (∃ drawn, graph net marking = .ok drawn) ↔
    (∀ place ∈ net.allPlaces, (marking.bag place).isWritable = true) ∧
      ∀ transition ∈ net.transitions.entries, transition.isWritable = true := by
  simp only [graph_eq_ok_iff,isWritable,Bool.and_eq_true,List.all_eq_true,exists_and_left,
    exists_eq',and_true]

-- A bag that is not in the contents is empty, so those in them are all that can be too long.
theorem writable_bags (writable : ∀ stored ∈ marking.contents, stored.2.isWritable = true)
    (place : Str) : (marking.bag place).isWritable = true := by
  by_cases filled : marking.bag place = .empty
  · rw [filled]; rfl
  · exact writable (place,marking.bag place) (Marking.mem_contents_iff.mpr ⟨rfl,filled⟩)

theorem table_eq_ok_iff : (∃ told, table net marking width = .ok told) ↔
    ∀ stored ∈ marking.contents, stored.2.isWritable = true ∧ ∃ name : String, stored.1 = ↑name := by
  rw [← Marking.digest_ok_iff]
  constructor
  · rintro ⟨told,made⟩
    unfold table at made
    split at made
    · cases digested : marking.digest with
      | ok digest => exact ⟨digest,rfl⟩
      | error fault => rw [digested] at made; cases made
    · cases made
  · rintro ⟨digest,made⟩
    have writable := Marking.digest_ok_iff.mp ⟨digest,made⟩
    have listed : (net.allPlaces.all fun place => (marking.bag place).isWritable) = true :=
      List.all_eq_true.mpr fun place _ => writable_bags (fun stored member => (writable stored member).1) place
    rw [table,if_pos listed,made]
    exact ⟨_,rfl⟩

theorem lines_of_table (made : table net marking width = .ok told) :
    ∃ last : String, told = Str.joined "\n" (tableLines net marking width ++ [(last : Str)]) := by
  unfold table at made
  split at made
  · cases digested : marking.digest with
    | ok digest =>
      rw [digested] at made
      refine ⟨"hash: " ++ Nat.repr digest,?_⟩
      rw [Str.ofString_append]
      exact (Except.ok.inj made).symm
    | error fault => rw [digested] at made; cases made
  · cases made

theorem entry_mem (held : 0 < bag.count token) : (token,bag.count token) ∈ bag.entries :=
  Table.mem_entries_iff.mpr (Bag.get?_eq_some_count held)

-- The line of a place in the graph lists all of its tokens.
theorem infix_placeLine (held : 0 < bag.count token) :
    labelBreak ++ escape (Bag.entryText (token,bag.count token)) <:+: placeLine place bag := by
  have listed := Text.infix_flatMap (entry_mem held) fun entry =>
    labelBreak ++ escape (Bag.entryText entry)
  have labelled : labelBreak ++ escape (Bag.entryText (token,bag.count token)) <:+:
      placeLabel place bag := listed.trans (List.suffix_append (escape place) _).isInfix
  have quoted : placeLabel place bag <:+: inQuotes (placeLabel place bag) :=
    List.infix_append _ _ _
  refine (labelled.trans quoted).trans ?_
  unfold placeLine
  exact List.infix_append _ _ _

theorem placeLine_shown (named : place ∈ net.allPlaces) (made : graph net marking = .ok drawn) :
    placeLine place (marking.bag place) <:+: drawn := by
  obtain ⟨-,rfl⟩ := graph_eq_ok_iff.mp made
  refine Str.infix_joined ?_
  have line : placeLine place (marking.bag place) ∈
      net.allPlaces.map fun place => placeLine place (marking.bag place) :=
    List.mem_map_of_mem named
  simp [graphLines,line]

-- A row of the table before it is cut.
def row (net : Net) (place : Str) (bag : Bag) : Str :=
  padTo ((net.allPlaces.map List.length).foldl max 0) place ++ " | " ++
    (if bag.isEmpty then "(empty)" else bag.entriesText)

theorem infix_row (held : 0 < bag.count token) :
    Str.ofString (Bag.entryText (token,bag.count token)) <:+: row net place bag := by
  have filled : bag.isEmpty = false := by
    cases none : bag.isEmpty with
    | false => rfl
    | true =>
      rw [Marking.isEmpty_bag_iff.mp none] at held
      exact absurd held (Nat.lt_irrefl 0)
  have listed : (Bag.entryText (token,bag.count token)).toList <:+: bag.entriesText.toList :=
    Text.infix_commaSeparated (List.mem_map_of_mem (entry_mem held))
  rw [row,filled,if_neg Bool.false_ne_true]
  exact (listed.map Letter.char).trans (List.suffix_append _ _).isInfix

theorem row_shown (named : place ∈ net.allPlaces) (made : table net marking width = .ok told)
    (fits : ((row net place (marking.bag place)).length : Int) ≤ width) :
    row net place (marking.bag place) <:+: told := by
  obtain ⟨last,rfl⟩ := lines_of_table made
  refine Str.infix_joined (List.mem_append_left _ (List.mem_cons_of_mem _ ?_))
  have whole : fit width (row net place (marking.bag place)) = row net place (marking.bag place) :=
    if_neg (Int.not_lt.mpr fits)
  exact List.mem_map.mpr ⟨place,named,whole⟩

end Drawing

namespace Monitor

open Drawing

-- Tokens lie in places of the net or where seeding puts them. The graph lists those in places
-- of the net, and so does the table in all rows that it does not cut. Either is made unless
-- a number in it is too long to be written; the table needs a digest of the marking too.
theorem tokens_in_sight (net : Net) (config : Option Config) (logger : Logger)
    (journal : Option Journal) (calls : List Call) :
    let monitor := (startWith net config logger journal).run calls
    let marking := monitor.marking
    (∀ place token, 0 < marking.count place token →
      place ∈ net.allPlaces ∨ net.Seeds logger place) ∧
    (∀ event location violation, (monitor.observe event location).violation = some violation →
      violation.marking =
        ((startWith net config logger journal).run (calls ++ [.observe event location])).marking) ∧
    ((∃ drawn, graph net marking = .ok drawn) ↔
      (∀ place ∈ net.allPlaces, (marking.bag place).isWritable = true) ∧
        ∀ transition ∈ net.transitions.entries, transition.isWritable = true) ∧
    (∀ width, (∃ told, table net marking width = .ok told) ↔
      ∀ stored ∈ marking.contents,
        stored.2.isWritable = true ∧ ∃ name : String, stored.1 = ↑name) ∧
    ∀ place ∈ net.allPlaces, ∀ token, 0 < marking.count place token →
      let entry := Bag.entryText (token,marking.count place token)
      labelBreak ++ escape entry <:+: placeLine place (marking.bag place) ∧
      Str.ofString entry <:+: row net place (marking.bag place) ∧
      (∀ drawn, graph net marking = .ok drawn →
        placeLine place (marking.bag place) <:+: drawn) ∧
      ∀ (width : Int) (told : Str), table net marking width = .ok told →
        (row net place (marking.bag place)).length ≤ width →
          row net place (marking.bag place) <:+: told := by
  intro monitor marking
  have same : monitor.net = net := run_net
  have voice : monitor.logger = logger := run_logger
  refine ⟨fun place token held => ?_,fun event location violation reported => ?_,
    graph_made_iff,fun width => table_eq_ok_iff,fun place named token held => ?_⟩
  · have sighted : monitor.Sighted := sighted_run
    have here := sighted place token held
    rw [same,voice] at here
    exact here
  · rw [run_snoc]
    exact violation_marking reported
  · exact ⟨infix_placeLine held,infix_row held,fun _ made => placeLine_shown named made,
      fun _ _ made fits => row_shown named made fits⟩

-- Locks are taken from a place of their own, which the default seeds know nothing of.
def depotDefinition : Json := .obj [
  ("transitions",.obj [("acquire",.obj [
    ("pre",.arr [.obj [("place",.str "locks"),("variable",.str "L")]]),("post",.arr [])])]),
  ("initial_marking",.obj [("locks",.arr ((List.range 8).map fun k => .arr [.str "Lock",.int (.ofNat k)]))])]

def depot : Net where
  places := []
  transitions := .ofList [⟨"acquire",[⟨"locks",.named "L"⟩],[]⟩]
  mapping := .empty
  initial := (List.range 8).foldl (fun marking k => marking.add "locks" (.ident .lock k) 1)
    (Marking.empty.insert "locks")
  seeds := none

-- After one acquisition the lock lies in a place that the net does not list, and in none that
-- it lists; and the table's row of the listed place is cut before the last lock.
theorem seeded_token_out_of_sight :
    let monitor := (startWith depot none .silent none).run [.observe (.lockAcquire 5 1) none]
    let marking := monitor.marking
    Net.ofJson depotDefinition = .ok depot ∧
    0 < marking.count "free" (.ident .lock 1) ∧ Str.ofString "free" ∉ depot.allPlaces ∧
    (∀ place ∈ depot.allPlaces, marking.count place (.ident .lock 1) = 0) ∧
    0 < marking.count "locks" (.ident .lock 7) ∧ Str.ofString "locks" ∈ depot.allPlaces ∧
    ¬ Str.ofString "Lock(7)" <:+: fit defaultWidth (row depot "locks" (marking.bag "locks")) := by
  refine ⟨rfl,?_,?_,?_,?_,?_,?_⟩ <;> decide +kernel

end Monitor

end ProtocolNet
