import ProtocolNet.Proofs.Runs

namespace ProtocolNet

namespace Net

-- The transition of the net that an event stands for, if there is one.
def transitionOf (net : Net) (event : Event) : Option Transition :=
  (net.transitionFor event).bind net.transitions.find?

-- The pairs that are seeded for an event.
def targets (net : Net) (event : Event) : List (Str × Token) :=
  match net.transitionFor event with
  | none => []
  | some id => seedTargets event.binding (net.seedRules id)

-- When an event is to be accepted in given contents, said without a run of the
-- engine: its transition is known, and all that it draws is there after seeding.
structure Admits (net : Net) (counts : Counts) (event : Event) (transition : Transition) : Prop where
  known : net.transitionOf event = some transition
  drawable : Drawable (seededCounts counts (net.targets event)) event.binding transition.pre

end Net

namespace Monitor

-- Every seed that an event needs can be told of.
def TellsSeeds (monitor : Monitor) (event : Event) : Prop :=
  ∀ pair ∈ monitor.net.targets event,
    monitor.marking.count pair.1 pair.2 = 0 → seedFault? monitor.logger pair = none

-- Every token that an event lacks behind its seeding can be told of.
def TellsLack (monitor : Monitor) (event : Event) : Prop :=
  ∀ transition, monitor.net.transitionOf event = some transition → ∀ place token,
    seededCounts monitor.marking.count (monitor.net.targets event) place token <
      drawnCount event.binding transition.pre place token → token.isWritable = true

variable {monitor : Monitor} {event : Event} {id : Str}

theorem targets_eq (mapped : monitor.net.transitionFor event = some id) :
    seedTargets event.binding (monitor.net.seedRules id) = monitor.net.targets event := by
  rw [Net.targets,mapped]

theorem unstopped_iff (mapped : monitor.net.transitionFor event = some id) :
    (monitor.seededFor event id).fault = none ↔ monitor.TellsSeeds event := by
  rw [seededFor,(seeds _ _).stop_eq_none_iff,targets_eq mapped]
  rfl

theorem transitionOf_eq {transition : Transition} (attached : monitor.Attached)
    (mapped : monitor.net.transitionFor event = some id) :
    monitor.net.transitionOf event = some transition ↔
      monitor.engine.transitions.find? id = some transition := by
  rw [Net.transitionOf,mapped,attached,Option.bind_some]

theorem count_seed_targets (mapped : monitor.net.transitionFor event = some id)
    (unstopped : (monitor.seededFor event id).fault = none) (place : Str) (token : Token) :
    (monitor.seededFor event id).engine.marking.count place token =
      seededCounts monitor.marking.count (monitor.net.targets event) place token := by
  rw [← targets_eq mapped]
  exact count_seed unstopped place token

theorem seededFor_transitions :
    (monitor.seededFor event id).engine.transitions = monitor.engine.transitions :=
  seed_transitions

theorem refusal_writable_iff {refusal : NotEnabled} (attached : monitor.Attached)
    (mapped : monitor.net.transitionFor event = some id)
    (unstopped : (monitor.seededFor event id).fault = none)
    (refused : (monitor.seededFor event id).engine.Refuses id event.binding refusal) :
    refusal.isWritable = true ↔ monitor.TellsLack event := by
  have seeded : (monitor.seededFor event id).engine.marking.count =
      seededCounts monitor.marking.count (monitor.net.targets event) :=
    funext fun place => funext fun token => count_seed_targets mapped unstopped place token
  unfold TellsLack
  simp only [transitionOf_eq attached mapped]
  rcases refused with ⟨unknown,rfl⟩ | ⟨transition,known,-,rfl⟩
  · rw [seededFor_transitions] at unknown
    simp [unknown,NotEnabled.isWritable]
  · rw [seededFor_transitions] at known
    simp only [NotEnabled.isWritable,Marking.shortfall_writable_iff,known,Option.some.injEq,
      forall_eq',seeded]

-- An admitted event fires if its seeds can be told of: nothing is reported, and the balance
-- is that of its arcs.
theorem observe_admitted {transition : Transition} (location : Option SourceLocation)
    (attached : monitor.Attached)
    (admitted : monitor.net.Admits monitor.marking.count event transition)
    (told : monitor.TellsSeeds event) :
    let outcome := monitor.observe event location
    outcome.result = (if monitor.digests then outcome.monitor.marking.digest.map fun _ => none
      else .ok none) ∧
    ∀ place token, outcome.monitor.marking.count place token +
        drawnCount event.binding transition.pre place token =
      seededCounts monitor.marking.count (monitor.net.targets event) place token +
        givenCount event.binding transition.post place token := by
  obtain ⟨known,drawable⟩ := admitted
  obtain ⟨id,mapped,found⟩ := Option.bind_eq_some_iff.mp known
  have unstopped := (unstopped_iff mapped).mpr told
  have ready := (Drawable.congr (count_seed_targets mapped unstopped)).mpr drawable
  have fires := Engine.fire_ok_iff.mpr
    ⟨transition,by rw [seededFor_transitions,attached]; exact found,ready,rfl⟩
  have way := processed monitor event location
  generalize monitor.observe event location = outcome at way ⊢
  cases way with
  | ignored unmapped => rw [mapped] at unmapped; cases unmapped
  | rejected mapped' _ refused =>
    rw [mapped] at mapped'; cases mapped'
    rw [fires] at refused; cases refused
  | stopped mapped' halts =>
    rw [mapped] at mapped'; cases mapped'
    rcases halts with stop | ⟨-,refused⟩
    · rw [unstopped] at stop; cases stop
    · rw [fires] at refused; cases refused
  | @fired _ next mapped' _ fired =>
    rw [mapped] at mapped'; cases mapped'
    have behind := settled { monitor with tally := monitor.tally.count } (monitor.seededFor event id)
      next event
    have moved : next.marking =
        (monitor.seededFor event id).engine.marking.after event.binding transition := by
      rw [← Except.ok.inj (fires.symm.trans fired)]
    refine ⟨?_,fun place token => ?_⟩
    · rw [marking,behind.engine]
      exact behind.result
    · rw [← count_seed_targets mapped unstopped,marking,behind.engine,moved]
      exact Marking.count_after ready place token

-- An event whose seeds cannot all be told of is stopped, and what was seeded up to then stays.
theorem observe_mute (location : Option SourceLocation)
    (mapped : monitor.net.transitionFor event = some id) (mute : ¬ monitor.TellsSeeds event) :
    let outcome := monitor.observe event location
    ∃ front pair fault, outcome.result = .error fault ∧ seedFault? monitor.logger pair = some fault ∧
      (∀ other ∈ front ++ [pair], other ∈ monitor.net.targets event ∧
        monitor.marking.count other.1 other.2 = 0) ∧ (front ++ [pair]).Nodup ∧
      ∀ place token, outcome.monitor.marking.count place token =
        monitor.marking.count place token + (front ++ [pair]).count (place,token) := by
  rw [← unstopped_iff mapped] at mute
  obtain ⟨fault,stop⟩ := Option.ne_none_iff_exists'.mp mute
  have seeding := @seeds event.binding monitor.logger monitor.engine (monitor.net.seedRules id)
  obtain ⟨front,pair,divided,told⟩ := seeding.stopped stop
  have way := processed monitor event location
  generalize monitor.observe event location = outcome at way ⊢
  cases way with
  | ignored unmapped => rw [mapped] at unmapped; cases unmapped
  | fired mapped' unstopped | rejected mapped' unstopped =>
    rw [mapped] at mapped'; cases mapped'
    rw [stop] at unstopped; cases unstopped
  | stopped mapped' halts =>
    rw [mapped] at mapped'; cases mapped'
    rcases halts with stop' | ⟨unstopped,-⟩
    · rw [stop] at stop'; cases stop'
      have absent := seeding.absent
      have once := seeding.once
      have counted := seeding.count
      rw [divided,targets_eq mapped] at absent
      rw [divided] at once counted
      exact ⟨front,pair,fault,rfl,told,absent,once,counted⟩
    · rw [stop] at unstopped; cases unstopped

theorem observe_mute_one {pair : MissingToken} (location : Option SourceLocation)
    (mapped : monitor.net.transitionFor event = some id) (one : monitor.net.targets event = [pair])
    (mute : ¬ monitor.TellsSeeds event) :
    let outcome := monitor.observe event location
    ∃ fault, outcome.result = .error fault ∧ seedFault? monitor.logger pair = some fault ∧
      ∀ place token, outcome.monitor.marking.count place token =
        monitor.marking.count place token + [pair].count (place,token) := by
  obtain ⟨front,last,fault,stopped,told,absent,once,counted⟩ := observe_mute location mapped mute
  have only : ∀ other ∈ front ++ [last], other = pair := fun other member =>
    List.mem_singleton.mp (one ▸ (absent other member).1)
  obtain rfl := only last (List.mem_append_right _ List.mem_cons_self)
  cases front with
  | nil => exact ⟨fault,stopped,told,counted⟩
  | cons first rest =>
    obtain rfl := only first List.mem_cons_self
    exact absurd (List.mem_append_right _ List.mem_cons_self) (List.nodup_cons.mp once).1

-- Any other mapped event is reported, and the seeds placed for it are gone again. If what it
-- lacks cannot be told of, it is not reported, and they stay.
theorem observe_refused (location : Option SourceLocation) (attached : monitor.Attached)
    (mapped : monitor.net.transitionFor event = some id) (told : monitor.TellsSeeds event)
    (refused : ∀ transition, ¬ monitor.net.Admits monitor.marking.count event transition) :
    let outcome := monitor.observe event location
    (monitor.TellsLack event → ∃ violation, outcome.result = .ok (some violation) ∧
      violation.marking = outcome.monitor.marking ∧
      ∀ place token, outcome.monitor.marking.count place token =
        monitor.marking.count place token) ∧
    (¬ monitor.TellsLack event → outcome.result = .error .unwritable ∧
      ∀ place token, outcome.monitor.marking.count place token =
        seededCounts monitor.marking.count (monitor.net.targets event) place token) := by
  have unstopped := (unstopped_iff mapped).mpr told
  have way := processed monitor event location
  generalize monitor.observe event location = outcome at way ⊢
  cases way with
  | ignored unmapped => rw [mapped] at unmapped; cases unmapped
  | fired mapped' _ fired =>
    rw [mapped] at mapped'; cases mapped'
    obtain ⟨transition,found,ready,_⟩ := Engine.fire_ok_iff.mp fired
    rw [seededFor_transitions] at found
    have known := (transitionOf_eq attached mapped).mpr found
    exact absurd ⟨known,(Drawable.congr (count_seed_targets mapped unstopped)).mp ready⟩
      (refused transition)
  | rejected mapped' _ refused' =>
    rw [mapped] at mapped'; cases mapped'
    obtain ⟨refuses,writable⟩ := Engine.fire_notEnabled_iff.mp refused'
    have speaks := (refusal_writable_iff attached mapped unstopped refuses).mp writable
    exact ⟨fun _ => ⟨_,rfl,rfl,count_unseed_seed⟩,fun mute => absurd speaks mute⟩
  | stopped mapped' halts =>
    rw [mapped] at mapped'; cases mapped'
    rcases halts with stop | ⟨-,refused'⟩
    · rw [unstopped] at stop; cases stop
    · obtain ⟨rfl,refusal,refuses,mute⟩ := Engine.fire_text_iff.mp refused'
      have silent := (not_congr (refusal_writable_iff attached mapped unstopped refuses)).mp
        (by rw [mute]; exact Bool.false_ne_true)
      exact ⟨fun speaks => absurd speaks silent,
        fun _ => ⟨rfl,count_seed_targets mapped unstopped⟩⟩

end Monitor

end ProtocolNet
