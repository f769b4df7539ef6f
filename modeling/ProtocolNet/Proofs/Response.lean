import ProtocolNet.Proofs.Footprint

namespace ProtocolNet.Monitor

-- What becomes of an event, apart from what is told of the marking behind it.
inductive Fate where
  | ignored
  | fired
  | rejected (refusal : NotEnabled)
  | stopped (fault : TextFault)
deriving DecidableEq, Repr

def Fate.refusal? : Fate → Option NotEnabled
  | .rejected refusal => some refusal
  | _ => none

def Fate.answer : Fate → Except TextFault (Option NotEnabled)
  | .rejected refusal => .ok (some refusal)
  | .stopped fault => .error fault
  | _ => .ok none

def refusalOf (violation : Violation) : NotEnabled := ⟨violation.transition,violation.missing⟩

-- What is said of an event: nothing if it is accepted, else which transition could
-- not fire and what it lacked.
def Outcome.verdict (outcome : Outcome) : Option NotEnabled := outcome.violation.map refusalOf

-- The same, told apart from events that are not answered at all.
def Outcome.answer (outcome : Outcome) : Except TextFault (Option NotEnabled) :=
  outcome.result.map (·.map refusalOf)

def Tally.plus (tally more : Tally) : Tally where
  processed := tally.processed + more.processed
  ignored := tally.ignored + more.ignored
  fired := tally.fired + more.fired
  seeded := tally.seeded + more.seeded
  violations := tally.violations + more.violations

theorem Tally.plus_right_comm (tally more most : Tally) :
    (tally.plus more).plus most = (tally.plus most).plus more := by
  simp only [plus,Nat.add_right_comm]

def fate (monitor : Monitor) (event : Event) : Fate :=
  match monitor.net.transitionFor event with
  | none => .ignored
  | some id =>
    match (monitor.seededFor event id).fault with
    | some fault => .stopped fault
    | none =>
      match (monitor.seededFor event id).engine.fire id event.binding with
      | .ok _ => .fired
      | .error (.notEnabled refusal) => .rejected refusal
      | .error (.text fault) => .stopped fault

-- The pairs that are seeded for an event.
def seeds? (monitor : Monitor) (event : Event) : List MissingToken :=
  match monitor.net.transitionFor event with
  | none => []
  | some id => (monitor.seededFor event id).seeded

-- What an event adds to the tally. An event that is stopped is counted as none of the others.
def growth (monitor : Monitor) (event : Event) : Tally :=
  match monitor.fate event with
  | .ignored => { processed := 1, ignored := 1 }
  | .fired => { processed := 1, fired := 1, seeded := (monitor.seeds? event).length }
  | .rejected _ => { processed := 1, violations := 1 }
  | .stopped _ => { processed := 1 }

-- Whether an event fires a transition. An event that is ignored is accepted, but
-- fires none.
def fires (monitor : Monitor) (event : Event) : Bool := monitor.fate event = .fired

-- What a call adds to the tally.
def counts (monitor : Monitor) : Call → Tally
  | .observe event _ => monitor.growth event
  | _ => {}

-- The digests that are recorded behind a call.
def seenAfter (monitor : Monitor) : Call → List Nat
  | .endExecution =>
    match monitor.marking.digest with
    | .ok digest => monitor.seen.insert digest
    | .error _ => monitor.seen
  | .clearCoverage => []
  | _ => monitor.seen

variable {monitor left right : Monitor} {event : Event} {location location' : Option SourceLocation}
  {call : Call} {id : Str} {next : Engine} {fault : TextFault} {refusal : NotEnabled}

theorem fate_ignored (unmapped : monitor.net.transitionFor event = none) :
    monitor.fate event = .ignored := by
  rw [fate,unmapped]

theorem fate_fired (mapped : monitor.net.transitionFor event = some id)
    (unstopped : (monitor.seededFor event id).fault = none)
    (fired : (monitor.seededFor event id).engine.fire id event.binding = .ok next) :
    monitor.fate event = .fired := by
  simp only [fate,mapped,unstopped,fired]

theorem fate_rejected (mapped : monitor.net.transitionFor event = some id)
    (unstopped : (monitor.seededFor event id).fault = none)
    (refused : (monitor.seededFor event id).engine.fire id event.binding =
      .error (.notEnabled refusal)) : monitor.fate event = .rejected refusal := by
  simp only [fate,mapped,unstopped,refused]

theorem fate_stopped (mapped : monitor.net.transitionFor event = some id)
    (halts : monitor.Halts event id fault) : monitor.fate event = .stopped fault := by
  rcases halts with stop | ⟨unstopped,refused⟩
  · simp only [fate,mapped,stop]
  · simp only [fate,mapped,unstopped,refused]

theorem seeds?_mapped (mapped : monitor.net.transitionFor event = some id) :
    monitor.seeds? event = (monitor.seededFor event id).seeded := by
  rw [seeds?,mapped]

-- The four ways in which an event can be processed, and what each leaves behind.
inductive Course (monitor : Monitor) (event : Event) (location : Option SourceLocation) : Prop where
  | ignored (unmapped : monitor.net.transitionFor event = none)
      (fate : monitor.fate event = .ignored)
      (accepted : (monitor.observe event location).result = .ok none)
      (kept : (monitor.observe event location).monitor.engine = monitor.engine)
  | fired (id : Str) (transition : Transition)
      (mapped : monitor.net.transitionFor event = some id)
      (known : monitor.engine.transitions.find? id = some transition)
      (unstopped : (monitor.seededFor event id).fault = none)
      (drawable : Drawable (monitor.seededFor event id).engine.marking.count event.binding
        transition.pre)
      (fate : monitor.fate event = .fired)
      (answered : (monitor.observe event location).result =
        if monitor.digests then
          (monitor.observe event location).monitor.marking.digest.map fun _ => none
        else .ok none)
      (moved : (monitor.observe event location).monitor.marking =
        (monitor.seededFor event id).engine.marking.after event.binding transition)
  | rejected (id : Str) (refusal : NotEnabled)
      (mapped : monitor.net.transitionFor event = some id)
      (unstopped : (monitor.seededFor event id).fault = none)
      (refused : (monitor.seededFor event id).engine.fire id event.binding =
        .error (.notEnabled refusal))
      (fate : monitor.fate event = .rejected refusal)
      (reported : (monitor.observe event location).result =
        .ok (some (.ofEvent event location refusal
          (monitor.observe event location).monitor.marking)))
      (restored : ∀ place token, (monitor.observe event location).monitor.marking.count place token =
        monitor.marking.count place token)
  | stopped (id : Str) (fault : TextFault)
      (mapped : monitor.net.transitionFor event = some id)
      (halts : monitor.Halts event id fault)
      (fate : monitor.fate event = .stopped fault)
      (unanswered : (monitor.observe event location).result = .error fault)
      (left : (monitor.observe event location).monitor.engine =
        (monitor.seededFor event id).engine)

theorem course (monitor : Monitor) (event : Event) (location : Option SourceLocation) :
    Course monitor event location := by
  have way := processed monitor event location
  generalize same : monitor.observe event location = outcome at way
  cases way with
  | ignored unmapped => exact .ignored unmapped (fate_ignored unmapped) (by rw [same]; rfl) (by rw [same]; rfl)
  | @fired id next mapped unstopped fired =>
    have behind := settled { monitor with tally := monitor.tally.count } (monitor.seededFor event id)
      next event
    obtain ⟨transition,known,drawable,moved⟩ := Engine.fire_ok_iff.mp fired
    rw [seededFor_transitions] at known
    refine .fired id transition mapped known unstopped drawable (fate_fired mapped unstopped fired)
      ?_ ?_
    · rw [same,marking,behind.engine]
      exact behind.result
    · rw [same,marking,behind.engine,moved]
  | rejected mapped unstopped refused =>
    exact .rejected _ _ mapped unstopped refused (fate_rejected mapped unstopped refused)
      (by rw [same]; rfl) (by rw [same]; exact count_unseed_seed)
  | stopped mapped halts =>
    exact .stopped _ _ mapped halts (fate_stopped mapped halts) (by rw [same]) (by rw [same])

theorem observe_tally : (monitor.observe event location).monitor.tally =
    monitor.tally.plus (monitor.growth event) := by
  have way := processed monitor event location
  generalize monitor.observe event location = outcome at way ⊢
  cases way with
  | ignored unmapped => rw [growth,fate_ignored unmapped]; rfl
  | fired mapped unstopped fired =>
    rw [growth,fate_fired mapped unstopped fired,(settled ..).tally,seeds?_mapped mapped]
    rfl
  | rejected mapped unstopped refused => rw [growth,fate_rejected mapped unstopped refused]; rfl
  | stopped mapped halts => rw [growth,fate_stopped mapped halts]; rfl

theorem perform_tally : (monitor.perform call).tally = monitor.tally.plus (monitor.counts call) := by
  cases call with
  | observe event location => exact observe_tally
  | endExecution => rw [perform_endExecution]; rfl
  | reset => rfl
  | clearCoverage => rfl
  | close => rfl

theorem perform_seen : (monitor.perform call).seen = monitor.seenAfter call := by
  cases call with
  | observe event location => exact observe_seen
  | endExecution => rw [perform_endExecution]; rfl
  | reset | clearCoverage | close => rfl

-- The log grows by the events that fire, and by nothing else.
theorem observe_journal : (monitor.observe event location).monitor.journal =
    if monitor.fires event then
      match (monitor.observe event location).monitor.marking.digest with
      | .ok digest => monitor.journal.map (·.append event digest)
      | .error _ => monitor.journal
    else monitor.journal := by
  have way := processed monitor event location
  generalize monitor.observe event location = outcome at way ⊢
  cases way with
  | ignored unmapped => rw [fires,fate_ignored unmapped]; rfl
  | @fired id next mapped unstopped fired =>
    have behind := settled { monitor with tally := monitor.tally.count } (monitor.seededFor event id)
      next event
    rw [fires,fate_fired mapped unstopped fired,marking,behind.engine,behind.journal]
    rfl
  | rejected mapped unstopped refused => rw [fires,fate_rejected mapped unstopped refused]; rfl
  | stopped mapped halts => rw [fires,fate_stopped mapped halts]; rfl

-- The answer to an event is settled by what becomes of it, but for a digest that cannot be made.
theorem observe_result : (monitor.observe event location).result =
    match monitor.fate event with
    | .ignored => .ok none
    | .fired =>
      if monitor.digests then
        (monitor.observe event location).monitor.marking.digest.map fun _ => none
      else .ok none
    | .rejected refusal =>
      .ok (some (.ofEvent event location refusal (monitor.observe event location).monitor.marking))
    | .stopped fault => .error fault := by
  cases course monitor event location with
  | ignored unmapped fate accepted => rw [fate,accepted]
  | fired id transition mapped known unstopped drawable fate answered => rw [fate,answered]
  | rejected id refusal mapped unstopped refused fate reported => rw [fate,reported]
  | stopped id fault mapped halts fate unanswered => rw [fate,unanswered]

-- A report is made of the event, the verdict and the marking that is reached.
theorem observe_violation : (monitor.observe event location).violation =
    (monitor.fate event).refusal?.map fun refusal =>
      .ofEvent event location refusal (monitor.observe event location).monitor.marking := by
  rw [Outcome.violation,observe_result]
  cases monitor.fate event with
  | fired =>
    cases monitor.digests <;>
      cases (monitor.observe event location).monitor.marking.digest <;> rfl
  | ignored | rejected | stopped => rfl

theorem observe_verdict :
    (monitor.observe event location).verdict = (monitor.fate event).refusal? := by
  rw [Outcome.verdict,observe_violation]
  cases monitor.fate event <;> rfl

theorem observe_answer (quiet : monitor.digests = false) :
    (monitor.observe event location).answer = (monitor.fate event).answer := by
  rw [Outcome.answer,observe_result,quiet]
  cases monitor.fate event <;> rfl

theorem violation_marking {violation : Violation}
    (reported : (monitor.observe event location).violation = some violation) :
    violation.marking = (monitor.observe event location).monitor.marking := by
  rw [observe_violation] at reported
  obtain ⟨refusal,_,rfl⟩ := Option.map_eq_some_iff.mp reported
  rfl

-- What is seeded for an event that is stopped stays where it is.
theorem count_stopped {place : Str} {token : Token}
    (mapped : monitor.net.transitionFor event = some id)
    (left : (monitor.observe event location).monitor.engine =
      (monitor.seededFor event id).engine) :
    (monitor.observe event location).monitor.marking.count place token =
      monitor.marking.count place token + (monitor.seeds? event).count (place,token) := by
  rw [marking,left,seeds?_mapped mapped]
  exact count_seed_told place token

theorem mem_seeds? {pair : MissingToken} (seeded : pair ∈ monitor.seeds? event) :
    pair ∈ monitor.net.targets event ∧ monitor.marking.count pair.1 pair.2 = 0 := by
  cases mapped : monitor.net.transitionFor event with
  | none => rw [seeds?,mapped] at seeded; cases seeded
  | some id =>
    rw [seeds?_mapped mapped] at seeded
    rw [← targets_eq mapped]
    exact (seeds ..).absent pair seeded

-- An event fires exactly when it is admitted and its seeds can be told of.
theorem fired_iff (attached : monitor.Attached) : monitor.fate event = .fired ↔
    monitor.TellsSeeds event ∧
      ∃ transition, monitor.net.Admits monitor.marking.count event transition := by
  constructor
  · intro fired
    cases course monitor event none with
    | ignored unmapped fate => rw [fired] at fate; cases fate
    | rejected id refusal mapped unstopped refused fate => rw [fired] at fate; cases fate
    | stopped id fault mapped halts fate => rw [fired] at fate; cases fate
    | fired id transition mapped known unstopped drawable =>
      exact ⟨(unstopped_iff mapped).mp unstopped,transition,(transitionOf_eq attached mapped).mpr known,
        (Drawable.congr (count_seed_targets mapped unstopped)).mp drawable⟩
  · rintro ⟨told,transition,admitted⟩
    obtain ⟨id,mapped,found⟩ := Option.bind_eq_some_iff.mp admitted.known
    have unstopped := (unstopped_iff mapped).mpr told
    have ready := (Drawable.congr (count_seed_targets mapped unstopped)).mpr admitted.drawable
    exact fate_fired mapped unstopped (Engine.fire_ok_iff.mpr
      ⟨transition,by rw [seededFor_transitions,attached]; exact found,ready,rfl⟩)

-- What an event leaves in the places is told by what becomes of it.
theorem count_of_ignored {place : Str} {token : Token} (became : monitor.fate event = .ignored) :
    (monitor.observe event location).monitor.marking.count place token =
      monitor.marking.count place token := by
  cases course monitor event location with
  | ignored unmapped fate accepted kept => rw [marking,kept,marking]
  | fired id transition mapped known unstopped drawable fate
  | rejected id refusal mapped unstopped refused fate
  | stopped id fault mapped halts fate => rw [became] at fate; cases fate

theorem count_of_rejected {place : Str} {token : Token}
    (became : monitor.fate event = .rejected refusal) :
    (monitor.observe event location).monitor.marking.count place token =
      monitor.marking.count place token := by
  cases course monitor event location with
  | rejected id refusal mapped unstopped refused fate reported restored => exact restored place token
  | ignored unmapped fate | fired id transition mapped known unstopped drawable fate
  | stopped id fault mapped halts fate => rw [became] at fate; cases fate

theorem count_of_stopped {place : Str} {token : Token} (became : monitor.fate event = .stopped fault) :
    (monitor.observe event location).monitor.marking.count place token =
      monitor.marking.count place token + (monitor.seeds? event).count (place,token) := by
  cases course monitor event location with
  | stopped id fault mapped halts fate unanswered left => exact count_stopped mapped left
  | ignored unmapped fate | fired id transition mapped known unstopped drawable fate
  | rejected id refusal mapped unstopped refused fate => rw [became] at fate; cases fate

theorem count_of_fired (location : Option SourceLocation) (attached : monitor.Attached)
    (became : monitor.fate event = .fired) :
    ∃ transition, monitor.net.transitionOf event = some transition ∧ ∀ place token,
      (monitor.observe event location).monitor.marking.count place token +
          drawnCount event.binding transition.pre place token =
        seededCounts monitor.marking.count (monitor.net.targets event) place token +
          givenCount event.binding transition.post place token := by
  obtain ⟨told,transition,admitted⟩ := (fired_iff attached).mp became
  exact ⟨transition,admitted.known,(observe_admitted location attached admitted told).2⟩

-- Off its footprint an event changes nothing.
theorem observe_frame {place : Str} {token : Token} (attached : monitor.Attached)
    (off : (place,token) ∉ monitor.net.footprint event) :
    (monitor.observe event location).monitor.marking.count place token =
      monitor.marking.count place token := by
  have untargeted : (place,token) ∉ monitor.net.targets event := fun member =>
    off (Net.targets_subset_footprint member)
  cases became : monitor.fate event with
  | ignored => exact count_of_ignored became
  | rejected refusal => exact count_of_rejected became
  | stopped fault =>
    have unseeded : (place,token) ∉ monitor.seeds? event := fun member =>
      untargeted (mem_seeds? member).1
    rw [count_of_stopped became,List.count_eq_zero_of_not_mem unseeded,Nat.add_zero]
  | fired =>
    obtain ⟨transition,known,balance⟩ := count_of_fired location attached became
    have arcs := Net.arcTargets_subset_footprint known
    rw [arcTargets_append] at arcs
    have drawn : drawnCount event.binding transition.pre place token = 0 :=
      drawnCount_eq_zero fun member => off (arcs (List.mem_append_left _ member))
    have given : givenCount event.binding transition.post place token = 0 :=
      givenCount_eq_zero fun member => off (arcs (List.mem_append_right _ member))
    have here := balance place token
    rwa [drawn,given,seededCounts,if_neg untargeted,Nat.max_zero] at here

-- Monitors of one net whose contents agree on all that an event can look at.
structure AlikeFor (event : Event) (left right : Monitor) : Prop where
  net : left.net = right.net
  voice : SameVoice left.logger right.logger
  attached : left.Attached
  attached' : right.Attached
  agree : AgreeOn (left.net.footprint event) left.marking.count right.marking.count

namespace AlikeFor

variable (alike : AlikeFor event left right)
include alike

theorem symm : AlikeFor event right left :=
  ⟨alike.net.symm,alike.voice.symm,alike.attached',alike.attached,alike.net ▸ alike.agree.symm⟩

theorem maps : left.net.transitionFor event = right.net.transitionFor event := by rw [alike.net]

theorem table : left.engine.transitions = right.engine.transitions := by
  rw [alike.attached,alike.attached',alike.net]

theorem seeding (mapped : left.net.transitionFor event = some id) :
    (left.seededFor event id).seeded = (right.seededFor event id).seeded ∧
      (left.seededFor event id).fault = (right.seededFor event id).fault := by
  have rules : left.net.seedRules id = right.net.seedRules id := by rw [alike.net]
  rw [seededFor,seededFor,← rules]
  refine seed_congr alike.voice ?_
  rw [targets_eq mapped]
  exact alike.agree.mono Net.targets_subset_footprint

theorem seeds? : left.seeds? event = right.seeds? event := by
  cases mapped : left.net.transitionFor event with
  | none => rw [Monitor.seeds?,Monitor.seeds?,mapped,← alike.maps,mapped]
  | some id =>
    rw [seeds?_mapped mapped,seeds?_mapped (alike.maps.symm.trans mapped),(alike.seeding mapped).1]

theorem seeded (mapped : left.net.transitionFor event = some id)
    (unstopped : (left.seededFor event id).fault = none) :
    AgreeOn (left.net.footprint event) (left.seededFor event id).engine.marking.count
      (right.seededFor event id).engine.marking.count := by
  intro place token member
  have mapped' : right.net.transitionFor event = some id := alike.maps.symm.trans mapped
  have unstopped' : (right.seededFor event id).fault = none :=
    (alike.seeding mapped).2.symm.trans unstopped
  rw [count_seed_targets mapped unstopped,count_seed_targets mapped' unstopped',← alike.net]
  exact alike.agree.seeded _ place token member

theorem refused {problem : FireFault} (mapped : left.net.transitionFor event = some id)
    (unstopped : (left.seededFor event id).fault = none)
    (refused : (left.seededFor event id).engine.fire id event.binding = .error problem) :
    (right.seededFor event id).engine.fire id event.binding = .error problem := by
  refine Engine.fire_error_congr ?_ (fun transition known => ?_) refused
  · rw [seededFor_transitions,seededFor_transitions,alike.table]
  · rw [seededFor_transitions] at known
    have arcs := Net.arcTargets_subset_footprint ((transitionOf_eq alike.attached mapped).mpr known)
    rw [arcTargets_append] at arcs
    exact (alike.seeded mapped unstopped).mono fun pair member => arcs (List.mem_append_left _ member)

-- What becomes of an event depends on what its footprint held before.
theorem fate : left.fate event = right.fate event := by
  cases mapped : left.net.transitionFor event with
  | none => rw [fate_ignored mapped,fate_ignored (alike.maps.symm.trans mapped)]
  | some id =>
    have mapped' : right.net.transitionFor event = some id := alike.maps.symm.trans mapped
    have faults := (alike.seeding mapped).2
    cases stop : (left.seededFor event id).fault with
    | some fault =>
      rw [fate_stopped mapped (.inl stop),fate_stopped mapped' (.inl (faults.symm.trans stop))]
    | none =>
      have stop' := faults.symm.trans stop
      cases outcome : (left.seededFor event id).engine.fire id event.binding with
      | error problem =>
        have outcome' := alike.refused mapped stop outcome
        cases problem with
        | notEnabled refusal =>
          rw [fate_rejected mapped stop outcome,fate_rejected mapped' stop' outcome']
        | text fault =>
          rw [fate_stopped mapped (.inr ⟨stop,outcome⟩),fate_stopped mapped' (.inr ⟨stop',outcome'⟩)]
      | ok next =>
        cases outcome' : (right.seededFor event id).engine.fire id event.binding with
        | error problem =>
          rw [alike.symm.refused mapped' stop' outcome'] at outcome
          cases outcome
        | ok next' => rw [fate_fired mapped stop outcome,fate_fired mapped' stop' outcome']

theorem growth : left.growth event = right.growth event := by
  rw [Monitor.growth,Monitor.growth,alike.fate,alike.seeds?]

theorem fires : left.fires event = right.fires event := by
  rw [Monitor.fires,Monitor.fires,alike.fate]

-- So does what the footprint holds afterwards.
theorem agree_observe (location location' : Option SourceLocation) :
    AgreeOn (left.net.footprint event) (left.observe event location).monitor.marking.count
      (right.observe event location').monitor.marking.count := by
  intro place token member
  have agree := alike.agree place token member
  have same := alike.fate
  cases became : left.fate event with
  | ignored => rw [count_of_ignored became,count_of_ignored (same.symm.trans became),agree]
  | rejected refusal => rw [count_of_rejected became,count_of_rejected (same.symm.trans became),agree]
  | stopped fault =>
    rw [count_of_stopped became,count_of_stopped (same.symm.trans became),agree,alike.seeds?]
  | fired =>
    obtain ⟨transition,known,balance⟩ := count_of_fired location alike.attached became
    obtain ⟨transition',known',balance'⟩ :=
      count_of_fired location' alike.attached' (same.symm.trans became)
    rw [← alike.net,known] at known'
    cases known'
    have here := balance place token
    have there := balance' place token
    have seeded := alike.agree.seeded (left.net.targets event) place token member
    rw [← alike.net] at there
    omega

end AlikeFor

-- Monitors of one net with the same contents. What else they carry, and which empty
-- places they store, plays no part in what becomes of events.
structure Alike (left right : Monitor) : Prop where
  net : left.net = right.net
  voice : SameVoice left.logger right.logger
  attached : left.Attached
  attached' : right.Attached
  counts : ∀ place token, left.marking.count place token = right.marking.count place token

-- An event as a host reports it: what happened, and where if that is known.
abbrev Report := Event × Option SourceLocation

def observed (reports : List Report) : List Call :=
  reports.map fun report => .observe report.1 report.2

-- Reports with what becomes of them, each in the state that those before have led to.
def fates (monitor : Monitor) : List Report → List (Report × Fate)
  | [] => []
  | report :: rest =>
    (report,monitor.fate report.1) :: fates (monitor.observe report.1 report.2).monitor rest

theorem run_observed_append (before after : List Report) :
    monitor.run (observed (before ++ after)) =
      (monitor.run (observed before)).run (observed after) := by
  rw [observed,List.map_append,run_append]
  rfl

theorem fates_append (before after : List Report) : monitor.fates (before ++ after) =
    monitor.fates before ++ (monitor.run (observed before)).fates after := by
  induction before generalizing monitor with
  | nil => rfl
  | cons report rest ih => rw [List.cons_append,fates,fates,ih,List.cons_append]; rfl

theorem observe_attached (attached : monitor.Attached) :
    (monitor.observe event location).monitor.Attached := by
  rw [Attached,observe_transitions,observe_net]
  exact attached

namespace Alike

theorem refl (attached : monitor.Attached) : Alike monitor monitor :=
  ⟨rfl,fun _ => rfl,attached,attached,fun _ _ => rfl⟩

theorem trans {middle : Monitor} (former : Alike left middle) (latter : Alike middle right) :
    Alike left right :=
  ⟨former.net.trans latter.net,fun pair => (former.voice pair).trans (latter.voice pair),
    former.attached,latter.attached',
    fun place token => (former.counts place token).trans (latter.counts place token)⟩

theorem forEvent (alike : Alike left right) (event : Event) : AlikeFor event left right :=
  ⟨alike.net,alike.voice,alike.attached,alike.attached',fun place token _ => alike.counts place token⟩

theorem observe (alike : Alike left right) (event : Event) (location location' : Option SourceLocation) :
    Alike (left.observe event location).monitor (right.observe event location').monitor := by
  have after := (alike.forEvent event).agree_observe location location'
  refine ⟨?_,?_,observe_attached alike.attached,observe_attached alike.attached',fun place token => ?_⟩
  · rw [observe_net,observe_net,alike.net]
  · rw [observe_logger,observe_logger]
    exact alike.voice
  · by_cases member : (place,token) ∈ left.net.footprint event
    · exact after place token member
    · rw [observe_frame alike.attached member,alike.counts,
        observe_frame alike.attached' (alike.net ▸ member)]

theorem run (alike : Alike left right) (reports : List Report) :
    Alike (left.run (observed reports)) (right.run (observed reports)) := by
  induction reports generalizing left right with
  | nil => exact alike
  | cons report rest ih => exact ih (alike.observe report.1 report.2 report.2)

theorem fates (alike : Alike left right) (reports : List Report) :
    left.fates reports = right.fates reports := by
  induction reports generalizing left right with
  | nil => rfl
  | cons report rest ih =>
    rw [Monitor.fates,Monitor.fates,(alike.forEvent report.1).fate,
      ih (alike.observe report.1 report.2 report.2)]

theorem sameContents (alike : Alike left right) : left.marking.sameContents right.marking = true :=
  Marking.sameContents_iff.mpr alike.counts

end Alike

end ProtocolNet.Monitor
