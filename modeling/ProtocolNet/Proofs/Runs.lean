import ProtocolNet.Monitor.Setup
import ProtocolNet.Proofs.Seeding

namespace ProtocolNet.Monitor

-- What a host asks of a monitor.
inductive Call where
  | observe (event : Event) (location : Option SourceLocation)
  | reset
  | endExecution
  | clearCoverage
  | close

def perform (monitor : Monitor) : Call → Monitor
  | .observe event location => (monitor.observe event location).monitor
  | .reset => monitor.reset
  | .endExecution =>
    match monitor.endExecution with
    | .ok (ended,_) => ended
    | .error _ => monitor
  | .clearCoverage => monitor.clearCoverage
  | .close => monitor.close

def run (monitor : Monitor) (calls : List Call) : Monitor := calls.foldl perform monitor

-- A monitor at the start of its first execution, with whatever log it was given.
def startWith (net : Net) (config : Option Config) (logger : Logger) (journal : Option Journal) :
    Monitor :=
  { start net config logger with journal }

-- What seeding for an event leads to, if it stands for a transition.
def seededFor (monitor : Monitor) (event : Event) (id : Str) : Seeding :=
  seed monitor.logger event.binding monitor.engine (monitor.net.seedRules id)

-- Whether a digest is made of the marking that a firing leads to.
def digests (monitor : Monitor) : Bool :=
  monitor.debug || monitor.journal.any (·.accepts.isSome)

-- Whether something has happened in calls behind the last one that ends it. What happens is said of
-- a call and those before it.
def Since (ending : Call) (happens : List Call → Call → Prop) (calls : List Call) : Prop :=
  ∃ before call after, calls = before ++ call :: after ∧ ending ∉ after ∧ happens before call

-- The transitions that fire are those of the net: no call registers another one.
def Attached (monitor : Monitor) : Prop := monitor.engine.transitions = monitor.net.transitions

variable {monitor : Monitor} {net : Net} {config : Option Config} {journal : Option Journal}
  {logger : Logger} {event : Event} {location : Option SourceLocation} {call : Call}
  {calls : List Call} {id : Str} {next : Engine} {fault : TextFault} {refusal : NotEnabled}

theorem run_cons (rest : List Call) : monitor.run (call :: rest) = (monitor.perform call).run rest :=
  rfl

theorem run_append (before after : List Call) :
    monitor.run (before ++ after) = (monitor.run before).run after := List.foldl_append

theorem run_snoc (before : List Call) :
    monitor.run (before ++ [call]) = (monitor.run before).perform call := run_append before [call]

theorem not_since_nil {ending : Call} {happens : List Call → Call → Prop} :
    ¬ Since ending happens [] := by
  rintro ⟨before,call,after,divided,-⟩
  exact absurd divided (by simp)

theorem since_snoc {ending : Call} {happens : List Call → Call → Prop} :
    Since ending happens (calls ++ [call]) ↔
      (call ≠ ending ∧ Since ending happens calls) ∨ happens calls call := by
  constructor
  · rintro ⟨before,earlier,after,divided,kept,happened⟩
    rcases List.eq_nil_or_concat after with rfl | ⟨middle,last,rfl⟩
    · obtain ⟨rfl,same⟩ := List.append_inj' divided rfl
      cases same
      exact .inr happened
    · rw [List.concat_eq_append,← List.cons_append,← List.append_assoc] at divided
      obtain ⟨rfl,same⟩ := List.append_inj' divided rfl
      cases same
      simp only [List.concat_eq_append,List.mem_append,List.mem_singleton,not_or] at kept
      exact .inl ⟨Ne.symm kept.2,before,earlier,middle,rfl,kept.1,happened⟩
  · rintro (⟨going,before,earlier,after,rfl,kept,happened⟩ | happened)
    · refine ⟨before,earlier,after ++ [call],by simp,?_,happened⟩
      simp only [List.mem_append,List.mem_singleton,not_or]
      exact ⟨kept,Ne.symm going⟩
    · exact ⟨calls,call,[],rfl,List.not_mem_nil,happened⟩

-- What is told of a firing, and recorded of it, changes nothing else.
structure Settled (monitor : Monitor) (seeding : Seeding) (reached : Engine) (event : Event)
    (outcome : Outcome) : Prop where
  result : outcome.result =
    if monitor.digests then reached.marking.digest.map fun _ => none else .ok none
  net : outcome.monitor.net = monitor.net
  config : outcome.monitor.config = monitor.config
  logger : outcome.monitor.logger = monitor.logger
  engine : outcome.monitor.engine = reached
  seen : outcome.monitor.seen = monitor.seen
  tally : outcome.monitor.tally = { monitor.tally with
    fired := monitor.tally.fired + 1
    seeded := monitor.tally.seeded + seeding.seeded.length }
  journal : outcome.monitor.journal =
    match reached.marking.digest with
    | .ok digest => monitor.journal.map (·.append event digest)
    | .error _ => monitor.journal

theorem append_closed {journal : Journal} {digest : Nat} (closed : journal.accepts = none) :
    journal.append event digest = journal := by
  rw [Journal.append,closed]

theorem append_accepts {journal : Journal} {digest : Nat} :
    (journal.append event digest).accepts = journal.accepts := by
  unfold Journal.append
  cases opened : journal.accepts with
  | none => exact opened
  | some accepts =>
    dsimp only
    split
    · rfl
    · exact opened

theorem record_ok {digest : Nat} (made : monitor.marking.digest = .ok digest) :
    monitor.record event =
      .ok { monitor with journal := monitor.journal.map (·.append event digest) } := by
  obtain ⟨net,config,logger,engine,seen,tally,journal⟩ := monitor
  cases journal with
  | none => rfl
  | some journal =>
    cases opened : journal.accepts with
    | none => simp [record,opened,append_closed opened]
    | some accepts => simp [record,opened,made,Except.map]

theorem record_error (unmade : monitor.marking.digest = .error fault) :
    monitor.record event =
      if monitor.journal.any (·.accepts.isSome) then .error fault else .ok monitor := by
  unfold record
  cases monitor.journal with
  | none => rfl
  | some journal => simp [unmade,Except.map]

theorem trace_ok {digest : Nat} (made : monitor.marking.digest = .ok digest) :
    ∃ told, monitor.trace event = .ok told := by
  rw [trace,made]
  cases monitor.debug with
  | true => exact ⟨_,rfl⟩
  | false => exact ⟨_,rfl⟩

theorem trace_error (unmade : monitor.marking.digest = .error fault) :
    monitor.trace event = if monitor.debug then .error fault else .ok [] := by
  rw [trace,unmade]
  rfl

-- The monitor in which an event has fired and is counted, but not yet told of or recorded.
def counted (monitor : Monitor) (seeding : Seeding) (reached : Engine) : Monitor :=
  { monitor with
    engine := reached
    tally := { monitor.tally with
      fired := monitor.tally.fired + 1
      seeded := monitor.tally.seeded + seeding.seeded.length } }

theorem settle_untraced {seeding : Seeding} {reached : Engine}
    (untraced : (monitor.counted seeding reached).trace event = .error fault) :
    monitor.settle seeding reached event =
      ⟨monitor.counted seeding reached,.error fault,seeding.output⟩ := by
  rw [counted] at untraced
  simp only [settle,untraced,counted]

theorem settle_unrecorded {seeding : Seeding} {reached : Engine} {told : Str}
    (traced : (monitor.counted seeding reached).trace event = .ok told)
    (unrecorded : (monitor.counted seeding reached).record event = .error fault) :
    monitor.settle seeding reached event =
      ⟨monitor.counted seeding reached,.error fault,seeding.output ++ told⟩ := by
  rw [counted] at traced unrecorded
  simp only [settle,traced,unrecorded,counted]

theorem settle_recorded {seeding : Seeding} {reached : Engine} {told : Str} {next : Monitor}
    (traced : (monitor.counted seeding reached).trace event = .ok told)
    (recorded : (monitor.counted seeding reached).record event = .ok next) :
    monitor.settle seeding reached event = ⟨next,.ok none,seeding.output ++ told⟩ := by
  rw [counted] at traced recorded
  simp only [settle,traced,recorded]

theorem settled (monitor : Monitor) (seeding : Seeding) (reached : Engine) (event : Event) :
    Settled monitor seeding reached event (monitor.settle seeding reached event) := by
  cases made : reached.marking.digest with
  | ok digest =>
    have digested : (monitor.counted seeding reached).marking.digest = .ok digest := made
    obtain ⟨told,traced⟩ := @trace_ok _ event _ digested
    rw [settle_recorded traced (record_ok digested)]
    constructor <;> simp [counted,made,Except.map]
  | error fault =>
    have undigested : (monitor.counted seeding reached).marking.digest = .error fault := made
    have traced := @trace_error _ event _ undigested
    cases debugging : monitor.debug with
    | true =>
      have debugs : (monitor.counted seeding reached).debug = true := debugging
      rw [debugs] at traced
      rw [settle_untraced traced]
      constructor <;> simp [counted,digests,debugging,made,Except.map]
    | false =>
      have debugs : (monitor.counted seeding reached).debug = false := debugging
      have recorded := @record_error _ event _ undigested
      rw [debugs] at traced
      cases opened : monitor.journal.any (·.accepts.isSome) with
      | true =>
        have opens : (monitor.counted seeding reached).journal.any (·.accepts.isSome) = true := opened
        rw [opens] at recorded
        rw [settle_unrecorded traced recorded]
        constructor <;> simp [counted,digests,debugging,opened,made,Except.map]
      | false =>
        have opens : (monitor.counted seeding reached).journal.any (·.accepts.isSome) = false := opened
        rw [opens] at recorded
        rw [settle_recorded traced recorded]
        constructor <;> simp [counted,digests,debugging,opened,made]

-- What stops an event before its transition fires: a seed, or a refusal, that cannot be told of.
def Halts (monitor : Monitor) (event : Event) (id : Str) (fault : TextFault) : Prop :=
  (monitor.seededFor event id).fault = some fault ∨
    (monitor.seededFor event id).fault = none ∧
      (monitor.seededFor event id).engine.fire id event.binding = .error (.text fault)

-- The four ways in which an event can be processed.
inductive Processed (monitor : Monitor) (event : Event) (location : Option SourceLocation) :
    Outcome → Prop
  | ignored (unmapped : monitor.net.transitionFor event = none) :
      Processed monitor event location
        ({ monitor with tally := monitor.tally.count }.passBy event)
  | fired {id : Str} {next : Engine} (mapped : monitor.net.transitionFor event = some id)
      (unstopped : (monitor.seededFor event id).fault = none)
      (fired : (monitor.seededFor event id).engine.fire id event.binding = .ok next) :
      Processed monitor event location
        ({ monitor with tally := monitor.tally.count }.settle (monitor.seededFor event id) next event)
  | rejected {id : Str} {refusal : NotEnabled}
      (mapped : monitor.net.transitionFor event = some id)
      (unstopped : (monitor.seededFor event id).fault = none)
      (refused : (monitor.seededFor event id).engine.fire id event.binding =
        .error (.notEnabled refusal)) :
      Processed monitor event location
        ({ monitor with tally := monitor.tally.count }.reject (monitor.seededFor event id) event
          location refusal)
  | stopped {id : Str} {fault : TextFault} (mapped : monitor.net.transitionFor event = some id)
      (halts : monitor.Halts event id fault) :
      Processed monitor event location
        ⟨{ monitor with
            tally := monitor.tally.count
            engine := (monitor.seededFor event id).engine },
          .error fault,(monitor.seededFor event id).output⟩

theorem processed (monitor : Monitor) (event : Event) (location : Option SourceLocation) :
    Processed monitor event location (monitor.observe event location) := by
  unfold observe
  dsimp only
  split
  · rename_i unmapped
    exact .ignored unmapped
  · rename_i id mapped
    split
    · rename_i fault stop
      exact .stopped mapped (.inl stop)
    · rename_i unstopped
      split
      · rename_i fault refused
        exact .stopped mapped (.inr ⟨unstopped,refused⟩)
      · rename_i refusal refused
        exact .rejected mapped unstopped refused
      · rename_i next fired
        exact .fired mapped unstopped fired

theorem observe_net : (monitor.observe event location).monitor.net = monitor.net := by
  have way := processed monitor event location
  generalize monitor.observe event location = outcome at way ⊢
  cases way with
  | fired => exact (settled ..).net
  | ignored | rejected | stopped => rfl

theorem observe_config : (monitor.observe event location).monitor.config = monitor.config := by
  have way := processed monitor event location
  generalize monitor.observe event location = outcome at way ⊢
  cases way with
  | fired => exact (settled ..).config
  | ignored | rejected | stopped => rfl

theorem observe_logger : (monitor.observe event location).monitor.logger = monitor.logger := by
  have way := processed monitor event location
  generalize monitor.observe event location = outcome at way ⊢
  cases way with
  | fired => exact (settled ..).logger
  | ignored | rejected | stopped => rfl

theorem observe_seen : (monitor.observe event location).monitor.seen = monitor.seen := by
  have way := processed monitor event location
  generalize monitor.observe event location = outcome at way ⊢
  cases way with
  | fired => exact (settled ..).seen
  | ignored | rejected | stopped => rfl

-- Whether digests are made does not change as events come.
theorem observe_digests : (monitor.observe event location).monitor.digests = monitor.digests := by
  have debugs : (monitor.observe event location).monitor.debug = monitor.debug := by
    rw [debug,debug,observe_config]
  have opened : (monitor.observe event location).monitor.journal.any (·.accepts.isSome) =
      monitor.journal.any (·.accepts.isSome) := by
    have way := processed monitor event location
    generalize monitor.observe event location = outcome at way ⊢
    cases way with
    | fired =>
      rw [(settled ..).journal]
      split
      · rw [Option.any_map]
        simp only [append_accepts]
      · rfl
    | ignored | rejected | stopped => rfl
  rw [digests,digests,debugs,opened]

theorem observe_transitions :
    (monitor.observe event location).monitor.engine.transitions = monitor.engine.transitions := by
  have way := processed monitor event location
  generalize monitor.observe event location = outcome at way ⊢
  cases way with
  | ignored => rfl
  | fired _ _ fired => rw [(settled ..).engine,Engine.fire_transitions fired]; exact seed_transitions
  | rejected => exact unseed_transitions.trans seed_transitions
  | stopped => exact seed_transitions

theorem observe_ignored (location : Option SourceLocation)
    (unmapped : monitor.net.transitionFor event = none) :
    (monitor.observe event location).result = .ok none ∧
      (monitor.observe event location).monitor.engine = monitor.engine := by
  rw [observe,unmapped]
  exact ⟨rfl,rfl⟩

-- What an execution leads to at its end, if its marking has a digest.
theorem endExecution_ok {digest : Nat} (made : monitor.marking.digest = .ok digest) :
    monitor.endExecution = .ok ({ monitor with seen := monitor.seen.insert digest },digest,
      !decide (digest ∈ monitor.seen)) := by
  rw [endExecution,made]
  change Except.ok (if digest ∈ monitor.seen then _ else _) = _
  split
  · rename_i known
    rw [List.insert_of_mem known,decide_eq_true known]
    rfl
  · rename_i unknown
    rw [List.insert_of_not_mem unknown,decide_eq_false unknown]
    rfl

theorem endExecution_error (unmade : monitor.marking.digest = .error fault) :
    monitor.endExecution = .error fault := by
  rw [endExecution,unmade]
  rfl

-- Only the digests that were seen can be others behind the end of an execution.
theorem perform_endExecution : monitor.perform .endExecution = { monitor with
    seen := match monitor.marking.digest with
      | .ok digest => monitor.seen.insert digest
      | .error _ => monitor.seen } := by
  rw [perform]
  cases made : monitor.marking.digest with
  | ok digest => rw [endExecution_ok made]
  | error fault => rw [endExecution_error made]

theorem perform_net : (monitor.perform call).net = monitor.net := by
  cases call with
  | observe event location => exact observe_net
  | endExecution => rw [perform_endExecution]
  | reset => rfl
  | clearCoverage => rfl
  | close => rfl

theorem perform_logger : (monitor.perform call).logger = monitor.logger := by
  cases call with
  | observe event location => exact observe_logger
  | endExecution => rw [perform_endExecution]
  | reset => rfl
  | clearCoverage => rfl
  | close => rfl

-- A log can only be closed, so where no digests are made none will be.
theorem perform_quiet (quiet : monitor.digests = false) : (monitor.perform call).digests = false := by
  cases call with
  | observe event location => exact observe_digests.trans quiet
  | endExecution => rw [perform_endExecution]; exact quiet
  | reset => exact quiet
  | clearCoverage => exact quiet
  | close =>
    have debugs : monitor.debug = false := (Bool.or_eq_false_iff.mp quiet).1
    show (monitor.debug || (monitor.journal.map Journal.close).any (·.accepts.isSome)) = false
    rw [debugs]
    cases monitor.journal <;> rfl

theorem perform_transitions :
    (monitor.perform call).engine.transitions = monitor.engine.transitions := by
  cases call with
  | observe event location => exact observe_transitions
  | endExecution => rw [perform_endExecution]
  | reset => rfl
  | clearCoverage => rfl
  | close => rfl

theorem run_net : (monitor.run calls).net = monitor.net := by
  induction calls generalizing monitor with
  | nil => rfl
  | cons call rest ih => rw [run_cons,ih,perform_net]

theorem run_logger : (monitor.run calls).logger = monitor.logger := by
  induction calls generalizing monitor with
  | nil => rfl
  | cons call rest ih => rw [run_cons,ih,perform_logger]

theorem run_quiet (quiet : monitor.digests = false) : (monitor.run calls).digests = false := by
  induction calls generalizing monitor with
  | nil => exact quiet
  | cons call rest ih => exact ih (perform_quiet quiet)

theorem perform_attached (attached : monitor.Attached) : (monitor.perform call).Attached := by
  rw [Attached,perform_transitions,perform_net]
  exact attached

theorem run_attached (attached : monitor.Attached) : (monitor.run calls).Attached := by
  induction calls generalizing monitor with
  | nil => exact attached
  | cons call rest ih => exact ih (perform_attached attached)

theorem startWith_attached : (startWith net config logger journal).Attached := rfl

end ProtocolNet.Monitor
