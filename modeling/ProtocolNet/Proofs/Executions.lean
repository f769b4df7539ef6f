import ProtocolNet.Proofs.FileTree
import ProtocolNet.Proofs.Response
import ProtocolNet.Proofs.TraceFiles

namespace ProtocolNet

namespace Monitor

-- Monitors of one net whose engines are in the same state, and which can tell of the same seeds.
structure Twins (left right : Monitor) : Prop where
  net : left.net = right.net
  engine : left.engine = right.engine
  voice : SameVoice left.logger right.logger

-- The engine behind an event.
def engineAfter (monitor : Monitor) (event : Event) : Engine :=
  match monitor.net.transitionFor event with
  | none => monitor.engine
  | some id =>
    let seeding := monitor.seededFor event id
    match seeding.fault, seeding.engine.fire id event.binding with
    | none, .ok next => next
    | none, .error (.notEnabled _) => unseed seeding.engine seeding.seeded
    | _, _ => seeding.engine

-- The log may grow, but it stays where it is.
def logPath (monitor : Monitor) : Option Path := monitor.journal.map (·.path)

-- What neither events nor the ends of executions change.
structure Steady (former latter : Monitor) : Prop where
  net : latter.net = former.net
  config : latter.config = former.config
  logger : latter.logger = former.logger
  transitions : latter.engine.transitions = former.engine.transitions
  logPath : latter.logPath = former.logPath
  digests : latter.digests = former.digests

variable {monitor left right former middle latter : Monitor} {event : Event}
  {location : Option SourceLocation} {call : Call} {id : Str}

theorem Seeds.voiced {binding : Binding} {engine last : Engine} {logger logger' : Logger}
    {rules : List SeedRule} {pairs : List MissingToken} {stop : Option TextFault}
    (seeds : Seeds logger binding engine rules last pairs stop) (voice : SameVoice logger logger') :
    Seeds logger' binding engine rules last pairs stop := by
  induction seeds with
  | done => exact .done
  | unbound unbound _ ih => exact .unbound unbound ih
  | held bound held _ ih => exact .held bound held ih
  | mute bound added mute => exact .mute bound added ((voice _).symm.trans mute)
  | told bound added told _ ih => exact .told bound added ((voice _).symm.trans told) ih

theorem observe_engine :
    (monitor.observe event location).monitor.engine = monitor.engineAfter event := by
  have way := processed monitor event location
  generalize monitor.observe event location = outcome at way ⊢
  cases way with
  | ignored unmapped => simp only [engineAfter,unmapped]; rfl
  | fired mapped unstopped fired =>
    simp only [engineAfter,mapped,unstopped,fired]
    exact (settled ..).engine
  | rejected mapped unstopped refused => simp only [engineAfter,mapped,unstopped,refused]; rfl
  | stopped mapped halts =>
    rcases halts with stop | ⟨unstopped,refused⟩
    · simp only [engineAfter,mapped,stop]
    · simp only [engineAfter,mapped,unstopped,refused]

namespace Twins

variable (twins : Twins left right)
include twins

theorem marking : left.marking = right.marking := congrArg Engine.marking twins.engine

theorem seededFor (event : Event) (id : Str) :
    (left.seededFor event id).engine = (right.seededFor event id).engine ∧
      (left.seededFor event id).seeded = (right.seededFor event id).seeded ∧
      (left.seededFor event id).fault = (right.seededFor event id).fault := by
  have seeds := (@seeds event.binding left.logger left.engine (left.net.seedRules id)).voiced twins.voice
  rw [twins.engine,twins.net] at seeds
  obtain ⟨engine,seeded,fault⟩ := seeds.unique
  rw [← twins.engine,← twins.net] at engine seeded fault
  unfold Monitor.seededFor
  rw [twins.engine,twins.net] at *
  exact ⟨engine.symm,seeded.symm,fault.symm⟩

theorem fate : left.fate event = right.fate event := by
  unfold Monitor.fate
  rw [twins.net]
  cases right.net.transitionFor event with
  | none => rfl
  | some id =>
    obtain ⟨engine,-,fault⟩ := twins.seededFor event id
    simp only [engine,fault]

theorem growth : left.growth event = right.growth event := by
  have seeds : left.seeds? event = right.seeds? event := by
    unfold Monitor.seeds?
    rw [twins.net]
    cases right.net.transitionFor event with
    | none => rfl
    | some id => exact (twins.seededFor event id).2.1
  unfold Monitor.growth
  rw [twins.fate,seeds]

theorem engineAfter : left.engineAfter event = right.engineAfter event := by
  unfold Monitor.engineAfter
  rw [twins.net,twins.engine]
  cases right.net.transitionFor event with
  | none => rfl
  | some id =>
    obtain ⟨engine,seeded,fault⟩ := twins.seededFor event id
    simp only [engine,seeded,fault]

theorem observe : Twins (left.observe event location).monitor (right.observe event location).monitor := by
  refine ⟨?_,?_,?_⟩
  · rw [observe_net,observe_net,twins.net]
  · rw [observe_engine,observe_engine,twins.engineAfter]
  · rw [observe_logger,observe_logger]
    exact twins.voice

theorem violation :
    (left.observe event location).violation = (right.observe event location).violation := by
  rw [observe_violation,observe_violation,twins.fate,twins.observe.marking]

-- They answer alike if digests are made by both or by neither of them.
theorem result (digests : left.digests = right.digests) :
    (left.observe event location).result = (right.observe event location).result := by
  rw [observe_result,observe_result,twins.fate,twins.observe.marking,digests]

theorem reset : Twins left.reset right.reset := by
  refine ⟨twins.net,?_,twins.voice⟩
  show ({ left.engine with marking := left.net.initial } : Engine) =
    { right.engine with marking := right.net.initial }
  rw [twins.engine,twins.net]

end Twins

namespace Steady

theorem refl : Steady monitor monitor := ⟨rfl,rfl,rfl,rfl,rfl,rfl⟩

theorem trans (before : Steady former middle) (behind : Steady middle latter) : Steady former latter :=
  ⟨behind.net.trans before.net,behind.config.trans before.config,behind.logger.trans before.logger,
    behind.transitions.trans before.transitions,behind.logPath.trans before.logPath,
    behind.digests.trans before.digests⟩

theorem failFast (steady : Steady former latter) : latter.failFast = former.failFast := by
  rw [Monitor.failFast,Monitor.failFast,steady.config]

end Steady

theorem Tally.plus_assoc (tally more most : Tally) :
    (tally.plus more).plus most = tally.plus (more.plus most) := by
  simp only [plus,Nat.add_assoc]

theorem append_path {journal : Journal} {digest : Nat} :
    (journal.append event digest).path = journal.path := by
  unfold Journal.append
  split
  · rfl
  · split <;> rfl

theorem observe_logPath : (monitor.observe event location).monitor.logPath = monitor.logPath := by
  rw [logPath,observe_journal,logPath]
  split
  · split
    · rw [Option.map_map]
      congr 1
      funext journal
      exact append_path
    · rfl
  · rfl

theorem steady_observe : Steady monitor (monitor.observe event location).monitor :=
  ⟨observe_net,observe_config,observe_logger,observe_transitions,observe_logPath,observe_digests⟩

theorem steady_reset : Steady monitor monitor.reset := ⟨rfl,rfl,rfl,rfl,rfl,rfl⟩

-- A reset takes monitors of one net to the same state, wherever they are.
theorem twins_reset (net : left.net = right.net)
    (transitions : left.engine.transitions = right.engine.transitions)
    (voice : SameVoice left.logger right.logger) : Twins left.reset right.reset := by
  refine ⟨net,?_,voice⟩
  show (⟨left.engine.transitions,left.net.initial⟩ : Engine) =
    ⟨right.engine.transitions,right.net.initial⟩
  rw [net,transitions]

end Monitor

namespace Host

open Monitor (Steady Twins)

-- What an answer makes of a host that watches: whether it stops there, and at what.
def verdict (logger : Logger) (failFast : Bool) : Except TextFault (Option Violation) → Option Stop
  | .error fault => some (.fault fault)
  | .ok none => none
  | .ok (some violation) =>
    match violation.report with
    | .error fault => some (.fault fault)
    | .ok report =>
      if failFast then some (.violation violation report)
      else
        match logger.write (Console.violation logger.level report) with
        | .error fault => some (.fault fault)
        | .ok _ => none

variable {host alone former : Host} {event : Event} {location : Option SourceLocation}

-- A host that watches adds what its monitor reports to its list, whether it stops there or not.
theorem emit_watching (watching : host.watching = true) : (host.emit event location).host =
    ⟨(host.monitor.observe event location).monitor,true,
      host.violations ++ (host.monitor.observe event location).violation.toList⟩ := by
  unfold Host.emit
  rw [if_pos watching]
  dsimp only
  rw [watching,Monitor.Outcome.violation]
  cases (host.monitor.observe event location).result with
  | error fault => rw [Option.toList_none,List.append_nil]
  | ok answer =>
    cases answer with
    | none => rw [Option.toList_none,List.append_nil]
    | some violation =>
      dsimp only
      split
      · rfl
      · split
        · rfl
        · split <;> rfl

theorem emit_stopped (watching : host.watching = true) : (host.emit event location).stopped =
    verdict host.monitor.logger host.monitor.failFast (host.monitor.observe event location).result := by
  have steady := @Monitor.steady_observe host.monitor event location
  unfold Host.emit verdict
  rw [if_pos watching]
  simp only [steady.failFast,steady.logger]
  cases (host.monitor.observe event location).result with
  | error fault => rfl
  | ok answer =>
    cases answer with
    | none => rfl
    | some violation =>
      dsimp only
      cases violation.report with
      | error fault => rfl
      | ok report =>
        dsimp only
        split
        · rfl
        · cases host.monitor.logger.write (Console.violation host.monitor.logger.level report) <;> rfl

-- Violations are reported and passed over if that can be told.
theorem verdict_lenient {logger : Logger} {result : Except TextFault (Option Violation)} {stop : Stop}
    (stopped : verdict logger false result = some stop) : ∃ fault, stop = .fault fault := by
  unfold verdict at stopped
  split at stopped
  · cases stopped; exact ⟨_,rfl⟩
  · cases stopped
  · split at stopped
    · cases stopped; exact ⟨_,rfl⟩
    · rw [if_neg Bool.false_ne_true] at stopped
      split at stopped
      · cases stopped; exact ⟨_,rfl⟩
      · cases stopped

-- A host in its execution next to one that is alone with it: both are in the same state, and the
-- one has in addition what was there before.
structure Follows (former host alone : Host) : Prop where
  twins : Twins host.monitor alone.monitor
  config : host.monitor.config = alone.monitor.config
  logger : host.monitor.logger = alone.monitor.logger
  digests : host.monitor.digests = alone.monitor.digests
  watching : host.watching = true
  watching' : alone.watching = true
  violations : host.violations = former.violations ++ alone.violations
  tally : host.monitor.tally = former.monitor.tally.plus alone.monitor.tally
  seen : host.monitor.seen = former.monitor.seen

theorem steady_emit : Steady host.monitor (host.emit event location).host.monitor := by
  cases watching : host.watching with
  | false => rw [emit,watching,if_neg Bool.false_ne_true]; exact .refl
  | true => rw [emit_watching watching]; exact Monitor.steady_observe

theorem Follows.emit (follows : Follows former host alone) :
    (host.emit event location).stopped = (alone.emit event location).stopped ∧
      Follows former (host.emit event location).host (alone.emit event location).host := by
  obtain ⟨twins,config,logger,digests,watching,watching',violations,tally,seen⟩ := follows
  have failFast : host.monitor.failFast = alone.monitor.failFast := by
    rw [Monitor.failFast,Monitor.failFast,config]
  constructor
  · rw [emit_stopped watching,emit_stopped watching',twins.result digests,logger,failFast]
  · rw [emit_watching watching,emit_watching watching']
    have steady := @Monitor.steady_observe host.monitor event location
    have steady' := @Monitor.steady_observe alone.monitor event location
    refine ⟨twins.observe,?_,?_,?_,rfl,rfl,?_,?_,Monitor.observe_seen.trans seen⟩
    · rw [steady.config,steady'.config,config]
    · rw [steady.logger,steady'.logger,logger]
    · rw [steady.digests,steady'.digests,digests]
    · rw [twins.violation,violations,List.append_assoc]
    · rw [Monitor.observe_tally,Monitor.observe_tally,twins.growth,tally,Monitor.Tally.plus_assoc]

end Host

namespace Replay

open Host (Follows)
open Monitor (Steady)
open Trace (NumberedLine)

variable {room : Nat} {files : Files} {path : Path} {line : NumberedLine} {lines : List NumberedLine}
  {stage stage' alone next : Stage} {former : Host} {traces : List Path} {fault : TextFault}

-- A host that watches and goes on after violations, as the monitor of its run was started.
structure Going (fresh : Monitor) (stage : Stage) : Prop where
  watching : stage.host.watching = true
  lenient : stage.monitor.failFast = false
  steady : Steady fresh stage.monitor

theorem steady_line : Steady stage.monitor (replayLine path line stage).1.monitor ∧
    (stage.host.watching = true → (replayLine path line stage).1.host.watching = true) := by
  rw [replayLine]
  cases Trace.readEntry path line with
  | error fault => exact ⟨.refl,id⟩
  | ok entry =>
    refine ⟨Host.steady_emit,fun watching => ?_⟩
    have host := @Host.emit_watching _ entry.event entry.location watching
    exact congrArg Host.watching host

theorem steady_lines : Steady stage.monitor (replayLines path stage lines).1.monitor ∧
    (stage.host.watching = true → (replayLines path stage lines).1.host.watching = true) := by
  induction lines generalizing stage with
  | nil => exact ⟨.refl,id⟩
  | cons line rest ih =>
    obtain ⟨steady,watching⟩ := @steady_line path line stage
    rw [replayLines]
    split
    · rename_i next replayed
      rw [replayed] at steady watching
      obtain ⟨steady',watching'⟩ := @ih next
      exact ⟨steady.trans steady',watching' ∘ watching⟩
    · exact ⟨steady,watching⟩

-- A stage behind an execution whose final marking has a digest.
def Stage.recorded (path : Path) (digest : Nat) (stage : Stage) : Stage :=
  let monitor := { stage.monitor with seen := stage.monitor.seen.insert digest }
  (stage.withMonitor monitor).say (Console.executionEnd stage.level path.text (.int digest)
    !decide (digest ∈ stage.monitor.seen))

theorem settle_ok {digest : Nat} (made : stage.monitor.marking.digest = .ok digest) :
    settle path (stage,none) = (stage.recorded path digest,none) := by
  rw [settle,Monitor.endExecution_ok made]
  rfl

theorem settle_error (unmade : stage.monitor.marking.digest = .error fault) :
    settle path (stage,none) = (stage,some (.text fault)) := by
  rw [settle,Monitor.endExecution_error unmade]

-- Behind a trace the next one finds a host of the same kind.
theorem Going.settled {fresh : Monitor} (going : Going fresh stage)
    (steady : Steady stage.monitor next.monitor) (watching : next.host.watching = true) :
    Going fresh (settle path (next,none)).1 := by
  have lenient : next.monitor.failFast = false := steady.failFast.trans going.lenient
  have kept := going.steady.trans steady
  cases made : next.monitor.marking.digest with
  | error fault => rw [settle_error made]; exact ⟨watching,lenient,kept⟩
  | ok digest =>
    rw [settle_ok made]
    exact ⟨watching,lenient,kept.trans ⟨rfl,rfl,rfl,rfl,rfl,rfl⟩⟩

theorem follows_line (follows : Follows former stage.host alone.host) :
    (replayLine path line stage).2 = (replayLine path line alone).2 ∧
      Follows former (replayLine path line stage).1.host (replayLine path line alone).1.host := by
  rw [replayLine,replayLine]
  cases Trace.readEntry path line with
  | error fault => exact ⟨rfl,follows⟩
  | ok entry =>
    obtain ⟨stopped,follows⟩ := @Follows.emit _ _ _ entry.event entry.location follows
    exact ⟨congrArg (Option.map Halt.ofStop) stopped,follows⟩

theorem follows_lines (follows : Follows former stage.host alone.host) :
    (replayLines path stage lines).2 = (replayLines path alone lines).2 ∧
      Follows former (replayLines path stage lines).1.host (replayLines path alone lines).1.host := by
  induction lines generalizing stage alone with
  | nil => exact ⟨rfl,follows⟩
  | cons line rest ih =>
    obtain ⟨halts,next⟩ := @follows_line path line _ _ _ follows
    rw [replayLines,replayLines]
    generalize replayLine path line stage = ran at *
    generalize replayLine path line alone = ran' at *
    obtain ⟨stage,halt⟩ := ran
    obtain ⟨alone,halt'⟩ := ran'
    cases halts
    cases halt with
    | none => exact ih next
    | some halt => exact ⟨rfl,next⟩

theorem follows_file (unlogged : isLog files stage path = false)
    (unlogged' : isLog files alone path = false) (follows : Follows former stage.host alone.host) :
    (replayFile room files path stage).2 = (replayFile room files path alone).2 ∧
      Steady stage.monitor (replayFile room files path stage).1.monitor ∧
      Follows former (replayFile room files path stage).1.host
        (replayFile room files path alone).1.host := by
  rw [replayFile,replayFile,unlogged,unlogged',if_neg Bool.false_ne_true,if_neg Bool.false_ne_true]
  cases Trace.openSource files path with
  | error fault => exact ⟨rfl,.refl,follows⟩
  | ok source =>
    obtain ⟨halts,next⟩ := @follows_lines path source.lines _ _ _ follows
    have steady := (@steady_lines path source.lines stage).1
    dsimp only
    generalize replayLines path stage source.lines = ran at *
    generalize replayLines path alone source.lines = ran' at *
    obtain ⟨stage,halt⟩ := ran
    obtain ⟨alone,halt'⟩ := ran'
    cases halts
    cases halt with
    | none => exact ⟨rfl,steady,next⟩
    | some halt => exact ⟨rfl,steady,next⟩

-- The digests that are known behind an execution, and behind several.
def know (known : List Nat) (alone : Stage) : List Nat :=
  match alone.monitor.marking.digest with
  | .ok digest => known.insert digest
  | .error _ => known

def knownAfter (known : List Nat) (alones : List Stage) : List Nat := alones.foldl know known

-- What executions one after another make of a stage, each of which is given as it is alone.
structure Passed (alones : List Stage) (former latter : Stage) : Prop where
  violations : latter.host.violations =
    former.host.violations ++ alones.flatMap (·.host.violations)
  tally : latter.monitor.tally =
    alones.foldl (fun tally alone => tally.plus alone.monitor.tally) former.monitor.tally
  seen : latter.monitor.seen = knownAfter former.monitor.seen alones
  marking : latter.monitor.marking =
    alones.foldl (fun _ alone => alone.monitor.marking) former.monitor.marking

-- The stage of a run before its first trace.
structure Fresh (stage : Stage) : Prop where
  watching : stage.host.watching = true
  violations : stage.host.violations = []
  tally : stage.monitor.tally = {}

variable {alones alones' : List Stage} {latter : Stage} {known known' : List Nat}

theorem Passed.none : Passed [] stage stage := ⟨(List.append_nil _).symm,rfl,rfl,rfl⟩

theorem Passed.trans {former middle latter : Stage} (before : Passed alones former middle)
    (behind : Passed alones' middle latter) : Passed (alones ++ alones') former latter := by
  refine ⟨?_,?_,?_,?_⟩
  · rw [behind.violations,before.violations,List.flatMap_append,List.append_assoc]
  · rw [behind.tally,before.tally,List.foldl_append]
  · rw [behind.seen,before.seen,knownAfter,knownAfter,knownAfter,List.foldl_append]
  · rw [behind.marking,before.marking,List.foldl_append]

theorem Passed.snoc {former middle latter : Stage} (before : Passed alones former middle)
    (behind : Passed (alones ++ [alone]) former latter) :
    latter.host.violations = middle.host.violations ++ alone.host.violations ∧
      latter.monitor.marking = alone.monitor.marking := by
  constructor
  · rw [behind.violations,before.violations,List.flatMap_append,List.flatMap_singleton,
      List.append_assoc]
  · rw [behind.marking,List.foldl_append]
    rfl

-- Nothing is reported if and only if no execution violates the net.
theorem Passed.quiet {former latter : Stage} (passed : Passed alones former latter)
    (fresh : former.host.violations = []) :
    latter.host.violations.isEmpty = alones.all (·.host.violations.isEmpty) := by
  rw [passed.violations,fresh,List.nil_append,Bool.eq_iff_iff,List.isEmpty_iff,
    List.flatMap_eq_nil_iff,List.all_eq_true]
  simp only [List.isEmpty_iff]

theorem isLog_congr (same : stage.monitor.logPath = stage'.monitor.logPath) :
    isLog files stage path = isLog files stage' path := by
  unfold Monitor.logPath at same
  unfold isLog
  cases left : stage.monitor.journal with
  | none =>
    rw [left] at same
    rw [Option.map_eq_none_iff.mp same.symm]
  | some journal =>
    rw [left] at same
    obtain ⟨journal',right,paths⟩ := Option.map_eq_some_iff.mp same.symm
    rw [right]
    dsimp only
    rw [paths]

-- An execution that reaches its end leaves a marking with a digest.
theorem settle_none {ran : Progress} (ended : (settle path ran).2 = .none) :
    ran.2 = .none ∧ ∃ digest, ran.1.monitor.marking.digest = .ok digest := by
  obtain ⟨stage,halt⟩ := ran
  cases halt with
  | some halt => cases ended
  | none =>
    cases made : stage.monitor.marking.digest with
    | error fault => rw [settle_error made] at ended; cases ended
    | ok digest => exact ⟨rfl,digest,rfl⟩

theorem Going.follows (fresh : Fresh alone) (going : Going alone.monitor stage) :
    Follows stage.host (stage.begin path).host (alone.begin path).host := by
  have steady := going.steady
  refine ⟨?_,steady.config,steady.logger,steady.digests,going.watching,fresh.watching,?_,?_,rfl⟩
  · exact Monitor.twins_reset steady.net steady.transitions fun pair => by rw [steady.logger]
  · show stage.host.violations = stage.host.violations ++ alone.host.violations
    rw [fresh.violations,List.append_nil]
  · show stage.monitor.tally = stage.monitor.tally.plus alone.monitor.tally
    rw [fresh.tally]
    rfl

-- A trace that can be replayed alone is the same execution whatever came before it.
theorem replayTrace_passes (fresh : Fresh alone) (going : Going alone.monitor stage)
    (unlogged : isLog files alone path = false)
    (told : (replayTrace room files path alone).2 = .none) :
    ∃ next, replayTrace room files path stage = (next,.none) ∧ Going alone.monitor next ∧
      Passed [(replayTrace room files path alone).1] stage next := by
  have unlogged' : isLog files (stage.begin path) path = false :=
    (isLog_congr going.steady.logPath).trans unlogged
  obtain ⟨halts,steady,follows⟩ := @follows_file room _ _ _ (alone.begin path) _ unlogged' unlogged
    (going.follows fresh)
  rw [replayTrace_settle] at told ⊢
  rw [replayTrace_settle]
  obtain ⟨whole,digest,made'⟩ := settle_none told
  generalize replayFile room files path (stage.begin path) = ran at *
  generalize replayFile room files path (alone.begin path) = ran' at *
  obtain ⟨last,halt⟩ := ran
  obtain ⟨last',halt'⟩ := ran'
  cases whole
  cases halts
  have marking : last.monitor.marking = last'.monitor.marking := follows.twins.marking
  have made : last.monitor.marking.digest = .ok digest := by rw [marking]; exact made'
  have alike := @Going.settled path _ _ _ going (Monitor.steady_reset.trans steady) follows.watching
  rw [settle_ok made] at alike ⊢
  rw [settle_ok made']
  refine ⟨_,rfl,alike,⟨?_,follows.tally,?_,marking⟩⟩
  · rw [List.flatMap_singleton]
    exact follows.violations
  · show last.monitor.seen.insert digest = know stage.monitor.seen last'
    have alone' : last'.monitor.marking.digest = .ok digest := made'
    rw [know,alone']
    exact congrArg (List.insert digest) follows.seen

-- Traces that can be replayed alone are executions one after another.
theorem replayTraces_passes (fresh : Fresh alone) (going : Going alone.monitor stage)
    (unlogged : ∀ path ∈ traces, isLog files alone path = false)
    (told : ∀ path ∈ traces, (replayTrace room files path alone).2 = .none) :
    ∃ next, replayTraces room files stage traces = (next,.none) ∧ Going alone.monitor next ∧
      Passed (traces.map fun path => (replayTrace room files path alone).1) stage next := by
  induction traces generalizing stage with
  | nil => exact ⟨stage,rfl,going,.none⟩
  | cons path rest ih =>
    obtain ⟨here,unlogged⟩ := List.forall_mem_cons.mp unlogged
    obtain ⟨whole,told⟩ := List.forall_mem_cons.mp told
    obtain ⟨middle,replayed,going',passed⟩ := replayTrace_passes fresh going here whole
    obtain ⟨next,replayed',going',passed'⟩ := ih going' unlogged told
    refine ⟨next,?_,going',passed.trans passed'⟩
    rw [replayTraces,replayed]
    exact replayed'

theorem knownAfter_congr (same : known.Perm known') :
    (knownAfter known alones).Perm (knownAfter known' alones) := by
  induction alones generalizing known known' with
  | nil => exact same
  | cons alone rest ih =>
    refine ih ?_
    unfold know
    cases alone.monitor.marking.digest with
    | error fault => exact same
    | ok digest => exact same.insert _

theorem knownAfter_perm (perm : alones.Perm alones') :
    (knownAfter known alones).Perm (knownAfter known alones') := by
  induction perm generalizing known with
  | nil => exact .refl _
  | cons _ _ ih => exact ih
  | swap former latter rest =>
    show (knownAfter (know (know known latter) former) rest).Perm
      (knownAfter (know (know known former) latter) rest)
    refine knownAfter_congr ?_
    unfold know
    cases former.monitor.marking.digest <;> cases latter.monitor.marking.digest
    · exact .refl _
    · exact .refl _
    · exact .refl _
    · exact List.perm_insert_swap ..
  | trans _ _ before behind => exact before.trans behind

-- The order of executions does not matter in the end.
theorem Passed.perm {left right : Stage} (passed : Passed alones stage left)
    (passed' : Passed alones' stage right) (perm : alones.Perm alones') :
    left.host.violations.Perm right.host.violations ∧
      left.monitor.statistics = right.monitor.statistics := by
  have violations : left.host.violations.Perm right.host.violations := by
    rw [passed.violations,passed'.violations]
    exact (perm.flatMap_right _).append_left _
  have tally : left.monitor.tally = right.monitor.tally := by
    rw [passed.tally,passed'.tally]
    exact perm.foldl_eq' (fun _ _ _ _ _ => Monitor.Tally.plus_right_comm ..) _
  have seen : left.monitor.seenCount = right.monitor.seenCount := by
    rw [Monitor.seenCount,passed.seen,Monitor.seenCount,passed'.seen]
    exact (knownAfter_perm perm).length_eq
  refine ⟨violations,?_⟩
  rw [Monitor.statistics,Monitor.statistics,tally,seen]

end Replay

end ProtocolNet
