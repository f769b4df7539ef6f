import ProtocolNet.Proofs.TraceIndependence
import ProtocolNet.Proofs.TraceValidation

namespace ProtocolNet

open Trace (NumberedLine)

-- What becomes of a line of a trace. An event that is stopped by a text that cannot be made is
-- neither accepted nor a violation.
inductive Mark
  | accepted
  | violation
  | malformed
  | mute
deriving DecidableEq

def Mark.decides : Mark → Bool
  | .violation | .malformed => true
  | .accepted | .mute => false

namespace Monitor

def Fate.mark : Fate → Mark
  | .rejected _ => .violation
  | .stopped _ => .mute
  | .ignored | .fired => .accepted

-- A line that is no event leaves the monitor where it is.
def mark (monitor : Monitor) (path : Path) (line : NumberedLine) : Mark :=
  match Trace.readEntry path line with
  | .error _ => .malformed
  | .ok entry => (monitor.fate entry.event).mark

def past (monitor : Monitor) (path : Path) (line : NumberedLine) : Monitor :=
  match Trace.readEntry path line with
  | .error _ => monitor
  | .ok entry => (monitor.observe entry.event entry.location).monitor

def marks (monitor : Monitor) (path : Path) : List NumberedLine → List Mark
  | [] => []
  | line :: rest => monitor.mark path line :: (monitor.past path line).marks path rest

def pastAll (monitor : Monitor) (path : Path) (lines : List NumberedLine) : Monitor :=
  lines.foldl (·.past path ·) monitor

-- The monitor with a host that stops at the first violation.
def strictly (monitor : Monitor) : Monitor :=
  { monitor with config := monitor.config.map (·.withFailFast true) }

def Outcome.strictly (outcome : Outcome) : Outcome :=
  { outcome with monitor := outcome.monitor.strictly }

variable {monitor left right : Monitor} {path : Path} {line : NumberedLine}
  {lines : List NumberedLine} {event : Event} {location : Option SourceLocation}

theorem Twins.mark (twins : Twins left right) : left.mark path line = right.mark path line := by
  unfold Monitor.mark
  cases Trace.readEntry path line with
  | error fault => rfl
  | ok entry => exact congrArg Fate.mark twins.fate

theorem Twins.past (twins : Twins left right) : Twins (left.past path line) (right.past path line) := by
  unfold Monitor.past
  cases Trace.readEntry path line with
  | error fault => exact twins
  | ok entry => exact twins.observe

theorem Twins.marks (twins : Twins left right) : left.marks path lines = right.marks path lines := by
  induction lines generalizing left right with
  | nil => rfl
  | cons line rest ih => rw [Monitor.marks,Monitor.marks,twins.mark,ih twins.past]

theorem past_kept : Steady monitor (monitor.past path line) ∧
    (monitor.past path line).seen = monitor.seen := by
  unfold past
  cases Trace.readEntry path line with
  | error fault => exact ⟨.refl,rfl⟩
  | ok entry => exact ⟨steady_observe,observe_seen⟩

theorem pastAll_kept : Steady monitor (monitor.pastAll path lines) ∧
    (monitor.pastAll path lines).seen = monitor.seen := by
  induction lines generalizing monitor with
  | nil => exact ⟨.refl,rfl⟩
  | cons line rest ih =>
    obtain ⟨steady,seen⟩ := @past_kept monitor path line
    obtain ⟨steady',seen'⟩ := @ih (monitor.past path line)
    exact ⟨steady.trans steady',seen'.trans seen⟩

theorem pastAll_singleton : monitor.pastAll path [line] = monitor.past path line := rfl

theorem pastAll_append (former latter : List NumberedLine) : monitor.pastAll path (former ++ latter) =
    (monitor.pastAll path former).pastAll path latter := List.foldl_append

theorem failFast_strictly : monitor.strictly.failFast = true := by
  obtain ⟨net,config,logger,engine,seen,tally,journal⟩ := monitor
  cases config <;> rfl

theorem debug_strictly : monitor.strictly.debug = monitor.debug := by
  obtain ⟨net,config,logger,engine,seen,tally,journal⟩ := monitor
  cases config <;> rfl

theorem trace_strictly : monitor.strictly.trace event = monitor.trace event := by
  unfold trace
  rw [debug_strictly]
  rfl

theorem record_strictly : monitor.strictly.record event = (monitor.record event).map strictly := by
  obtain ⟨net,config,logger,engine,seen,tally,journal⟩ := monitor
  unfold record
  cases journal with
  | none => rfl
  | some journal =>
    dsimp only [strictly]
    split
    · show engine.marking.digest.map _ = (engine.marking.digest.map _).map _
      cases engine.marking.digest <;> rfl
    · rfl

theorem settle_strictly {seeding : Seeding} {engine : Engine} :
    monitor.strictly.settle seeding engine event = (monitor.settle seeding engine event).strictly := by
  have traced : (monitor.strictly.counted seeding engine).trace event =
      (monitor.counted seeding engine).trace event :=
    @trace_strictly (monitor.counted seeding engine) event
  have recorded : (monitor.strictly.counted seeding engine).record event =
      ((monitor.counted seeding engine).record event).map strictly :=
    @record_strictly (monitor.counted seeding engine) event
  cases trace : (monitor.counted seeding engine).trace event with
  | error fault =>
    rw [settle_untraced trace,settle_untraced (traced.trans trace)]
    rfl
  | ok told =>
    cases record : (monitor.counted seeding engine).record event with
    | error fault =>
      rw [record] at recorded
      rw [settle_unrecorded trace record,settle_unrecorded (traced.trans trace) recorded]
      rfl
    | ok next =>
      rw [record] at recorded
      rw [settle_recorded trace record,settle_recorded (traced.trans trace) recorded]
      rfl

-- How a host is to go on plays no part in what its monitor makes of an event.
theorem observe_strictly : monitor.strictly.observe event location =
    (monitor.observe event location).strictly := by
  obtain ⟨net,config,logger,engine,seen,tally,journal⟩ := monitor
  unfold observe
  dsimp only [strictly]
  split
  · rfl
  · split
    · rfl
    · split
      · rfl
      · rfl
      · exact @settle_strictly ⟨net,config,logger,engine,seen,tally.count,journal⟩ event _ _

-- A host that gets an answer to an event is told whether it is a violation.
theorem mark_fate {answer : Option Violation}
    (answered : (monitor.observe event location).result = .ok answer) :
    (monitor.fate event).mark = if answer.isSome then .violation else .accepted := by
  rw [observe_result] at answered
  cases became : monitor.fate event with
  | ignored => rw [became] at answered; cases answered; rfl
  | rejected refusal => rw [became] at answered; cases answered; rfl
  | stopped fault => rw [became] at answered; cases answered
  | fired =>
    rw [became] at answered
    dsimp only at answered
    split at answered
    · cases made : (monitor.observe event location).monitor.marking.digest with
      | error fault => rw [made] at answered; cases answered
      | ok digest => rw [made] at answered; cases answered; rfl
    · cases answered; rfl

end Monitor

namespace Replay

open Monitor

def Stage.strictly (stage : Stage) : Stage := stage.withMonitor stage.monitor.strictly

-- The stage behind an entry, before anything is said of a violation.
def Stage.hear (entry : Trace.Entry) (stage : Stage) : Stage :=
  let outcome := stage.monitor.observe entry.event entry.location
  ⟨⟨outcome.monitor,true,stage.host.violations ++ outcome.violation.toList⟩,
    stage.output ++ outcome.output⟩

-- Where a host stands behind lines of a trace.
structure Behind (path : Path) (former : Stage) (lines : List NumberedLine) (latter : Stage) : Prop where
  watching : latter.host.watching = true
  monitor : latter.monitor = former.monitor.pastAll path lines

-- A violation at which a host stops, next to the stage that it comes to if it goes on: between them
-- lies that the violation is told of.
structure Announced (violation : Violation) (report told : Str) (stopped next : Stage) : Prop where
  reported : violation.report = .ok report
  written : stopped.monitor.logger.write (Console.violation stopped.level report) = .ok told
  follows : stopped.say told = next.strictly

-- A replay that is stopped by a text that cannot be made, or by a violation that cannot be told of.
inductive Mute : Progress → Prop
  | text {stage : Stage} {fault : TextFault} : Mute (stage,some (.text fault))
  | violation {stage : Stage} {violation : Violation} {report : Str} {fault : TextFault}
      (untold : stage.monitor.logger.write (Console.violation stage.level report) = .error fault) :
      Mute (stage,some (.violation violation report))

instance : (progress : Progress) → Decidable (Mute progress)
  | (_,none) => .isFalse nofun
  | (_,some (.fault _)) => .isFalse nofun
  | (_,some (.text _)) => .isTrue .text
  | (stage,some (.violation _ report)) =>
    match written : stage.monitor.logger.write (Console.violation stage.level report) with
    | .error _ => .isTrue (.violation written)
    | .ok _ => .isFalse fun
      | .violation untold => nomatch written.symm.trans untold

-- The ways in which a line can be replayed by a host that goes on, next to one that stops at the
-- first violation.
inductive LineCourse (path : Path) (line : NumberedLine) (stage : Stage) : Prop
  | malformed (fault : Trace.Fault) (marked : stage.monitor.mark path line = .malformed)
      (lenient : replayLine path line stage = (stage,some (.fault fault)))
      (strict : replayLine path line stage.strictly = (stage.strictly,some (.fault fault)))
  | accepted (next : Stage) (marked : stage.monitor.mark path line = .accepted)
      (lenient : replayLine path line stage = (next,none))
      (strict : replayLine path line stage.strictly = (next.strictly,none))
      (behind : Behind path stage [line] next)
      (violations : next.host.violations = stage.host.violations)
  | violated (next stopped : Stage) (violation : Violation) (report told : Str)
      (marked : stage.monitor.mark path line = .violation)
      (lenient : replayLine path line stage = (next,none))
      (strict : replayLine path line stage.strictly =
        (stopped,some (.violation violation report)))
      (announced : Announced violation report told stopped next)
      (behind : Behind path stage [line] next)
      (violations : next.host.violations = stage.host.violations ++ [violation])
  | mute (lenient : Mute (replayLine path line stage))
      (strict : Mute (replayLine path line stage.strictly))

variable {room : Nat} {files : Files} {path : Path} {line : NumberedLine}
  {lines more : List NumberedLine} {stage next last : Stage} {entry : Trace.Entry}

theorem Behind.trans (former : Behind path stage lines next) (latter : Behind path next more last) :
    Behind path stage (lines ++ more) last := by
  refine ⟨latter.watching,?_⟩
  rw [pastAll_append,← former.monitor,latter.monitor]

theorem Behind.kept (behind : Behind path stage lines next) :
    Steady stage.monitor next.monitor ∧ next.monitor.seen = stage.monitor.seen := by
  rw [behind.monitor]
  exact pastAll_kept

theorem Behind.marks (behind : Behind path stage [line] next) :
    stage.monitor.marks path (line :: lines) =
      stage.monitor.mark path line :: next.monitor.marks path lines := by
  rw [behind.monitor,pastAll_singleton,Monitor.marks]

theorem hear_strictly : stage.strictly.hear entry = (stage.hear entry).strictly := by
  have follows : stage.strictly.monitor.observe entry.event entry.location = _ := observe_strictly
  rw [Stage.hear,follows]
  rfl

theorem replayLine_accepted (watching : stage.host.watching = true)
    (read : Trace.readEntry path line = .ok entry)
    (answered : (stage.monitor.observe entry.event entry.location).result = .ok none) :
    replayLine path line stage = (stage.hear entry,none) := by
  obtain ⟨⟨monitor,_,violations⟩,output⟩ := stage
  cases watching
  have answered : (monitor.observe entry.event entry.location).result = .ok none := answered
  simp only [replayLine,read,Host.emit,Stage.hear,Stage.monitor,Outcome.violation,answered,
    Option.toList_none,List.append_nil]
  rfl

theorem replayLine_violated {violation : Violation} {report : Str}
    (watching : stage.host.watching = true) (read : Trace.readEntry path line = .ok entry)
    (answered : (stage.monitor.observe entry.event entry.location).result = .ok (some violation))
    (reported : violation.report = .ok report) : replayLine path line stage =
      if stage.monitor.failFast then (stage.hear entry,some (.violation violation report))
      else
        match stage.monitor.logger.write (Console.violation stage.level report) with
        | .ok told => ((stage.hear entry).say told,none)
        | .error fault => (stage.hear entry,some (.text fault)) := by
  obtain ⟨⟨monitor,_,violations⟩,output⟩ := stage
  cases watching
  have answered : (monitor.observe entry.event entry.location).result = .ok (some violation) :=
    answered
  have steady := @steady_observe monitor entry.event entry.location
  simp only [replayLine,read,Host.emit,Stage.hear,Stage.monitor,Stage.level,Outcome.violation,
    answered,reported,steady.failFast,steady.logger,if_true,Option.toList_some]
  split
  · rfl
  · cases monitor.logger.write (Console.violation monitor.logger.level report) with
    | error fault => rfl
    | ok told => simp only [Stage.say,List.append_assoc,Option.map_none]

theorem replayLine_mute {fault : TextFault} (watching : stage.host.watching = true)
    (read : Trace.readEntry path line = .ok entry)
    (stopped : Host.verdict stage.monitor.logger stage.monitor.failFast
      (stage.monitor.observe entry.event entry.location).result = some (.fault fault)) :
    Mute (replayLine path line stage) := by
  have halted : (replayLine path line stage).2 = some (.text fault) := by
    rw [replayLine,read]
    exact congrArg (Option.map Halt.ofStop) ((Host.emit_stopped watching).trans stopped)
  generalize replayLine path line stage = ran at halted
  obtain ⟨next,halt⟩ := ran
  cases halted
  exact .text

theorem behind_hear (read : Trace.readEntry path line = .ok entry) :
    Behind path stage [line] (stage.hear entry) := by
  refine ⟨rfl,?_⟩
  rw [pastAll_singleton,Monitor.past,read]
  rfl

theorem result_strictly : (stage.strictly.monitor.observe entry.event entry.location).result =
    (stage.monitor.observe entry.event entry.location).result := by
  have follows : stage.strictly.monitor.observe entry.event entry.location = _ := observe_strictly
  rw [follows]
  rfl

theorem lineCourse_violated {violation : Violation} (watching : stage.host.watching = true)
    (lenient : stage.monitor.failFast = false) (read : Trace.readEntry path line = .ok entry)
    (marked : stage.monitor.mark path line = .violation)
    (answered : (stage.monitor.observe entry.event entry.location).result = .ok (some violation)) :
    LineCourse path line stage := by
  have strict : stage.strictly.monitor.failFast = true := failFast_strictly
  have answered' := (@result_strictly stage entry).trans answered
  cases reported : violation.report with
  | error fault =>
    refine .mute (@replayLine_mute _ _ _ _ fault watching read ?_)
      (@replayLine_mute _ _ stage.strictly _ fault watching read ?_)
    · simp only [answered,Host.verdict,reported]
    · simp only [answered',Host.verdict,reported]
  | ok report =>
    have passed := replayLine_violated watching read answered reported
    have stopped := @replayLine_violated _ _ stage.strictly _ _ _ watching read answered' reported
    rw [lenient,if_neg Bool.false_ne_true] at passed
    rw [strict,if_pos rfl,hear_strictly] at stopped
    have voice : (stage.hear entry).strictly.monitor.logger = stage.monitor.logger := observe_logger
    cases written : stage.monitor.logger.write (Console.violation stage.level report) with
    | error fault =>
      rw [written] at passed
      refine .mute (passed ▸ .text) ?_
      have untold : (stage.hear entry).strictly.monitor.logger.write
          (Console.violation (stage.hear entry).strictly.level report) = .error fault := by
        rw [Stage.level,voice]
        exact written
      exact stopped ▸ .violation untold
    | ok told =>
      rw [written] at passed
      refine .violated _ _ violation report told marked passed stopped ⟨reported,?_,rfl⟩
        ⟨rfl,(behind_hear read).monitor⟩ ?_
      · rw [Stage.level,voice]
        exact written
      · show stage.host.violations ++ Option.toList _ = _
        rw [Outcome.violation,answered]
        rfl

theorem lineCourse (watching : stage.host.watching = true) (lenient : stage.monitor.failFast = false) :
    LineCourse path line stage := by
  cases read : Trace.readEntry path line with
  | error fault =>
    have halted (stage : Stage) : replayLine path line stage = (stage,some (.fault fault)) := by
      rw [replayLine,read]
    refine .malformed fault ?_ (halted stage) (halted _)
    rw [mark,read]
  | ok entry =>
    have marked : stage.monitor.mark path line = (stage.monitor.fate entry.event).mark := by
      rw [mark,read]
    cases answered : (stage.monitor.observe entry.event entry.location).result with
    | error fault =>
      refine .mute (@replayLine_mute _ _ _ _ fault watching read ?_)
        (@replayLine_mute _ _ stage.strictly _ fault watching read ?_)
      · rw [answered]; rfl
      · rw [result_strictly,answered]; rfl
    | ok answer =>
      rw [mark_fate answered] at marked
      cases answer with
      | some violation => exact lineCourse_violated watching lenient read marked answered
      | none =>
        have stopped := @replayLine_accepted _ _ stage.strictly _ watching read
          (result_strictly.trans answered)
        rw [hear_strictly] at stopped
        refine .accepted _ marked (replayLine_accepted watching read answered) stopped
          (behind_hear read) ?_
        rw [Stage.hear,Outcome.violation,answered]
        exact List.append_nil _

-- The first line that decides how a replay ends which stops at violations.
def first (marks : List Mark) : Option Mark := marks.find? Mark.decides

theorem first_append {marks more : List Mark} (accepted : first marks = none) :
    first (marks ++ more) = first more := by
  rw [first,List.find?_append]
  exact congrArg (Option.or · (first more)) accepted

theorem first_append_some {marks more : List Mark} {mark : Mark} (found : first marks = some mark) :
    first (marks ++ more) = some mark := by
  rw [first,List.find?_append]
  exact congrArg (Option.or · (first more)) found

-- How replay ends that goes on after violations.
inductive Ended (stage : Stage) (marks : List Mark) (There : Stage → Prop) : Progress → Prop
  | faulted {next : Stage} {fault : Trace.Fault} (malformed : .malformed ∈ marks) :
      Ended stage marks There (next,some (.fault fault))
  | passed {next : Stage} (wellFormed : .malformed ∉ marks) (there : There next)
      (quiet : next.host.violations = [] ↔ stage.host.violations = [] ∧ .violation ∉ marks) :
      Ended stage marks There (next,none)
  | mute {progress : Progress} (mute : Mute progress) : Ended stage marks There progress

-- How replay ends that stops at the first violation, next to replay that goes on from a stage
-- where none was reported.
inductive Stopping (First : Violation → Stage → Prop) (marks : List Mark) :
    Progress → Progress → Prop
  | never {next : Stage} (marked : first marks = none) (quiet : next.host.violations = []) :
      Stopping First marks (next,none) (next.strictly,none)
  | fault {lenient : Progress} {next : Stage} {fault : Trace.Fault}
      (marked : first marks = some .malformed) :
      Stopping First marks lenient (next,some (.fault fault))
  | violation {lenient : Progress} {cut stopped : Stage} {violation : Violation} {report told : Str}
      (marked : first marks = some .violation) (here : First violation cut)
      (announced : Announced violation report told stopped cut)
      (kept : lenient.1.host.violations.head? = some violation) :
      Stopping First marks lenient (stopped,some (.violation violation report))
  | mute {lenient strict : Progress} (mute : Mute strict) : Stopping First marks lenient strict

theorem Ended.after {middle : Stage} {marks more : List Mark} {There There' : Stage → Prop}
    {progress : Progress} (wellFormed : .malformed ∉ marks)
    (quiet : middle.host.violations = [] ↔ stage.host.violations = [] ∧ .violation ∉ marks)
    (there : ∀ next, There' next → There next) (later : Ended middle more There' progress) :
    Ended stage (marks ++ more) There progress := by
  cases later with
  | faulted malformed => exact .faulted (List.mem_append_right _ malformed)
  | mute mute => exact .mute mute
  | passed wellFormed' arrived quiet' =>
    refine .passed ?_ (there _ arrived) ?_
    · rw [List.mem_append]
      rintro (former | latter)
      · exact wellFormed former
      · exact wellFormed' latter
    · rw [quiet',quiet,List.mem_append,not_or,and_assoc]

theorem Stopping.after {First First' : Violation → Stage → Prop} {marks more : List Mark}
    {lenient strict : Progress} (accepted : first marks = none)
    (there : ∀ violation cut, First' violation cut → First violation cut)
    (later : Stopping First' more lenient strict) :
    Stopping First (marks ++ more) lenient strict := by
  cases later with
  | never marked quiet => exact .never ((first_append accepted).trans marked) quiet
  | fault marked => exact .fault ((first_append accepted).trans marked)
  | violation marked here announced kept =>
    exact .violation ((first_append accepted).trans marked) (there _ _ here) announced kept
  | mute mute => exact .mute mute

theorem head?_kept {former latter : List Violation} {violation : Violation}
    (grown : former <+: latter) (head : former.head? = some violation) :
    latter.head? = some violation := by
  obtain ⟨more,rfl⟩ := grown
  rw [List.head?_append,head,Option.some_or]

-- Violations that were reported stay reported.
theorem replayLine_keeps :
    stage.host.violations <+: (replayLine path line stage).1.host.violations := by
  unfold replayLine
  cases Trace.readEntry path line with
  | error fault => exact List.prefix_rfl
  | ok entry =>
    cases watching : stage.host.watching with
    | true =>
      show _ <+: (stage.host.emit entry.event entry.location).host.violations
      rw [Host.emit_watching watching]
      exact List.prefix_append ..
    | false =>
      have left : (stage.host.emit entry.event entry.location).host = stage.host := by
        rw [Host.emit,watching,if_neg Bool.false_ne_true]
      show _ <+: (stage.host.emit entry.event entry.location).host.violations
      exact left.symm ▸ List.prefix_rfl

theorem replayLines_keeps :
    stage.host.violations <+: (replayLines path stage lines).1.host.violations := by
  induction lines generalizing stage with
  | nil => exact List.prefix_rfl
  | cons line rest ih =>
    have here := @replayLine_keeps path line stage
    rw [replayLines]
    split
    · rename_i next replayed
      rw [replayed] at here
      exact here.trans ih
    · exact here

theorem settle_violations {progress : Progress} :
    (settle path progress).1.host.violations = progress.1.host.violations := by
  obtain ⟨stage,halt⟩ := progress
  cases halt with
  | some halt => rfl
  | none =>
    rw [settle]
    cases stage.monitor.endExecution <;> rfl

theorem replayTrace_lines (unlogged : isLog files stage path = false)
    (opened : Trace.openSource files path = .ok ⟨lines,none⟩) :
    replayTrace room files path stage = settle path (replayLines path (stage.begin path) lines) := by
  have begun : isLog files (stage.begin path) path = false := unlogged
  rw [replayTrace_settle,replayFile,begun,if_neg Bool.false_ne_true,opened]
  dsimp only
  cases replayLines path (stage.begin path) lines with
  | mk next halt => cases halt <;> rfl

theorem replayLines_mute {rest : List NumberedLine} (mute : Mute (replayLine path line stage)) :
    replayLines path stage (line :: rest) = replayLine path line stage := by
  rw [replayLines]
  generalize replayLine path line stage = ran at mute
  cases mute <;> rfl

-- The induction goes from a line that passed to the stage behind it, which is of the same kind.
theorem replayLines_ended (watching : stage.host.watching = true)
    (lenient : stage.monitor.failFast = false) :
    Ended stage (stage.monitor.marks path lines) (Behind path stage lines)
      (replayLines path stage lines) := by
  induction lines generalizing stage with
  | nil => exact .passed List.not_mem_nil ⟨watching,rfl⟩ (by simp [Monitor.marks])
  | cons line rest ih =>
    cases @lineCourse path line stage watching lenient with
    | mute lenient _ => exact .mute (replayLines_mute lenient ▸ lenient)
    | malformed fault marked halted _ =>
      rw [replayLines,halted,Monitor.marks,marked]
      exact .faulted List.mem_cons_self
    | accepted next marked passed _ behind violations =>
      rw [replayLines,passed,behind.marks,marked]
      have later := ih behind.watching (behind.kept.1.failFast.trans lenient)
      change Ended stage ([_] ++ _) _ _
      refine .after (by simp) ?_ (fun _ => behind.trans) later
      rw [violations]
      simp
    | violated next stopped violation report told marked passed _ _ behind violations =>
      rw [replayLines,passed,behind.marks,marked]
      have later := ih behind.watching (behind.kept.1.failFast.trans lenient)
      change Ended stage ([_] ++ _) _ _
      refine .after (by simp) ?_ (fun _ => behind.trans) later
      rw [violations]
      simp

-- The first violation in lines: before it there is none, and then it is reported.
inductive FirstInLines (path : Path) (start : Stage) (lines : List NumberedLine)
    (violation : Violation) (cut : Stage) : Prop
  | intro {former rest : List NumberedLine} {line : NumberedLine} {silent : Stage}
      (split : lines = former ++ line :: rest)
      (passed : replayLines path start former = (silent,none))
      (unviolated : silent.host.violations = [])
      (reached : replayLines path start (former ++ [line]) = (cut,none))
      (told : cut.host.violations = [violation])
      (behind : Behind path start (former ++ [line]) cut)

theorem replayLines_stopping (watching : stage.host.watching = true)
    (lenient : stage.monitor.failFast = false) (quiet : stage.host.violations = []) :
    Stopping (FirstInLines path stage lines) (stage.monitor.marks path lines)
      (replayLines path stage lines) (replayLines path stage.strictly lines) := by
  induction lines generalizing stage with
  | nil => exact .never rfl quiet
  | cons line rest ih =>
    cases @lineCourse path line stage watching lenient with
    | mute _ strict => exact .mute (replayLines_mute strict ▸ strict)
    | malformed fault marked halted halted' =>
      rw [replayLines,replayLines,halted,halted',Monitor.marks,marked]
      exact .fault rfl
    | accepted next marked passed passed' behind violations =>
      rw [replayLines,replayLines,passed,passed',behind.marks,marked]
      change Stopping _ ([.accepted] ++ _) _ _
      have accepted : first [.accepted] = none := rfl
      have later := ih behind.watching (behind.kept.1.failFast.trans lenient)
        (violations.trans quiet)
      refine .after accepted ?_ later
      rintro violation cut ⟨rfl,silent,unviolated,reached,told,behind'⟩
      refine .intro (List.cons_append ..).symm ?_ unviolated ?_ told (behind.trans behind')
      · rw [replayLines,passed]
        exact silent
      · rw [List.cons_append,replayLines,passed]
        exact reached
    | violated next stopped violation report told marked passed passed' announced behind violations =>
      rw [replayLines,replayLines,passed,passed',behind.marks,marked]
      rw [quiet] at violations
      have here : replayLines path stage [line] = (next,none) := by
        rw [replayLines,passed]
        rfl
      refine .violation rfl ?_ announced ?_
      · exact .intro (List.nil_append _).symm rfl quiet here violations behind
      · exact head?_kept replayLines_keeps (congrArg List.head? violations)

end Replay

end ProtocolNet
