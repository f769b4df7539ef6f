import ProtocolNet.Proofs.FirstViolation

namespace ProtocolNet

-- The marks of the lines of a trace that is replayed from the initial marking.
def Net.marksOf (net : Net) (logger : Logger) (files : Files) (path : Path) : List Mark :=
  match Trace.openSource files path with
  | .ok source => (Monitor.start net none logger).marks path source.lines
  | .error _ => []

-- Marks in the order of the files and, within a file, of its lines.
def Net.marks (net : Net) (logger : Logger) (files : Files) (traces : List Path) : List Mark :=
  traces.flatMap (net.marksOf logger files)

namespace Replay

open CommandLine (Options)
open Event (bind_ok)
open Trace (NumberedLine)
open Monitor (SameVoice load_opened startWith steady_reset twins_reset)

variable {room : Nat} {files : Files} {path : Path} {stage next : Stage} {net : Net}
  {lines : List NumberedLine} {traces rest : List Path} {marks : List Mark} {fresh : Monitor}
  {config : Monitor.Config} {logger : Logger} {journal : Option Journal} {fault : TextFault}

def Halt.isFault : Halt → Bool
  | .fault _ => true
  | .text _ | .violation .. => false

-- A replay that no text stops, behind which the table can be printed if it is drawn.
structure Told (options : Options) (progress : Progress) : Prop where
  heard : ¬Mute progress
  shown : progress.2.any Halt.isFault = false → (drawTable options progress.1.monitor).2 = none

instance (options : Options) (progress : Progress) : Decidable (Told options progress) :=
  decidable_of_iff (¬Mute progress ∧
      (progress.2.any Halt.isFault = false → (drawTable options progress.1.monitor).2 = none))
    ⟨fun ⟨heard,shown⟩ => ⟨heard,shown⟩,fun told => ⟨told.heard,told.shown⟩⟩

theorem marks_cons (ready : fresh = startWith net (some config) logger journal)
    (opened : Trace.openSource files path = .ok ⟨lines,none⟩) (going : Going fresh stage) :
    net.marks logger files (path :: traces) =
      (stage.begin path).monitor.marks path lines ++ net.marks logger files traces := by
  have steady := going.steady
  rw [ready] at steady
  have voice : SameVoice stage.monitor.logger logger := fun pair => by rw [steady.logger]; rfl
  have twins : Monitor.Twins (stage.begin path).monitor (Monitor.start net none logger) :=
    @twins_reset _ (Monitor.start net none logger) steady.net steady.transitions voice
  rw [Net.marks,List.flatMap_cons,Net.marksOf,opened,twins.marks]
  rfl

theorem settle_strictly : settle path (next.strictly,none) =
    ((settle path (next,none)).1.strictly,(settle path (next,none)).2) := by
  cases made : next.monitor.marking.digest with
  | error fault =>
    have made' : next.strictly.monitor.marking.digest = .error fault := made
    rw [settle_error made,settle_error made']
  | ok digest =>
    have made' : next.strictly.monitor.marking.digest = .ok digest := made
    rw [settle_ok made,settle_ok made']
    rfl

theorem settle_mute {progress : Progress} (mute : Mute progress) : settle path progress = progress := by
  cases mute <;> rfl

theorem replayTraces_mute (mute : Mute (replayTrace room files path stage)) :
    replayTraces room files stage (path :: rest) = replayTrace room files path stage := by
  rw [replayTraces]
  generalize replayTrace room files path stage = ran at mute
  cases mute <;> rfl

theorem replayLog_keeps {fuel index : Nat} :
    stage.host.violations <+: (replayLog path fuel index stage).1.host.violations := by
  induction fuel generalizing index stage with
  | zero => exact List.prefix_rfl
  | succ fuel ih =>
    rw [replayLog]
    split
    · exact List.prefix_rfl
    · rename_i record found
      have here := @replayLines_keeps path (Trace.significant (index + 1) [record.toList]) stage
      split
      · rename_i next replayed
        rw [replayed] at here
        exact here.trans ih
      · exact here

theorem replayFile_keeps :
    stage.host.violations <+: (replayFile room files path stage).1.host.violations := by
  rw [replayFile]
  split
  · exact replayLog_keeps
  · split
    · exact List.prefix_rfl
    · rename_i source opened
      have here := @replayLines_keeps path source.lines stage
      split
      · rename_i next replayed
        rw [replayed] at here
        exact here
      · exact here

theorem replayTrace_keeps :
    stage.host.violations <+: (replayTrace room files path stage).1.host.violations := by
  have here := @replayFile_keeps room files path (stage.begin path)
  rw [replayTrace_settle,settle_violations]
  exact here

theorem replayTraces_keeps :
    stage.host.violations <+: (replayTraces room files stage traces).1.host.violations := by
  induction traces generalizing stage with
  | nil => exact List.prefix_rfl
  | cons path rest ih =>
    have here := @replayTrace_keeps room files path stage
    rw [replayTraces]
    split
    · rename_i next replayed
      rw [replayed] at here
      exact here.trans ih
    · exact here

-- What an execution has reported stays reported in the ones behind it.
theorem replayTraces_onward : (replayTrace room files path stage).1.host.violations <+:
    (replayTraces room files stage (path :: rest)).1.host.violations := by
  rw [replayTraces]
  split
  · rename_i next replayed
    rw [replayed]
    exact replayTraces_keeps
  · exact List.prefix_rfl

-- Traces that can be read to their ends, none of which is the log.
structure Open (files : Files) (stage : Stage) (path : Path) : Prop where
  unlogged : isLog files stage path = false
  readable : ∃ lines, Trace.openSource files path = .ok ⟨lines,none⟩

theorem Open.congr (same : next.monitor.logPath = stage.monitor.logPath)
    (opens : Open files stage path) : Open files next path :=
  ⟨(isLog_congr same).trans opens.unlogged,opens.readable⟩

-- Lines that were passed are an execution of which nothing more can be told, or they leave a stage of
-- the same kind.
inductive Settled (fresh : Monitor) (files : Files) (path : Path) (traces : List Path)
    (next : Stage) : Prop
  | mute {last : Stage} {fault : TextFault}
      (lenient : settle path (next,none) = (last,some (.text fault)))
      (strict : settle path (next.strictly,none) = (last.strictly,some (.text fault)))
  | passed {reached : Stage} (lenient : settle path (next,none) = (reached,none))
      (strict : settle path (next.strictly,none) = (reached.strictly,none))
      (going : Going fresh reached) (violations : reached.host.violations = next.host.violations)
      (opens : ∀ path ∈ traces, Open files reached path)

theorem settled (going : Going fresh stage) (behind : Behind path (stage.begin path) lines next)
    (opens : ∀ path ∈ traces, Open files stage path) : Settled fresh files path traces next := by
  have kept := @Going.settled path _ _ _ going (steady_reset.trans behind.kept.1) behind.watching
  have strict := @settle_strictly path next
  cases made : next.monitor.marking.digest with
  | error fault =>
    rw [settle_error made] at strict
    exact .mute (settle_error made) strict
  | ok digest =>
    rw [settle_ok made] at kept strict
    have logPath := kept.steady.logPath.trans going.steady.logPath.symm
    exact .passed (settle_ok made) strict kept rfl fun path member => (opens path member).congr logPath

theorem replayTraces_ended (ready : fresh = startWith net (some config) logger journal)
    (going : Going fresh stage) (opens : ∀ path ∈ traces, Open files stage path) :
    Ended stage (net.marks logger files traces) (fun _ => True)
      (replayTraces room files stage traces) := by
  induction traces generalizing stage with
  | nil => exact .passed List.not_mem_nil trivial (by simp [Net.marks])
  | cons path rest ih =>
    obtain ⟨⟨unlogged,lines,opened⟩,opens⟩ := List.forall_mem_cons.mp opens
    have ended := @replayLines_ended path lines (stage.begin path) going.watching going.lenient
    have lined := @replayTrace_lines room _ _ _ _ unlogged opened
    rw [marks_cons ready opened going]
    generalize replayLines path (stage.begin path) lines = ran at ended lined
    cases ended with
    | mute mute =>
      rw [settle_mute mute] at lined
      rw [replayTraces_mute (lined ▸ mute),lined]
      exact .mute mute
    | faulted malformed =>
      rw [replayTraces,lined]
      exact .faulted (List.mem_append_left _ malformed)
    | passed wellFormed behind quiet =>
      rw [replayTraces,lined]
      cases settled going behind opens with
      | mute lenient _ =>
        rw [lenient]
        exact .mute .text
      | passed lenient _ going violations opens =>
        rw [← violations] at quiet
        rw [lenient]
        exact .after wellFormed quiet (fun _ _ => trivial) (ih going opens)

-- The first violation in traces: those before it have passed, and the execution that it is in is
-- not recorded yet.
inductive FirstInTraces (room : Nat) (files : Files) (start : Stage)
    (traces : List Path) (violation : Violation) (cut : Stage) : Prop
  | intro {before later : List Path} {path : Path} {lines : List NumberedLine} {reached : Stage}
      (split : traces = before ++ path :: later)
      (passed : replayTraces room files start before = (reached,none))
      (opened : Trace.openSource files path = .ok ⟨lines,none⟩)
      (here : FirstInLines path (reached.begin path) lines violation cut)
      (unrecorded : cut.monitor.seen = reached.monitor.seen)

theorem FirstInLines.seen {violation : Violation} {cut : Stage}
    (here : FirstInLines path (stage.begin path) lines violation cut) :
    cut.monitor.seen = stage.monitor.seen := by
  obtain ⟨-,-,-,-,-,behind⟩ := here
  exact behind.kept.2

theorem FirstInTraces.told {violation : Violation} {cut : Stage}
    (first : FirstInTraces room files stage traces violation cut) :
    cut.host.violations = [violation] := by
  obtain ⟨-,-,-,⟨-,-,-,-,told,-⟩,-⟩ := first
  exact told

-- Traces behind one that has passed are replayed from a stage of the same kind; in the first one
-- that has not, the cut is that of its lines.
theorem replayTraces_stopping (ready : fresh = startWith net (some config) logger journal)
    (going : Going fresh stage) (opens : ∀ path ∈ traces, Open files stage path)
    (quiet : stage.host.violations = []) :
    Stopping (FirstInTraces room files stage traces) (net.marks logger files traces)
      (replayTraces room files stage traces) (replayTraces room files stage.strictly traces) := by
  induction traces generalizing stage with
  | nil => exact .never rfl quiet
  | cons path rest ih =>
    obtain ⟨⟨unlogged,lines,opened⟩,opens⟩ := List.forall_mem_cons.mp opens
    have unlogged' : isLog files stage.strictly path = false := unlogged
    have ended := @replayLines_ended path lines (stage.begin path) going.watching going.lenient
    have stopping := @replayLines_stopping path lines (stage.begin path) going.watching
      going.lenient quiet
    have lined := @replayTrace_lines room _ _ _ _ unlogged opened
    have lined' : replayTrace room files path stage.strictly =
        settle path (replayLines path (stage.begin path).strictly lines) :=
      replayTrace_lines unlogged' opened
    rw [marks_cons ready opened going,replayTraces.eq_2 room files stage.strictly]
    generalize replayLines path (stage.begin path) lines = ran at *
    generalize replayLines path (stage.begin path).strictly lines = ran' at *
    cases stopping with
    | mute mute =>
      rw [lined',settle_mute mute]
      cases mute with
      | text => exact .mute .text
      | violation untold => exact .mute (.violation untold)
    | fault marked =>
      rw [lined']
      exact .fault (first_append_some marked)
    | @violation _ cut stopped violation report told marked here announced kept =>
      rw [lined']
      refine .violation (first_append_some marked) ?_ announced ?_
      · exact .intro (List.nil_append _).symm rfl opened here here.seen
      · have reported : (replayTrace room files path stage).1.host.violations = ran.1.host.violations :=
          lined ▸ settle_violations
        exact head?_kept replayTraces_onward (reported ▸ kept)
    | @never next marked unviolated =>
      rw [replayTraces,lined,lined']
      cases ended with
      | mute mute => cases mute
      | passed wellFormed behind _ =>
        cases settled going behind opens with
        | mute _ strict =>
          rw [strict]
          exact .mute .text
        | passed lenient strict going violations opens =>
          rw [lenient,strict]
          refine .after marked ?_ (ih going opens (violations.trans unviolated))
          rintro violation cut ⟨rfl,passed,opened',here,unrecorded⟩
          refine .intro (List.cons_append ..).symm ?_ opened' here unrecorded
          rw [replayTraces,lined,lenient]
          exact passed

-- A line of one kind comes before every line of the other kind.
def Precedes (former latter : Mark) (marks : List Mark) : Prop :=
  ∃ before after, marks = before ++ former :: after ∧ latter ∉ before

theorem Precedes.first {former latter : Mark} (precedes : Precedes former latter marks)
    (decisive : former.decides = true)
    (kinds : ∀ mark : Mark, mark.decides = true → mark = former ∨ mark = latter) :
    first marks = some former := by
  obtain ⟨before,after,rfl,apart⟩ := precedes
  induction before with
  | nil => exact List.find?_cons_of_pos decisive
  | cons mark rest ih =>
    obtain ⟨here,later⟩ := List.ne_and_not_mem_of_not_mem_cons apart
    cases decides : mark.decides with
    | false => exact (List.find?_cons_of_neg (Bool.eq_false_iff.mp decides)).trans (ih later)
    | true =>
      obtain rfl := (kinds mark decides).resolve_right (Ne.symm here)
      exact List.find?_cons_of_pos decisive

theorem first_eq_none (unviolated : .violation ∉ marks) (wellFormed : .malformed ∉ marks) :
    first marks = none := by
  refine List.find?_eq_none.mpr fun mark member => ?_
  cases mark with
  | accepted | mute => exact Bool.false_ne_true
  | violation => exact absurd member unviolated
  | malformed => exact absurd member wellFormed

variable {options : Options} {plan : Plan} {started : Monitor.Started} {aborted : Bool}
  {renderer : Drawing.Renderer}

theorem plan_strict (planned : Replay.plan files options = .ok plan) :
    Replay.plan files { options with keepGoing := false } =
      .ok { plan with config := plan.config.withFailFast true } := by
  obtain ⟨netPath,traces,logPath,keepGoing,output,debug,graph,table,stats⟩ := options
  unfold Replay.plan at planned ⊢
  dsimp only at planned ⊢
  cases netPath with
  | void => cases planned
  | value netPath =>
    obtain ⟨_,there,planned⟩ := bind_ok planned
    obtain ⟨_,found,planned⟩ := bind_ok planned
    dsimp only
    rw [there,found]
    cases debug with
    | void => cases planned
    | value debug =>
      rcases logPath with _ | logPath
      · cases planned
        rfl
      · cases logPath with
        | void => cases planned
        | value log => cases planned; rfl

theorem launch_strict (launched : Monitor.launch net (some config) logger room files = .ok started) :
    Monitor.launch net (some (config.withFailFast true)) logger room files =
      .ok { started with monitor := started.monitor.strictly } := by
  obtain ⟨netPath,logPath,failFast,debug⟩ := config
  unfold Monitor.launch at launched ⊢
  dsimp only [Option.bind_some,Monitor.Config.withFailFast] at launched ⊢
  cases logPath with
  | none => cases launched; rfl
  | some log =>
    dsimp only at launched ⊢
    cases created : Journal.create files log room with
    | ok opened => rw [created] at launched; cases launched; rfl
    | error fault =>
      rw [created] at launched
      cases fault with
      | nullCharacter => cases launched
      | refused problem path => cases launched; rfl

theorem load_strict (loaded : Monitor.load config logger room files = .ok started) :
    Monitor.load (config.withFailFast true) logger room files =
      .ok { started with monitor := started.monitor.strictly } := by
  have named : (config.withFailFast true).netPath = config.netPath := rfl
  rw [Monitor.load] at loaded ⊢
  rw [named]
  cases read : Net.ofFile files config.netPath with
  | error fault => rw [read] at loaded; cases loaded
  | ok net =>
    rw [read] at loaded
    dsimp only at loaded ⊢
    cases launched : Monitor.launch net (some config) logger room files with
    | error fault => rw [launched] at loaded; cases loaded
    | ok ready =>
      rw [launched] at loaded
      cases loaded
      rw [launch_strict launched]
      rfl

theorem conclude_unpictured (unpictured : options.graph = none)
    (shown : (drawTable options stage.monitor).2 = none) :
    (conclude renderer options files stage aborted).exit =
      if stage.host.violations.isEmpty then 0 else 1 := by
  have drawn : (draw renderer options stage.monitor (stage.monitor.filesNow files)).2 = none := by
    unfold draw drawGraph
    rw [unpictured]
    generalize drawTable options stage.monitor = table at shown
    obtain ⟨table,fault⟩ := table
    cases shown
    rfl
  rw [conclude_exit,if_pos drawn]

theorem Ended.exit {There : Stage → Prop} {progress : Progress}
    (ended : Ended stage marks There progress) (quiet : stage.host.violations = [])
    (unpictured : options.graph = none) (told : Told options progress) :
    (finish renderer options files progress).exit =
      if .malformed ∈ marks then 2 else if .violation ∈ marks then 1 else 0 := by
  cases ended with
  | mute mute => exact absurd mute told.heard
  | faulted malformed => rw [if_pos malformed]; rfl
  | passed wellFormed _ quiet' =>
    rw [if_neg wellFormed,finish,conclude_unpictured unpictured (told.shown rfl)]
    rw [quiet] at quiet'
    by_cases violated : Mark.violation ∈ marks
    · have reported : ¬_ = [] := fun none => (quiet'.mp none).2 violated
      simp [violated,reported]
    · simp [violated,quiet'.mpr ⟨rfl,violated⟩]

-- A replay that stops at violations ends as the first line decides that is one, or is malformed.
theorem Stopping.exit {First : Violation → Stage → Prop} {lenient strict : Progress}
    (stopping : Stopping First marks lenient strict)
    (one : ∀ violation cut, First violation cut → cut.host.violations = [violation])
    (unpictured : options.graph = none) (told : Told options strict) :
    (finish renderer options files strict).exit =
      match first marks with
      | none => 0
      | some .violation => 1
      | some _ => 2 := by
  cases stopping with
  | mute mute => exact absurd mute told.heard
  | @never next marked quiet =>
    have quiet' : next.strictly.host.violations = [] := quiet
    rw [marked,finish,conclude_unpictured unpictured (told.shown rfl),quiet']
    rfl
  | fault marked => rw [marked]; rfl
  | @violation _ cut stopped violation report said marked here announced kept =>
    have reported : cut.strictly.host.violations = [violation] := one _ cut here
    have shown : (drawTable options (stopped.say said).monitor).2 = none := told.shown rfl
    rw [marked,finish,announced.written]
    dsimp only
    rw [conclude_unpictured unpictured shown,announced.follows,reported]
    rfl

theorem Stopping.violated {First : Violation → Stage → Prop} {lenient strict : Progress}
    (stopping : Stopping First marks lenient strict) (marked : first marks = some .violation)
    (heard : ¬Mute strict) : ∃ violation report told cut stopped,
      strict = (stopped,some (.violation violation report)) ∧ First violation cut ∧
      Announced violation report told stopped cut ∧
      lenient.1.host.violations.head? = some violation := by
  cases stopping with
  | mute mute => exact absurd mute heard
  | never marked' => rw [marked] at marked'; cases marked'
  | fault marked' => rw [marked] at marked'; cases marked'
  | @violation _ cut stopped violation report told _ here announced kept =>
    exact ⟨violation,report,told,cut,stopped,rfl,here,announced,kept⟩

-- A trace that is not the log can be opened before and after the log is emptied.
theorem openSource_opened {journal : Option Journal} {files' : Files} {text : String}
    (opened : Monitor.Opened config files journal files')
    (apart : ∀ log, config.logPath = some log → ¬files.Meet log path)
    (read : files.read path = .ok (Text.Utf8.encode text)) :
    Trace.openSource files' path = Trace.openSource files path := by
  cases opened with
  | unlogged => rfl
  | logged named _ emptied =>
    have read' := Files.read_write_apart emptied (apart _ named) read
    rw [Trace.openSource_text read,Trace.openSource_text read']

theorem traces_opened {journal : Option Journal} {files' : Files}
    (opened : Monitor.Opened config files journal files') (held : stage.monitor.journal = journal)
    (readable : ∀ path ∈ traces, ∃ text, files.read path = .ok (Text.Utf8.encode text))
    (apart : ∀ path ∈ traces, ∀ log, config.logPath = some log → ¬files.Meet log path) :
    (∀ path ∈ traces, Open files' stage path) ∧ net.marks logger files' traces = net.marks logger files traces := by
  have source (path : Path) (member : path ∈ traces) :
      Trace.openSource files' path = Trace.openSource files path := by
    obtain ⟨text,read⟩ := readable path member
    exact openSource_opened opened (apart path member) read
  constructor
  · intro path member
    obtain ⟨text,read⟩ := readable path member
    exact ⟨isLog_opened opened held (apart path member),_,
      (source path member).trans (Trace.openSource_text read)⟩
  · refine List.flatMap_congr fun path member => ?_
    rw [Net.marksOf,Net.marksOf,source path member]

-- A run that stops at the first violation is the run that goes on, cut there: it ends as the first
-- line decides that is a violation or malformed, and what it reports and leaves is what the other run
-- has reported and reached at that point. Either run may be stopped by a text that cannot be made.
theorem fail_fast_cuts (planned : Replay.plan files options = .ok plan)
    (read : Net.ofFile files plan.config.netPath = .ok net)
    (loaded : Monitor.load plan.config ⟨plan.level,true⟩ room files = .ok started)
    (continuing : options.keepGoing = true) (unpictured : options.graph = none)
    (readable : ∀ path ∈ options.traces, ∃ text, files.read path = .ok (Text.Utf8.encode text))
    (apart : ∀ path ∈ options.traces, ∀ log, plan.config.logPath = some log → ¬files.Meet log path) :
    let strict : Options := { options with keepGoing := false }
    let start := Stage.fresh started
    let marks := net.marks ⟨plan.level,true⟩ files options.traces
    (Told options (replayTraces room started.files start options.traces) →
      (run renderer room files options).exit =
        if .malformed ∈ marks then 2 else if .violation ∈ marks then 1 else 0) ∧
    (Told strict (replayTraces room started.files start.strictly options.traces) →
      (Precedes .violation .malformed marks → (run renderer room files strict).exit = 1 ∧
        ∃ violation cut stopped,
          FirstInTraces room started.files start options.traces violation cut ∧
          (replayTraces room started.files start options.traces).1.host.violations.head? =
            some violation ∧
          run renderer room files strict = conclude renderer strict started.files stopped true ∧
          stopped.host.violations = [violation] ∧ stopped.output = cut.output ∧
          stopped.monitor.marking = cut.monitor.marking ∧
          stopped.monitor.statistics = cut.monitor.statistics) ∧
      (Precedes .malformed .violation marks → (run renderer room files strict).exit = 2) ∧
      (.violation ∉ marks → .malformed ∉ marks → (run renderer room files strict).exit = 0)) := by
  intro strict start marks
  obtain ⟨journal,ready,opened⟩ := load_opened read loaded
  have held : start.monitor.journal = journal := congrArg Monitor.journal ready
  obtain ⟨-,going⟩ := fresh_going ready (plan_lenient planned continuing)
  obtain ⟨opens,same⟩ := @traces_opened _ start net _ _ ⟨plan.level,true⟩ _ _ opened held readable apart
  have ended := @replayTraces_ended room _ _ _ _ _ _ _ _ ready going opens
  have stopping := @replayTraces_stopping room _ _ _ _ _ _ _ _ ready going opens rfl
  rw [same] at ended stopping
  have strictly : run renderer room files strict = finish renderer strict started.files
      (replayTraces room started.files start.strictly options.traces) :=
    run_finishes (plan_strict planned) (load_strict loaded)
  refine ⟨fun told => ?_,fun told => ?_⟩
  · rw [run_finishes planned loaded]
    exact ended.exit rfl unpictured told
  · have exit : (run renderer room files strict).exit = _ := strictly ▸ stopping.exit
      (fun _ _ first => first.told) (show strict.graph = none from unpictured) told
    refine ⟨fun precedes => ?_,fun precedes => ?_,fun unviolated wellFormed => ?_⟩
    · have marked : first marks = some .violation :=
        precedes.first rfl fun mark => by cases mark <;> decide
      obtain ⟨violation,report,said,cut,stopped,halted,here,announced,kept⟩ :=
        stopping.violated marked told.heard
      have concluded : run renderer room files strict =
          conclude renderer strict started.files cut.strictly true := by
        rw [strictly,halted,finish,announced.written]
        dsimp only
        rw [announced.follows]
      exact ⟨by rw [exit,marked],violation,cut,cut.strictly,here,kept,concluded,here.told,rfl,rfl,rfl⟩
    · have marked : first marks = some .malformed :=
        precedes.first rfl fun mark => by cases mark <;> decide
      rw [exit,marked]
    · rw [exit,first_eq_none unviolated wellFormed]

-- A lock is given back that was never taken, and then the trace breaks off.
def tornFiles : Files := ⟨⟨[
  ("net.json",.file (Text.Utf8.encode mutexText)),
  ("take.trace",.file (Text.Utf8.encode "LockAcquire(tid=1, lock_id=7)\n")),
  ("torn.trace",.file (Text.Utf8.encode "LockRelease(tid=1, lock_id=7)\nLockRel"))],by decide⟩,[]⟩

def tornOptions : Options :=
  { mutexOptions with traces := [fileNamed "take.trace",fileNamed "torn.trace"] }

set_option maxRecDepth 2000 in
theorem ofFile_tornFiles : Net.ofFile tornFiles (fileNamed "net.json") =
    .ok (Mutex.net ["free","held"] .empty) := rfl

-- What goes on after the violation meets the line that is torn; what stops there does not.
theorem fail_fast_cuts_torn :
    (Mutex.net ["free","held"] .empty).marks ⟨.normal,true⟩ tornFiles tornOptions.traces =
      [.accepted,.violation,.malformed] ∧
    (run none 4 tornFiles tornOptions).exit = 2 ∧
    (run none 4 tornFiles { tornOptions with keepGoing := false }).exit = 1 := by
  have planned : Replay.plan tornFiles tornOptions = .ok ⟨.normal,mutexConfig⟩ := rfl
  obtain ⟨started,loaded⟩ : ∃ started,
      Monitor.load mutexConfig ⟨.normal,true⟩ 4 tornFiles = .ok started :=
    exists_of_isOk (by decide +kernel)
  have readable : ∀ path ∈ tornOptions.traces,
      ∃ text, tornFiles.read path = .ok (Text.Utf8.encode text) :=
    List.forall_mem_cons.mpr ⟨⟨_,rfl⟩,List.forall_mem_singleton.mpr ⟨_,rfl⟩⟩
  have apart : ∀ path ∈ tornOptions.traces, ∀ log, mutexConfig.logPath = some log →
      ¬tornFiles.Meet log path := by
    have named : ∀ path ∈ tornOptions.traces, ¬tornFiles.Meet (fileNamed "run.log") path := by
      decide +kernel
    rintro path member _ ⟨⟩
    exact named path member
  have marked : (Mutex.net ["free","held"] .empty).marks ⟨.normal,true⟩ tornFiles tornOptions.traces =
      [.accepted,.violation,.malformed] := by decide +kernel
  have heard : ((Monitor.load mutexConfig ⟨.normal,true⟩ 4 tornFiles).toOption.map fun started =>
      let start := Stage.fresh started
      (decide (Told tornOptions (replayTraces 4 started.files start tornOptions.traces)),
        decide (Told { tornOptions with keepGoing := false }
          (replayTraces 4 started.files start.strictly tornOptions.traces)))) =
      some (true,true) := by decide +kernel
  rw [loaded] at heard
  simp only [Except.toOption,Option.map_some,Option.some.injEq,Prod.mk.injEq,decide_eq_true_eq]
    at heard
  obtain ⟨lenient,strict⟩ := @fail_fast_cuts 4 _ _ _ _ _ none planned ofFile_tornFiles loaded rfl rfl
    readable apart
  rw [marked] at lenient strict
  obtain ⟨cut,-,-⟩ := strict heard.2
  have precedes : Precedes .violation .malformed [.accepted,.violation,.malformed] :=
    ⟨[.accepted],[.malformed],rfl,by decide⟩
  exact ⟨marked,(lenient heard.1).trans (if_pos (by decide)),(cut precedes).1⟩

-- A trace that is to be the log as well is emptied before it is read: its violation is not seen in
-- either mode.
theorem emptied_trace_is_silent :
    let net := Mutex.net ["free","held"] .empty
    let back := fileNamed "back.trace"
    Net.ofFile mutexFiles (fileNamed "net.json") = .ok net ∧
    (∃ text, mutexFiles.read back = .ok (Text.Utf8.encode text)) ∧
    Precedes .violation .malformed (net.marks ⟨.normal,true⟩ mutexFiles [back]) ∧
    (program none 4 mutexFiles
      ["-n","net.json","-t","back.trace","-l","back.trace","--continue"]).exit = 0 ∧
    (program none 4 mutexFiles ["-n","net.json","-t","back.trace","-l","back.trace"]).exit = 0 := by
  have marked : (Mutex.net ["free","held"] .empty).marks ⟨.normal,true⟩ mutexFiles
      [fileNamed "back.trace"] = [.violation] := by decide +kernel
  refine ⟨ofFile_mutexFiles,⟨_,rfl⟩,⟨[],[],marked,List.not_mem_nil⟩,?_,?_⟩
  · decide +kernel
  · decide +kernel

end Replay

end ProtocolNet
