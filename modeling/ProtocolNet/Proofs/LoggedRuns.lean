import ProtocolNet.Proofs.FailFast
import ProtocolNet.Proofs.Noninterference

namespace ProtocolNet

namespace Trace

variable {files files' : Files} {log path : Path}

-- A trace that is there, and is not the one file that differs, is opened alike in both trees.
theorem openSource_sameBut (same : files.SameBut log files') (apart : ¬files.Meet log path)
    (present : files.pathExists path = .ok true) : openSource files' path = openSource files path := by
  obtain ⟨spot,led,node⟩ := Files.pathExists_true_iff.mp present
  have led' := same.spot led
  have node' := same.node led apart
  have present' : files'.pathExists path = .ok true :=
    Files.pathExists_true_iff.mpr ⟨spot,led',by rw [node',node]⟩
  have read' : files'.read path = files.read path := by
    simp only [Files.read,led,led',node']
  simp only [openSource,present,present',Files.openStream,read']

end Trace

namespace Monitor

def Config.unlogged (config : Config) : Config := { config with logPath := none }

-- The monitor as it would be without its log.
def unlogged (monitor : Monitor) : Monitor :=
  { monitor with config := monitor.config.map Config.unlogged, journal := none }

def Outcome.unlogged (outcome : Outcome) : Outcome :=
  { outcome with monitor := outcome.monitor.unlogged }

-- Whether an event fires of which the log alone would have the marking behind it digested, and there
-- is no digest.
def unrecorded (monitor : Monitor) (event : Event) (location : Option SourceLocation) : Bool :=
  monitor.fires event && !monitor.debug && monitor.journal.isSome &&
    !(monitor.observe event location).monitor.marking.digest.isOk

variable {monitor next : Monitor} {event : Event} {location : Option SourceLocation}

theorem debug_unlogged : monitor.unlogged.debug = monitor.debug := by
  obtain ⟨net,config,logger,engine,seen,tally,journal⟩ := monitor
  cases config <;> rfl

theorem failFast_unlogged : monitor.unlogged.failFast = monitor.failFast := by
  obtain ⟨net,config,logger,engine,seen,tally,journal⟩ := monitor
  cases config <;> rfl

theorem logger_unlogged : monitor.unlogged.logger = monitor.logger := rfl

theorem trace_unlogged : monitor.unlogged.trace event = monitor.trace event := by
  unfold trace
  rw [debug_unlogged]
  rfl

theorem record_kept (recorded : monitor.record event = .ok next) : next.unlogged = monitor.unlogged := by
  unfold record at recorded
  split at recorded
  · cases recorded; rfl
  · split at recorded
    · cases made : monitor.marking.digest with
      | error fault => rw [made] at recorded; cases recorded
      | ok digest => rw [made] at recorded; cases recorded; rfl
    · cases recorded; rfl

-- Without a log nothing is recorded, so that nothing can be amiss with the record.
theorem settle_unlogged {seeding : Seeding} {engine : Engine} :
    (monitor.unlogged.settle seeding engine event).monitor =
        (monitor.settle seeding engine event).monitor.unlogged ∧
      (monitor.unlogged.settle seeding engine event).output =
        (monitor.settle seeding engine event).output := by
  have traced : (monitor.unlogged.counted seeding engine).trace event =
      (monitor.counted seeding engine).trace event :=
    @trace_unlogged (monitor.counted seeding engine) event
  have unlogged : (monitor.unlogged.counted seeding engine).record event =
      .ok (monitor.unlogged.counted seeding engine) := rfl
  cases trace : (monitor.counted seeding engine).trace event with
  | error fault =>
    rw [settle_untraced trace,settle_untraced (traced.trans trace)]
    exact ⟨rfl,rfl⟩
  | ok told =>
    rw [settle_recorded (traced.trans trace) unlogged]
    cases recorded : (monitor.counted seeding engine).record event with
    | error fault => rw [settle_unrecorded trace recorded]; exact ⟨rfl,rfl⟩
    | ok next => rw [settle_recorded trace recorded]; exact ⟨(record_kept recorded).symm,rfl⟩

theorem observe_unlogged : (monitor.unlogged.observe event location).monitor =
      (monitor.observe event location).monitor.unlogged ∧
    (monitor.unlogged.observe event location).output = (monitor.observe event location).output := by
  obtain ⟨net,config,logger,engine,seen,tally,journal⟩ := monitor
  unfold observe
  dsimp only [unlogged]
  split
  · exact ⟨rfl,rfl⟩
  · split
    · exact ⟨rfl,rfl⟩
    · split
      · exact ⟨rfl,rfl⟩
      · exact ⟨rfl,rfl⟩
      · exact @settle_unlogged ⟨net,config,logger,engine,seen,tally.count,journal⟩ event _ _

theorem unlogged_twins : Twins monitor.unlogged monitor := ⟨rfl,rfl,fun _ => rfl⟩

theorem result_unlogged (recorded : monitor.unrecorded event location = false) :
    (monitor.unlogged.observe event location).result = (monitor.observe event location).result := by
  have plain : monitor.unlogged.digests = monitor.debug := by
    rw [digests,debug_unlogged]
    exact Bool.or_false _
  have same := (@Twins.observe _ _ event location (@unlogged_twins monitor)).marking
  rw [observe_result,observe_result,unlogged_twins.fate,same,plain]
  unfold unrecorded fires at recorded
  cases became : monitor.fate event with
  | ignored | rejected | stopped => rfl
  | fired =>
    rw [became] at recorded
    cases made : (monitor.observe event location).monitor.marking.digest with
    | ok digest => cases monitor.debug <;> cases monitor.digests <;> rfl
    | error fault =>
      rw [made] at recorded
      cases debugging : monitor.debug with
      | true => rw [digests,debugging]; rfl
      | false =>
        rw [debugging] at recorded
        cases held : monitor.journal with
        | none => rw [digests,debugging,held]; rfl
        | some journal => rw [held] at recorded; cases recorded

theorem observe_recorded (recorded : monitor.unrecorded event location = false) :
    monitor.unlogged.observe event location = (monitor.observe event location).unlogged := by
  obtain ⟨reached,output⟩ := @observe_unlogged monitor event location
  have result := result_unlogged recorded
  generalize monitor.unlogged.observe event location = plain at reached output result
  cases plain
  rw [Outcome.unlogged,← reached,← output,← result]

end Monitor

namespace Replay

open CommandLine (Options)
open Monitor (observe_recorded failFast_unlogged logger_unlogged)
open Trace (NumberedLine)

def muted (host : Host) : Host := { host with monitor := host.monitor.unlogged }

-- Whether a replay comes to an event that is not recorded for want of a digest.
def unrecordedLine (path : Path) (line : NumberedLine) (stage : Stage) : Bool :=
  match Trace.readEntry path line with
  | .error _ => false
  | .ok entry => stage.monitor.unrecorded entry.event entry.location

def unrecordedLines (path : Path) (stage : Stage) : List NumberedLine → Bool
  | [] => false
  | line :: rest => unrecordedLine path line stage ||
    match replayLine path line stage with
    | (next,none) => unrecordedLines path next rest
    | _ => false

def unrecordedTraces (room : Nat) (files : Files) (stage : Stage) : List Path → Bool
  | [] => false
  | path :: rest =>
    (match Trace.openSource files path with
    | .error _ => false
    | .ok source => unrecordedLines path (stage.begin path) source.lines) ||
    match replayTrace room files path stage with
    | (next,none) => unrecordedTraces room files next rest
    | _ => false

-- A stage of a run with a log beside the same run without one, to whose output the log has added
-- nothing but a notice at its start.
structure Beside (notice : Str) (log : Path) (logged plain : Stage) : Prop where
  host : plain.host = muted logged.host
  output : logged.output = notice ++ plain.output
  place : ∀ path, logged.monitor.logPath = some path → path = log

-- Two replays that go on, or are halted, alike.
structure Together (notice : Str) (log : Path) (logged plain : Progress) : Prop where
  beside : Beside notice log logged.1 plain.1
  halt : logged.2 = plain.2

variable {room : Nat} {files files' : Files} {log path : Path} {notice : Str} {host : Host}
  {event : Event} {location : Option SourceLocation} {logged plain : Stage} {ran ran' : Progress}
  {line : NumberedLine} {lines : List NumberedLine} {traces : List Path}

theorem emit_muted (recorded : host.monitor.unrecorded event location = false) :
    (muted host).emit event location =
      ⟨muted (host.emit event location).host,(host.emit event location).output,
        (host.emit event location).stopped⟩ := by
  obtain ⟨monitor,watching,violations⟩ := host
  cases watching with
  | false => rfl
  | true =>
    unfold Host.emit muted
    dsimp only
    rw [observe_recorded recorded]
    dsimp only [Monitor.Outcome.unlogged]
    cases (monitor.observe event location).result with
    | error fault => rfl
    | ok answer =>
      cases answer with
      | none => rfl
      | some violation =>
        dsimp only
        cases violation.report with
        | error fault => rfl
        | ok report =>
          simp only [if_true,failFast_unlogged,logger_unlogged]
          split
          · rfl
          · cases (monitor.observe event location).monitor.logger.write
              (Console.violation (monitor.observe event location).monitor.logger.level report) <;> rfl

theorem Beside.say (beside : Beside notice log logged plain) (text : Str) :
    Beside notice log (logged.say text) (plain.say text) := by
  refine ⟨beside.host,?_,beside.place⟩
  rw [Stage.say,Stage.say,beside.output,List.append_assoc]

theorem Beside.logger (beside : Beside notice log logged plain) :
    plain.monitor.logger = logged.monitor.logger := by
  rw [Stage.monitor,beside.host]
  rfl

theorem together_line (path : Path) (line : NumberedLine) (beside : Beside notice log logged plain)
    (recorded : unrecordedLine path line logged = false) :
    Together notice log (replayLine path line logged) (replayLine path line plain) := by
  unfold unrecordedLine at recorded
  unfold replayLine
  cases read : Trace.readEntry path line with
  | error fault => exact ⟨beside,rfl⟩
  | ok entry =>
    rw [read] at recorded
    dsimp only at recorded ⊢
    rw [beside.host,emit_muted recorded]
    let reply := logged.host.emit entry.event entry.location
    have kept := (@Host.steady_emit logged.host entry.event entry.location).logPath
    have behind : Beside notice log ⟨reply.host,logged.output⟩ ⟨muted reply.host,plain.output⟩ :=
      ⟨rfl,beside.output,fun path held => beside.place path (kept.symm.trans held)⟩
    exact ⟨behind.say reply.output,rfl⟩

theorem together_lines (path : Path) (lines : List NumberedLine)
    (beside : Beside notice log logged plain) (recorded : unrecordedLines path logged lines = false) :
    Together notice log (replayLines path logged lines) (replayLines path plain lines) := by
  induction lines generalizing logged plain with
  | nil => exact ⟨beside,rfl⟩
  | cons line rest ih =>
    obtain ⟨here,later⟩ := Bool.or_eq_false_iff.mp recorded
    obtain ⟨next,halts⟩ := together_line path line beside here
    rw [replayLines,replayLines]
    generalize replayLine path line logged = ran at *
    generalize replayLine path line plain = ran' at *
    obtain ⟨logged',halt⟩ := ran
    obtain ⟨plain',halt'⟩ := ran'
    cases halts
    cases halt with
    | none => exact ih next later
    | some halt => exact ⟨next,rfl⟩

theorem isLog_beside (same : files.SameBut log files') (beside : Beside notice log logged plain)
    (apart : ¬files.Meet log path) : isLog files' logged path = false := by
  unfold isLog
  cases held : logged.monitor.journal with
  | none => rfl
  | some journal =>
    have place : journal.path = log := beside.place _ (congrArg (Option.map Journal.path) held)
    dsimp only
    split
    · rename_i there spot led led'
      have logged := same.symm.spot (place ▸ led)
      have spotted := same.symm.spot led'
      exact decide_eq_false fun equal => apart ⟨there,spot,logged,spotted,congrArg Files.key equal⟩
    · rfl

theorem Beside.begin (path : Path) (beside : Beside notice log logged plain) :
    Beside notice log (logged.begin path) (plain.begin path) := by
  have reset : Beside notice log (logged.withMonitor logged.monitor.reset)
      (plain.withMonitor plain.monitor.reset) := by
    refine ⟨?_,beside.output,beside.place⟩
    rw [Stage.withMonitor,Stage.monitor,beside.host]
    rfl
  have level : plain.level = logged.level := congrArg Logger.level beside.logger
  rw [Stage.begin,Stage.begin,level]
  exact reset.say _

-- A trace that is not the log is read by the logged run as it is by the other one.
theorem together_file (same : files.SameBut log files') (beside : Beside notice log logged plain)
    (apart : ¬files.Meet log path) (present : files.pathExists path = .ok true)
    (recorded : ∀ source, Trace.openSource files' path = .ok source →
      unrecordedLines path logged source.lines = false) :
    Together notice log (replayFile room files' path logged) (replayFile room files path plain) := by
  have unlogged : isLog files plain path = false := by
    rw [isLog,Stage.monitor,beside.host]
    rfl
  have opened := Trace.openSource_sameBut same apart present
  rw [replayFile,replayFile,isLog_beside same beside apart,unlogged,opened]
  rw [opened] at recorded
  cases source : Trace.openSource files path with
  | error fault => exact ⟨beside,rfl⟩
  | ok source' =>
    obtain ⟨next,halts⟩ := together_lines path source'.lines beside (recorded source' source)
    dsimp only [Bool.false_eq_true,if_false]
    generalize replayLines path logged source'.lines = ran at *
    generalize replayLines path plain source'.lines = ran' at *
    obtain ⟨logged',halt⟩ := ran
    obtain ⟨plain',halt'⟩ := ran'
    cases halts
    cases halt with
    | none => exact ⟨next,rfl⟩
    | some halt => exact ⟨next,rfl⟩

theorem together_settle (path : Path) (together : Together notice log ran ran') :
    Together notice log (settle path ran) (settle path ran') := by
  obtain ⟨logged,halt⟩ := ran
  obtain ⟨plain,halt'⟩ := ran'
  obtain ⟨beside,halts⟩ := together
  cases halts
  cases halt with
  | some halt => exact ⟨beside,rfl⟩
  | none =>
    have marking : plain.monitor.marking = logged.monitor.marking := by
      rw [Stage.monitor,beside.host]
      rfl
    cases made : logged.monitor.marking.digest with
    | error fault =>
      rw [settle_error made,settle_error (marking ▸ made)]
      exact ⟨beside,rfl⟩
    | ok digest =>
      rw [settle_ok made,settle_ok (marking ▸ made)]
      have seen : plain.monitor.seen = logged.monitor.seen := by
        rw [Stage.monitor,beside.host]
        rfl
      have level : plain.level = logged.level := congrArg Logger.level beside.logger
      rw [Stage.recorded,Stage.recorded,seen,level]
      have behind : Beside notice log
          (logged.withMonitor { logged.monitor with seen := logged.monitor.seen.insert digest })
          (plain.withMonitor { plain.monitor with seen := logged.monitor.seen.insert digest }) := by
        refine ⟨?_,beside.output,beside.place⟩
        rw [Stage.withMonitor,Stage.monitor,beside.host]
        rfl
      exact ⟨behind.say _,rfl⟩

theorem together_traces (same : files.SameBut log files') (beside : Beside notice log logged plain)
    (apart : ∀ path ∈ traces, ¬files.Meet log path)
    (present : ∀ path ∈ traces, files.pathExists path = .ok true)
    (recorded : unrecordedTraces room files' logged traces = false) :
    Together notice log (replayTraces room files' logged traces)
      (replayTraces room files plain traces) := by
  induction traces generalizing logged plain with
  | nil => exact ⟨beside,rfl⟩
  | cons path rest ih =>
    obtain ⟨here,apart⟩ := List.forall_mem_cons.mp apart
    obtain ⟨there,present⟩ := List.forall_mem_cons.mp present
    obtain ⟨lines,later⟩ := Bool.or_eq_false_iff.mp recorded
    have next := together_settle path (@together_file room _ _ _ _ _ _ _ same (beside.begin path) here there
      fun source opened => by rw [opened] at lines; exact lines)
    rw [← replayTrace_settle,← replayTrace_settle] at next
    obtain ⟨next,halts⟩ := next
    rw [replayTraces,replayTraces]
    generalize replayTrace room files' path logged = ran at *
    generalize replayTrace room files path plain = ran' at *
    obtain ⟨logged',halt⟩ := ran
    obtain ⟨plain',halt'⟩ := ran'
    cases halts
    cases halt with
    | none => exact ih next apart present later
    | some halt => exact ⟨next,rfl⟩

variable {renderer : Drawing.Renderer} {options : Options}

-- What two runs leave that differ in the log alone.
structure Agree (notice : Str) (log : Path) (logged plain : Result) : Prop where
  exit : logged.exit = plain.exit
  stdout : logged.stdout = notice ++ plain.stdout
  files : plain.files.SameBut log logged.files

theorem sameBut_filesNow (beside : Beside notice log logged plain) (same : files.SameBut log files') :
    Files.SameBut log (plain.monitor.filesNow files) (logged.monitor.filesNow files') := by
  have bare : plain.monitor.filesNow files = files := by
    rw [Stage.monitor,beside.host]
    rfl
  rw [bare]
  unfold Monitor.filesNow
  cases held : logged.monitor.journal with
  | none => exact same
  | some journal =>
    have place : journal.path = log := beside.place _ (congrArg (Option.map Journal.path) held)
    dsimp only [Journal.flush]
    split
    · rename_i next written
      rw [place] at written
      exact same.trans (Files.sameBut_write written)
    · exact same

theorem agree_conclude (renderer : Drawing.Renderer) (options : Options) (aborted : Bool)
    (beside : Beside notice log logged plain) (same : files.SameBut log files') :
    Agree notice log (conclude renderer options files' logged aborted)
      (conclude renderer { options with logPath := none } files plain aborted) := by
  have kept := sameBut_filesNow beside same
  have drawn : draw renderer { options with logPath := none } plain.monitor
      (plain.monitor.filesNow files) =
        draw renderer options logged.monitor (plain.monitor.filesNow files) := by
    rw [Stage.monitor,beside.host]
    rfl
  have told : summary { options with logPath := none } plain aborted =
      summary options logged aborted := by
    unfold summary Stage.level Stage.monitor
    rw [beside.host]
    rfl
  have violations : plain.host.violations = logged.host.violations := by
    rw [beside.host]
    rfl
  obtain ⟨stdout,refused,files⟩ := @draw_sameBut renderer options logged.monitor _ _ log kept
  unfold conclude
  dsimp only
  rw [drawn,told,violations,beside.output]
  generalize draw renderer options logged.monitor (plain.monitor.filesNow _) = left at *
  generalize draw renderer options logged.monitor (logged.monitor.filesNow _) = right at *
  obtain ⟨left,fault⟩ := left
  obtain ⟨right,fault'⟩ := right
  dsimp only at stdout refused files
  cases fault with
  | none =>
    cases refused.mp rfl
    refine ⟨rfl,?_,files⟩
    simp only [stdout,List.append_assoc]
  | some problem =>
    cases fault' with
    | none => cases refused.mpr rfl
    | some problem' =>
      refine ⟨rfl,?_,files⟩
      simp only [stdout,List.append_assoc]

theorem agree_finish (renderer : Drawing.Renderer) (options : Options)
    (together : Together notice log ran ran') (same : files.SameBut log files') :
    Agree notice log (finish renderer options files' ran)
      (finish renderer { options with logPath := none } files ran') := by
  obtain ⟨logged,halt⟩ := ran
  obtain ⟨plain,halt'⟩ := ran'
  obtain ⟨beside,halts⟩ := together
  have stopped (message : Str) : Agree notice log (broken files' logged message)
      (broken files plain message) := ⟨rfl,beside.output,sameBut_filesNow beside same⟩
  cases halts
  cases halt with
  | none => exact agree_conclude renderer options false beside same
  | some halt =>
    cases halt with
    | fault fault => exact stopped fault.message
    | text fault => exact stopped fault.message
    | violation violation report =>
      have level : plain.level = logged.level := congrArg Logger.level beside.logger
      rw [finish,finish,beside.logger,level]
      cases logged.monitor.logger.write (Console.violation logged.level report) with
      | ok told => exact agree_conclude renderer options true (beside.say told) same
      | error fault => exact stopped fault.message

variable {config : Monitor.Config} {plan : Plan}

-- What is told first of a log: that it cannot be opened, or nothing.
def openingText (level : Level) (files : Files) (log : Path) : Str :=
  match files.writeText log "" with
  | .ok _ => []
  | .error fault => Console.info level ("Execution log disabled: " ++ fault.message) []

-- Monitors that were started with a log and without one.
structure Ready (log : Path) (level : Level) (files : Files) (logged plain : Monitor.Started) :
    Prop where
  beside : Beside (openingText level files log) log (.fresh logged) (.fresh plain)
  same : files.SameBut log logged.files
  untouched : plain.files = files

theorem launch_ready (net : Net) (logger : Logger) (room : Nat) (files : Files)
    (named : config.logPath = some log) (whole : log.hasNull = false) :
    ∃ logged plain, Monitor.launch net (some config) logger room files = .ok logged ∧
      Monitor.launch net (some config.unlogged) logger room files = .ok plain ∧
      Ready log logger.level files logged plain := by
  unfold Monitor.launch
  dsimp only [Option.bind_some,Monitor.Config.unlogged]
  rw [named]
  dsimp only [Journal.create]
  cases opened : files.writeText log "" with
  | ok next =>
    refine ⟨_,_,rfl,rfl,⟨rfl,?_,?_⟩,Files.sameBut_write opened,rfl⟩
    · rw [openingText,opened]
      rfl
    · intro path held
      cases held
      rfl
  | error fault =>
    cases fault with
    | nullCharacter =>
      rw [Files.write_null_iff.mp opened] at whole
      cases whole
    | refused problem written =>
      refine ⟨_,_,rfl,rfl,⟨rfl,?_,?_⟩,.refl,rfl⟩
      · rw [openingText,opened]
        exact (List.append_nil _).symm
      · intro path held
        cases held

theorem load_ready (logger : Logger) (room : Nat) (files : Files)
    (named : config.logPath = some log) (whole : log.hasNull = false) :
    (∃ fault, Monitor.load config logger room files = .error fault ∧
      Monitor.load config.unlogged logger room files = .error fault) ∨
    ∃ logged plain, Monitor.load config logger room files = .ok logged ∧
      Monitor.load config.unlogged logger room files = .ok plain ∧
      Ready log logger.level files logged plain := by
  unfold Monitor.load
  dsimp only [Monitor.Config.unlogged]
  cases read : Net.ofFile files config.netPath with
  | error fault => exact .inl ⟨_,rfl,rfl⟩
  | ok net =>
    obtain ⟨logged,plain,launched,launched',beside,same,untouched⟩ :=
      launch_ready net logger room files named whole
    dsimp only [Monitor.Config.unlogged] at launched' ⊢
    rw [launched,launched']
    exact .inr ⟨_,_,rfl,rfl,beside.say _,same,untouched⟩

-- A log plays no part in whether a replay is begun.
theorem plan_unlogged (files : Files) (named : options.logPath = some (.value log)) :
    (∃ refusal, Replay.plan files options = .error refusal ∧
      Replay.plan files { options with logPath := none } = .error refusal) ∨
    ∃ plan, Replay.plan files options = .ok plan ∧ plan.config.logPath = some log ∧
      Replay.plan files { options with logPath := none } =
        .ok { plan with config := plan.config.unlogged } ∧
      ∀ path ∈ options.traces, files.pathExists path = .ok true := by
  obtain ⟨netPath,traces,logPath,keepGoing,output,debug,graph,table,stats⟩ := options
  cases named
  unfold Replay.plan
  dsimp only
  cases netPath with
  | void => exact .inl ⟨_,rfl,rfl⟩
  | value netPath =>
    dsimp only
    cases there : demand files netPath (.noNet netPath.text) with
    | error refusal => exact .inl ⟨_,rfl,rfl⟩
    | ok =>
      cases found : traces.forM fun path => demand files path (.noTrace path.text) with
      | error refusal => exact .inl ⟨refusal,rfl,rfl⟩
      | ok =>
        cases debug with
        | void => exact .inl ⟨_,rfl,rfl⟩
        | value debug =>
          refine .inr ⟨_,rfl,rfl,rfl,fun path member => ?_⟩
          have demanded := forM_ok_iff.mp found path member
          unfold demand at demanded
          split at demanded
          · rename_i present
            exact present
          · cases demanded
          · cases demanded

theorem conclude_files (renderer : Drawing.Renderer) (options : Options) (files : Files) (stage : Stage)
    (aborted : Bool) : (conclude renderer options files stage aborted).files =
      (draw renderer options stage.monitor (stage.monitor.filesNow files)).1.files := by
  unfold conclude
  dsimp only
  cases draw renderer options stage.monitor (stage.monitor.filesNow files) with
  | mk drawn fault => cases fault <;> rfl

-- Without a log, a run writes nothing but its picture.
theorem finish_files (renderer : Drawing.Renderer) (options : Options)
    (bare : ran.1.monitor.journal = none) : (finish renderer options files ran).files = files ∨
      ∃ monitor, (finish renderer options files ran).files =
        (draw renderer options monitor files).1.files := by
  obtain ⟨stage,halt⟩ := ran
  have still : stage.monitor.filesNow files = files := by
    rw [Monitor.filesNow]
    rw [bare]
  cases halt with
  | none =>
    refine .inr ⟨stage.monitor,?_⟩
    rw [finish,conclude_files,still]
  | some halt =>
    cases halt with
    | fault fault => exact .inl still
    | text fault => exact .inl still
    | violation violation report =>
      rw [finish]
      cases stage.monitor.logger.write (Console.violation stage.level report) with
      | error fault => exact .inl still
      | ok told =>
        refine .inr ⟨stage.monitor,?_⟩
        dsimp only
        rw [conclude_files]
        exact congrArg (fun files => (draw renderer options stage.monitor files).1.files) still

-- Where a run starts, if it is begun.
def begun (room : Nat) (files : Files) (options : Options) : Option Monitor.Started :=
  match Replay.plan files options with
  | .error _ => none
  | .ok ⟨level,config⟩ => (Monitor.load config ⟨level,true⟩ room files).toOption

-- Where the replay of a run ends, if it is begun.
def ended (room : Nat) (files : Files) (options : Options) : Option Stage :=
  (begun room files options).map fun started =>
    (replayTraces room started.files (.fresh started) options.traces).1

-- What has been reported and counted.
def Stage.reported (stage : Stage) : List Violation × List (String × Nat) :=
  (stage.host.violations,stage.monitor.statistics)

-- Whether a run comes to an event that is not recorded for want of a digest.
def unrecorded (room : Nat) (files : Files) (options : Options) : Bool :=
  (begun room files options).any fun started =>
    unrecordedTraces room started.files (.fresh started) options.traces

theorem begun_eq {started : Monitor.Started} (planned : Replay.plan files options = .ok plan)
    (loaded : Monitor.load plan.config ⟨plan.level,true⟩ room files = .ok started) :
    begun room files options = some started := by
  unfold begun
  rw [planned]
  dsimp only
  rw [loaded]
  rfl

-- A run with a log next to the same run without one: neither is begun, or they end alike.
inductive Pair (renderer : Drawing.Renderer) (room : Nat) (log : Path) (files : Files)
    (options : Options) : Prop
  | unbegun (same : run renderer room files options =
        run renderer room files { options with logPath := none })
      (untouched : (run renderer room files { options with logPath := none }).files = files)
      (nowhere : ended room files options = none)
      (nowhere' : ended room files { options with logPath := none } = none)
  | begun (level : Level) (logged plain : Stage)
      (agree : Agree (openingText level files log) log (run renderer room files options)
        (run renderer room files { options with logPath := none }))
      (written : (run renderer room files { options with logPath := none }).files = files ∨
        ∃ monitor, (run renderer room files { options with logPath := none }).files =
          (draw renderer options monitor files).1.files)
      (reached : ended room files options = some logged)
      (reached' : ended room files { options with logPath := none } = some plain)
      (beside : Beside (openingText level files log) log logged plain)

theorem run_pair (renderer : Drawing.Renderer) (named : options.logPath = some (.value log))
    (whole : log.hasNull = false) (apart : ∀ path ∈ options.traces, ¬files.Meet log path)
    (recorded : unrecorded room files options = false) : Pair renderer room log files options := by
  rcases plan_unlogged files named with ⟨refusal,planned,planned'⟩ |
    ⟨plan,planned,configured,planned',present⟩
  · refine .unbegun ?_ ?_ ?_ ?_
    · rw [run,run,planned,planned']
    · rw [run,planned']
    · rw [ended,begun,planned]; rfl
    · rw [ended,begun,planned']; rfl
  · rcases load_ready ⟨plan.level,true⟩ room files configured whole with ⟨fault,loaded,loaded'⟩ |
      ⟨started,started',loaded,loaded',beside,same,untouched⟩
    · refine .unbegun ?_ ?_ ?_ ?_
      · simp only [run,planned,planned',loaded,loaded']
      · simp only [run,planned',loaded']
      · simp only [ended,begun,planned,loaded]; rfl
      · simp only [ended,begun,planned',loaded']; rfl
    · have starts := begun_eq planned loaded
      have starts' := begun_eq planned' loaded'
      rw [unrecorded,starts] at recorded
      have together := together_traces same beside apart present recorded
      have finished := @run_finishes _ _ _ renderer _ _ planned loaded
      have finished' := @run_finishes _ _ _ renderer _ _ planned' loaded'
      dsimp only at finished'
      rw [untouched] at finished'
      refine .begun plan.level _ _ ?_ ?_ (by rw [ended,starts]; rfl) (by rw [ended,starts']; rfl) ?_
      · rw [finished,finished']
        exact agree_finish renderer options together same
      · rw [finished']
        refine finish_files renderer { options with logPath := none } ?_
        rw [Stage.monitor,together.beside.host]
        rfl
      · dsimp only
        rw [untouched]
        exact together.beside

variable {arguments bare : List String}

-- A log is written aside: with one or without, a run that does not have it in the place of a trace,
-- and can record all that fires, ends alike, and all other files are left alike. Of those that were
-- there only the files of the picture are written at all.
theorem logging_is_aside (given : CommandLine.read arguments = .ok options)
    (given' : CommandLine.read bare = .ok { options with logPath := none })
    (named : options.logPath = some (.value log)) (whole : log.hasNull = false)
    (apart : ∀ path ∈ options.traces, ¬files.Meet log path)
    (recorded : unrecorded room files options = false) :
    let logged := program renderer room files arguments
    let plain := program renderer room files bare
    logged.exit = plain.exit ∧
    (logged.stdout = plain.stdout ∨
      ∃ level, logged.stdout = openingText level files log ++ plain.stdout) ∧
    (ended room files options).map Stage.reported =
      (ended room files { options with logPath := none }).map Stage.reported ∧
    (∀ path bytes, ¬files.Meet log path →
      (logged.files.read path = .ok bytes ↔ plain.files.read path = .ok bytes)) ∧
    (∀ path bytes, ¬files.Meet log path → (∀ picture ∈ picturesOf options, ¬files.Meet picture path) →
      files.read path = .ok bytes → logged.files.read path = .ok bytes) := by
  have runs : program renderer room files arguments = run renderer room files options := by
    rw [program,given]
  have runs' : program renderer room files bare =
      run renderer room files { options with logPath := none } := by
    rw [program,given']
  intro logged plain
  rw [show logged = _ from runs,show plain = _ from runs']
  rcases run_pair renderer named whole apart recorded with
    ⟨same,untouched,nowhere,nowhere'⟩ | ⟨level,last,last',agree,written,reached,reached',beside⟩
  · rw [same,untouched,nowhere,nowhere']
    exact ⟨rfl,.inl rfl,rfl,fun _ _ _ => Iff.rfl,fun _ _ _ _ read => read⟩
  · have tree : files.SameTree (run renderer room files { options with logPath := none }).files := by
      rcases written with same | ⟨monitor,same⟩
      · rw [same]
        exact .refl
      · rw [same]
        exact sameTree_draw
    have elsewhere (path : Path) (bytes : Text.Utf8.Bytes) (apart : ¬files.Meet log path) :
        (run renderer room files options).files.read path = .ok bytes ↔
          (run renderer room files { options with logPath := none }).files.read path = .ok bytes :=
      (agree.files.read fun meet => apart (tree.meet meet)).symm
    refine ⟨agree.exit,.inr ⟨level,agree.stdout⟩,?_,elsewhere,?_⟩
    · have same : last.reported = last'.reported := by
        rw [Stage.reported,Stage.reported,Stage.monitor,Stage.monitor,beside.host]
        rfl
      rw [reached,reached',Option.map_some,Option.map_some,same]
    · intro path bytes apart unpictured read
      rw [elsewhere path bytes apart]
      rcases written with same | ⟨monitor,same⟩
      · rw [same]
        exact read
      · rw [same]
        exact draw_keeps unpictured read

def loggedArguments : List String :=
  ["-n","net.json","-t","take.trace","back.trace","--continue","-l","run.log"]

def unloggedArguments : List String :=
  ["-n","net.json","-t","take.trace","back.trace","--continue"]

-- One violation is reported with a log and without one, and the traces are left as they were.
theorem logging_is_aside_locks :
    CommandLine.read loggedArguments = .ok mutexOptions ∧
    (program none 4 mutexFiles loggedArguments).exit = 1 ∧
    (program none 4 mutexFiles unloggedArguments).exit = 1 ∧
    (program none 4 mutexFiles loggedArguments).files.read (fileNamed "back.trace") =
      mutexFiles.read (fileNamed "back.trace") := by
  have given : CommandLine.read loggedArguments = .ok mutexOptions := by decide +kernel
  have given' : CommandLine.read unloggedArguments = .ok { mutexOptions with logPath := none } := by
    decide +kernel
  obtain ⟨recorded,alone⟩ : unrecorded 4 mutexFiles mutexOptions = false ∧
      (program none 4 mutexFiles unloggedArguments).exit = 1 := by decide +kernel
  obtain ⟨exit,-,-,-,kept⟩ := @logging_is_aside 4 mutexFiles (fileNamed "run.log") none mutexOptions
    _ _ given given' rfl rfl mutexLog_apart recorded
  refine ⟨given,exit.trans alone,alone,?_⟩
  exact kept _ _ (mutexLog_apart _ (by decide)) (fun picture pictured => nomatch pictured) rfl

-- A lock that is held lies in a place whose name is half of a pair.
def hiddenFiles : Files := ⟨⟨[
  ("both.trace",.file (Text.Utf8.encode
    "LockAcquire(tid=1, lock_id=7)\nLockRelease(tid=1, lock_id=7)\n")),
  ("net.json",.file (Text.Utf8.encode (lockText "\\ud800")))],by decide⟩,[]⟩

-- A log takes the place of what its path leads to: a trace is emptied before it is read, so its
-- violation is not seen, and a net is overwritten. A path that is none ends the run, and so does an
-- event that cannot be recorded. A picture, too, can be saved over a trace.
theorem log_in_the_place_of_inputs :
    (program none 4 mutexFiles ["-n","net.json","-t","back.trace"]).exit = 1 ∧
    (program none 4 mutexFiles ["-n","net.json","-t","back.trace","-l","back.trace"]).exit = 0 ∧
    (program none 4 mutexFiles
      ["-n","net.json","-t","back.trace","-l","back.trace"]).files.read (fileNamed "back.trace") ≠
        mutexFiles.read (fileNamed "back.trace") ∧
    (program none 4 mutexFiles
      ["-n","net.json","-t","take.trace","-l","net.json"]).files.read (fileNamed "net.json") ≠
        mutexFiles.read (fileNamed "net.json") ∧
    (program none 4 mutexFiles ["-n","net.json","-t","take.trace"]).exit = 0 ∧
    (program none 4 mutexFiles ["-n","net.json","-t","take.trace","-l","a\x00b"]).exit = 2 ∧
    (program none 4 mutexFiles
      ["-n","net.json","-t","take.trace","-l","run.log","--visualize","take.trace"]).files.read
        (fileNamed "take.trace") ≠ mutexFiles.read (fileNamed "take.trace") ∧
    (program none 4 hiddenFiles ["-n","net.json","-t","both.trace"]).exit = 0 ∧
    (program none 4 hiddenFiles ["-n","net.json","-t","both.trace","-l","run.log"]).exit = 2 := by
  decide +kernel

end Replay

end ProtocolNet
