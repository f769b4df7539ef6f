import ProtocolNet.CommandLine.Options
import ProtocolNet.Drawing
import ProtocolNet.Monitor.Host
import ProtocolNet.Monitor.Setup
import ProtocolNet.Trace

namespace ProtocolNet.Replay

open CommandLine (Options)

-- What ends a replay before its time.
inductive Halt where
  | fault (fault : Trace.Fault)
  | text (fault : TextFault)
  | violation (violation : Violation) (report : Str)

def Halt.ofStop : Host.Stop → Halt
  | .violation rejected report => .violation rejected report
  | .fault problem => .text problem

structure Stage where
  host : Host
  output : Str

namespace Stage

def say (stage : Stage) (text : Str) : Stage := { stage with output := stage.output ++ text }

def monitor (stage : Stage) : Monitor := stage.host.monitor

def level (stage : Stage) : Level := stage.monitor.logger.level

def withMonitor (stage : Stage) (monitor : Monitor) : Stage :=
  { stage with host := { stage.host with monitor } }

end Stage

abbrev Progress := Stage × Option Halt

def replayLine (path : Path) (line : Trace.NumberedLine) (stage : Stage) : Progress :=
  match Trace.readEntry path line with
  | .error fault => (stage,some (.fault fault))
  | .ok entry =>
    let reply := stage.host.emit entry.event entry.location
    ((⟨reply.host,stage.output⟩ : Stage).say reply.output,reply.stopped.map Halt.ofStop)

def replayLines (path : Path) (stage : Stage) : List Trace.NumberedLine → Progress
  | [] => (stage,none)
  | line :: rest =>
    match replayLine path line stage with
    | (stage,none) => replayLines path stage rest
    | halted => halted

def Stage.records (stage : Stage) : List String :=
  match stage.monitor.journal with
  | some journal => journal.records
  | none => []

-- A trace that is the log being written is read as it grows. As the log has room for
-- no more records than the fuel, reading ends with its last one.
def replayLog (path : Path) : (fuel : Nat) → (index : Nat) → Stage → Progress
  | 0, _, stage => (stage,none)
  | fuel + 1, index, stage =>
    match stage.records[index]? with
    | none => (stage,none)
    | some record =>
      match replayLines path stage (Trace.significant (index + 1) [record.toList]) with
      | (stage,none) => replayLog path fuel (index + 1) stage
      | halted => halted

def isLog (files : Files) (stage : Stage) (path : Path) : Bool :=
  match stage.monitor.journal with
  | none => false
  | some journal =>
    match files.spot journal.path, files.spot path with
    | .ok logged, .ok spot => logged = spot
    | _, _ => false

def replayFile (room : Nat) (files : Files) (path : Path) (stage : Stage) : Progress :=
  if isLog files stage path then replayLog path room 0 stage
  else
    match Trace.openSource files path with
    | .error fault => (stage,some (.fault fault))
    | .ok source =>
      match replayLines path stage source.lines with
      | (stage,none) => (stage,source.fault.map Halt.fault)
      | halted => halted

-- Every trace is one execution: the marking is reset before it and recorded behind it.
def replayTrace (room : Nat) (files : Files) (path : Path) (stage : Stage) : Progress :=
  let stage := stage.withMonitor stage.monitor.reset
  let stage := stage.say (Console.info stage.level ("Replaying " ++ path.text) [])
  match replayFile room files path stage with
  | (stage,some halt) => (stage,some halt)
  | (stage,none) =>
    match stage.monitor.endExecution with
    | .error fault => (stage,some (.text fault))
    | .ok (monitor,digest,isNew) =>
      let told := Console.executionEnd stage.level path.text (.int digest) isNew
      ((stage.withMonitor monitor).say told,none)

def replayTraces (room : Nat) (files : Files) (stage : Stage) : List Path → Progress
  | [] => (stage,none)
  | path :: rest =>
    match replayTrace room files path stage with
    | (stage,none) => replayTraces room files stage rest
    | halted => halted

structure Result where
  exit : Nat
  stdout : Str
  stderr : String
  files : Files

-- Where errors are told, halves that stand alone are shown as escapes.
def errorText (message : Str) : String := "Error: " ++ message.withEscapes ++ "\n"

inductive Refusal where
  | noNet (path : String)
  | noTrace (path : String)
  | unusable (fault : Files.Fault)
  | voidNet
  | voidDebug
  | voidLog
deriving DecidableEq, Repr

def Refusal.message : Refusal → String
  | .noNet path => "Net definition not found: " ++ path
  | .noTrace path => "Trace file not found: " ++ path
  | .unusable fault => fault.message
  | .voidNet => "'list' object has no attribute 'exists'"
  | .voidDebug => "'>=' not supported between instances of 'list' and 'int'"
  | .voidLog => "expected str, bytes or os.PathLike object, not list"

structure Plan where
  level : Level
  config : Monitor.Config

def demand (files : Files) (path : Path) (refusal : Refusal) : Except Refusal Unit :=
  match files.pathExists path with
  | .ok true => .ok ()
  | .ok false => .error refusal
  | .error fault => .error (.unusable fault)

def plan (files : Files) (options : Options) : Except Refusal Plan := do
  let .value netPath := options.netPath | .error .voidNet
  demand files netPath (.noNet netPath.text)
  options.traces.forM fun path => demand files path (.noTrace path.text)
  let .value debug := options.debug | .error .voidDebug
  let logPath ← match options.logPath with
    | some (.value path) => .ok (some path)
    | some .void => .error .voidLog
    | none => .ok none
  return {
    level := CommandLine.levelFor options.output debug
    config := ⟨netPath,logPath,!options.keepGoing,1 ≤ debug⟩ }

def imageSuffixes : List String := [".png",".pdf",".svg"]

structure Drawn where
  stdout : Str
  stderr : String
  files : Files

inductive DrawFault where
  | text (fault : TextFault)
  | file (fault : Files.Fault)
  | render (fault : Drawing.RenderFault)
deriving DecidableEq, Repr

def DrawFault.message : DrawFault → String
  | .text fault => fault.message
  | .file fault => fault.message
  | .render fault => fault.message

def DrawFault.ofSave : Drawing.SaveFault → DrawFault
  | .text fault => .text fault
  | .file fault => .file fault

-- A text as it is printed, strictly.
def printed (text : Except TextFault Str) : Except TextFault Str :=
  text.bind fun text => text.encode.map fun _ => text

-- The line before a table is printed before the table is made.
def drawTable (options : Options) (monitor : Monitor) : Str × Option TextFault :=
  if options.table then
    match printed (Drawing.table monitor.net monitor.marking Drawing.defaultWidth) with
    | .ok table => ("\n" ++ table ++ "\n",none)
    | .error fault => ("\n",some fault)
  else ([],none)

-- If an image cannot be rendered for want of the program or by a failure that it
-- tells of, the graph is saved beside it instead.
def drawGraph (renderer : Drawing.Renderer) (options : Options) (monitor : Monitor)
    (files : Files) : Drawn × Option DrawFault :=
  let save (path : Path) (stderr : String) (files : Files) : Drawn × Option DrawFault :=
    match Drawing.save monitor.net monitor.marking path files with
    | (files,fault) => (⟨[],stderr,files⟩,fault.map DrawFault.ofSave)
  match options.graph with
  | none => (⟨[],"",files⟩,none)
  | some .screen =>
    match printed (Drawing.graph monitor.net monitor.marking) with
    | .ok graph => (⟨graph ++ "\n","",files⟩,none)
    | .error fault => (⟨[],"",files⟩,some (.text fault))
  | some (.file path) =>
    if path.suffix ∈ imageSuffixes then
      match Drawing.render renderer monitor.net monitor.marking path files with
      | (files,none) => (⟨[],"",files⟩,none)
      | (files,some fault) =>
        if fault.isTold then
          save (path.withSuffix ".dot") ("Warning: " ++ fault.message ++ "\n") files
        else (⟨[],"",files⟩,some (.render fault))
    else save path "" files

def draw (renderer : Drawing.Renderer) (options : Options) (monitor : Monitor) (files : Files) :
    Drawn × Option DrawFault :=
  match drawTable options monitor with
  | (table,some fault) => (⟨table,"",files⟩,some (.text fault))
  | (table,none) =>
    match drawGraph renderer options monitor files with
    | (drawn,fault) => ({ drawn with stdout := table ++ drawn.stdout },fault)

def statisticValues (monitor : Monitor) : List (String × Json) :=
  monitor.statistics.map fun (key,n) => (key,.int n)

def summary (options : Options) (stage : Stage) (aborted : Bool) : Str :=
  let level := stage.level
  let count := stage.host.violations.length
  let verdict :=
    if count = 0 then Console.verdictOk level else Console.verdictViolated level (.int count)
  let stopped :=
    if aborted then Console.info level "Stopped at the first violation (fail-fast)" [] else []
  let values := statisticValues stage.monitor
  let extra : Str :=
    if options.stats ∧ level.rank < Level.verbose.rank then "\n" ++ Console.statisticLines values
    else []
  verdict ++ stopped ++ Console.statistics level values ++ extra

def conclude (renderer : Drawing.Renderer) (options : Options) (files : Files) (stage : Stage)
    (aborted : Bool) : Result :=
  let files := stage.monitor.filesNow files
  match draw renderer options stage.monitor files with
  | (drawn,some fault) =>
    ⟨2,stage.output ++ drawn.stdout,drawn.stderr ++ errorText fault.message,drawn.files⟩
  | (drawn,none) =>
    let exit := if stage.host.violations.isEmpty then 0 else 1
    ⟨exit,stage.output ++ drawn.stdout ++ summary options stage aborted,drawn.stderr,drawn.files⟩

-- What is left of a replay that a fault has ended.
def broken (files : Files) (stage : Stage) (message : Str) : Result :=
  ⟨2,stage.output,errorText message,stage.monitor.filesNow files⟩

def run (renderer : Drawing.Renderer) (room : Nat) (files : Files) (options : Options) : Result :=
  match plan files options with
  | .error refusal => ⟨2,[],errorText refusal.message,files⟩
  | .ok ⟨level,config⟩ =>
    match Monitor.load config ⟨level,true⟩ room files with
    | .error fault => ⟨2,[],errorText fault.message,files⟩
    | .ok started =>
      let stage : Stage := ⟨⟨started.monitor,true,[]⟩,started.output⟩
      match replayTraces room started.files stage options.traces with
      | (stage,none) => conclude renderer options started.files stage false
      | (stage,some (.fault fault)) => broken started.files stage fault.message
      | (stage,some (.text fault)) => broken started.files stage fault.message
      | (stage,some (.violation _ report)) =>
        match stage.monitor.logger.write (Console.violation stage.level report) with
        | .ok told => conclude renderer options started.files (stage.say told) true
        | .error fault => broken started.files stage fault.message

def program (renderer : Drawing.Renderer) (room : Nat) (files : Files) (arguments : List String) :
    Result :=
  match CommandLine.read arguments with
  | .ok options => run renderer room files options
  | .error .help => ⟨0,CommandLine.help,"",files⟩
  | .error .version => ⟨0,CommandLine.version,"",files⟩
  | .error (.fault fault) => ⟨2,[],CommandLine.faultText fault,files⟩

end ProtocolNet.Replay
