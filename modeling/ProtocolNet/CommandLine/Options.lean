import ProtocolNet.CommandLine.Flag
import ProtocolNet.Console
import ProtocolNet.Path
import ProtocolNet.Text.Integer

namespace ProtocolNet.CommandLine

inductive OutputLevel where
  | silent | normal | verbose
deriving DecidableEq, Repr

inductive GraphTarget where
  | screen
  | file (path : Path)
deriving DecidableEq, Repr

inductive Given (α : Type) where
  | void
  | value (a : α)
deriving DecidableEq, Repr

structure Options where
  netPath : Given Path
  traces : List Path
  logPath : Option (Given Path)
  keepGoing : Bool
  output : OutputLevel
  debug : Given Nat
  graph : Option GraphTarget
  table : Bool
  stats : Bool
deriving DecidableEq, Repr

def levelFor (output : OutputLevel) (debug : Nat) : Level :=
  if 3 ≤ debug then .debug
  else if output = .verbose ∨ 2 ≤ debug then .verbose
  else if output = .silent then .silent
  else .normal

structure Reading where
  netPath : Option (Given Path) := none
  traces : Option (List Path) := none
  logPath : Option (Given Path) := none
  keepGoing : Bool := false
  output : OutputLevel := .normal
  debug : Given Nat := .value 0
  graph : Option GraphTarget := none
  table : Bool := false
  stats : Bool := false
  extras : List String := []
deriving DecidableEq, Repr

inductive Stop where
  | help
  | version
  | fault (fault : Fault)
deriving DecidableEq, Repr

def outputChoices : List (String × OutputLevel) :=
  [("silent",.silent),("normal",.normal),("verbose",.verbose)]

def debugChoices : List Nat := [0,1,2,3]

def readOutput (flag : Flag) : List String → Except Fault OutputLevel
  | [] => .ok .normal
  | written :: _ =>
    match outputChoices.lookup written with
    | some output => .ok output
    | none =>
      .error (.noChoice flag (Text.quoted written) (outputChoices.map fun c => Text.quoted c.1))

def readDebug (flag : Flag) : List String → Except Fault (Given Nat)
  | [] => .ok .void
  | written :: _ =>
    match Text.readInteger written.toList with
    | .error _ => .error (.noInteger flag written)
    | .ok n =>
      if n.toNat ∈ debugChoices ∧ 0 ≤ n then .ok (.value n.toNat)
      else .error (.noChoice flag (Text.integerText n) (debugChoices.map Nat.repr))

def readPath : List String → Given Path
  | [] => .void
  | written :: _ => .value (.ofText written)

def screenName : String := "__stdout__"

def readGraph : List String → GraphTarget
  | [] => .screen
  | written :: _ => if written = screenName then .screen else .file (.ofText written)

def stopAt {α : Type} : Except Fault α → Except Stop α
  | .ok a => .ok a
  | .error fault => .error (.fault fault)

def take (reading : Reading) (flag : Flag) (values : List String) : Except Stop Reading :=
  let values := values.erase "--"
  match flag.key with
  | .help => .error .help
  | .version => .error .version
  | .net => .ok { reading with netPath := some (readPath values) }
  | .trace => .ok { reading with traces := some (values.map Path.ofText) }
  | .log => .ok { reading with logPath := some (readPath values) }
  | .keepGoing => .ok { reading with keepGoing := true }
  | .output => (stopAt (readOutput flag values)).map fun output => { reading with output }
  | .debug => (stopAt (readDebug flag values)).map fun debug => { reading with debug }
  | .drawGraph => .ok { reading with graph := some (readGraph values) }
  | .drawTable => .ok { reading with table := true }
  | .stats => .ok { reading with stats := true }

def readFrom (reading : Reading) : (skip : Nat) → List (String × Argument) → Except Stop Reading
  | _, [] => .ok reading
  | skip + 1, _ :: rest => readFrom reading skip rest
  | 0, (written,argument) :: rest =>
    match argument with
    | .flag use =>
      match bundle use (leadingValues rest) with
      | .error fault => .error (.fault fault)
      | .ok bundle =>
        match bundle.uses.foldlM (fun reading (flag,values) => take reading flag values)
            reading with
        | .error stop => .error stop
        | .ok reading => readFrom reading bundle.taken rest
    | _ => readFrom { reading with extras := reading.extras ++ [written] } 0 rest

def missingFlags (reading : Reading) : List Flag :=
  flags.filter fun flag =>
    (flag.key = .net ∧ reading.netPath = none) ∨ (flag.key = .trace ∧ reading.traces = none)

def finish (reading : Reading) : Except Stop Options :=
  match reading.netPath, reading.traces with
  | some netPath, some traces =>
    if reading.extras.isEmpty then
      .ok { netPath, traces, logPath := reading.logPath, keepGoing := reading.keepGoing,
            output := reading.output, debug := reading.debug, graph := reading.graph,
            table := reading.table, stats := reading.stats }
    else .error (.fault (.unrecognized reading.extras))
  | _, _ => .error (.fault (.required (missingFlags reading)))

def read (arguments : List String) : Except Stop Options := do
  let classified ← stopAt (classifyAll arguments)
  finish (← readFrom {} 0 classified)

def usage : String :=
  "usage: cpnmon [-h] -n NET -t TRACE [TRACE ...] [-l LOG] [--continue]\n" ++
  "              [-o \x7bsilent,normal,verbose\x7d] [-d \x7b0,1,2,3\x7d] [--visualize [FILE]]\n" ++
  "              [--visualize-ascii] [--stats] [--version]\n"

def help : String :=
  usage ++ "\n" ++
  "CPNMON: Colored Petri Net protocol monitor - replay concurrency event traces\n" ++
  "against a CPN protocol\n\n" ++
  "options:\n" ++
  "  -h, --help            show this help message and exit\n" ++
  "  -l LOG, --log LOG     Write an execution log (one JSON record per fired\n" ++
  "                        event)\n" ++
  "  --continue            Report violations and continue instead of stopping at\n" ++
  "                        the first\n" ++
  "  -o \x7bsilent,normal,verbose\x7d, --output \x7bsilent,normal,verbose\x7d\n" ++
  "                        Output level (default: normal)\n" ++
  "  -d \x7b0,1,2,3\x7d, --debug \x7b0,1,2,3\x7d\n" ++
  "                        Debug level 0-3; 1+ prints the marking hash after\n" ++
  "                        every event (default: 0)\n" ++
  "  --visualize [FILE]    Write the net with its final marking as DOT\n" ++
  "                        (optionally to FILE)\n" ++
  "  --visualize-ascii     Print the final marking as an ASCII table\n" ++
  "  --stats               Print statistics after monitoring\n" ++
  "  --version             show program's version number and exit\n\n" ++
  "required arguments:\n" ++
  "  -n NET, --net NET     Path to the net definition (.json)\n" ++
  "  -t TRACE [TRACE ...], --trace TRACE [TRACE ...]\n" ++
  "                        Trace file(s) (.trace text notation or .ndjson); one\n" ++
  "                        execution each\n"

def version : String := "cpnmon 0.1.0\n"

def faultText (fault : Fault) : String := usage ++ "cpnmon: error: " ++ fault.message ++ "\n"

end ProtocolNet.CommandLine
