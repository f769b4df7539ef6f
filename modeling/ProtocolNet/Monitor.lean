import ProtocolNet.Console
import ProtocolNet.Monitor.Journal
import ProtocolNet.Net
import ProtocolNet.Violation

namespace ProtocolNet

def defaultMapping : List (String × Str) :=
  [("LockAcquire","acquire"),("LockRelease","release")]

def defaultSeeds : List (Str × List SeedRule) := [("acquire",[⟨"free","L"⟩])]

def Event.binding (event : Event) : Binding :=
  ("tid",.ident .tid event.threadId) ::
    match event with
    | .lockAcquire _ lock | .lockRelease _ lock => [("L",.ident .lock lock)]
    | .atomicLoad _ loc _ | .atomicStore _ loc _ => [("loc",.ident .loc loc)]
    | .unsafeRead _ region _ | .unsafeWrite _ region _ => [("region",.ident .region region)]
    | _ => []

namespace Net

def transitionFor (net : Net) (event : Event) : Option Str :=
  match net.mapping.get? event.typeName with
  | some id => some id
  | none => defaultMapping.lookup event.typeName

def seedRules (net : Net) (id : Str) : List SeedRule :=
  match net.seeds with
  | some rules => (rules.get? id).getD []
  | none => (defaultSeeds.lookup id).getD []

end Net

namespace Monitor

structure Config where
  netPath : Path
  logPath : Option Path
  failFast : Bool
  debug : Bool
deriving DecidableEq, Repr

namespace Config

def withLogPath (config : Config) (path : Path) : Config := { config with logPath := some path }

def withFailFast (config : Config) (failFast : Bool) : Config := { config with failFast }

def withDebug (config : Config) (debug : Bool) : Config := { config with debug }

end Config

structure Tally where
  processed : Nat := 0
  ignored : Nat := 0
  fired : Nat := 0
  seeded : Nat := 0
  violations : Nat := 0
deriving DecidableEq, Repr

end Monitor

-- The digests of the final markings recorded so far are kept each once.
structure Monitor where
  net : Net
  config : Option Monitor.Config
  logger : Logger
  engine : Engine
  seen : List Nat
  tally : Monitor.Tally
  journal : Option Journal

namespace Monitor

def start (net : Net) (config : Option Config) (logger : Logger) : Monitor :=
  { net, config, logger, engine := net.engine, seen := [], tally := {}, journal := none }

def marking (monitor : Monitor) : Marking := monitor.engine.marking

def failFast (monitor : Monitor) : Bool :=
  match monitor.config with
  | some config => config.failFast
  | none => true

def debug (monitor : Monitor) : Bool :=
  match monitor.config with
  | some config => config.debug
  | none => false

-- What seeding leads to: the tokens that it put into places, what is told of them, and
-- what stopped it. A token is in its place before it is told of.
structure Seeding where
  engine : Engine
  seeded : List MissingToken
  output : Str
  fault : Option TextFault

def tellSeed (logger : Logger) (place : Str) (token : Token) : Except TextFault Str :=
  if token.isWritable then
    logger.write (Console.debug logger.level ("Seeded " ++ token.text ++ " into '" ++ place ++ "'") [])
  else .error .unwritable

def seed (logger : Logger) (binding : Binding) (engine : Engine) : List SeedRule → Seeding
  | [] => ⟨engine,[],[],none⟩
  | rule :: rest =>
    match binding.lookup rule.identifier with
    | none => seed logger binding engine rest
    | some token =>
      match engine.seed rule.place token with
      | (engine,false) => seed logger binding engine rest
      | (engine,true) =>
        match tellSeed logger rule.place token with
        | .error fault => ⟨engine,[(rule.place,token)],[],some fault⟩
        | .ok told =>
          let later := seed logger binding engine rest
          { later with
            seeded := (rule.place,token) :: later.seeded
            output := told ++ later.output }

def unseed (engine : Engine) (seeded : List MissingToken) : Engine :=
  seeded.foldl (fun engine (place,token) => (engine.withdraw place token).1) engine

def Tally.count (tally : Tally) : Tally := { tally with processed := tally.processed + 1 }

structure Outcome where
  monitor : Monitor
  result : Except TextFault (Option Violation)
  output : Str

namespace Outcome

def violation (outcome : Outcome) : Option Violation :=
  match outcome.result with
  | .ok violation => violation
  | .error _ => none

def fault (outcome : Outcome) : Option TextFault :=
  match outcome.result with
  | .ok _ => none
  | .error fault => some fault

end Outcome

def passBy (monitor : Monitor) (event : Event) : Outcome :=
  let message := "No transition mapped for " ++ event.typeName ++ ", ignored"
  { monitor :=
      { monitor with tally := { monitor.tally with ignored := monitor.tally.ignored + 1 } }
    result := .ok none
    output := Console.debug monitor.logger.level message [] }

-- A rejected event leaves the marking as it was before its tokens were seeded.
def reject (monitor : Monitor) (seeding : Seeding) (event : Event)
    (location : Option SourceLocation) (refusal : NotEnabled) : Outcome :=
  let engine := unseed seeding.engine seeding.seeded
  let tally := { monitor.tally with violations := monitor.tally.violations + 1 }
  { monitor := { monitor with engine, tally }
    result := .ok (some (.ofEvent event location refusal engine.marking))
    output := seeding.output }

def trace (monitor : Monitor) (event : Event) : Except TextFault Str :=
  if monitor.debug then
    monitor.marking.digest.map fun digest : Nat =>
      Console.markingTrace monitor.logger.level event.typeName (.int digest)
  else .ok []

-- The digest is made for every log that is not closed, before a write to it is tried.
def record (monitor : Monitor) (event : Event) : Except TextFault Monitor :=
  match monitor.journal with
  | none => .ok monitor
  | some journal =>
    if journal.accepts.isSome then
      monitor.marking.digest.map fun digest =>
        { monitor with journal := some (journal.append event digest) }
    else .ok monitor

-- An event has fired and is counted before its marking is told of and recorded.
def settle (monitor : Monitor) (seeding : Seeding) (engine : Engine) (event : Event) : Outcome :=
  let tally :=
    { monitor.tally with
      fired := monitor.tally.fired + 1
      seeded := monitor.tally.seeded + seeding.seeded.length }
  let monitor := { monitor with engine, tally }
  match monitor.trace event with
  | .error fault => ⟨monitor,.error fault,seeding.output⟩
  | .ok told =>
    match monitor.record event with
    | .error fault => ⟨monitor,.error fault,seeding.output ++ told⟩
    | .ok monitor => ⟨monitor,.ok none,seeding.output ++ told⟩

def observe (monitor : Monitor) (event : Event) (location : Option SourceLocation) : Outcome :=
  let monitor := { monitor with tally := monitor.tally.count }
  match monitor.net.transitionFor event with
  | none => monitor.passBy event
  | some id =>
    let seeding := seed monitor.logger event.binding monitor.engine (monitor.net.seedRules id)
    let stopped (fault : TextFault) : Outcome :=
      ⟨{ monitor with engine := seeding.engine },.error fault,seeding.output⟩
    match seeding.fault with
    | some fault => stopped fault
    | none =>
      match seeding.engine.fire id event.binding with
      | .error (.text fault) => stopped fault
      | .error (.notEnabled refusal) => monitor.reject seeding event location refusal
      | .ok engine => monitor.settle seeding engine event

-- Records the current marking as the final one of an execution.
def endExecution (monitor : Monitor) : Except TextFault (Monitor × Nat × Bool) :=
  monitor.marking.digest.map fun digest =>
    if digest ∈ monitor.seen then (monitor,digest,false)
    else ({ monitor with seen := digest :: monitor.seen },digest,true)

def reset (monitor : Monitor) : Monitor :=
  { monitor with engine := { monitor.engine with marking := monitor.net.initial } }

def clearCoverage (monitor : Monitor) : Monitor := { monitor with seen := [] }

def seenCount (monitor : Monitor) : Nat := monitor.seen.length

def close (monitor : Monitor) : Monitor :=
  { monitor with journal := monitor.journal.map Journal.close }

def statistics (monitor : Monitor) : List (String × Nat) :=
  [("events_processed",monitor.tally.processed),
    ("events_ignored",monitor.tally.ignored),
    ("transitions_fired",monitor.tally.fired),
    ("tokens_seeded",monitor.tally.seeded),
    ("violations",monitor.tally.violations),
    ("distinct_final_markings",monitor.seenCount)]

def filesNow (monitor : Monitor) (files : Files) : Files :=
  match monitor.journal with
  | some journal => journal.flush files
  | none => files

end Monitor

end ProtocolNet
