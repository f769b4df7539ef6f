import Mathlib.Data.List.Forall2
import ProtocolNet.Proofs.Decoding
import ProtocolNet.Replay

namespace ProtocolNet

namespace Trace

-- A line of a trace file: an event with its place in the source, or a line that is passed over.
inductive Row where
  | holds (event : Event) (location : Option SourceLocation)
  | passed

-- The entries of rows, the first of which has the given number.
def entriesFrom : Nat → List Row → List Entry
  | _, [] => []
  | number, .holds event location :: rest => ⟨event,location,number⟩ :: entriesFrom (number + 1) rest
  | number, .passed :: rest => entriesFrom (number + 1) rest

-- Rows as the lines of a trace are taken for them.
def Row.ReadFrom (transcript : Bool) : Row → List Char → Prop
  | .holds event location, line => isSignificant (Text.trim line) = true ∧
      readLine transcript (Text.trim line) = .ok (event,location)
  | .passed, line => isSignificant (Text.trim line) = false

variable {files : Files} {path : Path} {rows : List Row} {lines : List (List Char)} {text : String}
  {entries : List Entry}

theorem readEntries_rows (number : Nat)
    (read : List.Forall₂ (Row.ReadFrom (isTranscript path)) rows lines) :
    readEntries path (significant number lines) = (entriesFrom number rows,none) := by
  induction read generalizing number with
  | nil => rfl
  | @cons row line rows lines here _ ih =>
    cases row with
    | holds event location =>
      obtain ⟨solid,read⟩ := here
      simp only [significant,solid,if_true,readEntries,readEntry,read,ih,entriesFrom]
    | passed =>
      have blank : isSignificant (Text.trim line) = false := here
      simp only [significant,blank,Bool.false_eq_true,if_false,ih,entriesFrom]

theorem pathExists_of_read {bytes : Text.Utf8.Bytes} (read : files.read path = .ok bytes) :
    files.pathExists path = .ok true := by
  unfold Files.read at read
  unfold Files.pathExists
  split at read
  · cases read
  · rename_i spot found
    rw [found]
    split at read
    · rename_i node
      simp only [node,Option.isSome_some]
    · cases read
    · cases read

-- A file of lines has the entries of the rows that these lines are taken for.
theorem entries_rows (read : files.read path = .ok (Text.Utf8.encode text))
    (ended : Text.Ended lines text.toList)
    (rowwise : List.Forall₂ (Row.ReadFrom (isTranscript path)) rows lines) :
    Trace.entries files path = (entriesFrom 1 rows,none) := by
  have stream : files.openStream path = .ok ⟨lines,none⟩ := by
    rw [Files.openStream,read]
    show Except.ok (Text.Stream.ofBytes _) = _
    rw [Text.ofBytes_encode,ended.lines]
  simp only [Trace.entries,openSource,pathExists_of_read read,stream,Source.ofStream,
    readEntries_rows 1 rowwise,Option.map_none]

theorem readAll_of_entries (read : Trace.entries files path = (entries,none)) :
    readAll files path = .ok entries := by
  rw [readAll,read]

end Trace

namespace Replay

open Trace (Entry NumberedLine)

-- Entries passed on until one of them stops the host.
def relay : Stage → List Entry → Progress
  | stage, [] => (stage,none)
  | stage, entry :: rest =>
    let reply := stage.host.emit entry.event entry.location
    let next : Stage := ⟨reply.host,stage.output ++ reply.output⟩
    match reply.stopped with
    | none => relay next rest
    | some stop => (next,some (.ofStop stop))

variable {room : Nat} {files : Files} {path path' : Path} {stage stage' : Stage}
  {entries : List Entry}

-- Lines that can all be read are replayed as their entries.
theorem replayLines_relay {lines : List NumberedLine}
    (read : Trace.readEntries path lines = (entries,none)) :
    replayLines path stage lines = relay stage entries := by
  induction lines generalizing stage entries with
  | nil => cases read; rfl
  | cons line rest ih =>
    rw [Trace.readEntries] at read
    rw [replayLines,replayLine]
    cases here : Trace.readEntry path line with
    | error fault => rw [here] at read; cases read
    | ok entry =>
      rw [here] at read
      obtain ⟨rfl,later⟩ := Prod.mk.injEq .. ▸ read
      dsimp only at later ⊢
      have rest' (stage : Stage) := @ih stage _ (Prod.ext rfl later)
      rw [relay]
      dsimp only [Stage.say]
      cases (stage.host.emit entry.event entry.location).stopped with
      | none => exact rest' _
      | some stop => rfl

theorem replayFile_relay (unlogged : isLog files stage path = false)
    (read : Trace.entries files path = (entries,none)) :
    replayFile room files path stage = relay stage entries := by
  rw [replayFile,unlogged,if_neg Bool.false_ne_true]
  unfold Trace.entries at read
  cases opened : Trace.openSource files path with
  | error fault => rw [opened] at read; cases read
  | ok source =>
    rw [opened] at read
    dsimp only at read ⊢
    split at read
    · rename_i found whole
      obtain ⟨rfl,unfaulted⟩ := Prod.mk.injEq .. ▸ read
      rw [replayLines_relay whole,unfaulted]
      cases relay stage found with
      | mk next halt => cases halt <;> rfl
    · rename_i unfaulted
      exact absurd read (unfaulted entries)

-- A stage at the start of an execution, and what becomes of it behind the last entry.
def Stage.begin (path : Path) (stage : Stage) : Stage :=
  (stage.withMonitor stage.monitor.reset).say (Console.info stage.level ("Replaying " ++ path.text) [])

def settle (path : Path) : Progress → Progress
  | (stage,some halt) => (stage,some halt)
  | (stage,none) =>
    match stage.monitor.endExecution with
    | .error fault => (stage,some (.text fault))
    | .ok (monitor,digest,isNew) =>
      let told := Console.executionEnd stage.level path.text (.int digest) isNew
      ((stage.withMonitor monitor).say told,none)

theorem replayTrace_settle : replayTrace room files path stage =
    settle path (replayFile room files path (stage.begin path)) := by
  rw [replayTrace]
  show (match replayFile room files path (stage.begin path) with
    | (stage,some halt) => (stage,some halt)
    | (stage,none) => settle path (stage,none)) = _
  cases replayFile room files path (stage.begin path) with
  | mk next halt => cases halt <;> rfl

theorem replayTrace_relay (unlogged : isLog files stage path = false)
    (read : Trace.entries files path = (entries,none)) :
    replayTrace room files path stage =
      settle path (relay (stage.begin path) entries) := by
  have begun : isLog files (stage.begin path) path = false := unlogged
  rw [replayTrace_settle,replayFile_relay begun read]

-- What is shown plays no part in where a host gets.
theorem relay_host (same : stage.host = stage'.host) :
    (relay stage entries).1.host = (relay stage' entries).1.host ∧
      (relay stage entries).2 = (relay stage' entries).2 := by
  induction entries generalizing stage stage' with
  | nil => exact ⟨same,rfl⟩
  | cons entry rest ih =>
    rw [relay,relay,same]
    cases (stage'.host.emit entry.event entry.location).stopped with
    | none => exact ih rfl
    | some stop => exact ⟨rfl,rfl⟩

theorem settle_host {left right : Progress} (hosts : left.1.host = right.1.host)
    (halts : left.2 = right.2) :
    (settle path left).1.host = (settle path' right).1.host ∧
      (settle path left).2 = (settle path' right).2 := by
  obtain ⟨⟨host,output⟩,halt⟩ := left
  obtain ⟨⟨host',output'⟩,halt'⟩ := right
  cases hosts
  cases halts
  cases halt with
  | some halt => exact ⟨rfl,rfl⟩
  | none =>
    simp only [settle,Stage.monitor]
    cases host.monitor.endExecution <;> exact ⟨rfl,rfl⟩

-- Two files with the same entries are the same execution.
theorem replayTrace_host (unlogged : isLog files stage path = false)
    (unlogged' : isLog files stage path' = false)
    (read : Trace.entries files path = (entries,none))
    (read' : Trace.entries files path' = (entries,none)) :
    (replayTrace room files path stage).1.host =
        (replayTrace room files path' stage).1.host ∧
      (replayTrace room files path stage).2 =
        (replayTrace room files path' stage).2 := by
  rw [replayTrace_relay unlogged read,replayTrace_relay unlogged' read']
  have begun : (stage.begin path).host = (stage.begin path').host := rfl
  obtain ⟨hosts,halts⟩ := @relay_host _ _ entries begun
  exact settle_host hosts halts

end Replay

end ProtocolNet
