import ProtocolNet.Event
import ProtocolNet.Files
import ProtocolNet.Json.Encode

namespace ProtocolNet

-- A log with the records that were written to it, how often a write was tried since its
-- sink took its present form, and which tries succeed. A log that is closed tries none.
structure Journal where
  path : Path
  records : List String
  attempts : Nat
  accepts : Option (Nat → Bool)

namespace Journal

def recordText (event : Event) (digest : Nat) : String :=
  (Json.obj [("event",event.toJson),("marking_hash",.int digest)]).encode

-- A write that fails leaves the log as it is and is told to no one; so does a record
-- that cannot be made.
def append (journal : Journal) (event : Event) (digest : Nat) : Journal :=
  match journal.accepts with
  | none => journal
  | some accepts =>
    if event.isWritable then
      let records :=
        if accepts journal.attempts then journal.records ++ [recordText event digest]
        else journal.records
      { journal with records, attempts := journal.attempts + 1 }
    else journal

def close (journal : Journal) : Journal := { journal with accepts := none }

-- From now on every write fails, though nothing knows of it.
def fail (journal : Journal) : Journal :=
  { journal with attempts := 0, accepts := journal.accepts.map fun _ _ => false }

def text (journal : Journal) : String := String.join (journal.records.map (· ++ "\n"))

-- A new log in an empty file that accepts as many records as there is room for.
def create (files : Files) (path : Path) (room : Nat) :
    Except Files.Fault (Journal × Files) :=
  match files.writeText path "" with
  | .ok files => .ok (⟨path,[],0,some (· < room)⟩,files)
  | .error fault => .error fault

def flush (journal : Journal) (files : Files) : Files :=
  match files.writeText journal.path journal.text with
  | .ok files => files
  | .error _ => files

end Journal

end ProtocolNet
