import ProtocolNet.Json.Display
import ProtocolNet.Text.Blank
import ProtocolNet.Text.Fault
import ProtocolNet.Text.Title

namespace ProtocolNet

inductive Level where
  | silent | normal | verbose | debug
deriving DecidableEq, Repr

def Level.rank : Level → Nat
  | .silent => 0
  | .normal => 1
  | .verbose => 2
  | .debug => 3

namespace Console

def line (s : Str) : Str := s ++ "\n"

def shownFrom (least level : Level) (s : Str) : Str :=
  if least.rank ≤ level.rank then s else []

def detailLines (details : List (Str × Json)) : Str :=
  details.flatMap fun (key,value) => line ("  " ++ key ++ ": " ++ value.plain)

def debug (level : Level) (message : Str) (details : List (Str × Json)) : Str :=
  shownFrom .debug level (line ("[DEBUG] " ++ message) ++ detailLines details)

def info (level : Level) (message : Str) (details : List (Str × Json)) : Str :=
  shownFrom .verbose level (line ("[INFO] " ++ message) ++ detailLines details)

def markingTrace (level : Level) (typeName : Str) (digest : Json) : Str :=
  shownFrom .normal level
    (line ("[Petri] After " ++ typeName ++ ": marking hash = " ++ digest.plain))

def violation (level : Level) (report : Str) : Str :=
  shownFrom .normal level (line ("[Petri] " ++ report.trimEnd))

def executionEnd (level : Level) (label : Str) (digest : Json) (isNew : Bool) : Str :=
  let status := if isNew then "new" else "seen"
  shownFrom .verbose level (line ("[COVERAGE] " ++ label ++ ": final marking " ++ digest.plain ++
    " (" ++ status ++ ")"))

def verdictOk (level : Level) : Str :=
  shownFrom .normal level (line "OK: All events conform to the protocol")

def verdictViolated (level : Level) (count : Json) : Str :=
  let plural := if count.isOne then "" else "s"
  shownFrom .normal level
    (line ("VIOLATED: " ++ count.plain ++ " protocol violation" ++ plural ++ " detected"))

def statisticLabel (key : String) : String :=
  Text.titled (.ofList (key.toList.map fun c => if c = '_' then ' ' else c))

def statisticLines (statistics : List (String × Json)) : Str :=
  line "=== Statistics ===" ++
    statistics.flatMap fun (key,value) =>
      line ("  " ++ statisticLabel key ++ ": " ++ value.plain)

def statistics (level : Level) (values : List (String × Json)) : Str :=
  shownFrom .verbose level (statisticLines values)

end Console

-- Where messages go. A strict stream takes a text as a whole or, if it cannot be
-- encoded, not at all; any other stream takes every text.
structure Logger where
  level : Level
  strict : Bool
deriving DecidableEq, Repr

namespace Logger

def silent : Logger := ⟨.silent,false⟩

def write (logger : Logger) (s : Str) : Except TextFault Str :=
  if logger.strict then s.encode.map fun _ => s else .ok s

end Logger

end ProtocolNet
