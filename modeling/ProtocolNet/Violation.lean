import ProtocolNet.Engine
import ProtocolNet.Event
import ProtocolNet.Location

namespace ProtocolNet

structure Violation where
  event : Event
  threadId : Int
  objectId : Option Int
  location : Option SourceLocation
  transition : Str
  missing : List MissingToken
  marking : Marking

namespace Violation

def ofEvent (event : Event) (location : Option SourceLocation) (fault : NotEnabled)
    (marking : Marking) : Violation :=
  { event, threadId := event.threadId, objectId := event.objectId.map Int.ofNat, location,
    transition := fault.transition, missing := fault.missing, marking }

def isWritable (violation : Violation) : Bool :=
  violation.event.isWritable && Text.isWritable violation.threadId.natAbs &&
  violation.objectId.all (fun id => Text.isWritable id.natAbs) &&
  violation.location.all (·.isWritable) &&
  violation.missing.all (fun missing => missing.2.isWritable) && violation.marking.isWritable

def headLines (violation : Violation) : List Str :=
  let objectLine (id : Int) : Str := "  Object ID: " ++ Text.integerText id
  let locationLine (location : SourceLocation) : Str := "  Location: " ++ location.text
  "Petri net protocol violation: transition not enabled" ::
    ↑("  Event: " ++ violation.event.shownText) ::
    ↑("  Thread ID: " ++ Text.integerText violation.threadId) ::
    ((violation.objectId.map objectLine).toList ++ (violation.location.map locationLine).toList)

def reportLines (violation : Violation) : List Str :=
  let missingLine (missing : MissingToken) : Str := "    - " ++ missingText missing
  let placeLine (place : Str × Bag) : Str :=
    "    " ++ place.1 ++ ": [" ++ place.2.entriesText ++ "]"
  violation.headLines ++ [("  Transition: " ++ violation.transition : Str),"  Missing tokens:"] ++
    violation.missing.map missingLine ++ [("  Current marking (key places):" : Str)] ++
    violation.marking.contents.map placeLine

-- Places and tokens are listed in order, so the report depends on the record alone.
def report (violation : Violation) : Except TextFault Str :=
  TextFault.gated violation.isWritable (violation.reportLines.flatMap (· ++ "\n"))

end Violation

end ProtocolNet
