import ProtocolNet.Event
import ProtocolNet.Location
import ProtocolNet.Text.Backslash

namespace ProtocolNet.Transcript

-- Texts are always quoted, so that a line reads back as the event it was written for.
def writeValue : FieldValue → Str
  | .number n => Nat.repr n
  | .text s => "\"" ++ Text.Backslash.escapeByChars s ++ "\""

def writeField (field : String × FieldValue) : Str := field.1 ++ "=" ++ writeValue field.2

def writeEvent (event : Event) : Str :=
  event.typeName ++ "(" ++ Str.joined ", " (event.fields.map writeField) ++ ")"

def writeLocation : Option SourceLocation → Str
  | some location => " @ " ++ location.text
  | none => []

def write (event : Event) (location : Option SourceLocation) : Str :=
  writeEvent event ++ writeLocation location

end ProtocolNet.Transcript
