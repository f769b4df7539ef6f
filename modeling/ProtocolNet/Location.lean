import ProtocolNet.Json.Display
import ProtocolNet.Text.Blank
import ProtocolNet.Text.Fault

namespace ProtocolNet

structure SourceLocation where
  file : Str
  line : Int
  column : Int
deriving DecidableEq, Repr

namespace SourceLocation

def text (location : SourceLocation) : Str :=
  location.file ++ ":" ++ Text.integerText location.line ++ ":" ++
    Text.integerText location.column

def isWritable (location : SourceLocation) : Bool :=
  Text.isWritable location.line.natAbs && Text.isWritable location.column.natAbs

def splitLast? (c : Letter) (s : Str) : Option (Str × Str) :=
  match s.reverse.dropWhile (· ≠ c) with
  | [] => none
  | _ :: front => some (front.reverse,(s.reverse.takeWhile (· ≠ c)).reverse)

def readCoordinate (s : Str) : Except Text.IntegerFault Int :=
  match s.encode with
  | .ok s => Text.readInteger s.toList
  | .error _ => .error .malformed

-- The last two colons divide the text, so the file may hold colons of its own.
def ofStr? (s : Str) : Option SourceLocation :=
  match splitLast? (.char ':') s.trim with
  | none => none
  | some (front,column) =>
    match splitLast? (.char ':') front with
    | none => none
    | some (file,line) =>
      match readCoordinate line, readCoordinate column with
      | .ok line, .ok column => some ⟨file,line,column⟩
      | _, _ => none

inductive Fault where
  | text (written : Str)
  | object (value : Json)
  | otherValue (value : Json)
  | infiniteNumber

def Fault.message : Fault → Str
  | .text written => "Malformed source location: '" ++ written ++ "'"
  | .object value => value.told "Malformed location object: "
  | .otherValue value => value.told "Malformed location: "
  | .infiniteNumber => "cannot convert float infinity to integer"

def ofText (written : Str) : Except Fault SourceLocation :=
  match ofStr? written with
  | some location => .ok location
  | none => .error (.text written)

def readNumber (whole value : Json) : Except Fault Int :=
  match value with
  | .int n => .ok n
  | .bool b => .ok (if b then 1 else 0)
  | .str s =>
    match readCoordinate s with
    | .ok n => .ok n
    | .error _ => .error (.object whole)
  | .float (.infinite _) => .error .infiniteNumber
  | .float x =>
    match x.truncate with
    | some n => .ok n
    | none => .error (.object whole)
  | _ => .error (.object whole)

def ofJson (value : Json) : Except Fault (Option SourceLocation) :=
  match value with
  | .null => .ok none
  | .str written => (ofText written).map some
  | .obj fields =>
    match fields.lookup ↑"file", fields.lookup ↑"line" with
    | some file, some line =>
      if file.isWritable then do
        let line ← readNumber value line
        let column ← readNumber value ((fields.lookup ↑"column").getD (.int 0))
        return some ⟨file.plain,line,column⟩
      else .error (.object value)
    | _, _ => .error (.object value)
  | _ => .error (.otherValue value)

end SourceLocation

end ProtocolNet
