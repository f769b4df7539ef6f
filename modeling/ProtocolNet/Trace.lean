import ProtocolNet.Files
import ProtocolNet.Json.Decode
import ProtocolNet.Transcript.Line

namespace ProtocolNet.Trace

structure Entry where
  event : Event
  location : Option SourceLocation
  line : Nat
deriving DecidableEq, Repr

inductive RecordFault where
  | noObject (value : Json)
  | location (fault : SourceLocation.Fault)
  | event (fault : Event.Fault)

def RecordFault.message : RecordFault → Str
  | .noObject value => value.told "Expected a JSON object, got "
  | .location fault => fault.message
  | .event fault => fault.message

def eventObject (value : Json) : Json :=
  match value.field? "event" with
  | some (.obj fields) => .obj fields
  | _ => value

def readRecord (value : Json) : Except RecordFault (Event × Option SourceLocation) :=
  match eventObject value with
  | .obj fields =>
    match SourceLocation.ofJson (Json.orNull (fields.lookup ↑"location")) with
    | .error fault => .error (.location fault)
    | .ok location =>
      match Event.ofJson (.obj (fields.filter (·.1 ≠ "location"))) with
      | .error fault => .error (.event fault)
      | .ok event => .ok (event,location)
  | other => .error (.noObject other)

inductive LineFault where
  | transcript (fault : Transcript.Fault)
  | json (fault : Json.DecodeFault)
  | record (fault : RecordFault)

def LineFault.message : LineFault → Str
  | .transcript fault => fault.message
  | .json fault => fault.message
  | .record fault => fault.message

inductive Fault where
  | missing (path : String)
  | file (fault : Files.Fault)
  | encoding (fault : Text.Utf8.Fault)
  | line (path : String) (number : Nat) (fault : LineFault)
  | infiniteNumber

def Fault.message : Fault → Str
  | .missing path => ↑("Trace file not found: " ++ path)
  | .file fault => fault.message
  | .encoding fault => fault.message
  | .line path number fault => path ++ ":" ++ Nat.repr number ++ ": " ++ fault.message
  | .infiniteNumber => SourceLocation.Fault.infiniteNumber.message

def isTranscript (path : Path) : Bool := path.suffix = ".trace" || path.suffix = ".txt"

def readLine (transcript : Bool) (s : List Char) :
    Except LineFault (Event × Option SourceLocation) :=
  if transcript then
    match Transcript.readEvent (.ofList s) with
    | .ok read => .ok read
    | .error fault => .error (.transcript fault)
  else
    match Json.decode s with
    | .error fault => .error (.json fault)
    | .ok value =>
      match readRecord value with
      | .ok read => .ok read
      | .error fault => .error (.record fault)

abbrev NumberedLine := Nat × List Char

def isSignificant (s : List Char) : Bool :=
  match s with
  | [] => false
  | c :: _ => c != '#'

def significant (number : Nat) : List (List Char) → List NumberedLine
  | [] => []
  | line :: rest =>
    let line := Text.trim line
    if isSignificant line then (number,line) :: significant (number + 1) rest
    else significant (number + 1) rest

def readEntry (path : Path) (line : NumberedLine) : Except Fault Entry :=
  match readLine (isTranscript path) line.2 with
  | .ok (event,location) => .ok ⟨event,location,line.1⟩
  | .error (.record (.location .infiniteNumber)) => .error .infiniteNumber
  | .error fault => .error (.line path.text line.1 fault)

structure Source where
  lines : List NumberedLine
  fault : Option Fault

def Source.ofStream (stream : Text.Stream) : Source :=
  ⟨significant 1 stream.lines,stream.fault.map Fault.encoding⟩

def openSource (files : Files) (path : Path) : Except Fault Source :=
  match files.pathExists path with
  | .error fault => .error (.file fault)
  | .ok false => .error (.missing path.text)
  | .ok true =>
    match files.openStream path with
    | .error fault => .error (.file fault)
    | .ok stream => .ok (.ofStream stream)

def readEntries (path : Path) : List NumberedLine → List Entry × Option Fault
  | [] => ([],none)
  | line :: rest =>
    match readEntry path line with
    | .error fault => ([],some fault)
    | .ok entry =>
      let (entries,fault) := readEntries path rest
      (entry :: entries,fault)

def entries (files : Files) (path : Path) : List Entry × Option Fault :=
  match openSource files path with
  | .error fault => ([],some fault)
  | .ok source =>
    match readEntries path source.lines with
    | (entries,none) => (entries,source.fault)
    | stopped => stopped

def readAll (files : Files) (path : Path) : Except Fault (List Entry) :=
  match entries files path with
  | (entries,none) => .ok entries
  | (_,some fault) => .error fault

def lineMessages (path : Path) : List NumberedLine → Except Fault (List Str)
  | [] => .ok []
  | line :: rest =>
    match readEntry path line with
    | .ok _ => lineMessages path rest
    | .error (.line file number fault) =>
      (lineMessages path rest).map ((Fault.line file number fault).message :: ·)
    | .error fault => .error fault

def validate (files : Files) (path : Path) : Except Fault (List Str) :=
  match openSource files path with
  | .error (.missing file) => .ok [↑("File not found: " ++ file)]
  | .error fault => .error fault
  | .ok source =>
    match lineMessages path source.lines, source.fault with
    | .ok _, some fault => .error fault
    | messages, _ => messages

end ProtocolNet.Trace
