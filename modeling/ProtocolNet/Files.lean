import ProtocolNet.Path
import ProtocolNet.Table
import ProtocolNet.Text.Quoted
import ProtocolNet.Text.Stream

namespace ProtocolNet

inductive Node where
  | file (bytes : Text.Utf8.Bytes)
  | directory
deriving DecidableEq, Repr

abbrev Spot := List String

structure Files where
  table : Table String Node
  current : Spot

namespace Files

inductive Problem where
  | missing | noDirectory | isDirectory | nameTooLong
deriving DecidableEq, Repr

inductive Fault where
  | nullCharacter
  | refused (problem : Problem) (path : String)
deriving DecidableEq, Repr

def Problem.text : Problem → String
  | .missing => "[Errno 2] No such file or directory"
  | .noDirectory => "[Errno 20] Not a directory"
  | .isDirectory => "[Errno 21] Is a directory"
  | .nameTooLong => "[Errno 36] File name too long"

def Fault.message : Fault → String
  | .nullCharacter => "embedded null byte"
  | .refused problem path => problem.text ++ ": " ++ Text.quoted path

def nameLimit : Nat := 255

def pathLimit : Nat := 4095

def key (spot : Spot) : String := "/".intercalate spot

def node? (files : Files) (spot : Spot) : Option Node :=
  if spot.isEmpty then some .directory else files.table.get? (key spot)

def below (spot : Spot) (name : String) : Spot :=
  if name = ".." then spot.dropLast else spot ++ [name]

def origin (files : Files) (path : Path) : Spot := if path.root = "" then files.current else []

def walk (files : Files) (spot : Spot) : List String → Except Problem Spot
  | [] => .ok spot
  | name :: rest =>
    match files.node? spot with
    | some .directory =>
      if nameLimit < name.utf8ByteSize then .error .nameTooLong
      else walk files (below spot name) rest
    | some (.file _) => .error .noDirectory
    | none => .error .missing

def spot (files : Files) (path : Path) : Except Fault Spot :=
  if path.hasNull then .error .nullCharacter
  else if pathLimit < path.text.utf8ByteSize then .error (.refused .nameTooLong path.text)
  else
    match walk files (files.origin path) path.names with
    | .ok spot => .ok spot
    | .error problem => .error (.refused problem path.text)

def pathExists (files : Files) (path : Path) : Except Fault Bool :=
  match files.spot path with
  | .ok spot => .ok (files.node? spot).isSome
  | .error (.refused .nameTooLong written) => .error (.refused .nameTooLong written)
  | .error _ => .ok false

def read (files : Files) (path : Path) : Except Fault Text.Utf8.Bytes :=
  match files.spot path with
  | .error fault => .error fault
  | .ok spot =>
    match files.node? spot with
    | some (.file bytes) => .ok bytes
    | some .directory => .error (.refused .isDirectory path.text)
    | none => .error (.refused .missing path.text)

def write (files : Files) (path : Path) (bytes : Text.Utf8.Bytes) : Except Fault Files :=
  match files.spot path with
  | .error fault => .error fault
  | .ok spot =>
    match files.node? spot with
    | some .directory => .error (.refused .isDirectory path.text)
    | _ => .ok { files with table := files.table.put (key spot) (.file bytes) }

def steps (spot : Spot) : List Spot :=
  (List.range spot.length).map fun length => spot.take (length + 1)

def makeDirectories (files : Files) (spot : Spot) : Files :=
  { files with table := (steps spot).foldl (fun table s => table.put (key s) .directory) files.table }

def start (current : Spot) : Files := makeDirectories ⟨.empty,current⟩ current

def place (files : Files) (path : Path) (node : Node) : Files :=
  let spot := path.names.foldl below (files.origin path)
  let files := files.makeDirectories spot.dropLast
  if spot.isEmpty then files else { files with table := files.table.put (key spot) node }

def changesSince (files earlier : Files) : List (String × Text.Utf8.Bytes) :=
  files.table.entries.filterMap fun (spot,node) =>
    match node with
    | .file bytes => if earlier.table.get? spot = some node then none else some (spot,bytes)
    | .directory => none

inductive ReadFault where
  | file (fault : Fault)
  | encoding (fault : Text.Utf8.Fault)
deriving DecidableEq, Repr

def ReadFault.message : ReadFault → String
  | .file fault => fault.message
  | .encoding fault => fault.message

def readText (files : Files) (path : Path) : Except ReadFault (List Char) :=
  match files.read path with
  | .error fault => .error (.file fault)
  | .ok bytes =>
    match Text.Utf8.decode bytes with
    | .error fault => .error (.encoding fault)
    | .ok s => .ok (Text.unifyLineEnds s)

def openStream (files : Files) (path : Path) : Except Fault Text.Stream :=
  (files.read path).map Text.Stream.ofBytes

def writeText (files : Files) (path : Path) (s : String) : Except Fault Files :=
  files.write path (Text.Utf8.encode s)

end Files

end ProtocolNet
