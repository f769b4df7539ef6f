import ProtocolNet.Replay

namespace ProtocolNet.Main

def given : CommandLine.Given Path → List Path
  | .value path => [path]
  | .void => []

def mentioned (options : CommandLine.Options) : List Path :=
  let graph :=
    match options.graph with
    | some (.file path) =>
      let beside := if path.suffix ∈ Replay.imageSuffixes then [path.withSuffix ".dot"] else []
      path :: beside
    | _ => []
  let log := options.logPath.toList.flatMap given
  (given options.netPath ++ options.traces ++ log ++ graph).filter fun path => !path.hasNull

def gather (files : Files) (spot : Spot) : IO Files := do
  let path := Path.mk "/" spot
  let onDisk := (← IO.currentDir) / path.text
  if ← onDisk.isDir then return files.makeDirectories spot
  if ← onDisk.pathExists then
    let bytes ← IO.FS.readBinFile onDisk
    return files.place path (.file bytes.data.toList)
  return files

def spotsAlong (files : Files) (path : Path) : List Spot :=
  (Files.steps path.names).map fun names => names.foldl Files.below (files.origin path)

def filesFor (options : CommandLine.Options) : IO Files := do
  let current := (Path.ofText (← IO.currentDir).toString).names
  let files := Files.start current
  (mentioned options).foldlM (fun files path =>
    (spotsAlong files path).foldlM gather files) files

def size (files : Files) : Nat :=
  files.table.entries.foldl (fun total entry =>
    match entry.2 with
    | .file bytes => total + bytes.length
    | .directory => total) 0

def writeBack (before after : Files) : IO Unit := do
  for (spot,bytes) in after.changesSince before do
    IO.FS.writeBinFile ((← IO.currentDir) / ("/" ++ spot)) ⟨bytes.toArray⟩

end ProtocolNet.Main

open ProtocolNet in
-- The disk has room for a record for each byte that is read. Graphs are not rendered here.
def main (arguments : List String) : IO UInt32 := do
  let files ← match CommandLine.read arguments with
    | .ok options => Main.filesFor options
    | .error _ => pure (Files.start [])
  let result := Replay.program none (Main.size files) files arguments
  IO.print result.stdout.withEscapes
  IO.eprint result.stderr
  Main.writeBack files result.files
  return UInt32.ofNat result.exit
