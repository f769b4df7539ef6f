import ProtocolNet.Monitor
import ProtocolNet.Net.Loader

namespace ProtocolNet

namespace Monitor

structure Started where
  monitor : Monitor
  files : Files
  output : Str

inductive StartFault where
  | net (fault : Net.LoadFault)
  | logPath

def StartFault.message : StartFault → Str
  | .net fault => fault.message
  | .logPath => Files.Fault.nullCharacter.message

-- A log that cannot be opened is told of and left out, unless its path holds a null character.
def launch (net : Net) (config : Option Config) (logger : Logger) (room : Nat) (files : Files) :
    Except StartFault Started :=
  let monitor := start net config logger
  match config.bind (·.logPath) with
  | none => .ok ⟨monitor,files,[]⟩
  | some path =>
    match Journal.create files path room with
    | .ok (journal,files) => .ok ⟨{ monitor with journal := some journal },files,[]⟩
    | .error .nullCharacter => .error .logPath
    | .error fault =>
      .ok ⟨monitor,files,Console.info logger.level ("Execution log disabled: " ++ fault.message) []⟩

def loadedText (level : Level) (path : Path) (net : Net) : Str :=
  Console.info level ("Loaded net " ++ path.text ++ ": " ++
    Nat.repr net.transitions.entries.length ++ " transitions, " ++
    Nat.repr net.allPlaces.length ++ " places") []

def load (config : Config) (logger : Logger) (room : Nat) (files : Files) :
    Except StartFault Started :=
  match Net.ofFile files config.netPath with
  | .error fault => .error (.net fault)
  | .ok net =>
    (launch net (some config) logger room files).map fun started =>
      { started with output := started.output ++ loadedText logger.level config.netPath net }

end Monitor

end ProtocolNet
