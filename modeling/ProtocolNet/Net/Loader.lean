import ProtocolNet.Files
import ProtocolNet.Json.Decode
import ProtocolNet.Net
import ProtocolNet.Transcript.Line

namespace ProtocolNet.Net

inductive LoadFault where
  | noObject
  | places
  | noTransitions
  | transitions
  | transition (id : Str)
  | arcs (id side : Str)
  | arcShape (site : Str) (value : Json)
  | arcPlace (site : Str)
  | arcVariable (site : Str)
  | mapping
  | marking
  | placeTokens (place : Str)
  | tokenPair (site : Str) (value : Json)
  | tokenKind (site : Str) (kind : Json)
  | tokenValue (site : Str) (bad : Token.BadValue)
  | tokenText (site written : Str) (fault : Transcript.Fault)
  | tokenShape (site : Str) (value : Json)
  | seeds
  | seedRules (id : Str)
  | seedRule (id : Str)
  | seedVariable (id identifier : Str)
  | malformed (source : String) (fault : Json.DecodeFault)
  | repeatedKey (key : Str)
  | longNumber (fault : Text.IntegerFault)
  | unreadable (path : String) (fault : Files.ReadFault)
  | nullCharacter

namespace LoadFault

def transitionSite (id : Str) : Str := "transition '" ++ id ++ "'"

def message : LoadFault → Str
  | .noObject => "Net definition must be a JSON object"
  | .places => "'places' must be a list of strings"
  | .noTransitions => "Net definition has no 'transitions'"
  | .transitions => "'transitions' must be an object mapping ids to arcs"
  | .transition id => transitionSite id ++ ": must be an object with 'pre' and 'post'"
  | .arcs id side => transitionSite id ++ ": '" ++ side ++ "' must be a list of arcs"
  | .arcShape site value => value.told (site ++ ": arc must be an object, got ")
  | .arcPlace site => site ++ ": arc needs a non-empty string 'place'"
  | .arcVariable site => site ++ ": 'variable' must be a non-empty string"
  | .mapping => "'event_mapping' must map event type names to transition ids"
  | .marking => "'initial_marking' must map place names to token lists"
  | .placeTokens place => "initial marking of '" ++ place ++ "' must be a list of tokens"
  | .tokenPair site value => value.told (site ++ ": token array must be [kind, value], got ")
  | .tokenKind site kind => kind.told (site ++ ": token kind must be a string, got ")
  | .tokenValue site bad => site ++ ": " ++ bad.message
  | .tokenText site written fault => site ++ ": " ++ fault.messageIn written
  | .tokenShape site value => value.told (site ++ ": unsupported token descriptor ")
  | .seeds => "'lazy_seed' must map transition ids to lists of seeds"
  | .seedRules id => "lazy_seed '" ++ id ++ "': must be a list"
  | .seedRule id => "lazy_seed '" ++ id ++ "': entries need string 'place' and 'variable'"
  | .seedVariable id identifier =>
    "lazy_seed '" ++ id ++ "': variable '" ++ identifier ++
      "' is not used by any arc of the transition"
  | .malformed source fault =>
    "Failed to parse net definition " ++ source ++ ": " ++ fault.message
  | .repeatedKey key => (Json.DecodeFault.repeatedKey key).message
  | .longNumber fault => Transcript.numberMessage fault
  | .unreadable path fault =>
    "Failed to read net definition " ++ path ++ ": " ++ fault.message
  | .nullCharacter => Files.Fault.nullCharacter.message

def isTold : LoadFault → Bool
  | .arcShape _ value | .tokenPair _ value | .tokenKind _ value | .tokenShape _ value =>
    value.isWritable
  | .longNumber _ | .nullCharacter => false
  | _ => true

end LoadFault

abbrev Load := Except LoadFault

def filledText? (value : Json) : Option Str :=
  match value with
  | .str s => if s = [] then none else some s
  | _ => none

def readPattern (site : Str) (fields : List (Str × Json)) : Load Pattern :=
  match fields.lookup ↑"variable" with
  | some value =>
    match filledText? value with
    | some identifier => .ok (.named identifier)
    | none => .error (.arcVariable site)
  | none =>
    match fields.lookup ↑"kind", fields.lookup ↑"value" with
    | some (.str kind), some value =>
      match Token.make kind value with
      | .ok token => .ok (.constant token)
      | .error _ => .ok (.constant .unit)
    | _, _ => .ok (.constant .unit)

def readArc (site : Str) (value : Json) : Load Arc :=
  match value with
  | .obj fields =>
    match filledText? (Json.orNull (fields.lookup ↑"place")) with
    | some place => (readPattern site fields).map (Arc.mk place)
    | none => .error (.arcPlace site)
  | _ => .error (.arcShape site value)

def itemSite (site : Str) (index : Nat) : Str := site ++ "[" ++ Nat.repr index ++ "]"

def readItems {α : Type} (read : Str → Json → Load α) (site : Str) (index : Nat) :
    List Json → Load (List α)
  | [] => .ok []
  | item :: rest => do
    let first ← read (itemSite site index) item
    return first :: (← readItems read site (index + 1) rest)

def readArcs (id side : Str) (fields : List (Str × Json)) : Load (List Arc) :=
  match fields.lookup side with
  | some (.arr items) => readItems readArc (LoadFault.transitionSite id ++ " " ++ side) 0 items
  | _ => .error (.arcs id side)

def readTransition (id : Str) (value : Json) : Load Transition :=
  match value with
  | .obj fields => return ⟨id,← readArcs id "pre" fields,← readArcs id "post" fields⟩
  | _ => .error (.transition id)

def readPlaces (value : Json) : Load (List Str) :=
  match value with
  | .arr items =>
    match items.mapM (·.text?) with
    | some places => .ok places
    | none => .error .places
  | _ => .error .places

def readTransitions (value : Json) : Load TransitionTable :=
  match value with
  | .obj fields => do
    return .ofList (← fields.mapM fun (id,definition) => readTransition id definition)
  | _ => .error .transitions

def readMapping (value : Json) : Load (Table Str Str) :=
  match value with
  | .obj fields =>
    match fields.mapM fun (key,value) => (value.text?).map (key,·) with
    | some entries => .ok (.ofList entries)
    | none => .error .mapping
  | _ => .error .mapping

def readKindValue (site : Str) (kind value : Json) : Load Token :=
  match kind with
  | .str kind =>
    match Token.make kind value with
    | .ok token => .ok token
    | .error bad => .error (.tokenValue site bad)
  | _ => .error (.tokenKind site kind)

def readInitialToken (site : Str) (value : Json) : Load Token :=
  match value with
  | .arr [kind,number] => readKindValue site kind number
  | .arr _ => .error (.tokenPair site value)
  | .obj fields =>
    readKindValue site (Json.orNull (fields.lookup ↑"kind")) (Json.orNull (fields.lookup ↑"value"))
  | .str written =>
    match Transcript.readToken (.ofList written.shown) with
    | .ok token => .ok token
    | .error (.longNumber fault) => .error (.longNumber fault)
    | .error fault => .error (.tokenText site written fault)
  | _ => .error (.tokenShape site value)

def readPlace (marking : Marking) (place : Str) (value : Json) : Load Marking :=
  match value with
  | .arr items => do
    let tokens ← readItems readInitialToken ("initial marking '" ++ place ++ "'") 0 items
    return tokens.foldl (fun marking token => marking.add place token 1) (marking.insert place)
  | _ => .error (.placeTokens place)

def readMarking (value : Json) : Load Marking :=
  match value with
  | .obj fields =>
    fields.foldlM (fun marking (place,tokens) => readPlace marking place tokens) .empty
  | _ => .error .marking

def readSeedRule (id : Str) (transition : Option Transition) (value : Json) : Load SeedRule :=
  match (value.field? "place").bind Json.text?, (value.field? "variable").bind Json.text? with
  | some place, some identifier =>
    match transition with
    | some known =>
      if identifier ∈ known.variableNames then .ok ⟨place,identifier⟩
      else .error (.seedVariable id identifier)
    | none => .ok ⟨place,identifier⟩
  | _, _ => .error (.seedRule id)

def readSeedRules (transitions : TransitionTable) (id : Str) (value : Json) :
    Load (List SeedRule) :=
  match value with
  | .arr items => items.mapM (readSeedRule id (transitions.find? id))
  | _ => .error (.seedRules id)

def readSeeds (transitions : TransitionTable) (value : Json) :
    Load (Table Str (List SeedRule)) :=
  match value with
  | .obj fields => do
    return .ofList (← fields.mapM fun (id,rules) =>
      return (id,← readSeedRules transitions id rules))
  | _ => .error .seeds

def ofJson (value : Json) : Load Net :=
  match value with
  | .obj fields => do
    let places ← readPlaces ((fields.lookup ↑"places").getD (.arr []))
    let some written := fields.lookup ↑"transitions" | .error .noTransitions
    let transitions ← readTransitions written
    let mapping ← readMapping ((fields.lookup ↑"event_mapping").getD (.obj []))
    let initial ← readMarking ((fields.lookup ↑"initial_marking").getD (.obj []))
    let seeds ← match fields.lookup ↑"lazy_seed" with
      | some rules => (readSeeds transitions rules).map some
      | none => .ok none
    return { places, transitions, mapping, initial, seeds }
  | _ => .error .noObject

def ofText (source : String) (text : List Char) : Load Net :=
  match Json.decodeWith Json.refuseRepeated text with
  | .ok value => ofJson value
  | .error (.repeatedKey key) => .error (.repeatedKey key)
  | .error fault => .error (.malformed source fault)

def ofFile (files : Files) (path : Path) : Load Net :=
  match files.readText path with
  | .ok text => ofText path.text text
  | .error (.file .nullCharacter) => .error .nullCharacter
  | .error fault => .error (.unreadable path.text fault)

def validate (files : Files) (path : Path) : Load (List Str) :=
  match ofFile files path with
  | .ok _ => .ok []
  | .error fault => if fault.isTold then .ok [fault.message] else .error fault

end ProtocolNet.Net
