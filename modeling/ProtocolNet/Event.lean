import ProtocolNet.Json.Display
import ProtocolNet.Table
import ProtocolNet.Text.Fault

namespace ProtocolNet

inductive Event where
  | threadSpawn (parent child : Nat)
  | threadJoin (joiner joinee : Nat)
  | yield (tid : Nat)
  | block (tid : Nat) (reason : Str)
  | wake (tid : Nat)
  | lockAcquire (tid lock : Nat)
  | lockRelease (tid lock : Nat)
  | atomicLoad (tid loc : Nat) (ordering : Str)
  | atomicStore (tid loc : Nat) (ordering : Str)
  | unsafeRead (tid region size : Nat)
  | unsafeWrite (tid region size : Nat)
deriving DecidableEq, Repr

inductive Event.Kind where
  | threadSpawn | threadJoin | yield | block | wake | lockAcquire | lockRelease
  | atomicLoad | atomicStore | unsafeRead | unsafeWrite
deriving DecidableEq, Repr

inductive FieldValue where
  | number (n : Nat)
  | text (s : Str)
deriving DecidableEq, Repr

namespace FieldValue

def toJson : FieldValue → Json
  | .number n => .int n
  | .text s => .str s

def shown : FieldValue → String
  | .number n => Nat.repr n
  | .text s => Text.quoted s

def isWritable : FieldValue → Bool
  | .number n => Text.isWritable n
  | .text _ => true

end FieldValue

namespace Event

namespace Kind

def all : List Kind := [.threadSpawn,.threadJoin,.yield,.block,.wake,.lockAcquire,
  .lockRelease,.atomicLoad,.atomicStore,.unsafeRead,.unsafeWrite]

def text : Kind → String
  | .threadSpawn => "ThreadSpawn"
  | .threadJoin => "ThreadJoin"
  | .yield => "Yield"
  | .block => "Block"
  | .wake => "Wake"
  | .lockAcquire => "LockAcquire"
  | .lockRelease => "LockRelease"
  | .atomicLoad => "AtomicLoad"
  | .atomicStore => "AtomicStore"
  | .unsafeRead => "UnsafeRead"
  | .unsafeWrite => "UnsafeWrite"

def ofText? (s : Str) : Option Kind := all.find? fun kind => ↑kind.text = s

def fieldNames : Kind → List String
  | .threadSpawn => ["parent","child"]
  | .threadJoin => ["joiner","joinee"]
  | .yield | .wake => ["tid"]
  | .block => ["tid","reason"]
  | .lockAcquire | .lockRelease => ["tid","lock_id"]
  | .atomicLoad | .atomicStore => ["tid","loc_id","ordering"]
  | .unsafeRead | .unsafeWrite => ["tid","region_id","size"]

theorem text_inj {a b : Kind} (same : a.text = b.text) : a = b := by
  cases a <;> cases b <;> first | rfl | simp [text] at same

theorem ofText?_text (kind : Kind) : ofText? kind.text = some kind := by cases kind <;> decide

end Kind

def kind : Event → Kind
  | .threadSpawn .. => .threadSpawn
  | .threadJoin .. => .threadJoin
  | .yield .. => .yield
  | .block .. => .block
  | .wake .. => .wake
  | .lockAcquire .. => .lockAcquire
  | .lockRelease .. => .lockRelease
  | .atomicLoad .. => .atomicLoad
  | .atomicStore .. => .atomicStore
  | .unsafeRead .. => .unsafeRead
  | .unsafeWrite .. => .unsafeWrite

def typeName (event : Event) : String := event.kind.text

def fields : Event → List (String × FieldValue)
  | .threadSpawn parent child => [("parent",.number parent),("child",.number child)]
  | .threadJoin joiner joinee => [("joiner",.number joiner),("joinee",.number joinee)]
  | .yield tid | .wake tid => [("tid",.number tid)]
  | .block tid reason => [("tid",.number tid),("reason",.text reason)]
  | .lockAcquire tid lock | .lockRelease tid lock =>
    [("tid",.number tid),("lock_id",.number lock)]
  | .atomicLoad tid loc ordering | .atomicStore tid loc ordering =>
    [("tid",.number tid),("loc_id",.number loc),("ordering",.text ordering)]
  | .unsafeRead tid region size | .unsafeWrite tid region size =>
    [("tid",.number tid),("region_id",.number region),("size",.number size)]

theorem fieldNames_kind (event : Event) : event.kind.fieldNames = event.fields.map (·.1) := by
  cases event <;> rfl

def threadId : Event → Nat
  | .threadSpawn parent _ => parent
  | .threadJoin joiner _ => joiner
  | .yield tid | .block tid _ | .wake tid | .lockAcquire tid _ | .lockRelease tid _
  | .atomicLoad tid _ _ | .atomicStore tid _ _ | .unsafeRead tid _ _ | .unsafeWrite tid _ _ => tid

def objectId : Event → Option Nat
  | .lockAcquire _ lock | .lockRelease _ lock => some lock
  | .atomicLoad _ loc _ | .atomicStore _ loc _ => some loc
  | .unsafeRead _ region _ | .unsafeWrite _ region _ => some region
  | _ => none

def toJson (event : Event) : Json :=
  .obj (("type",.str event.typeName) :: event.fields.map fun (name,value) => (↑name,value.toJson))

def isWritable (event : Event) : Bool := event.fields.all fun (_,value) => value.isWritable

def shownText (event : Event) : String :=
  let field (item : String × FieldValue) : String := item.1 ++ "=" ++ item.2.shown
  event.typeName ++ "(" ++ ", ".intercalate (event.fields.map field) ++ ")"

def shown (event : Event) : Except TextFault String :=
  TextFault.gated event.isWritable event.shownText

inductive Fault where
  | unknownType (typeName : Str)
  | unexpectedFields (kind : Kind) (names : List Str)
  | missingFields (kind : Kind) (names : List Str)
  | notNatural (kind : Kind) (name : String) (value : Json)
  | notText (kind : Kind) (name : String) (value : Json)
  | untyped (value : Json)

def Fault.message : Fault → Str
  | .unknownType typeName =>
    "Unknown event type '" ++ typeName ++ "' (known: " ++
      Text.quotedList ((sortedNames (Kind.all.map (·.text))).map Str.ofString) ++ ")"
  | .unexpectedFields kind names => ↑(kind.text ++ ": unexpected fields " ++ Text.quotedList names)
  | .missingFields kind names => ↑(kind.text ++ ": missing fields " ++ Text.quotedList names)
  | .notNatural kind name value =>
    value.told ↑(kind.text ++ "." ++ name ++ " must be a non-negative integer, got ")
  | .notText kind name value => value.told ↑(kind.text ++ "." ++ name ++ " must be a string, got ")
  | .untyped value => value.told "Event object must carry a 'type' field: "

def readNumber (kind : Kind) (values : List (Str × Json)) (name : String) : Except Fault Nat :=
  let value := Json.orNull (values.lookup ↑name)
  match value.natural? with
  | some n => .ok n
  | none => .error (.notNatural kind name value)

def readText (kind : Kind) (values : List (Str × Json)) (name : String) : Except Fault Str :=
  let value := Json.orNull (values.lookup ↑name)
  match value.text? with
  | some s => .ok s
  | none => .error (.notText kind name value)

def readFields (kind : Kind) (values : List (Str × Json)) : Except Fault Event :=
  let number := readNumber kind values
  let text := readText kind values
  match kind with
  | .threadSpawn => return .threadSpawn (← number "parent") (← number "child")
  | .threadJoin => return .threadJoin (← number "joiner") (← number "joinee")
  | .yield => return .yield (← number "tid")
  | .block => return .block (← number "tid") (← text "reason")
  | .wake => return .wake (← number "tid")
  | .lockAcquire => return .lockAcquire (← number "tid") (← number "lock_id")
  | .lockRelease => return .lockRelease (← number "tid") (← number "lock_id")
  | .atomicLoad => return .atomicLoad (← number "tid") (← number "loc_id") (← text "ordering")
  | .atomicStore => return .atomicStore (← number "tid") (← number "loc_id") (← text "ordering")
  | .unsafeRead => return .unsafeRead (← number "tid") (← number "region_id") (← number "size")
  | .unsafeWrite => return .unsafeWrite (← number "tid") (← number "region_id") (← number "size")

def make (typeName : Str) (values : List (Str × Json)) : Except Fault Event :=
  match Kind.ofText? typeName with
  | none => .error (.unknownType typeName)
  | some kind =>
    let given := values.map (·.1)
    let names := kind.fieldNames.map Str.ofString
    let unexpected := given.filter (· ∉ names)
    let missing := names.filter (· ∉ given)
    if !unexpected.isEmpty then .error (.unexpectedFields kind (sortedNames unexpected))
    else if !missing.isEmpty then .error (.missingFields kind (sortedNames missing))
    else readFields kind values

def ofJson (value : Json) : Except Fault Event :=
  match value with
  | .obj fields =>
    match fields.lookup ↑"type" with
    | some typeName =>
      if typeName.isWritable then make typeName.plain (fields.filter (·.1 ≠ "type"))
      else .error (.untyped value)
    | none => .error (.untyped value)
  | _ => .error (.untyped value)

end Event

end ProtocolNet
