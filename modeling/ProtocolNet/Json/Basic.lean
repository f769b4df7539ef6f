import ProtocolNet.Number.Double
import ProtocolNet.Text.Letter

namespace ProtocolNet

inductive Json where
  | null
  | bool (value : Bool)
  | int (value : Int)
  | float (value : Double)
  | str (value : Str)
  | arr (items : List Json)
  | obj (fields : List (Str × Json))
deriving Repr

namespace Json

def setField (key : Str) (value : Json) : List (Str × Json) → List (Str × Json)
  | [] => [(key,value)]
  | (k,v) :: rest => if k = key then (key,value) :: rest else (k,v) :: setField key value rest

def lastFields (pairs : List (Str × Json)) : List (Str × Json) :=
  pairs.foldl (fun fields (key,value) => setField key value fields) []

def field? (key : Str) : Json → Option Json
  | .obj fields => fields.lookup key
  | _ => none

def orNull (value : Option Json) : Json := value.getD .null

def natural? : Json → Option Nat
  | .int (.ofNat n) => some n
  | _ => none

def text? : Json → Option Str
  | .str s => some s
  | _ => none

def isOne : Json → Bool
  | .bool value => value
  | .int value => value = 1
  | .float value => value.isOne
  | _ => false

end Json

end ProtocolNet
