import ProtocolNet.Json.Basic
import ProtocolNet.Number.Shortest
import ProtocolNet.Text.Integer
import ProtocolNet.Text.Quoted

namespace ProtocolNet.Json

mutual

def shown : Json → String
  | .null => "None"
  | .bool value => if value then "True" else "False"
  | .int value => Text.integerText value
  | .float value => value.text
  | .str value => Text.quoted value
  | .arr items => "[" ++ ", ".intercalate (shownItems items) ++ "]"
  | .obj fields => "\x7b" ++ ", ".intercalate (shownFields fields) ++ "\x7d"

def shownItems : List Json → List String
  | [] => []
  | item :: rest => shown item :: shownItems rest

def shownFields : List (Str × Json) → List String
  | [] => []
  | (key,value) :: rest => (Text.quoted key ++ ": " ++ shown value) :: shownFields rest

end

mutual

def isWritable : Json → Bool
  | .int value => Text.isWritable value.natAbs
  | .arr items => areWritable items
  | .obj fields => haveWritable fields
  | _ => true

def areWritable : List Json → Bool
  | [] => true
  | item :: rest => isWritable item && areWritable rest

def haveWritable : List (Str × Json) → Bool
  | [] => true
  | (_,value) :: rest => isWritable value && haveWritable rest

end

def told (lead : Str) (value : Json) : Str :=
  if value.isWritable then lead ++ value.shown else ↑Text.unwritableMessage

def plain : Json → Str
  | .str value => value
  | value => value.shown

end ProtocolNet.Json
