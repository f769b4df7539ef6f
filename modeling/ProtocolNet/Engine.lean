import ProtocolNet.Marking.Digest
import ProtocolNet.Transition

namespace ProtocolNet

abbrev MissingToken := Str × Token

structure NotEnabled where
  transition : Str
  missing : List MissingToken
deriving DecidableEq, Repr

def missingText (missing : MissingToken) : Str :=
  missing.2.text ++ " in place '" ++ missing.1 ++ "'"

namespace NotEnabled

def isWritable (fault : NotEnabled) : Bool := fault.missing.all fun missing => missing.2.isWritable

def message (fault : NotEnabled) : Except TextFault Str :=
  let listed : Str :=
    if fault.missing.isEmpty then "(none)" else Str.joined " " (fault.missing.map missingText)
  TextFault.gated fault.isWritable
    ("Transition " ++ fault.transition ++ " not enabled. Missing tokens: " ++ listed)

end NotEnabled

-- The message of a refusal is made together with it, so a refusal without one is a fault of text.
inductive FireFault where
  | notEnabled (refusal : NotEnabled)
  | text (fault : TextFault)
deriving DecidableEq, Repr

def NotEnabled.raised (refusal : NotEnabled) : FireFault :=
  match refusal.message with
  | .ok _ => .notEnabled refusal
  | .error fault => .text fault

namespace Marking

-- What arcs draw in vain, after the tokens in `drawn`. Arcs that draw the same token from
-- the same place need as many copies of it; an arc whose variable stands for no token lacks
-- the unit token.
def shortfallAfter (marking : Marking) (binding : Binding) (drawn : List MissingToken) :
    List Arc → List MissingToken
  | [] => []
  | arc :: rest =>
    match arc.resolve binding with
    | none => (arc.place,.unit) :: shortfallAfter marking binding drawn rest
    | some token =>
      let drawn := (arc.place,token) :: drawn
      if marking.holds arc.place token (drawn.count (arc.place,token)) then
        shortfallAfter marking binding drawn rest
      else (arc.place,token) :: shortfallAfter marking binding drawn rest

def shortfall (marking : Marking) (binding : Binding) (arcs : List Arc) : List MissingToken :=
  shortfallAfter marking binding [] arcs

def consume (marking : Marking) (binding : Binding) (arcs : List Arc) : Marking :=
  arcs.foldl (fun marking arc => marking.draw arc.place (arc.produced binding) 1) marking

def produce (marking : Marking) (binding : Binding) (arcs : List Arc) : Marking :=
  arcs.foldl (fun marking arc => marking.add arc.place (arc.produced binding) 1) marking

def after (marking : Marking) (binding : Binding) (transition : Transition) : Marking :=
  (marking.consume binding transition.pre).produce binding transition.post

end Marking

structure Engine where
  transitions : TransitionTable
  marking : Marking

namespace Engine

def register (engine : Engine) (transition : Transition) : Engine :=
  { engine with transitions := engine.transitions.register transition }

def missing (engine : Engine) (id : Str) (binding : Binding) :
    Except NotEnabled (List MissingToken) :=
  match engine.transitions.find? id with
  | none => .error ⟨id,[]⟩
  | some transition => .ok (engine.marking.shortfall binding transition.pre)

def isEnabled (engine : Engine) (id : Str) (binding : Binding) : Bool :=
  match engine.missing id binding with
  | .ok [] => true
  | _ => false

def fire (engine : Engine) (id : Str) (binding : Binding) : Except FireFault Engine :=
  match engine.transitions.find? id with
  | none => .error (NotEnabled.raised ⟨id,[]⟩)
  | some transition =>
    match engine.marking.shortfall binding transition.pre with
    | [] => .ok { engine with marking := engine.marking.after binding transition }
    | missing => .error (NotEnabled.raised ⟨id,missing⟩)

def seed (engine : Engine) (place : Str) (token : Token) : Engine × Bool :=
  if engine.marking.holds place token 1 then (engine,false)
  else ({ engine with marking := engine.marking.add place token 1 },true)

def withdraw (engine : Engine) (place : Str) (token : Token) : Engine × Bool :=
  let (marking,taken) := engine.marking.withdraw place token 1
  ({ engine with marking },taken)

end Engine

end ProtocolNet
