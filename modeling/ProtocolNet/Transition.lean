import ProtocolNet.Token

namespace ProtocolNet

abbrev Binding := List (Str × Token)

inductive Pattern where
  | constant (token : Token)
  | named (identifier : Str)
deriving DecidableEq, Repr

namespace Pattern

def resolve (pattern : Pattern) (binding : Binding) : Option Token :=
  match pattern with
  | .constant token => some token
  | .named identifier => binding.lookup identifier

def text : Pattern → Str
  | .constant token => token.text
  | .named identifier => identifier

def isWritable : Pattern → Bool
  | .constant token => token.isWritable
  | .named _ => true

def identifier? : Pattern → Option Str
  | .constant _ => none
  | .named identifier => some identifier

end Pattern

structure Arc where
  place : Str
  pattern : Pattern
deriving DecidableEq, Repr

namespace Arc

def resolve (arc : Arc) (binding : Binding) : Option Token := arc.pattern.resolve binding

def produced (arc : Arc) (binding : Binding) : Token := (arc.resolve binding).getD .unit

def text (arc : Arc) : Str := arc.place ++ ":" ++ arc.pattern.text

end Arc

structure Transition where
  id : Str
  pre : List Arc
  post : List Arc
deriving DecidableEq, Repr

namespace Transition

def variableNames (transition : Transition) : List Str :=
  sortedNames ((transition.pre ++ transition.post).filterMap (·.pattern.identifier?))

def arcsText (arcs : List Arc) : Str :=
  if arcs.isEmpty then "-" else Str.joined ", " (arcs.map (·.text))

def isWritable (transition : Transition) : Bool :=
  (transition.pre ++ transition.post).all fun arc => arc.pattern.isWritable

def text (transition : Transition) : Except TextFault Str :=
  TextFault.gated transition.isWritable
    (transition.id ++ ": " ++ arcsText transition.pre ++ " -> " ++ arcsText transition.post)

end Transition

structure TransitionTable where
  entries : List Transition
  distinct : (entries.map (·.id)).Nodup

namespace TransitionTable

def empty : TransitionTable := ⟨[],.nil⟩

def find? (table : TransitionTable) (id : Str) : Option Transition :=
  table.entries.find? fun transition => transition.id = id

def ids (table : TransitionTable) : List Str := table.entries.map (·.id)

def putLast (transition : Transition) : List Transition → List Transition
  | [] => [transition]
  | head :: rest =>
    if head.id = transition.id then transition :: rest else head :: putLast transition rest

theorem id_of_mem_putLast {transition : Transition} {entries : List Transition} {id : Str}
    (member : id ∈ (putLast transition entries).map (·.id)) :
    id = transition.id ∨ id ∈ entries.map (·.id) := by
  induction entries with
  | nil => simpa [putLast] using member
  | cons head rest ih =>
    rw [putLast] at member
    split at member
    · rcases List.mem_cons.1 member with rfl | tail
      · exact .inl rfl
      · exact .inr (List.mem_cons_of_mem _ tail)
    · rcases List.mem_cons.1 member with rfl | tail
      · exact .inr List.mem_cons_self
      · exact (ih tail).imp_right (List.mem_cons_of_mem _)

theorem distinct_putLast {transition : Transition} {entries : List Transition}
    (distinct : (entries.map (·.id)).Nodup) :
    ((putLast transition entries).map (·.id)).Nodup := by
  induction entries with
  | nil => simp [putLast]
  | cons head rest ih =>
    rw [List.map_cons,List.nodup_cons] at distinct
    rw [putLast]
    split
    · rename_i same
      rw [List.map_cons,List.nodup_cons,← same]
      exact distinct
    · rename_i apart
      rw [List.map_cons,List.nodup_cons]
      exact ⟨fun member => (id_of_mem_putLast member).elim apart distinct.1,ih distinct.2⟩

def register (table : TransitionTable) (transition : Transition) : TransitionTable :=
  ⟨putLast transition table.entries,distinct_putLast table.distinct⟩

def ofList (transitions : List Transition) : TransitionTable := transitions.foldl register empty

end TransitionTable

structure SeedRule where
  place : Str
  identifier : Str
deriving DecidableEq, Repr

end ProtocolNet
