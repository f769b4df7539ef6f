import Mathlib.Algebra.BigOperators.Group.List.Basic
import Mathlib.Algebra.Ring.Int.Defs
import ProtocolNet.Proofs.Firing

namespace ProtocolNet

-- A transition that is to fire, and what its variables stand for.
structure Attempt where
  transition : Str
  binding : Binding
deriving DecidableEq, Repr

-- What one firing adds to a count; negative if it takes more than it gives.
def TransitionTable.gain (table : TransitionTable) (call : Attempt) (place : Str)
    (token : Token) : Int :=
  match table.find? call.transition with
  | none => 0
  | some transition =>
    (givenCount call.binding transition.post place token : Int) -
      drawnCount call.binding transition.pre place token

namespace Engine

-- A refused attempt leaves the engine that it was made on.
def attempt (engine : Engine) (call : Attempt) : Engine :=
  match engine.fire call.transition call.binding with
  | .ok next => next
  | .error _ => engine

def fires (engine : Engine) (call : Attempt) : Bool :=
  match engine.fire call.transition call.binding with
  | .ok _ => true
  | .error _ => false

def attemptAll (engine : Engine) (calls : List Attempt) : Engine := calls.foldl attempt engine

-- The attempts of a sequence that fire, each judged by the engine it is made on.
def firing (engine : Engine) : List Attempt → List Attempt
  | [] => []
  | call :: rest =>
    if engine.fires call then call :: firing (engine.attempt call) rest
    else firing (engine.attempt call) rest

variable {engine next : Engine} {call : Attempt} {calls : List Attempt} {fault : FireFault}

theorem attempt_ok (fired : engine.fire call.transition call.binding = .ok next) :
    engine.attempt call = next := by
  rw [attempt,fired]

theorem attempt_error (refused : engine.fire call.transition call.binding = .error fault) :
    engine.attempt call = engine := by
  rw [attempt,refused]

theorem attempt_transitions : (engine.attempt call).transitions = engine.transitions := by
  cases outcome : engine.fire call.transition call.binding with
  | error fault => rw [attempt_error outcome]
  | ok next => rw [attempt_ok outcome,fire_transitions outcome]

theorem attemptAll_cons (rest : List Attempt) :
    engine.attemptAll (call :: rest) = (engine.attempt call).attemptAll rest := rfl

theorem attemptAll_append (before after : List Attempt) :
    engine.attemptAll (before ++ after) = (engine.attemptAll before).attemptAll after :=
  List.foldl_append

theorem attemptAll_snoc (before : List Attempt) :
    engine.attemptAll (before ++ [call]) = (engine.attemptAll before).attempt call :=
  attemptAll_append before [call]

theorem attemptAll_transitions : (engine.attemptAll calls).transitions = engine.transitions := by
  induction calls generalizing engine with
  | nil => rfl
  | cons call rest ih => rw [attemptAll_cons,ih,attempt_transitions]

-- The step of the state equation.
theorem count_attempt (place : Str) (token : Token) :
    ((engine.attempt call).marking.count place token : Int) = engine.marking.count place token +
      if engine.fires call then engine.transitions.gain call place token else 0 := by
  cases outcome : engine.fire call.transition call.binding with
  | error fault => simp [attempt_error outcome,fires,outcome]
  | ok next =>
    obtain ⟨transition,known,drawable,rfl⟩ := fire_ok_iff.mp outcome
    have balance := Marking.count_after drawable place token
    rw [attempt_ok outcome]
    simp only [fires,outcome,if_true,TransitionTable.gain,known]
    omega

theorem count_attemptAll (engine : Engine) (calls : List Attempt) (place : Str) (token : Token) :
    ((engine.attemptAll calls).marking.count place token : Int) =
      engine.marking.count place token +
        ((engine.firing calls).map (engine.transitions.gain · place token)).sum := by
  induction calls generalizing engine with
  | nil => simp [attemptAll,firing]
  | cons call rest ih =>
    have later := ih (engine.attempt call)
    rw [count_attempt,attempt_transitions] at later
    rw [attemptAll_cons,later,firing]
    split
    · rw [List.map_cons,List.sum_cons]; omega
    · omega

-- Arcs that were checked together can be drawn one after another: each removal
-- finds a copy that those before it have left.
theorem removal_succeeds {marking : Marking} {binding : Binding} {front back : List Arc} {arc : Arc}
    (drawable : Drawable marking.count binding (front ++ arc :: back)) :
    ∃ bag, ((marking.consume binding front).bag arc.place).remove? (arc.produced binding) 1 =
        some bag ∧
      (marking.consume binding (front ++ [arc])).bag arc.place = bag := by
  have asked := drawable.enough arc.place (arc.produced binding)
  rw [drawnCount_eq_givenCount drawable.bound,givenCount_append,givenCount_cons] at asked
  have left : 1 ≤ ((marking.consume binding front).bag arc.place).count (arc.produced binding) := by
    change 1 ≤ (marking.consume binding front).count arc.place (arc.produced binding)
    rw [Marking.count_consume]
    simp only [and_self,if_true] at asked
    omega
  refine ⟨_,Bag.remove?_eq_some left,?_⟩
  rw [Marking.consume_append]
  change ((marking.consume binding front).draw arc.place (arc.produced binding) 1).bag arc.place = _
  rw [Marking.draw,Marking.bag_change,if_pos rfl,Bag.remove,Bag.remove?_eq_some left]
  rfl

theorem sameContents_of_perm {other : List Attempt} (permuted : calls.Perm other)
    (all : engine.firing calls = calls) (allOther : engine.firing other = other) :
    (engine.attemptAll calls).marking.sameContents (engine.attemptAll other).marking = true := by
  refine Marking.sameContents_iff.mpr fun place token => ?_
  have one := count_attemptAll engine calls place token
  have two := count_attemptAll engine other place token
  rw [all] at one
  rw [allOther,← (permuted.map _).sum_eq,← one] at two
  exact_mod_cast two.symm

theorem state_equation (engine : Engine) (calls : List Attempt) :
    (∀ before call after, calls = before ++ call :: after →
      (∀ fault, (engine.attemptAll before).fire call.transition call.binding = .error fault →
        engine.attemptAll (before ++ [call]) = engine.attemptAll before) ∧
      ∀ next, (engine.attemptAll before).fire call.transition call.binding = .ok next →
        engine.attemptAll (before ++ [call]) = next ∧
        ∃ transition, engine.transitions.find? call.transition = some transition ∧
          let drawn := (engine.attemptAll before).marking.consume call.binding
          (∀ front arc back, transition.pre = front ++ arc :: back →
            ∃ bag, ((drawn front).bag arc.place).remove? (arc.produced call.binding) 1 = some bag ∧
              (drawn (front ++ [arc])).bag arc.place = bag) ∧
          next.marking = (drawn transition.pre).produce call.binding transition.post) ∧
    (∀ place token, ((engine.attemptAll calls).marking.count place token : Int) =
      engine.marking.count place token +
        ((engine.firing calls).map (engine.transitions.gain · place token)).sum) ∧
    ∀ other, calls.Perm other → engine.firing calls = calls → engine.firing other = other →
      (engine.attemptAll calls).marking.sameContents (engine.attemptAll other).marking = true ∧
      (engine.attemptAll calls).marking.digest = (engine.attemptAll other).marking.digest := by
  refine ⟨?_,count_attemptAll engine calls,?_⟩
  · intro before call after _
    refine ⟨fun fault refused => ?_,fun next fired => ?_⟩
    · rw [attemptAll_snoc,attempt_error refused]
    · obtain ⟨transition,known,drawable,rfl⟩ := fire_ok_iff.mp fired
      rw [attemptAll_transitions] at known
      refine ⟨by rw [attemptAll_snoc,attempt_ok fired],transition,known,?_,rfl⟩
      intro front arc back divided
      rw [divided] at drawable
      exact removal_succeeds drawable
  · intro other permuted all allOther
    have same := sameContents_of_perm permuted all allOther
    exact ⟨same,Marking.digest_congr same⟩

end Engine

end ProtocolNet
