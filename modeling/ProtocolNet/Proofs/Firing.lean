import ProtocolNet.Proofs.Counting

namespace ProtocolNet

-- When arcs can be drawn from contents, said without going through the arcs in
-- order: arcs that ask a place for the same token need as many copies of it.
structure Drawable (counts : Counts) (binding : Binding) (arcs : List Arc) : Prop where
  bound : ∀ arc ∈ arcs, ∃ token, arc.resolve binding = some token
  enough : ∀ place token, drawnCount binding arcs place token ≤ counts place token

variable {binding : Binding} {arcs : List Arc} {marking : Marking} {engine next : Engine}
  {id : Str} {fault : FireFault} {refusal refusal' : NotEnabled}

theorem Drawable.congr {left right : Counts} (same : ∀ place token, left place token = right place token) :
    Drawable left binding arcs ↔ Drawable right binding arcs := by
  have equal : left = right := funext fun place => funext fun token => same place token
  rw [equal]

namespace Marking

-- The check carries what earlier arcs have drawn, and lists an arc for each copy
-- beyond those that are there. Copies in excess that were drawn before the arcs at
-- hand are not listed again, which is why they stand on the left.
theorem count_shortfallAfter (drawn : List MissingToken) (place : Str) (token : Token) :
    (marking.shortfallAfter binding drawn arcs).count (place,token) +
        (drawn.count (place,token) - marking.count place token) =
      (drawn.count (place,token) + drawnCount binding arcs place token -
        marking.count place token) +
      if token = .unit then unboundCount binding arcs place else 0 := by
  induction arcs generalizing drawn with
  | nil => simp [shortfallAfter,drawnCount_nil,unboundCount_nil]
  | cons arc rest ih =>
    rw [drawnCount_cons,unboundCount_cons]
    cases resolved : arc.resolve binding with
    | none =>
      have later := ih drawn
      simp only [shortfallAfter,resolved,List.count_cons,beq_iff_eq,Prod.mk.injEq,reduceCtorEq,
        and_false,if_false,and_true,Nat.add_zero]
      by_cases plain : token = .unit
      · subst plain
        simp only [and_true,if_true] at later ⊢
        omega
      · simp only [plain,Ne.symm plain,and_false,if_false] at later ⊢
        omega
    | some other =>
      have later := ih ((arc.place,other) :: drawn)
      simp only [shortfallAfter,resolved,Option.some.injEq,reduceCtorEq,and_false,if_false,Nat.add_zero]
      by_cases hit : arc.place = place ∧ other = token
      · obtain ⟨rfl,rfl⟩ := hit
        simp only [List.count_cons_self,and_self,if_true] at later ⊢
        split <;> rename_i checked <;> rw [holds_iff] at checked
        · omega
        · rw [List.count_cons_self]; omega
      · have apart : (arc.place,other) ≠ (place,token) := by simpa using hit
        simp only [List.count_cons_of_ne apart,if_neg hit] at later ⊢
        split
        · exact later
        · rw [List.count_cons_of_ne apart]; exact later

-- What is missing of a pair: the copies that bound arcs ask for beyond those that
-- are there, and a unit token for each arc that is not bound.
theorem count_shortfall (place : Str) (token : Token) :
    (marking.shortfall binding arcs).count (place,token) =
      (drawnCount binding arcs place token - marking.count place token) +
      if token = .unit then unboundCount binding arcs place else 0 := by
  simpa [shortfall] using count_shortfallAfter [] place token

-- What is listed can be written if the tokens that are asked for too often can: the unit
-- token of an arc that is not bound can always.
theorem shortfall_writable_iff : ((marking.shortfall binding arcs).all fun missing =>
    missing.2.isWritable) = true ↔ ∀ place token,
      marking.count place token < drawnCount binding arcs place token → token.isWritable = true := by
  rw [List.all_eq_true]
  constructor
  · intro all place token short
    refine all (place,token) (List.count_pos_iff.mp ?_)
    rw [count_shortfall]
    omega
  · intro all pair member
    obtain ⟨place,token⟩ := pair
    have listed := List.count_pos_iff.mpr member
    rw [count_shortfall] at listed
    by_cases short : marking.count place token < drawnCount binding arcs place token
    · exact all place token short
    · by_cases plain : token = .unit
      · rw [plain]; rfl
      · rw [if_neg plain] at listed
        omega

theorem shortfall_eq_nil_iff : marking.shortfall binding arcs = [] ↔
    Drawable marking.count binding arcs := by
  constructor
  · intro none
    have counted : ∀ place token, 0 =
        (drawnCount binding arcs place token - marking.count place token) +
        if token = .unit then unboundCount binding arcs place else 0 := by
      intro place token
      rw [← count_shortfall,none,List.count_nil]
    refine ⟨bound_iff_unboundCount.mpr fun place => ?_,fun place token => ?_⟩
    · have := counted place .unit
      rw [if_pos rfl] at this; omega
    · have := counted place token; omega
  · rintro ⟨bound,enough⟩
    refine List.eq_nil_iff_forall_not_mem.mpr fun (place,token) member => ?_
    have listed := List.count_pos_iff.mpr member
    rw [count_shortfall,bound_iff_unboundCount.mp bound,ite_self] at listed
    have := enough place token
    omega

-- No subtraction: what was there and what is given is what is left and what was taken.
theorem count_after {transition : Transition} (drawable : Drawable marking.count binding transition.pre)
    (place : Str) (token : Token) :
    (marking.after binding transition).count place token +
        drawnCount binding transition.pre place token =
      marking.count place token + givenCount binding transition.post place token := by
  have enough := drawable.enough place token
  rw [after,count_produce,count_consume,← drawnCount_eq_givenCount drawable.bound]
  omega

end Marking

namespace NotEnabled

theorem raised_eq : refusal.raised =
    if refusal.isWritable then .notEnabled refusal else .text .unwritable := by
  unfold raised message
  cases refusal.isWritable <;> rfl

theorem raised_notEnabled_iff :
    refusal.raised = .notEnabled refusal' ↔ refusal = refusal' ∧ refusal.isWritable = true := by
  rw [raised_eq]
  cases refusal.isWritable <;> simp

theorem raised_text_iff {problem : TextFault} :
    refusal.raised = .text problem ↔ problem = .unwritable ∧ refusal.isWritable = false := by
  rw [raised_eq]
  cases refusal.isWritable <;> simp [eq_comm]

end NotEnabled

namespace Engine

theorem fire_ok_iff : engine.fire id binding = .ok next ↔
    ∃ transition, engine.transitions.find? id = some transition ∧
      Drawable engine.marking.count binding transition.pre ∧
      next = { engine with marking := engine.marking.after binding transition } := by
  unfold fire
  cases found : engine.transitions.find? id with
  | none => simp
  | some transition =>
    simp only [Option.some.injEq,exists_eq_left',← Marking.shortfall_eq_nil_iff]
    cases engine.marking.shortfall binding transition.pre with
    | nil => simp [eq_comm]
    | cons => simp

-- What an engine says of a transition that cannot fire.
def Refuses (engine : Engine) (id : Str) (binding : Binding) (refusal : NotEnabled) : Prop :=
  (engine.transitions.find? id = none ∧ refusal = ⟨id,[]⟩) ∨
  ∃ transition, engine.transitions.find? id = some transition ∧
    ¬ Drawable engine.marking.count binding transition.pre ∧
    refusal = ⟨id,engine.marking.shortfall binding transition.pre⟩

theorem fire_error_iff : engine.fire id binding = .error fault ↔
    ∃ refusal, engine.Refuses id binding refusal ∧ fault = refusal.raised := by
  unfold fire Refuses
  cases found : engine.transitions.find? id with
  | none => simp [eq_comm]
  | some transition =>
    simp only [reduceCtorEq,false_and,false_or,Option.some.injEq,exists_eq_left',
      ← Marking.shortfall_eq_nil_iff]
    cases engine.marking.shortfall binding transition.pre with
    | nil => simp
    | cons => simp [eq_comm]

theorem fire_notEnabled_iff : engine.fire id binding = .error (.notEnabled refusal) ↔
    engine.Refuses id binding refusal ∧ refusal.isWritable = true := by
  rw [fire_error_iff]
  constructor
  · rintro ⟨refusal',refused,same⟩
    obtain ⟨rfl,writable⟩ := NotEnabled.raised_notEnabled_iff.mp same.symm
    exact ⟨refused,writable⟩
  · rintro ⟨refused,writable⟩
    exact ⟨refusal,refused,(NotEnabled.raised_notEnabled_iff.mpr ⟨rfl,writable⟩).symm⟩

theorem fire_text_iff {problem : TextFault} : engine.fire id binding = .error (.text problem) ↔
    problem = .unwritable ∧
      ∃ refusal, engine.Refuses id binding refusal ∧ refusal.isWritable = false := by
  rw [fire_error_iff]
  constructor
  · rintro ⟨refusal,refused,same⟩
    obtain ⟨rfl,mute⟩ := NotEnabled.raised_text_iff.mp same.symm
    exact ⟨rfl,refusal,refused,mute⟩
  · rintro ⟨rfl,refusal,refused,mute⟩
    exact ⟨refusal,refused,(NotEnabled.raised_text_iff.mpr ⟨rfl,mute⟩).symm⟩

theorem fire_transitions (fired : engine.fire id binding = .ok next) :
    next.transitions = engine.transitions := by
  obtain ⟨_,_,_,rfl⟩ := fire_ok_iff.mp fired
  rfl

end Engine

end ProtocolNet
