import Mathlib.Data.List.Induction
import ProtocolNet.Proofs.Firing

namespace ProtocolNet

-- What an arc asks its place for: the unit token if its variable stands for none.
def Arc.asked (arc : Arc) (binding : Binding) : MissingToken := (arc.place,arc.produced binding)

namespace Marking

-- Whether an arc comes too late behind other arcs: there is no token that its variable stands
-- for, or they have drawn as many copies of its token as there are.
def lacks (marking : Marking) (binding : Binding) (before : List Arc) (arc : Arc) : Bool :=
  match arc.resolve binding with
  | none => true
  | some token => marking.count arc.place token ≤ drawnCount binding before arc.place token

-- A marking with further tokens, a copy for each time that one is listed.
def addAll (marking : Marking) (added : List MissingToken) : Marking :=
  added.foldl (fun marking pair => marking.add pair.1 pair.2 1) marking

variable {marking : Marking} {binding : Binding} {arc : Arc} {arcs : List Arc}
  {added : List MissingToken} {place : Str} {token : Token}

theorem count_addAll : (marking.addAll added).count place token =
    marking.count place token + added.count (place,token) := by
  induction added generalizing marking with
  | nil => rfl
  | cons pair rest ih =>
    obtain ⟨place',token'⟩ := pair
    have later : ((marking.add place' token' 1).addAll rest).count place token = _ := ih
    show ((marking.add place' token' 1).addAll rest).count place token = _
    rw [later,count_add,List.count_cons]
    by_cases hit : place' = place ∧ token' = token
    · simp [hit]
      omega
    · simp [hit]

-- The step of the check: the last arc is listed if those before it, together with what was drawn
-- before them, leave no copy for it. It has no effect on what is listed before it.
theorem shortfallAfter_snoc (drawn : List MissingToken) :
    marking.shortfallAfter binding drawn (arcs ++ [arc]) =
      marking.shortfallAfter binding drawn arcs ++
        match arc.resolve binding with
        | none => [(arc.place,.unit)]
        | some token =>
          if marking.count arc.place token ≤
              drawn.count (arc.place,token) + drawnCount binding arcs arc.place token then
            [(arc.place,token)]
          else [] := by
  induction arcs generalizing drawn with
  | nil =>
    rw [List.nil_append,shortfallAfter,shortfallAfter,List.nil_append]
    cases resolved : arc.resolve binding with
    | none => rfl
    | some token =>
      have nothing : drawn.count (arc.place,token) + drawnCount binding [] arc.place token =
          drawn.count (arc.place,token) := rfl
      have held := @holds_iff arc.place token marking (drawn.count (arc.place,token) + 1)
      simp only [shortfallAfter,List.count_cons_self,held,nothing]
      by_cases few : marking.count arc.place token ≤ drawn.count (arc.place,token)
      · have short : ¬drawn.count (arc.place,token) + 1 ≤ marking.count arc.place token := by omega
        simp only [short,few,if_false,if_true]
      · have enough : drawn.count (arc.place,token) + 1 ≤ marking.count arc.place token := by omega
        simp only [enough,few,if_false,if_true]
  | cons first rest ih =>
    rw [List.cons_append,shortfallAfter,shortfallAfter]
    cases here : first.resolve binding with
    | none =>
      simp only [ih,List.cons_append,drawnCount_cons,here,reduceCtorEq,and_false,if_false,Nat.add_zero]
    | some other =>
      have listed : ∀ token, ((first.place,other) :: drawn).count (arc.place,token) +
          drawnCount binding rest arc.place token = drawn.count (arc.place,token) +
            drawnCount binding (first :: rest) arc.place token := by
        intro token
        rw [List.count_cons,drawnCount_cons,here]
        simp only [beq_iff_eq,Prod.mk.injEq,Option.some.injEq]
        omega
      simp only [ih,listed]
      split <;> simp only [List.cons_append]

theorem shortfall_snoc : marking.shortfall binding (arcs ++ [arc]) =
    marking.shortfall binding arcs ++
      if marking.lacks binding arcs arc then [arc.asked binding] else [] := by
  rw [shortfall,shortfallAfter_snoc,shortfall,lacks,Arc.asked,Arc.produced]
  cases arc.resolve binding with
  | none => rfl
  | some token => simp

-- The arcs that come too late, in their order, whatever they draw.
theorem shortfall_eq_late : marking.shortfall binding arcs =
    (arcs.zipIdx.filter fun late => marking.lacks binding (arcs.take late.2) late.1).map
      fun late => late.1.asked binding := by
  induction arcs using List.reverseRecOn with
  | nil => rfl
  | append_singleton arcs arc ih =>
    have front : arcs.zipIdx.filter
          (fun late => marking.lacks binding ((arcs ++ [arc]).take late.2) late.1) =
        arcs.zipIdx.filter fun late => marking.lacks binding (arcs.take late.2) late.1 := by
      apply List.filter_congr
      intro late member
      have inside : late.2 < arcs.length := by
        have bound := List.snd_lt_of_mem_zipIdx member
        omega
      rw [List.take_append_of_le_length (Nat.le_of_lt inside)]
    rw [shortfall_snoc,List.zipIdx_append,List.filter_append,List.map_append,front,← ih]
    congr 1
    cases late : marking.lacks binding arcs arc <;> simp [late]

end Marking

namespace Engine

def withMarking (engine : Engine) (marking : Marking) : Engine := { engine with marking }

variable {engine : Engine} {id : Str} {binding : Binding} {transition : Transition}

theorem isEnabled_iff (known : engine.transitions.find? id = some transition) :
    engine.isEnabled id binding = true ↔ engine.marking.shortfall binding transition.pre = [] := by
  simp only [isEnabled,missing,known]
  cases engine.marking.shortfall binding transition.pre <;> simp

theorem fires_iff (known : engine.transitions.find? id = some transition) :
    (∃ next, engine.fire id binding = .ok next) ↔
      engine.marking.shortfall binding transition.pre = [] := by
  simp only [fire,known]
  cases engine.marking.shortfall binding transition.pre <;> simp

-- What is missing of a known transition is exactly what falls short: of each pair the copies that
-- are asked for beyond those that are there, the last arcs that draw it being those listed, and a
-- unit token for each arc without a token. It is the least that must be added.
theorem missing_is_exact (engine : Engine) (id : Str) (binding : Binding) (transition : Transition)
    (known : engine.transitions.find? id = some transition) :
    ∃ missing, engine.missing id binding = .ok missing ∧
      missing = (transition.pre.zipIdx.filter fun late =>
        engine.marking.lacks binding (transition.pre.take late.2) late.1).map
          (fun late => late.1.asked binding) ∧
      (∀ place token, missing.count (place,token) =
        (drawnCount binding transition.pre place token - engine.marking.count place token) +
          if token = .unit then unboundCount binding transition.pre place else 0) ∧
      ((∃ next, engine.fire id binding = .ok next) ↔ missing = []) ∧
      (engine.isEnabled id binding = true ↔ missing = []) ∧
      ((∀ arc ∈ transition.pre, ∃ token, arc.resolve binding = some token) →
        (engine.withMarking (engine.marking.addAll missing)).isEnabled id binding = true) ∧
      ∀ added, (engine.withMarking (engine.marking.addAll added)).isEnabled id binding = true →
        ∀ pair, missing.count pair ≤ added.count pair := by
  have enabled (added : List MissingToken) :
      (engine.withMarking (engine.marking.addAll added)).isEnabled id binding = true ↔
        Drawable (engine.marking.addAll added).count binding transition.pre := by
    have still : (engine.withMarking (engine.marking.addAll added)).transitions.find? id =
        some transition := known
    rw [isEnabled_iff still]
    exact Marking.shortfall_eq_nil_iff
  refine ⟨engine.marking.shortfall binding transition.pre,?_,Marking.shortfall_eq_late,
    Marking.count_shortfall,fires_iff known,isEnabled_iff known,?_,?_⟩
  · rw [missing,known]
  · intro bound
    apply (enabled _).mpr
    refine ⟨bound,fun place token => ?_⟩
    rw [Marking.count_addAll,Marking.count_shortfall]
    omega
  · intro added suffices' pair
    obtain ⟨place,token⟩ := pair
    have drawable := (enabled added).mp suffices'
    have enough := drawable.enough place token
    have none := bound_iff_unboundCount.mp drawable.bound place
    rw [Marking.count_addAll] at enough
    rw [Marking.count_shortfall,none,ite_self]
    omega

-- Three arcs draw a lock of which there is one copy, by its variable and by itself, and two lack
-- the unit token, one of them because its variable stands for nothing.
def greedy : Transition := ⟨"greedy",[⟨"free",.named "L"⟩,⟨"free",.named "x"⟩,
  ⟨"free",.constant (.ident .lock 7)⟩,⟨"free",.constant .unit⟩,⟨"free",.named "L"⟩],[]⟩

def greedyEngine : Engine := ⟨.ofList [greedy],Marking.empty.addAll [(↑"free",.ident .lock 7)]⟩

theorem missing_is_exact_greedy :
    (greedyEngine.missing "greedy" [(↑"L",.ident .lock 7)]).toOption =
        some [(↑"free",.unit),(↑"free",.ident .lock 7),(↑"free",.unit),(↑"free",.ident .lock 7)] ∧
      ¬∃ next, greedyEngine.fire "greedy" [(↑"L",.ident .lock 7)] = .ok next := by
  obtain ⟨missing,told,listed,-,fires,-⟩ := missing_is_exact greedyEngine "greedy"
    [(↑"L",.ident .lock 7)] greedy (by decide)
  have same : missing = [(↑"free",.unit),(↑"free",.ident .lock 7),(↑"free",.unit),
      (↑"free",.ident .lock 7)] := by
    rw [listed]
    decide
  rw [told,fires,same]
  exact ⟨rfl,List.cons_ne_nil _ _⟩

end Engine

end ProtocolNet
