import ProtocolNet.Proofs.Verdict

namespace ProtocolNet

-- Contents that agree on some pairs of place and token, whatever they hold elsewhere.
def AgreeOn (pairs : List (Str × Token)) (left right : Counts) : Prop :=
  ∀ place token, (place,token) ∈ pairs → left place token = right place token

-- The pairs that arcs draw or give, the unit token for a variable without one.
def arcTargets (binding : Binding) (arcs : List Arc) : List (Str × Token) :=
  arcs.map fun arc => (arc.place,arc.produced binding)

variable {binding : Binding} {arc : Arc} {arcs rest : List Arc} {pairs more : List (Str × Token)}
  {place : Str} {token : Token} {counts counts' : Counts}

theorem AgreeOn.mono (agree : AgreeOn more counts counts') (sub : pairs ⊆ more) :
    AgreeOn pairs counts counts' :=
  fun place token member => agree place token (sub member)

theorem AgreeOn.symm (agree : AgreeOn pairs counts counts') : AgreeOn pairs counts' counts :=
  fun place token member => (agree place token member).symm

theorem AgreeOn.seeded (agree : AgreeOn pairs counts counts') (targets : List (Str × Token)) :
    AgreeOn pairs (seededCounts counts targets) (seededCounts counts' targets) := by
  intro place token member
  rw [seededCounts,seededCounts,agree place token member]

-- A seed is placed in both or in neither, and what was equal stays so.
theorem AgreeOn.seed_told {left right : Engine}
    (agree : AgreeOn ((place,token) :: pairs) left.marking.count right.marking.count) :
    (left.seed place token).2 = (right.seed place token).2 := by
  rw [Bool.eq_iff_iff,Engine.seed_told_iff,Engine.seed_told_iff,agree _ _ List.mem_cons_self]

theorem AgreeOn.seed {left right : Engine} {pair : MissingToken}
    (agree : AgreeOn (pair :: pairs) left.marking.count right.marking.count) (place : Str)
    (token : Token) : AgreeOn pairs (left.seed place token).1.marking.count
      (right.seed place token).1.marking.count := by
  intro probe other member
  rw [Engine.count_seed,Engine.count_seed,agree _ _ (List.mem_cons_of_mem _ member)]

theorem arcTargets_append (left right : List Arc) : arcTargets binding (left ++ right) =
    arcTargets binding left ++ arcTargets binding right := List.map_append

theorem givenCount_eq_zero (off : (place,token) ∉ arcTargets binding arcs) :
    givenCount binding arcs place token = 0 := by
  refine List.countP_eq_zero.mpr fun arc member given => off ?_
  obtain ⟨rfl,rfl⟩ := of_decide_eq_true given
  exact List.mem_map.mpr ⟨arc,member,rfl⟩

theorem drawnCount_le_givenCount : drawnCount binding arcs place token ≤
    givenCount binding arcs place token := by
  refine List.countP_mono_left fun arc _ drawn => ?_
  obtain ⟨there,resolved⟩ := of_decide_eq_true drawn
  exact decide_eq_true ⟨there,(produced_eq_iff resolved).mpr resolved⟩

theorem drawnCount_eq_zero (off : (place,token) ∉ arcTargets binding arcs) :
    drawnCount binding arcs place token = 0 :=
  Nat.le_zero.mp (givenCount_eq_zero off ▸ drawnCount_le_givenCount)

-- The check looks at nothing but the pairs that bound arcs draw.
theorem Marking.shortfallAfter_congr {left right : Marking} (drawn : List MissingToken)
    (agree : AgreeOn (arcTargets binding arcs) left.count right.count) :
    left.shortfallAfter binding drawn arcs = right.shortfallAfter binding drawn arcs := by
  induction arcs generalizing drawn with
  | nil => rfl
  | cons arc rest ih =>
    have later : AgreeOn (arcTargets binding rest) left.count right.count :=
      agree.mono (List.subset_cons_self _ _)
    cases resolved : arc.resolve binding with
    | none => simp only [shortfallAfter,resolved,ih drawn later]
    | some token =>
      have target : arc.produced binding = token := (produced_eq_iff resolved).mpr resolved
      subst target
      have here : left.count arc.place (arc.produced binding) =
          right.count arc.place (arc.produced binding) := agree _ _ List.mem_cons_self
      have checks : ∀ copies, left.holds arc.place (arc.produced binding) copies =
          right.holds arc.place (arc.produced binding) copies := by
        intro copies
        rw [Bool.eq_iff_iff,holds_iff,holds_iff,here]
      simp only [shortfallAfter,resolved,checks,ih _ later]

-- Firing is judged by the pairs that the transition draws.
theorem Engine.refuses_congr {left right : Engine} {id : Str} {refusal : NotEnabled}
    (table : left.transitions = right.transitions)
    (agree : ∀ transition, left.transitions.find? id = some transition →
      AgreeOn (arcTargets binding transition.pre) left.marking.count right.marking.count)
    (refused : left.Refuses id binding refusal) : right.Refuses id binding refusal := by
  rcases refused with ⟨unknown,rfl⟩ | ⟨transition,known,short,rfl⟩
  · exact .inl ⟨table ▸ unknown,rfl⟩
  · have same : left.marking.shortfall binding transition.pre =
        right.marking.shortfall binding transition.pre :=
      Marking.shortfallAfter_congr [] (agree transition known)
    rw [← Marking.shortfall_eq_nil_iff,same] at short
    rw [same]
    exact .inr ⟨transition,table ▸ known,
      fun drawable => short (Marking.shortfall_eq_nil_iff.mpr drawable),rfl⟩

theorem Engine.fire_error_congr {left right : Engine} {id : Str} {fault : FireFault}
    (table : left.transitions = right.transitions)
    (agree : ∀ transition, left.transitions.find? id = some transition →
      AgreeOn (arcTargets binding transition.pre) left.marking.count right.marking.count)
    (refused : left.fire id binding = .error fault) : right.fire id binding = .error fault := by
  obtain ⟨refusal,refuses,rfl⟩ := fire_error_iff.mp refused
  exact fire_error_iff.mpr ⟨refusal,refuses_congr table agree refuses,rfl⟩

namespace Monitor

-- Streams that take the same messages of seeds.
def SameVoice (left right : Logger) : Prop := ∀ pair, seedFault? left pair = seedFault? right pair

theorem SameVoice.symm {left right : Logger} (same : SameVoice left right) : SameVoice right left :=
  fun pair => (same pair).symm

-- Which seeds are placed, and what stops that, depends on the places that are to be seeded.
theorem Seeds.congr {left right last : Engine} {logger logger' : Logger} {rules : List SeedRule}
    {added : List MissingToken} {stop : Option TextFault}
    (seeds : Seeds logger binding left rules last added stop) (voice : SameVoice logger logger')
    (agree : AgreeOn (seedTargets binding rules) left.marking.count right.marking.count) :
    ∃ last', Seeds logger' binding right rules last' added stop := by
  induction seeds generalizing right with
  | done => exact ⟨right,.done⟩
  | unbound unbound _ ih =>
    rw [seedTargets_unbound unbound] at agree
    obtain ⟨last',later⟩ := ih agree
    exact ⟨last',.unbound unbound later⟩
  | @held left _ rule _ token _ _ bound held _ ih =>
    rw [seedTargets_bound bound] at agree
    obtain ⟨last',later⟩ := ih (agree.seed rule.place token)
    exact ⟨last',.held bound (agree.seed_told.symm.trans held) later⟩
  | @mute left rule _ token _ bound added mute =>
    rw [seedTargets_bound bound] at agree
    exact ⟨_,.mute bound (agree.seed_told.symm.trans added) ((voice _).symm.trans mute)⟩
  | @told left _ rule _ token _ _ bound added told _ ih =>
    rw [seedTargets_bound bound] at agree
    obtain ⟨last',later⟩ := ih (agree.seed rule.place token)
    exact ⟨last',.told bound (agree.seed_told.symm.trans added) ((voice _).symm.trans told) later⟩

theorem seed_congr {left right : Engine} {logger logger' : Logger} {rules : List SeedRule}
    (voice : SameVoice logger logger')
    (agree : AgreeOn (seedTargets binding rules) left.marking.count right.marking.count) :
    (seed logger binding left rules).seeded = (seed logger' binding right rules).seeded ∧
      (seed logger binding left rules).fault = (seed logger' binding right rules).fault := by
  obtain ⟨last',others⟩ := (seeds left rules).congr voice agree
  obtain ⟨-,seeded,fault⟩ := others.unique
  exact ⟨seeded.symm,fault.symm⟩

end Monitor

namespace Net

-- The pairs that the processing of an event can look at or change.
def footprint (net : Net) (event : Event) : List (Str × Token) :=
  match net.transitionOf event with
  | none => net.targets event
  | some transition =>
    arcTargets event.binding (transition.pre ++ transition.post) ++ net.targets event

variable {net : Net} {event : Event} {transition : Transition}

theorem targets_subset_footprint : net.targets event ⊆ net.footprint event := by
  unfold footprint
  split
  · exact List.Subset.refl _
  · exact List.subset_append_right _ _

theorem arcTargets_subset_footprint (known : net.transitionOf event = some transition) :
    arcTargets event.binding (transition.pre ++ transition.post) ⊆ net.footprint event := by
  unfold footprint
  rw [known]
  exact List.subset_append_left _ _

end Net

end ProtocolNet
