import ProtocolNet.Proofs.Mutex
import ProtocolNet.Proofs.Response

namespace ProtocolNet

-- Every place holds every token at least as often in the second contents.
def Below (lower upper : Counts) : Prop := ∀ place token, lower place token ≤ upper place token

-- Seeding looks for tokens that are absent, but what it leads to is a maximum.
theorem Below.seeded {lower upper : Counts} (below : Below lower upper)
    (targets : List (Str × Token)) :
    Below (seededCounts lower targets) (seededCounts upper targets) := by
  intro place token
  have here := below place token
  simp only [seededCounts]
  omega

theorem Drawable.mono {lower upper : Counts} {binding : Binding} {arcs : List Arc}
    (drawable : Drawable lower binding arcs) (below : Below lower upper) :
    Drawable upper binding arcs :=
  ⟨drawable.bound,fun place token => Nat.le_trans (drawable.enough place token) (below place token)⟩

-- The net with another marking at the start of executions.
def Net.startingIn (net : Net) (initial : Marking) : Net := { net with initial }

theorem Net.Admits.mono {net : Net} {initial : Marking} {lower upper : Counts} {event : Event}
    {transition : Transition} (admitted : net.Admits lower event transition)
    (below : Below lower upper) : (net.startingIn initial).Admits upper event transition :=
  ⟨admitted.known,admitted.drawable.mono (below.seeded _)⟩

namespace Monitor

variable {monitor lower upper : Monitor} {event : Event} {location : Option SourceLocation}
  {initial : Marking} {reports before after : List Report}

-- Every event is accepted, in the state that those before have led to.
def Accepts (monitor : Monitor) : List Report → Prop
  | [] => True
  | report :: rest =>
    (monitor.observe report.1 report.2).answer = .ok none ∧
      (monitor.observe report.1 report.2).monitor.Accepts rest

def decideAccepts : (monitor : Monitor) → (reports : List Report) → Decidable (monitor.Accepts reports)
  | _, [] => isTrue trivial
  | monitor, report :: rest =>
    have := decideAccepts (monitor.observe report.1 report.2).monitor rest
    inferInstanceAs (Decidable (_ ∧ _))

instance (monitor : Monitor) (reports : List Report) : Decidable (monitor.Accepts reports) :=
  decideAccepts monitor reports

-- What becomes of an event that is accepted, and of one that is not for want of a digest only.
def Fate.Passes (fate : Fate) : Prop := fate = .ignored ∨ fate = .fired

theorem passes_of_answer (accepted : (monitor.observe event location).answer = .ok none) :
    (monitor.fate event).Passes := by
  rw [Outcome.answer,observe_result] at accepted
  cases fate : monitor.fate event with
  | ignored => exact .inl rfl
  | fired => exact .inr rfl
  | rejected refusal => rw [fate] at accepted; cases accepted
  | stopped fault => rw [fate] at accepted; cases accepted

-- The answer to an event that passes.
theorem answer_of_passes (passes : (monitor.fate event).Passes) :
    (monitor.observe event location).answer = .ok none ∨ monitor.digests = true ∧
      ∃ fault, (monitor.observe event location).answer = .error fault ∧
        (monitor.observe event location).monitor.marking.digest = .error fault := by
  rw [Outcome.answer,observe_result]
  rcases passes with fate | fate
  · rw [fate]; exact .inl rfl
  · rw [fate]
    cases digests : monitor.digests with
    | false => exact .inl rfl
    | true =>
      cases made : (monitor.observe event location).monitor.marking.digest with
      | ok digest => exact .inl rfl
      | error fault => exact .inr ⟨rfl,fault,rfl,rfl⟩

theorem passes_of_accepts (accepts : monitor.Accepts reports) :
    ∀ entry ∈ monitor.fates reports, entry.2.Passes := by
  induction reports generalizing monitor with
  | nil => exact List.forall_mem_nil _
  | cons report rest ih => exact List.forall_mem_cons.mpr ⟨passes_of_answer accepts.1,ih accepts.2⟩

theorem accepts_of_passes (quiet : monitor.digests = false)
    (passes : ∀ entry ∈ monitor.fates reports, entry.2.Passes) : monitor.Accepts reports := by
  induction reports generalizing monitor with
  | nil => trivial
  | cons report rest ih =>
    obtain ⟨here,later⟩ := List.forall_mem_cons.mp passes
    refine ⟨?_,ih (observe_digests.trans quiet) later⟩
    rcases @answer_of_passes _ _ report.2 here with accepted | ⟨digests,-⟩
    · exact accepted
    · rw [quiet] at digests; cases digests

theorem observe_mono (net : upper.net = lower.net.startingIn initial)
    (voice : upper.logger = lower.logger) (attached : lower.Attached)
    (attached' : upper.Attached) (below : Below lower.marking.count upper.marking.count)
    (passes : (lower.fate event).Passes) :
    (upper.fate event).Passes ∧ Below (lower.observe event location).monitor.marking.count
      (upper.observe event location).monitor.marking.count := by
  rcases passes with fate | fate
  · cases course lower event none with
    | fired id transition mapped known unstopped drawable fate' => rw [fate] at fate'; cases fate'
    | rejected id refusal mapped unstopped refused fate' => rw [fate] at fate'; cases fate'
    | stopped id fault mapped halts fate' => rw [fate] at fate'; cases fate'
    | ignored unmapped =>
      have unmapped' : upper.net.transitionFor event = none := by rw [net]; exact unmapped
      refine ⟨.inl (fate_ignored unmapped'),?_⟩
      rw [marking,(observe_ignored location unmapped).2,marking,(observe_ignored location unmapped').2]
      exact below
  · obtain ⟨told,transition,admitted⟩ := (fired_iff attached).mp fate
    have admitted' : upper.net.Admits upper.marking.count event transition := by
      rw [net]; exact admitted.mono below
    have targets : upper.net.targets event = lower.net.targets event := by rw [net]; rfl
    -- What the larger contents lack the smaller ones lack too, so it was told of there.
    have told' : upper.TellsSeeds event := by
      intro pair member absent
      rw [voice]
      exact told pair (targets ▸ member) (Nat.le_zero.mp (absent ▸ below pair.1 pair.2))
    refine ⟨.inr ((fired_iff attached').mpr ⟨told',transition,admitted'⟩),fun place token => ?_⟩
    have here := (observe_admitted location attached admitted told).2 place token
    have there := (observe_admitted location attached' admitted' told').2 place token
    have seeded := below.seeded (lower.net.targets event) place token
    rw [targets] at there
    omega

theorem run_mono (net : upper.net = lower.net.startingIn initial)
    (voice : upper.logger = lower.logger) (attached : lower.Attached)
    (attached' : upper.Attached) (below : Below lower.marking.count upper.marking.count)
    (passes : ∀ entry ∈ lower.fates reports, entry.2.Passes) :
    (∀ entry ∈ upper.fates reports, entry.2.Passes) ∧
      Below (lower.run (observed reports)).marking.count
        (upper.run (observed reports)).marking.count := by
  induction reports generalizing lower upper with
  | nil => exact ⟨List.forall_mem_nil _,below⟩
  | cons report rest ih =>
    obtain ⟨here,later⟩ := List.forall_mem_cons.mp passes
    obtain ⟨here',next⟩ := @observe_mono _ _ _ report.2 _ net voice attached attached' below here
    have nets : (upper.observe report.1 report.2).monitor.net =
        (lower.observe report.1 report.2).monitor.net.startingIn initial := by
      rw [observe_net,observe_net,net]
    have voices : (upper.observe report.1 report.2).monitor.logger =
        (lower.observe report.1 report.2).monitor.logger := by
      rw [observe_logger,observe_logger,voice]
    obtain ⟨later',final⟩ :=
      ih nets voices (observe_attached attached) (observe_attached attached') next later
    exact ⟨List.forall_mem_cons.mpr ⟨here',later'⟩,final⟩

theorem accepts_of_more_tokens (net : Net) (lower upper : Marking) (config config' : Option Config)
    (logger : Logger) (journal journal' : Option Journal) (reports : List Report)
    (below : Below lower.count upper.count)
    (conforms : (startWith (net.startingIn lower) config logger journal).Accepts reports) :
    let less := startWith (net.startingIn lower) config logger journal
    let more := startWith (net.startingIn upper) config' logger journal'
    (more.digests = false → more.Accepts reports) ∧
    (∀ before report after, reports = before ++ report :: after →
      let reached := more.run (observed before)
      let outcome := reached.observe report.1 report.2
      outcome.answer = .ok none ∨ reached.digests = true ∧
        ∃ fault, outcome.answer = .error fault ∧ outcome.monitor.marking.digest = .error fault) ∧
    ∀ before after, reports = before ++ after →
      Below (less.run (observed before)).marking.count (more.run (observed before)).marking.count := by
  intro less more
  have nets : more.net = less.net.startingIn upper := rfl
  have passed := passes_of_accepts conforms
  have passes := (run_mono nets rfl startWith_attached startWith_attached below passed).1
  refine ⟨fun quiet => accepts_of_passes quiet passes,?_,?_⟩
  · rintro before report after rfl
    rw [fates_append] at passes
    exact answer_of_passes (passes _ (List.mem_append_right _ List.mem_cons_self))
  · rintro before after rfl
    rw [fates_append] at passed
    exact (run_mono nets rfl startWith_attached startWith_attached below
      fun entry member => passed entry (List.mem_append_left _ member)).2

-- Without the lock in the initial marking the first acquisition seeds it, with the
-- lock there it does not; both monitors accept what follows.
theorem accepts_of_more_tokens_seeded :
    let reports : List Report := [(.lockAcquire 1 42,none),(.lockRelease 1 42,none),
      (.lockAcquire 2 42,none),(.yield 2,none)]
    let net := Mutex.net ["free","held"] .empty
    Below Marking.empty.count Mutex.oneFree.count ∧
    (startWith (net.startingIn .empty) none .silent none).Accepts reports ∧
    (startWith (net.startingIn Mutex.oneFree) none .silent none).Accepts reports := by
  intro reports net
  have below : Below Marking.empty.count Mutex.oneFree.count := fun _ _ => Nat.zero_le _
  have conforms : (startWith (net.startingIn .empty) none .silent none).Accepts reports := by
    decide +kernel
  exact ⟨below,conforms,(accepts_of_more_tokens net .empty Mutex.oneFree none none .silent none none
    reports below conforms).1 rfl⟩

end Monitor

end ProtocolNet
