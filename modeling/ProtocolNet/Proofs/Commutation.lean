import ProtocolNet.Proofs.Mutex
import ProtocolNet.Proofs.Response

namespace ProtocolNet

-- Events that have no pair of place and token in common, though they may share places.
def Net.Independent (net : Net) (former latter : Event) : Prop :=
  (net.footprint former).Disjoint (net.footprint latter)

theorem Net.Independent.symm {net : Net} {former latter : Event}
    (independent : net.Independent former latter) : net.Independent latter former :=
  fun _ inLatter inFormer => independent inFormer inLatter

-- Lists that are led into each other by swaps of neighbours, each of them allowed.
inductive Reordered {α : Type} (allowed : α → α → Prop) : List α → List α → Prop
  | refl (items : List α) : Reordered allowed items items
  | swap (before : List α) (former latter : α) (after : List α) (allow : allowed former latter) :
      Reordered allowed (before ++ former :: latter :: after) (before ++ latter :: former :: after)
  | trans {first second third : List α} (start : Reordered allowed first second)
      (rest : Reordered allowed second third) : Reordered allowed first third

namespace Monitor

variable {monitor left right : Monitor} {former latter : Report} {reports reports' : List Report}

-- An independent event leaves alone what another one looks at.
theorem alikeFor_observe (attached : monitor.Attached)
    (independent : monitor.net.Independent former.1 latter.1) :
    AlikeFor latter.1 monitor (monitor.observe former.1 former.2).monitor := by
  refine ⟨observe_net.symm,fun pair => by rw [observe_logger],attached,observe_attached attached,
    fun place token member => ?_⟩
  exact (observe_frame attached fun there => independent there member).symm

theorem fate_observe (attached : monitor.Attached)
    (independent : monitor.net.Independent former.1 latter.1) :
    (monitor.observe former.1 former.2).monitor.fate latter.1 = monitor.fate latter.1 :=
  (alikeFor_observe attached independent).fate.symm

theorem growth_observe (attached : monitor.Attached)
    (independent : monitor.net.Independent former.1 latter.1) :
    (monitor.observe former.1 former.2).monitor.growth latter.1 = monitor.growth latter.1 :=
  (alikeFor_observe attached independent).growth.symm

-- What is said of an event is the same behind an independent one.
theorem verdict_observe (attached : monitor.Attached)
    (independent : monitor.net.Independent former.1 latter.1) :
    ((monitor.observe former.1 former.2).monitor.observe latter.1 latter.2).verdict =
      (monitor.observe latter.1 latter.2).verdict := by
  rw [observe_verdict,observe_verdict,fate_observe attached independent]

theorem answer_observe (attached : monitor.Attached) (quiet : monitor.digests = false)
    (independent : monitor.net.Independent former.1 latter.1) :
    ((monitor.observe former.1 former.2).monitor.observe latter.1 latter.2).answer =
      (monitor.observe latter.1 latter.2).answer := by
  rw [observe_answer (observe_digests.trans quiet),observe_answer quiet,
    fate_observe attached independent]

-- On the footprint of the event that goes second in one order and first in the
-- other, the other event changes nothing before or after.
theorem count_swap {place : Str} {token : Token} (attached : monitor.Attached)
    (independent : monitor.net.Independent former.1 latter.1)
    (member : (place,token) ∈ monitor.net.footprint former.1) :
    ((monitor.observe former.1 former.2).monitor.observe latter.1 latter.2).monitor.marking.count
        place token =
      ((monitor.observe latter.1 latter.2).monitor.observe former.1 former.2).monitor.marking.count
        place token := by
  have off : (place,token) ∉ (monitor.observe former.1 former.2).monitor.net.footprint latter.1 := by
    rw [observe_net]
    exact independent member
  rw [observe_frame (observe_attached attached) off]
  exact (alikeFor_observe attached independent.symm).agree_observe _ _ place token member

theorem alike_swap (attached : monitor.Attached)
    (independent : monitor.net.Independent former.1 latter.1) :
    Alike ((monitor.observe former.1 former.2).monitor.observe latter.1 latter.2).monitor
      ((monitor.observe latter.1 latter.2).monitor.observe former.1 former.2).monitor := by
  refine ⟨by simp only [observe_net],fun pair => by simp only [observe_logger],
    observe_attached (observe_attached attached),observe_attached (observe_attached attached),
    fun place token => ?_⟩
  by_cases inFormer : (place,token) ∈ monitor.net.footprint former.1
  · exact count_swap attached independent inFormer
  · by_cases inLatter : (place,token) ∈ monitor.net.footprint latter.1
    · exact (count_swap attached independent.symm inLatter).symm
    · have off : ∀ report : Report, (place,token) ∉ monitor.net.footprint report.1 →
          ∀ other : Report, (place,token) ∉
            (monitor.observe other.1 other.2).monitor.net.footprint report.1 := by
        intro report outside other
        rw [observe_net]
        exact outside
      rw [observe_frame (observe_attached attached) (off latter inLatter former),
        observe_frame attached inFormer,
        observe_frame (observe_attached attached) (off former inFormer latter),
        observe_frame attached inLatter]

theorem statistics_congr (tally : left.tally = right.tally) (seen : left.seen = right.seen) :
    left.statistics = right.statistics := by
  simp only [statistics,seenCount,tally,seen]

-- What a monitor counts, its final markings included.
structure SameBooks (left right : Monitor) : Prop where
  tally : left.tally = right.tally
  seen : left.seen = right.seen

theorem SameBooks.observe (same : SameBooks left right) (alike : Alike left right) (report : Report) :
    SameBooks (left.observe report.1 report.2).monitor (right.observe report.1 report.2).monitor := by
  have grown := (alike.forEvent report.1).growth
  exact ⟨by rw [observe_tally,observe_tally,same.tally,grown],by rw [observe_seen,observe_seen,same.seen]⟩

theorem SameBooks.run (same : SameBooks left right) (alike : Alike left right)
    (reports : List Report) :
    SameBooks (left.run (observed reports)) (right.run (observed reports)) := by
  induction reports generalizing left right with
  | nil => exact same
  | cons report rest ih =>
    exact ih (same.observe alike report) (alike.observe report.1 report.2 report.2)

theorem sameBooks_swap (attached : monitor.Attached)
    (independent : monitor.net.Independent former.1 latter.1) :
    SameBooks ((monitor.observe former.1 former.2).monitor.observe latter.1 latter.2).monitor
      ((monitor.observe latter.1 latter.2).monitor.observe former.1 former.2).monitor := by
  refine ⟨?_,by simp only [observe_seen]⟩
  rw [observe_tally,observe_tally,observe_tally,observe_tally,growth_observe attached independent,
    growth_observe attached independent.symm,Tally.plus_right_comm]

-- What comes of each report, in the state that those before have led to.
def outcomes (monitor : Monitor) : List Report → List (Report × Outcome)
  | [] => []
  | report :: rest =>
    (report,monitor.observe report.1 report.2) ::
      outcomes (monitor.observe report.1 report.2).monitor rest

-- The same for one report only, in the order of its occurrences.
def outcomesOn (monitor : Monitor) (reports : List Report) (report : Report) : List Outcome :=
  ((monitor.outcomes reports).filter fun entry => entry.1 = report).map (·.2)

def fatesOn (monitor : Monitor) (reports : List Report) (report : Report) : List Fate :=
  ((monitor.fates reports).filter fun entry => entry.1 = report).map (·.2)

def verdictsOn (monitor : Monitor) (reports : List Report) (report : Report) :
    List (Option NotEnabled) := (monitor.outcomesOn reports report).map Outcome.verdict

def answersOn (monitor : Monitor) (reports : List Report) (report : Report) :
    List (Except TextFault (Option NotEnabled)) :=
  (monitor.outcomesOn reports report).map Outcome.answer

theorem outcomesOn_cons (first : Report) (rest : List Report) (report : Report) :
    monitor.outcomesOn (first :: rest) report =
      (if first = report then [monitor.observe first.1 first.2] else []) ++
        (monitor.observe first.1 first.2).monitor.outcomesOn rest report := by
  rw [outcomesOn,outcomes,List.filter_cons]
  by_cases hit : first = report
  · simp [hit,outcomesOn]
  · simp [hit,outcomesOn]

theorem fatesOn_cons (first : Report) (rest : List Report) (report : Report) :
    monitor.fatesOn (first :: rest) report =
      (if first = report then [monitor.fate first.1] else []) ++
        (monitor.observe first.1 first.2).monitor.fatesOn rest report := by
  rw [fatesOn,fates,List.filter_cons]
  by_cases hit : first = report
  · simp [hit,fatesOn]
  · simp [hit,fatesOn]

theorem verdictsOn_eq (reports : List Report) (report : Report) :
    monitor.verdictsOn reports report = (monitor.fatesOn reports report).map Fate.refusal? := by
  unfold verdictsOn
  induction reports generalizing monitor with
  | nil => rfl
  | cons first rest ih =>
    rw [outcomesOn_cons,fatesOn_cons,List.map_append,List.map_append,ih]
    split <;> simp [observe_verdict]

theorem answersOn_eq (quiet : monitor.digests = false) (reports : List Report) (report : Report) :
    monitor.answersOn reports report = (monitor.fatesOn reports report).map Fate.answer := by
  unfold answersOn
  induction reports generalizing monitor with
  | nil => rfl
  | cons first rest ih =>
    rw [outcomesOn_cons,fatesOn_cons,List.map_append,List.map_append,ih (observe_digests.trans quiet)]
    split <;> simp [observe_answer quiet]

theorem fatesOn_swap (attached : monitor.Attached)
    (independent : monitor.net.Independent former.1 latter.1) (after : List Report)
    (report : Report) : monitor.fatesOn (former :: latter :: after) report =
      monitor.fatesOn (latter :: former :: after) report := by
  have rests := (alike_swap attached independent).fates after
  have latterSame := fate_observe attached independent
  have formerSame := fate_observe attached independent.symm
  simp only [fatesOn,fates,rests,latterSame,formerSame,List.filter_cons]
  by_cases one : former = report
  · by_cases two : latter = report
    · subst one; subst two; rfl
    · simp [one,two]
  · simp [one]

theorem run_reordered (attached : monitor.Attached)
    (reordered : Reordered (fun former latter : Report => monitor.net.Independent former.1 latter.1)
      reports reports') :
    Alike (monitor.run (observed reports)) (monitor.run (observed reports')) ∧
      SameBooks (monitor.run (observed reports)) (monitor.run (observed reports')) ∧
      ∀ report, monitor.fatesOn reports report = monitor.fatesOn reports' report := by
  induction reordered with
  | refl reports =>
    have there : (monitor.run (observed reports)).Attached := run_attached attached
    exact ⟨.refl there,⟨rfl,rfl⟩,fun _ => rfl⟩
  | swap before former latter after allow =>
    have there : (monitor.run (observed before)).Attached := run_attached attached
    have allow : (monitor.run (observed before)).net.Independent former.1 latter.1 := by
      rw [run_net]; exact allow
    have alike := alike_swap there allow
    refine ⟨?_,?_,fun report => ?_⟩
    · rw [run_observed_append,run_observed_append]
      exact alike.run after
    · rw [run_observed_append,run_observed_append]
      exact (sameBooks_swap there allow).run alike after
    · have later := fatesOn_swap there allow after report
      simp only [fatesOn,fates_append,List.filter_append,List.map_append] at later ⊢
      rw [later]
  | trans start rest firstHalf secondHalf =>
    obtain ⟨alike,books,fates⟩ := firstHalf
    obtain ⟨alike',books',fates'⟩ := secondHalf
    exact ⟨alike.trans alike',⟨books.tally.trans books'.tally,books.seen.trans books'.seen⟩,
      fun report => (fates report).trans (fates' report)⟩

end Monitor

namespace Mutex

def lockEvents (tid k : Nat) : List Event := [.lockAcquire tid k,.lockRelease tid k]

variable {places : List Str} {initial : Marking} {tid tid' j k : Nat} {event : Event}

theorem footprint_lockEvents (lockEvent : event ∈ lockEvents tid k) :
    ∀ pair ∈ (net places initial).footprint event, pair.2 = lock k := by
  have acquired : (net places initial).footprint (.lockAcquire tid k) =
      [(↑"free",lock k),(↑"held",lock k),(↑"free",lock k)] := rfl
  have released : (net places initial).footprint (.lockRelease tid k) =
      [(↑"held",lock k),(↑"free",lock k)] := rfl
  simp only [lockEvents,List.mem_cons,List.not_mem_nil,or_false] at lockEvent
  rcases lockEvent with rfl | rfl
  · rw [acquired]; simp
  · rw [released]; simp

theorem independent_of_ne (apart : j ≠ k) {former latter : Event}
    (formerOf : former ∈ lockEvents tid j) (latterOf : latter ∈ lockEvents tid' k) :
    (net places initial).Independent former latter := by
  intro pair inFormer inLatter
  have one := footprint_lockEvents formerOf pair inFormer
  have two := footprint_lockEvents latterOf pair inLatter
  exact apart (lock_inj.mp (one.symm.trans two))

end Mutex

namespace Monitor

theorem independent_events_commute (monitor : Monitor) (attached : monitor.Attached) :
    (∀ former latter : Report, monitor.net.Independent former.1 latter.1 →
      let first := monitor.observe former.1 former.2
      let second := first.monitor.observe latter.1 latter.2
      let first' := monitor.observe latter.1 latter.2
      let second' := first'.monitor.observe former.1 former.2
      second'.verdict = first.verdict ∧ second.verdict = first'.verdict ∧
        (monitor.digests = false → second'.answer = first.answer ∧ second.answer = first'.answer) ∧
        second.monitor.marking.sameContents second'.monitor.marking = true ∧
        second.monitor.statistics = second'.monitor.statistics) ∧
    (∀ reports reports' : List Report,
      Reordered (fun former latter : Report => monitor.net.Independent former.1 latter.1)
        reports reports' →
      (∀ report, monitor.verdictsOn reports report = monitor.verdictsOn reports' report) ∧
        (monitor.digests = false →
          ∀ report, monitor.answersOn reports report = monitor.answersOn reports' report) ∧
        (monitor.run (observed reports)).marking.sameContents
          (monitor.run (observed reports')).marking = true ∧
        (monitor.run (observed reports)).marking.digest =
          (monitor.run (observed reports')).marking.digest ∧
        (monitor.run (observed reports)).statistics =
          (monitor.run (observed reports')).statistics) ∧
    ∀ places initial tid tid' j k, j ≠ k → ∀ former ∈ Mutex.lockEvents tid j,
      ∀ latter ∈ Mutex.lockEvents tid' k, (Mutex.net places initial).Independent former latter := by
  refine ⟨?_,?_,?_⟩
  · intro former latter independent first second first' second'
    have books := sameBooks_swap attached independent
    exact ⟨verdict_observe attached independent.symm,verdict_observe attached independent,
      fun quiet => ⟨answer_observe attached quiet independent.symm,
        answer_observe attached quiet independent⟩,
      (alike_swap attached independent).sameContents,statistics_congr books.tally books.seen⟩
  · intro reports reports' reordered
    obtain ⟨alike,books,fates⟩ := run_reordered attached reordered
    refine ⟨fun report => ?_,fun quiet report => ?_,alike.sameContents,
      Marking.digest_congr alike.sameContents,statistics_congr books.tally books.seen⟩
    · rw [verdictsOn_eq,verdictsOn_eq,fates]
    · rw [answersOn_eq quiet,answersOn_eq quiet,fates]
  · intro places initial tid tid' j k apart former formerOf latter latterOf
    exact Mutex.independent_of_ne apart formerOf latterOf

-- A thread takes lock 42 while another one gives up lock 7, which it does not hold:
-- the second is refused in either order, and for the same reason.
theorem independent_events_commute_locks :
    let start := startWith (Mutex.net ["free","held"] Mutex.oneFree) none .silent none
    let taken := start.observe (.lockAcquire 1 42) none
    start.Attached ∧ start.net.Independent (.lockAcquire 1 42) (.lockRelease 2 7) ∧
    (taken.monitor.observe (.lockRelease 2 7) none).answer =
      .ok (some ⟨"release",[(↑"held",.ident .lock 7)]⟩) := by
  intro start taken
  have attached : start.Attached := startWith_attached
  obtain ⟨pairs,_,locks⟩ := independent_events_commute start attached
  have independent : start.net.Independent (.lockAcquire 1 42) (.lockRelease 2 7) :=
    locks _ Mutex.oneFree 1 2 42 7 (by decide) _ (List.mem_cons_self ..) _
      (by simp [Mutex.lockEvents])
  refine ⟨attached,independent,?_⟩
  have quiet := (pairs (.lockAcquire 1 42,none) (.lockRelease 2 7,none) independent).2.2.1
  have swapped := (quiet rfl).2
  rw [swapped]
  decide +kernel

end Monitor

end ProtocolNet
