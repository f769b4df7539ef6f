import Mathlib.Data.Finset.Card
import Mathlib.Data.List.Induction
import ProtocolNet.Proofs.Congruence

namespace ProtocolNet.Monitor

-- A digest that was seen where an execution ended, with no clearing after it.
def Recorded (start : Monitor) (calls : List Call) (digest : Nat) : Prop :=
  Since .clearCoverage
    (fun before call => call = .endExecution ∧ (start.run before).marking.digest = .ok digest) calls

variable {monitor start : Monitor} {call : Call} {calls : List Call} {digest : Nat}

theorem recorded_snoc :
    start.Recorded (calls ++ [call]) digest ↔ (call ≠ .clearCoverage ∧ start.Recorded calls digest) ∨
      (call = .endExecution ∧ (start.run calls).marking.digest = .ok digest) := since_snoc

-- By induction from the last call back: a clearing undoes all that calls before it recorded.
theorem mem_seen_iff (fresh : start.seen = []) :
    digest ∈ (start.run calls).seen ↔ start.Recorded calls digest := by
  induction calls using List.reverseRecOn with
  | nil =>
    have none : ¬ start.Recorded [] digest := not_since_nil
    change digest ∈ start.seen ↔ _
    rw [fresh]
    exact ⟨fun member => absurd member List.not_mem_nil,fun recorded => absurd recorded none⟩
  | append_singleton before call ih =>
    rw [run_snoc,perform_seen,recorded_snoc,← ih]
    cases call with
    | endExecution =>
      cases made : (start.run before).marking.digest with
      | ok found => simp [seenAfter,made,or_comm,eq_comm]
      | error fault => simp [seenAfter,made]
    | clearCoverage => simp [seenAfter]
    | observe | reset | close => simp [seenAfter]

theorem nodup_seen_perform (once : monitor.seen.Nodup) : (monitor.perform call).seen.Nodup := by
  rw [perform_seen]
  cases call with
  | endExecution =>
    rw [seenAfter]
    split
    · exact once.insert
    · exact once
  | clearCoverage => exact List.nodup_nil
  | observe | reset | close => exact once

theorem nodup_seen_run (once : monitor.seen.Nodup) : (monitor.run calls).seen.Nodup := by
  induction calls generalizing monitor with
  | nil => exact once
  | cons call rest ih => exact ih (nodup_seen_perform once)

-- The end of an execution is answered if its marking has a digest, and recorded only then.
theorem coverage_follows_history (net : Net) (config : Option Config) (logger : Logger)
    (journal : Option Journal) (calls : List Call) :
    let start := startWith net config logger journal
    let reached := start.run calls
    (∀ fault, reached.marking.digest = .error fault → reached.endExecution = .error fault) ∧
    (∀ digest, reached.marking.digest = .ok digest →
      ∃ ended isNew, reached.endExecution = .ok (ended,digest,isNew) ∧
        (isNew = false ↔ start.Recorded calls digest) ∧
        ∀ before after, calls = before ++ .endExecution :: after → Call.clearCoverage ∉ after →
          (start.run before).marking.sameContents reached.marking = true → isNew = false) ∧
    (∃ digests : Finset Nat, (∀ digest, digest ∈ digests ↔ start.Recorded calls digest) ∧
      reached.seenCount = digests.card) ∧
    (∀ event location, (reached.observe event location).monitor.seen = reached.seen) ∧
    reached.reset.seen = reached.seen := by
  intro start reached
  have recorded : ∀ digest, digest ∈ reached.seen ↔ start.Recorded calls digest :=
    fun digest => mem_seen_iff rfl
  refine ⟨fun fault unmade => endExecution_error unmade,fun digest made => ?_,?_,
    fun event location => observe_seen,rfl⟩
  · have known : (!decide (digest ∈ reached.seen)) = false ↔ start.Recorded calls digest := by
      rw [← recorded]
      simp
    refine ⟨_,_,endExecution_ok made,known,fun before after divided kept same => ?_⟩
    have made' : (start.run before).marking.digest = .ok digest :=
      (Marking.digest_congr same).trans made
    exact known.mpr ⟨before,.endExecution,after,divided,kept,rfl,made'⟩
  · have once : reached.seen.Nodup := nodup_seen_run List.nodup_nil
    refine ⟨reached.seen.toFinset,fun digest => ?_,(List.toFinset_card_of_nodup once).symm⟩
    rw [List.mem_toFinset]
    exact recorded digest

end ProtocolNet.Monitor
