import Mathlib.Algebra.Group.Nat.Defs
import ProtocolNet.Proofs.Commutation

namespace ProtocolNet

namespace Monitor

-- The events that have fired since the last reset, when those up to a call are given.
def firedBy (monitor : Monitor) (earlier : List Event) : Call → List Event
  | .observe event _ => if monitor.fires event then earlier ++ [event] else earlier
  | .reset => []
  | _ => earlier

def firedSince (monitor : Monitor) (earlier : List Event) : List Call → List Event
  | [] => earlier
  | call :: rest => (monitor.perform call).firedSince (monitor.firedBy earlier call) rest

end Monitor

namespace Mutex

open Monitor

def takes (k : Nat) : Event → Bool
  | .lockAcquire _ j => j = k
  | _ => false

def givesBack (k : Nat) : Event → Bool
  | .lockRelease _ j => j = k
  | _ => false

def acquired (k : Nat) (history : List Event) : Nat := history.countP (takes k)

def released (k : Nat) (history : List Event) : Nat := history.countP (givesBack k)

-- What is held is told by the history of the locks, and is nothing but locks.
structure Explained (marking : Marking) (history : List Event) : Prop where
  locks : ∀ k, marking.count "held" (lock k) + released k history = acquired k history
  others : ∀ token, (∀ k, token ≠ lock k) → marking.count "held" token = 0

variable {places : List Str} {initial marking : Marking} {monitor : Monitor} {tid j k : Nat}
  {place : Str} {binding : Binding} {token : Token} {location : Option SourceLocation}
  {event : Event} {history : List Event} {calls : List Call}

theorem acquired_snoc : acquired k (history ++ [event]) =
    acquired k history + if takes k event = true then 1 else 0 := by
  rw [acquired,List.countP_append,List.countP_singleton]
  rfl

theorem released_snoc : released k (history ++ [event]) =
    released k history + if givesBack k event = true then 1 else 0 := by
  rw [released,List.countP_append,List.countP_singleton]
  rfl

theorem shortfall_arcOf (bound : binding.lookup ↑"L" = some token) :
    marking.shortfall binding [arcOf place] =
      if 0 < marking.count place token then [] else [(place,token)] := by
  simp only [Marking.shortfall,Marking.shortfallAfter,arcOf,Arc.resolve,Pattern.resolve,bound,
    List.count_singleton_self,Marking.holds_iff,Nat.succ_le_iff]

-- A release fires exactly when the lock is held. If it is not, that is what it lacks, and it is
-- refused if that can be told.
theorem fate_release (here : monitor.net = net places initial) (attached : monitor.Attached) :
    monitor.fate (.lockRelease tid j) =
      if 0 < monitor.marking.count "held" (lock j) then .fired
      else if Text.isWritable j then .rejected ⟨"release",[("held",lock j)]⟩
      else .stopped .unwritable := by
  have mapped : monitor.net.transitionFor (.lockRelease tid j) = some ↑"release" := by rw [here]; rfl
  have unstopped : (monitor.seededFor (.lockRelease tid j) "release").fault = none := by
    rw [seededFor,here]; rfl
  have unseeded : (monitor.seededFor (.lockRelease tid j) "release").engine = monitor.engine := by
    rw [seededFor,here]; rfl
  have table : monitor.engine.transitions.find? ↑"release" = some release := by
    rw [attached,here]; rfl
  have short : monitor.engine.marking.shortfall (Event.lockRelease tid j).binding release.pre =
      if 0 < monitor.engine.marking.count "held" (lock j) then [] else [(↑"held",lock j)] :=
    shortfall_arcOf lookup_release
  rw [fate,mapped]
  simp only [unstopped,unseeded]
  rw [Engine.fire,table]
  dsimp only
  rw [short,marking]
  by_cases held : 0 < monitor.engine.marking.count "held" (lock j)
  · rw [if_pos held,if_pos held]
  · rw [if_neg held,if_neg held]
    dsimp only
    rw [NotEnabled.raised_eq]
    have written : NotEnabled.isWritable ⟨"release",[("held",lock j)]⟩ = Text.isWritable j := by
      simp [NotEnabled.isWritable,lock,Token.isWritable]
    rw [written]
    cases Text.isWritable j <;> rfl

theorem fires_release (here : monitor.net = net places initial) (attached : monitor.Attached) :
    monitor.fires (.lockRelease tid j) = decide (0 < monitor.marking.count "held" (lock j)) := by
  rw [fires,fate_release here attached]
  by_cases held : 0 < monitor.marking.count "held" (lock j)
  · simp [held]
  · rw [if_neg held,decide_eq_false held]
    cases Text.isWritable j <;> rfl

-- An acquisition fires if its seed can be told of, or was there before.
theorem fires_acquire (here : monitor.net = net places initial) (attached : monitor.Attached) :
    monitor.fires (.lockAcquire tid j) = !(copies j monitor.marking).mute j := by
  have told := @tellsSeeds_acquire _ _ _ tid j here
  have admitted : monitor.net.Admits monitor.marking.count (.lockAcquire tid j) acquire := by
    rw [here]
    exact admits_acquire
  rw [Bool.eq_iff_iff,fires,decide_eq_true_eq,fired_iff attached,told]
  simp only [Bool.not_eq_true',and_iff_left_iff_imp]
  exact fun _ => ⟨acquire,admitted⟩

-- Whatever the event, what it can touch is a lock.
theorem lock_of_footprint {pair : Str × Token} (member : pair ∈ (net places initial).footprint event) :
    ∃ k, pair.2 = lock k := by
  cases event with
  | lockAcquire tid k =>
    exact ⟨k,footprint_lockEvents (List.mem_cons_self : _ ∈ lockEvents tid k) pair member⟩
  | lockRelease tid k =>
    exact ⟨k,footprint_lockEvents (List.mem_cons_of_mem _ List.mem_cons_self : _ ∈ lockEvents tid k)
      pair member⟩
  | _ => exact absurd member List.not_mem_nil

theorem observe_other (here : monitor.net = net places initial) (attached : monitor.Attached)
    (other : ∀ k, token ≠ lock k) : (monitor.observe event location).monitor.marking.count place token =
      monitor.marking.count place token := by
  refine observe_frame attached fun member => ?_
  rw [here] at member
  obtain ⟨k,same⟩ := lock_of_footprint member
  exact other k same

namespace Explained

theorem acquire (here : monitor.net = net places initial) (attached : monitor.Attached)
    (explained : Explained monitor.marking history) :
    Explained (monitor.observe (.lockAcquire tid j) location).monitor.marking
      (monitor.firedBy history (.observe (.lockAcquire tid j) location)) := by
  refine ⟨fun k => ?_,fun token other => ?_⟩
  · have before := explained.locks k
    have after := congrArg Copies.held (@observe_acquire _ _ _ tid j k location here attached).2
    rw [firedBy,fires_acquire here attached]
    by_cases same : j = k
    · subst same
      rw [after_acquire] at after
      cases mute : (copies j monitor.marking).mute j with
      | true =>
        rw [mute] at after
        simp only [copies,if_true] at after
        simp only [Bool.not_true,Bool.false_eq_true,if_false]
        omega
      | false =>
        rw [mute] at after
        simp only [copies,Bool.false_eq_true,if_false] at after
        simp only [Bool.not_false,if_true,acquired_snoc,released_snoc,takes,givesBack,decide_true,
          Bool.false_eq_true,if_false]
        omega
    · rw [after_acquire_other same] at after
      simp only [copies] at after
      split
      · rw [acquired_snoc,released_snoc]
        simp only [takes,givesBack,same,decide_false,Bool.false_eq_true,if_false]
        omega
      · omega
  · rw [observe_other here attached other]
    exact explained.others token other

theorem release (here : monitor.net = net places initial) (attached : monitor.Attached)
    (explained : Explained monitor.marking history) :
    Explained (monitor.observe (.lockRelease tid j) location).monitor.marking
      (monitor.firedBy history (.observe (.lockRelease tid j) location)) := by
  refine ⟨fun k => ?_,fun token other => ?_⟩
  · have before := explained.locks k
    have after := congrArg Copies.held (@observe_release _ _ _ tid j k location here attached)
    rw [firedBy,fires_release here attached]
    by_cases held : 0 < monitor.marking.count "held" (lock j)
    · rw [if_pos (decide_eq_true held),acquired_snoc,released_snoc]
      by_cases same : j = k
      · subst same
        simp only [copies,held,and_self,if_true] at after
        simp only [takes,givesBack,decide_true,if_true,Bool.false_eq_true,if_false]
        omega
      · simp only [copies,same,false_and,if_false] at after
        simp only [takes,givesBack,same,decide_false,Bool.false_eq_true,if_false]
        omega
    · have idle : ¬ (j = k ∧ 0 < (copies k monitor.marking).held) := by
        rintro ⟨rfl,there⟩
        exact held there
      rw [if_neg idle] at after
      simp only [copies] at after
      rw [decide_eq_false held,if_neg Bool.false_ne_true,after]
      exact before
  · rw [observe_other here attached other]
    exact explained.others token other

-- Every event that is no lock event is passed by and changes nothing.
theorem ignored (unmapped : monitor.net.transitionFor event = none)
    (explained : Explained monitor.marking history) :
    Explained (monitor.observe event location).monitor.marking
      (monitor.firedBy history (.observe event location)) := by
  have idle : monitor.fires event = false := by
    rw [fires,fate_ignored unmapped]
    rfl
  have marked : (monitor.observe event location).monitor.marking = monitor.marking :=
    congrArg Engine.marking (observe_ignored location unmapped).2
  rw [firedBy,idle,if_neg Bool.false_ne_true,marked]
  exact explained

theorem begun (empty : initial.bag "held" = .empty) : Explained initial [] := by
  have none : ∀ token, initial.count "held" token = 0 := by
    intro token
    rw [Marking.count,empty,Bag.count_empty]
  exact ⟨fun k => none (lock k),fun token _ => none token⟩

theorem perform (empty : initial.bag "held" = .empty) (here : monitor.net = net places initial)
    (attached : monitor.Attached) (explained : Explained monitor.marking history) (call : Call) :
    Explained (monitor.perform call).marking (monitor.firedBy history call) := by
  cases call with
  | observe event location =>
    by_cases taking : event.kind = .lockAcquire
    · cases event <;> simp only [Event.kind,reduceCtorEq] at taking
      exact explained.acquire here attached
    · by_cases giving : event.kind = .lockRelease
      · cases event <;> simp only [Event.kind,reduceCtorEq] at giving
        exact explained.release here attached
      · have unmapped : monitor.net.transitionFor event = none := by
          rw [here]; exact transitionFor_other ⟨taking,giving⟩
        exact explained.ignored unmapped
  | reset =>
    have restored : (monitor.perform .reset).marking = initial := congrArg Net.initial here
    rw [restored]
    exact begun empty
  | endExecution =>
    rw [perform_endExecution]
    exact explained
  | clearCoverage => exact explained
  | close => exact explained

theorem run (empty : initial.bag "held" = .empty) (here : monitor.net = net places initial)
    (attached : monitor.Attached) (explained : Explained monitor.marking history) (calls : List Call) :
    Explained (monitor.run calls).marking (monitor.firedSince history calls) := by
  induction calls generalizing monitor history with
  | nil => exact explained
  | cons call rest ih =>
    exact ih (perform_net.trans here) (perform_attached attached) (explained.perform empty here attached call)

end Explained

-- What is held is told by the lock events that have fired since the last reset, and decides on
-- releases. One that cannot be told is not rejected but left without an answer.
theorem verdicts_follow_history (places : List Str) (initial : Marking) (config : Option Config)
    (logger : Logger) (journal : Option Journal) (calls : List Call)
    (empty : initial.bag "held" = .empty) :
    let start := startWith (net places initial) config logger journal
    let reached := start.run calls
    let history := start.firedSince [] calls
    (∀ k, released k history ≤ acquired k history ∧
      reached.marking.count "held" (lock k) = acquired k history - released k history) ∧
    (∀ token, (∀ k, token ≠ lock k) → reached.marking.count "held" token = 0) ∧
    (∀ tid k location, (reached.observe (.lockRelease tid k) location).verdict =
      if acquired k history - released k history = 0 ∧ Text.isWritable k = true then
        some ⟨"release",[("held",lock k)]⟩
      else none) ∧
    (∀ tid k location, acquired k history - released k history = 0 → Text.isWritable k = false →
      (reached.observe (.lockRelease tid k) location).result = .error .unwritable) ∧
    ∀ tid k, reached.fires (.lockRelease tid k) = true ↔
      acquired k history - released k history ≠ 0 := by
  intro start reached history
  have attached : reached.Attached := run_attached startWith_attached
  have here : reached.net = net places initial := run_net
  have explained : Explained reached.marking history :=
    (Explained.begun empty : Explained start.marking []).run empty rfl startWith_attached calls
  have held : ∀ k, 0 < reached.marking.count "held" (lock k) ↔
      ¬ acquired k history - released k history = 0 := by
    intro k
    have told := explained.locks k
    omega
  refine ⟨fun k => ?_,explained.others,fun tid k location => ?_,fun tid k location none long => ?_,
    fun tid k => ?_⟩
  · have told := explained.locks k
    omega
  · rw [observe_verdict,fate_release here attached]
    by_cases none : acquired k history - released k history = 0
    · rw [if_neg fun there => (held k).mp there none]
      cases written : Text.isWritable k <;> simp [none,Fate.refusal?]
    · rw [if_pos ((held k).mpr none)]
      simp [none,Fate.refusal?]
  · rw [observe_result,fate_release here attached,if_neg fun there => (held k).mp there none,long]
    rfl
  · rw [fires_release here attached,decide_eq_true_eq,held]

-- After a reset two threads take lock 42 and a third one gives it back; lock 5 was taken before
-- the reset only.
def sharedCalls : List Call := [.observe (.lockAcquire 1 5) none,.reset,
  .observe (.lockAcquire 1 42) none,.observe (.lockAcquire 2 42) none,.observe (.yield 1) none,
  .observe (.lockRelease 3 42) none,.observe (.lockRelease 1 7) none]

theorem verdicts_follow_history_shared :
    let reached := (startWith (net ["free","held"] oneFree) none .silent none).run sharedCalls
    oneFree.bag "held" = .empty ∧ reached.marking.count "held" (lock 42) = 1 ∧
      (reached.observe (.lockRelease 4 42) none).verdict = none ∧
      (reached.observe (.lockRelease 1 5) none).verdict = some ⟨"release",[("held",lock 5)]⟩ := by
  intro reached
  have empty : oneFree.bag "held" = .empty := by decide
  obtain ⟨counts,-,verdicts,-,-⟩ :=
    verdicts_follow_history ["free","held"] oneFree none .silent none sharedCalls empty
  have history : (startWith (net ["free","held"] oneFree) none .silent none).firedSince []
      sharedCalls = [.lockAcquire 1 42,.lockAcquire 2 42,.lockRelease 3 42] := by decide +kernel
  have short : Text.isWritable 5 = true := by decide +kernel
  rw [history] at counts verdicts
  exact ⟨empty,(counts 42).2,verdicts 4 42 none,
    (verdicts 1 5 none).trans (if_pos ⟨by decide,short⟩)⟩

-- A lock that was never taken is given back, and its number is too long to say so: the release is
-- not rejected.
theorem long_release_unanswered :
    let start := startWith (net ["free","held"] .empty) none .silent none
    let outcome := start.observe (.lockRelease 1 (10 ^ 4300)) none
    start.firedSince [] [] = [] ∧ outcome.verdict = none ∧ outcome.fault = some .unwritable := by
  refine ⟨rfl,?_,?_⟩ <;> decide +kernel

end Mutex

end ProtocolNet
