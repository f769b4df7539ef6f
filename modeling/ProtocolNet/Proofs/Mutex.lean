import Mathlib.Data.List.Induction
import ProtocolNet.Proofs.Verdict

namespace ProtocolNet.Mutex
open Monitor

def arcOf (place : Str) : Arc := ⟨place,.named "L"⟩

def acquire : Transition := ⟨"acquire",[arcOf "free"],[arcOf "held"]⟩

def release : Transition := ⟨"release",[arcOf "held"],[arcOf "free"]⟩

-- A lock goes from free to held and back. The net maps no event and declares no
-- seeds, so that the lock events have their own transitions and an acquisition
-- seeds the lock in free.
def net (places : List Str) (initial : Marking) : Net where
  places
  transitions := .ofList [acquire,release]
  mapping := .empty
  initial
  seeds := none

def lock (k : Nat) : Token := .ident .lock k

-- All that the net knows of one lock.
structure Copies where
  free : Nat
  held : Nat
deriving DecidableEq, Repr

def copies (k : Nat) (marking : Marking) : Copies :=
  ⟨marking.count "free" (lock k),marking.count "held" (lock k)⟩

def Copies.total (copies : Copies) : Nat := copies.free + copies.held

-- No message can be made of a lock whose number is too long, so an acquisition that has
-- to seed it ends with the seed.
def Copies.mute (k : Nat) (copies : Copies) : Bool := copies.free = 0 && !Text.isWritable k

-- A lock as a machine of its own. An acquisition finds a copy in free in any case,
-- seeded there if none was left.
def Copies.after (k : Nat) (initial copies : Copies) : Call → Copies
  | .observe (.lockAcquire _ j) _ =>
    if j = k then
      if copies.mute k then { copies with free := 1 } else ⟨copies.free - 1,copies.held + 1⟩
    else copies
  | .observe (.lockRelease _ j) _ =>
    if j = k ∧ 0 < copies.held then ⟨copies.free + 1,copies.held - 1⟩ else copies
  | .reset => initial
  | _ => copies

variable {places : List Str} {initial : Marking} {monitor : Monitor} {tid j k : Nat}
  {place probe : Str} {binding : Binding} {token other : Token} {location : Option SourceLocation}

theorem transitionOf_acquire :
    (net places initial).transitionOf (.lockAcquire tid j) = some acquire := rfl

theorem transitionOf_release :
    (net places initial).transitionOf (.lockRelease tid j) = some release := rfl

theorem targets_acquire : (net places initial).targets (.lockAcquire tid j) = [(↑"free",lock j)] := rfl

theorem targets_release : (net places initial).targets (.lockRelease tid j) = [] := rfl

theorem lookup_acquire : (Event.lockAcquire tid j).binding.lookup ↑"L" = some (lock j) := rfl

theorem lookup_release : (Event.lockRelease tid j).binding.lookup ↑"L" = some (lock j) := rfl

theorem transitionFor_other {event : Event}
    (apart : event.kind ≠ .lockAcquire ∧ event.kind ≠ .lockRelease) :
    (net places initial).transitionFor event = none := by
  cases event <;> first | rfl | simp [Event.kind] at apart

theorem drawnCount_arcOf (bound : binding.lookup ↑"L" = some token) :
    drawnCount binding [arcOf place] probe other =
      if place = probe ∧ token = other then 1 else 0 := by
  rw [drawnCount_cons,drawnCount_nil,Nat.zero_add]
  simp [arcOf,Arc.resolve,Pattern.resolve,bound]

theorem givenCount_arcOf (bound : binding.lookup ↑"L" = some token) :
    givenCount binding [arcOf place] probe other =
      if place = probe ∧ token = other then 1 else 0 := by
  rw [givenCount_cons,givenCount_nil,Nat.zero_add]
  simp [arcOf,Arc.produced,Arc.resolve,Pattern.resolve,bound]

theorem drawable_arcOf {counts : Counts} (bound : binding.lookup ↑"L" = some token) :
    Drawable counts binding [arcOf place] ↔ 0 < counts place token := by
  constructor
  · rintro ⟨_,enough⟩
    have asked := enough place token
    rw [drawnCount_arcOf bound,if_pos ⟨rfl,rfl⟩] at asked
    exact asked
  · intro there
    refine ⟨fun arc member => ⟨token,?_⟩,fun probe other => ?_⟩
    · rw [List.mem_singleton.mp member]; exact bound
    · rw [drawnCount_arcOf bound]
      split
      · rename_i same
        obtain ⟨rfl,rfl⟩ := same
        exact there
      · exact Nat.zero_le _

theorem lock_inj : lock j = lock k ↔ j = k := by simp [lock]

-- Behind its seeding an acquisition finds its lock in free.
theorem admits_acquire {counts : Counts} :
    (net places initial).Admits counts (.lockAcquire tid j) acquire := by
  refine ⟨transitionOf_acquire,(drawable_arcOf lookup_acquire).mpr ?_⟩
  rw [targets_acquire]
  simp only [seededCounts,List.mem_singleton,if_true]
  omega

theorem mute_iff {copies : Copies} :
    copies.mute k = true ↔ copies.free = 0 ∧ Text.isWritable k = false := by
  simp [Copies.mute]

theorem after_acquire {initial here : Copies} :
    Copies.after k initial here (.observe (.lockAcquire tid k) location) =
      if here.mute k then { here with free := 1 } else ⟨here.free - 1,here.held + 1⟩ :=
  if_pos rfl

theorem after_acquire_other {initial here : Copies} (apart : j ≠ k) :
    Copies.after k initial here (.observe (.lockAcquire tid j) location) = here :=
  if_neg apart

theorem tellsSeeds_acquire (here : monitor.net = net places initial) :
    monitor.TellsSeeds (.lockAcquire tid j) ↔ (copies j monitor.marking).mute j = false := by
  have told : seedFault? monitor.logger (↑"free",lock j) = none ↔ Text.isWritable j = true := by
    rw [seedFault?_ofString,lock,Token.isWritable]
    cases Text.isWritable j <;> simp
  rw [← Bool.not_eq_true,mute_iff,not_and,Bool.not_eq_false,TellsSeeds,here,targets_acquire]
  simp only [List.forall_mem_singleton,told]
  rfl

theorem tellsSeeds_release (here : monitor.net = net places initial) :
    monitor.TellsSeeds (.lockRelease tid j) := by
  intro pair member
  rw [here,targets_release] at member
  cases member

theorem observe_acquire_mute (here : monitor.net = net places initial)
    (mute : (copies j monitor.marking).mute j = true) :
    (monitor.observe (.lockAcquire tid j) location).result = .error .unwritable ∧
    copies k (monitor.observe (.lockAcquire tid j) location).monitor.marking =
      Copies.after k (copies k initial) (copies k monitor.marking)
        (.observe (.lockAcquire tid j) location) := by
  have mapped : monitor.net.transitionFor (.lockAcquire tid j) = some ↑"acquire" := by rw [here]; rfl
  have one : monitor.net.targets (.lockAcquire tid j) = [(↑"free",lock j)] := by rw [here]; rfl
  have untold : ¬ monitor.TellsSeeds (.lockAcquire tid j) := by
    rw [tellsSeeds_acquire here,mute]
    exact Bool.noConfusion
  obtain ⟨fault,stopped,mutes,counted⟩ := observe_mute_one location mapped one untold
  obtain ⟨none,long⟩ := mute_iff.mp mute
  have unwritable : fault = .unwritable := by
    rw [seedFault?_ofString,lock,Token.isWritable,long] at mutes
    exact (Option.some.inj mutes).symm
  refine ⟨stopped.trans (congrArg Except.error unwritable),?_⟩
  by_cases same : j = k
  · subst same
    rw [after_acquire,mute]
    simp only [copies] at none ⊢
    simp [counted,none]
  · have apart : lock j ≠ lock k := fun equal => same (lock_inj.mp equal)
    rw [after_acquire_other same,copies,copies]
    simp [counted,apart]

theorem observe_acquire_told (here : monitor.net = net places initial) (attached : monitor.Attached)
    (told : (copies j monitor.marking).mute j = false) :
    (monitor.observe (.lockAcquire tid j) location).result =
      (if monitor.digests then
        (monitor.observe (.lockAcquire tid j) location).monitor.marking.digest.map fun _ => none
      else .ok none) ∧
    copies k (monitor.observe (.lockAcquire tid j) location).monitor.marking =
      Copies.after k (copies k initial) (copies k monitor.marking)
        (.observe (.lockAcquire tid j) location) := by
  have tells := (@tellsSeeds_acquire _ _ _ tid _ here).mpr told
  have admitted : monitor.net.Admits monitor.marking.count (.lockAcquire tid j) acquire := by
    rw [here]
    exact admits_acquire
  obtain ⟨silent,balance⟩ := observe_admitted location attached admitted tells
  refine ⟨silent,?_⟩
  have inFree := balance "free" (lock k)
  have inHeld := balance "held" (lock k)
  rw [here,targets_acquire,acquire,drawnCount_arcOf lookup_acquire,
    givenCount_arcOf lookup_acquire] at inFree inHeld
  by_cases same : j = k
  · subst same
    simp [seededCounts] at inFree inHeld
    rw [after_acquire,told]
    simp only [copies,Copies.mk.injEq,Bool.false_eq_true,if_false]
    omega
  · have apart : lock k ≠ lock j := fun equal => same (lock_inj.mp equal).symm
    simp [seededCounts,apart,apart.symm] at inFree inHeld
    rw [after_acquire_other same,copies,inFree,inHeld,copies]

-- An acquisition is never reported. It is accepted in every marking, if only its seed can be told of.
theorem observe_acquire (here : monitor.net = net places initial) (attached : monitor.Attached) :
    (monitor.observe (.lockAcquire tid j) location).result =
      (if (copies j monitor.marking).mute j then .error .unwritable
      else if monitor.digests then
        (monitor.observe (.lockAcquire tid j) location).monitor.marking.digest.map fun _ => none
      else .ok none) ∧
    copies k (monitor.observe (.lockAcquire tid j) location).monitor.marking =
      Copies.after k (copies k initial) (copies k monitor.marking)
        (.observe (.lockAcquire tid j) location) := by
  cases mute : (copies j monitor.marking).mute j with
  | true => exact observe_acquire_mute here mute
  | false => exact observe_acquire_told here attached mute

theorem observe_release_held (here : monitor.net = net places initial) (attached : monitor.Attached)
    (held : 0 < monitor.marking.count "held" (lock j)) :
    copies k (monitor.observe (.lockRelease tid j) location).monitor.marking =
      if j = k then
        ⟨(copies k monitor.marking).free + 1,(copies k monitor.marking).held - 1⟩
      else copies k monitor.marking := by
  have told := @tellsSeeds_release _ _ _ tid j here
  have admitted : monitor.net.Admits monitor.marking.count (.lockRelease tid j) release := by
    rw [here]
    refine ⟨transitionOf_release,(drawable_arcOf lookup_release).mpr ?_⟩
    rw [targets_release]
    simpa [seededCounts] using held
  obtain ⟨_,balance⟩ := observe_admitted location attached admitted told
  have inFree := balance "free" (lock k)
  have inHeld := balance "held" (lock k)
  rw [here,targets_release,release,drawnCount_arcOf lookup_release,
    givenCount_arcOf lookup_release] at inFree inHeld
  by_cases same : j = k
  · subst same
    simp [seededCounts] at inFree inHeld
    simp only [copies,if_true,Copies.mk.injEq]
    omega
  · have apart : lock j ≠ lock k := fun equal => same (lock_inj.mp equal)
    simp [seededCounts,apart] at inFree inHeld
    simp [copies,same,inFree,inHeld]

theorem count_release_idle {place : Str} (here : monitor.net = net places initial)
    (attached : monitor.Attached) (idle : ¬ 0 < monitor.marking.count "held" (lock j)) :
    (monitor.observe (.lockRelease tid j) location).monitor.marking.count place token =
      monitor.marking.count place token := by
  have mapped : monitor.net.transitionFor (.lockRelease tid j) = some ↑"release" := by rw [here]; rfl
  have refused : ∀ transition,
      ¬ monitor.net.Admits monitor.marking.count (.lockRelease tid j) transition := by
    rintro transition ⟨known,drawable⟩
    rw [here] at known drawable
    cases Option.some.inj (known.symm.trans transitionOf_release)
    have asked := (drawable_arcOf lookup_release).mp drawable
    rw [targets_release] at asked
    exact idle (by simpa [seededCounts] using asked)
  obtain ⟨reported,stopped⟩ :=
    observe_refused location attached mapped (tellsSeeds_release here) refused
  by_cases speaks : monitor.TellsLack (.lockRelease tid j)
  · obtain ⟨_,_,_,restored⟩ := reported speaks
    exact restored place token
  · rw [(stopped speaks).2,here,targets_release]
    simp [seededCounts]

-- A release is accepted exactly when the lock is in held, and changes nothing else.
theorem observe_release (here : monitor.net = net places initial) (attached : monitor.Attached) :
    copies k (monitor.observe (.lockRelease tid j) location).monitor.marking =
      if j = k ∧ 0 < (copies k monitor.marking).held then
        ⟨(copies k monitor.marking).free + 1,(copies k monitor.marking).held - 1⟩
      else copies k monitor.marking := by
  by_cases there : 0 < monitor.marking.count "held" (lock j)
  · rw [observe_release_held here attached there]
    by_cases same : j = k
    · subst same
      rw [if_pos rfl,if_pos ⟨rfl,there⟩]
    · rw [if_neg same,if_neg fun both => same both.1]
  · have idle : ¬ (j = k ∧ 0 < (copies k monitor.marking).held) := by
      rintro ⟨rfl,held⟩
      exact there held
    rw [if_neg idle]
    simp only [copies,count_release_idle here attached there]

theorem perform_copies (here : monitor.net = net places initial) (attached : monitor.Attached)
    (call : Call) : copies k (monitor.perform call).marking =
      Copies.after k (copies k initial) (copies k monitor.marking) call := by
  cases call with
  | observe event location =>
    by_cases taking : event.kind = .lockAcquire
    · cases event <;> simp only [Event.kind,reduceCtorEq] at taking
      exact (observe_acquire here attached).2
    · by_cases giving : event.kind = .lockRelease
      · cases event <;> simp only [Event.kind,reduceCtorEq] at giving
        exact observe_release here attached
      · have unmapped : monitor.net.transitionFor event = none := by
          rw [here]; exact transitionFor_other ⟨taking,giving⟩
        have same := (observe_ignored location unmapped).2
        have marked : (monitor.perform (.observe event location)).marking = monitor.marking :=
          congrArg Engine.marking same
        rw [marked]
        cases event <;> first | rfl | simp [Event.kind] at taking giving
  | reset => simp only [perform,reset,marking,here]; rfl
  | endExecution => rw [perform_endExecution]; rfl
  | clearCoverage => rfl
  | close => rfl

theorem run_copies (here : monitor.net = net places initial) (attached : monitor.Attached)
    (calls : List Call) : copies k (monitor.run calls).marking =
      calls.foldl (Copies.after k (copies k initial)) (copies k monitor.marking) := by
  induction calls generalizing monitor with
  | nil => rfl
  | cons call rest ih =>
    rw [run_cons,ih (perform_net.trans here) (perform_attached attached),perform_copies here attached]
    rfl

-- Since the last reset, an acquisition of a lock that was in held.
def Reacquired (start : Monitor) (calls : List Call) (k : Nat) : Prop :=
  ∃ before tid location after,
    calls = before ++ .observe (.lockAcquire tid k) location :: after ∧ Call.reset ∉ after ∧
    0 < (start.run before).marking.count "held" (lock k)

theorem reacquired_iff_since {start : Monitor} {calls : List Call} : Reacquired start calls k ↔
    Since .reset (fun before call => ∃ tid location,
      call = .observe (.lockAcquire tid k) location ∧
        0 < (start.run before).marking.count "held" (lock k)) calls := by
  constructor
  · rintro ⟨before,tid,location,after,divided,kept,held⟩
    exact ⟨before,_,after,divided,kept,tid,location,rfl,held⟩
  · rintro ⟨before,_,after,divided,kept,tid,location,rfl,held⟩
    exact ⟨before,tid,location,after,divided,kept,held⟩

theorem reacquired_snoc {start : Monitor} {calls : List Call} {call : Call} :
    Reacquired start (calls ++ [call]) k ↔
      (call ≠ .reset ∧ Reacquired start calls k) ∨
      ∃ tid location, call = .observe (.lockAcquire tid k) location ∧
        0 < (start.run calls).marking.count "held" (lock k) := by
  rw [reacquired_iff_since,reacquired_iff_since,since_snoc]

-- Only an acquisition of a held lock makes a second copy, and only a reset takes
-- it away: releases and first acquisitions move or make one copy.
theorem total_after {start here : Copies} {call : Call} (once : start.total ≤ 1) :
    (Copies.after k start here call).total ≤ 1 ↔
      call = .reset ∨ (here.total ≤ 1 ∧
        ¬ ∃ tid location, call = .observe (.lockAcquire tid k) location ∧ 0 < here.held) := by
  rcases here with ⟨free,held⟩
  cases call with
  | observe event location =>
    cases event with
    | lockAcquire tid j =>
      by_cases same : j = k
      · subst same
        rw [after_acquire]
        cases mute : Copies.mute j ⟨free,held⟩ with
        | true =>
          have none : free = 0 := (mute_iff.mp mute).1
          simp [Copies.total,none]; omega
        | false => simp [Copies.total]; omega
      · simp [Copies.after,same]
    | lockRelease tid j =>
      by_cases given : j = k ∧ 0 < held
      · simp [Copies.after,given,Copies.total]; omega
      · simp [Copies.after,given]
    | _ => simp [Copies.after]
  | reset => simp [Copies.after,once]
  | _ => simp [Copies.after]

theorem total_run {config : Option Config} {logger : Logger} {journal : Option Journal} (calls : List Call)
    (once : (copies k initial).total ≤ 1) :
    (copies k ((startWith (net places initial) config logger journal).run calls).marking).total ≤ 1 ↔
      ¬ Reacquired (startWith (net places initial) config logger journal) calls k := by
  induction calls using List.reverseRecOn with
  | nil =>
    refine iff_of_true once ?_
    rw [reacquired_iff_since]
    exact not_since_nil
  | append_singleton calls call ih =>
    have reached : ((startWith (net places initial) config logger journal).run calls).Attached :=
      run_attached startWith_attached
    rw [run_snoc,perform_copies run_net reached,total_after once,ih,reacquired_snoc]
    by_cases again : call = .reset
    · subst again; simp
    · simp only [again,false_or,ne_eq,not_false_eq_true,true_and,not_or]
      rfl

theorem once_iff_not_reacquired (places : List Str) (initial : Marking)
    (config : Option Config) (logger : Logger) (journal : Option Journal) (calls : List Call)
    (once : ∀ k, initial.count "free" (lock k) + initial.count "held" (lock k) ≤ 1) :
    let start := startWith (net places initial) config logger journal
    let reached := start.run calls
    (∀ k, reached.marking.count "free" (lock k) + reached.marking.count "held" (lock k) ≤ 1 ↔
      ¬ Reacquired start calls k) ∧
    ∀ tid k location,
      let outcome := reached.observe (.lockAcquire tid k) location
      outcome.violation = none ∧
      (Text.isWritable k = true ∨ 0 < reached.marking.count "free" (lock k) →
        outcome.result = (if reached.digests then outcome.monitor.marking.digest.map fun _ => none
          else .ok none) ∧
        outcome.monitor.marking.count "held" (lock k) =
          reached.marking.count "held" (lock k) + 1) ∧
      (Text.isWritable k = false → reached.marking.count "free" (lock k) = 0 →
        outcome.result = .error .unwritable ∧
        outcome.monitor.marking.count "held" (lock k) = reached.marking.count "held" (lock k) ∧
        outcome.monitor.marking.count "free" (lock k) = 1) := by
  intro start reached
  refine ⟨fun k => total_run calls (once k),fun tid k location => ?_⟩
  have attached : reached.Attached := run_attached startWith_attached
  obtain ⟨answered,next⟩ := @observe_acquire _ _ _ tid k k location run_net attached
  rw [after_acquire] at next
  intro outcome
  refine ⟨?_,fun speaks => ?_,fun long none => ?_⟩
  · rw [Outcome.violation,answered]
    cases (copies k reached.marking).mute k with
    | true => rfl
    | false => cases reached.digests <;> cases outcome.monitor.marking.digest <;> rfl
  · have told : (copies k reached.marking).mute k = false := by
      rw [← Bool.not_eq_true,mute_iff,not_and]
      rintro none long
      rcases speaks with short | free
      · rw [short] at long; cases long
      · exact absurd none (Nat.pos_iff_ne_zero.mp free)
    rw [told] at answered next
    exact ⟨answered,congrArg Copies.held next⟩
  · have mute : (copies k reached.marking).mute k = true := mute_iff.mpr ⟨none,long⟩
    rw [mute] at answered next
    exact ⟨answered,congrArg Copies.held next,congrArg Copies.free next⟩

-- Lock 42 is free, and two threads acquire it, nobody having released it.
def oneFree : Marking := Marking.empty.add "free" (lock 42) 1

def twice : List Call :=
  [.observe (.lockAcquire 1 42) none,.observe (.lockAcquire 2 42) none]

theorem copies_oneFree : copies k oneFree = if k = 42 then ⟨1,0⟩ else ⟨0,0⟩ := by
  simp only [copies,oneFree,Marking.count_add]
  by_cases same : k = 42
  · subst same; rfl
  · have apart : lock 42 ≠ lock k := fun equal => same (lock_inj.mp equal).symm
    simp only [apart,same,and_false,if_false]
    rfl

theorem once_oneFree (k : Nat) : (copies k oneFree).total ≤ 1 := by
  rw [copies_oneFree]; split <;> decide

theorem once_iff_not_reacquired_twice :
    (∀ k, oneFree.count "free" (lock k) + oneFree.count "held" (lock k) ≤ 1) ∧
    let start := startWith (net ["free","held"] oneFree) none .silent none
    let reached := start.run twice
    (∀ k, reached.marking.count "free" (lock k) + reached.marking.count "held" (lock k) ≤ 1 ↔
      ¬ Reacquired start twice k) ∧
    ∀ tid k location,
      let outcome := reached.observe (.lockAcquire tid k) location
      Text.isWritable k = true ∨ 0 < reached.marking.count "free" (lock k) →
        outcome.violation = none ∧ outcome.monitor.marking.count "held" (lock k) =
          reached.marking.count "held" (lock k) + 1 := by
  obtain ⟨once,taken⟩ :=
    once_iff_not_reacquired ["free","held"] oneFree none .silent none twice once_oneFree
  refine ⟨once_oneFree,once,?_⟩
  intro tid k location outcome speaks
  obtain ⟨silent,accepted,-⟩ := taken tid k location
  exact ⟨silent,(accepted speaks).2⟩

-- The second acquisition is accepted although the lock is held, and the net holds
-- it twice from then on.
theorem held_lock_acquired_again :
    let start := startWith (net ["free","held"] oneFree) none .silent none
    let first := start.run (twice.take 1)
    let second := start.run twice
    (∀ k, oneFree.count "free" (lock k) + oneFree.count "held" (lock k) ≤ 1) ∧
    first.marking.count "held" (lock 42) = 1 ∧
    (first.observe (.lockAcquire 2 42) none).result = .ok none ∧
    ¬ second.marking.count "free" (lock 42) + second.marking.count "held" (lock 42) ≤ 1 := by
  intro start first second
  have state : ∀ calls, copies 42 (start.run calls).marking =
      calls.foldl (Copies.after 42 ⟨1,0⟩) ⟨1,0⟩ := by
    intro calls
    have simulated : copies 42 (start.run calls).marking =
        calls.foldl (Copies.after 42 (copies 42 oneFree)) (copies 42 oneFree) :=
      run_copies rfl startWith_attached calls
    rwa [copies_oneFree] at simulated
  refine ⟨once_oneFree,congrArg Copies.held (state (twice.take 1)),?_,?_⟩
  · have short : Text.isWritable 42 = true := by decide +kernel
    have told : (copies 42 first.marking).mute 42 = false := by
      rw [Copies.mute,short,Bool.not_true,Bool.and_false]
    have answered := (@observe_acquire _ _ _ 2 42 42 none rfl
      (run_attached startWith_attached : first.Attached)).1
    have quiet : first.digests = false := run_quiet rfl
    rw [told,quiet] at answered
    exact answered
  · have folded : twice.foldl (Copies.after 42 ⟨1,0⟩) ⟨1,0⟩ = ⟨0,2⟩ := by decide +kernel
    have counted : (copies 42 second.marking).total = 2 := by rw [state twice,folded]; rfl
    simp only [Copies.total,copies] at counted
    omega

end ProtocolNet.Mutex
