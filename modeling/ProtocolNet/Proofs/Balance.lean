import Mathlib.Algebra.Ring.Int.Defs
import Mathlib.Data.List.Dedup
import ProtocolNet.Proofs.Executions
import ProtocolNet.Proofs.LogReplay
import ProtocolNet.Proofs.Totals

namespace ProtocolNet

-- By how many tokens the arcs of an event's transition change a marking.
def Net.surplus (net : Net) (event : Event) : Int :=
  match net.transitionOf event with
  | none => 0
  | some transition => (transition.post.length : Int) - transition.pre.length

namespace Monitor

-- The seeds that an event lacks, those that it asks for more than once not told twice.
def unseeded (monitor : Monitor) (event : Event) : Nat :=
  (monitor.net.targets event).dedup.countP fun pair => monitor.marking.count pair.1 pair.2 = 0

-- What an event leaves in the marking that is stopped before its transition fires.
def stray? (monitor : Monitor) (event : Event) : Option (List MissingToken) :=
  match monitor.fate event with
  | .stopped _ => some (monitor.seeds? event)
  | _ => none

-- The events that are stopped, each by the seeds that it leaves behind.
def stoppages (monitor : Monitor) : List Call → List (List MissingToken)
  | [] => []
  | call :: rest =>
    let later := (monitor.perform call).stoppages rest
    match call with
    | .observe event _ => (monitor.stray? event).toList ++ later
    | _ => later

variable {monitor : Monitor} {event : Event} {location : Option SourceLocation} {call : Call}
  {calls : List Call} {id : Str}

-- Every event that was processed was ignored, fired or reported, or it was stopped.
theorem growth_balance : (monitor.growth event).processed = (monitor.growth event).ignored +
    (monitor.growth event).fired + (monitor.growth event).violations +
      (monitor.stray? event).toList.length := by
  unfold growth stray?
  cases monitor.fate event <;> rfl

theorem run_balance : (monitor.run calls).tally.processed + (monitor.tally.ignored +
    monitor.tally.fired + monitor.tally.violations) = monitor.tally.processed +
      ((monitor.run calls).tally.ignored + (monitor.run calls).tally.fired +
        (monitor.run calls).tally.violations) + (monitor.stoppages calls).length := by
  induction calls generalizing monitor with
  | nil => rfl
  | cons call rest ih =>
    have later := @ih (monitor.perform call)
    rw [perform_tally] at later
    rw [run_cons]
    cases call with
    | observe event location =>
      have here := @growth_balance monitor event
      simp only [Tally.plus,counts] at later
      simp only [stoppages,List.length_append]
      omega
    | reset | endExecution | clearCoverage | close => exact later

theorem growth_violations : (monitor.growth event).violations =
    (monitor.observe event location).violation.toList.length := by
  rw [observe_violation,growth]
  cases monitor.fate event <;> rfl

-- Each pair that is to be seeded and is absent is seeded once, unless the seeding is stopped.
theorem length_seededFor (mapped : monitor.net.transitionFor event = some id)
    (unstopped : (monitor.seededFor event id).fault = none) :
    (monitor.seededFor event id).seeded.length = monitor.unseeded event := by
  have once : ∀ place token, (monitor.seededFor event id).seeded.count (place,token) =
      if (place,token) ∈ monitor.net.targets event ∧ monitor.marking.count place token = 0 then 1
      else 0 := by
    intro place token
    have filled := count_seed_targets mapped unstopped place token
    rw [seededFor,count_seed_told,seededCounts] at filled
    rw [seededFor]
    by_cases target : (place,token) ∈ monitor.net.targets event
    · simp only [target,if_true,true_and] at filled ⊢
      change monitor.marking.count place token + _ = _ at filled
      split <;> omega
    · simp only [target,if_false,false_and] at filled ⊢
      change monitor.marking.count place token + _ = _ at filled
      omega
  have same : (monitor.seededFor event id).seeded.Perm ((monitor.net.targets event).dedup.filter
      fun pair => monitor.marking.count pair.1 pair.2 = 0) := by
    refine List.perm_iff_count.mpr fun pair => ?_
    rw [once,((List.nodup_dedup _).filter _).count]
    simp only [List.mem_filter,List.mem_dedup,decide_eq_true_eq]
  rw [same.length_eq,unseeded,List.countP_eq_length_filter]

theorem growth_seeded : (monitor.growth event).seeded =
    if monitor.fires event then monitor.unseeded event else 0 := by
  rw [growth,fires]
  cases course monitor event none with
  | ignored unmapped fate | rejected id refusal mapped unstopped refused fate
  | stopped id fault mapped halts fate => rw [fate]; rfl
  | fired id transition mapped known unstopped drawable fate =>
    rw [fate,if_pos (decide_eq_true rfl),← length_seededFor mapped unstopped,seeds?_mapped mapped]

-- The balance of one event. What a rejected one has seeded is gone again, what a stopped one has
-- seeded is not.
theorem total_observe (attached : monitor.Attached) :
    ((monitor.observe event location).monitor.marking.total : Int) = monitor.marking.total +
      (monitor.growth event).seeded + (if monitor.fires event then monitor.net.surplus event else 0) +
        ((monitor.stray? event).toList.map List.length).sum := by
  rw [growth,fires,stray?]
  cases course monitor event location with
  | ignored unmapped fate accepted kept =>
    rw [marking,kept,fate]
    simp [marking]
  | rejected id refusal mapped unstopped refused fate reported restored =>
    rw [Marking.total_congr restored,fate]
    simp
  | stopped id fault mapped halts fate unanswered left =>
    have seeded : (monitor.seededFor event id).engine.marking.total =
        monitor.marking.total + (monitor.seededFor event id).seeded.length := total_seed
    rw [marking,left,fate,seeds?_mapped mapped,seeded]
    simp
  | fired id transition mapped known unstopped drawable fate answered moved =>
    have fired := Marking.total_after drawable
    have seeded : (monitor.seededFor event id).engine.marking.total =
        monitor.marking.total + (monitor.seededFor event id).seeded.length := total_seed
    have surplus : monitor.net.surplus event =
        (transition.post.length : Int) - transition.pre.length := by
      rw [Net.surplus,(transitionOf_eq attached mapped).mpr known]
    rw [moved,fate,if_pos (decide_eq_true rfl),surplus,seeds?_mapped mapped]
    simp only [Option.toList_none,List.map_nil,List.sum_nil]
    omega

theorem growth_fired : (monitor.growth event).fired = if monitor.fires event then 1 else 0 := by
  rw [growth,fires]
  cases monitor.fate event <;> rfl

theorem fired_run : (monitor.run calls).tally.fired =
    monitor.tally.fired + (monitor.firings calls).length := by
  induction calls generalizing monitor with
  | nil => rfl
  | cons call rest ih =>
    have tally := congrArg Tally.fired (@perform_tally monitor call)
    rw [run_cons,ih,tally]
    cases call with
    | observe event location =>
      have grown : (monitor.counts (.observe event location)).fired = _ := growth_fired
      simp only [Tally.plus,grown]
      cases fires : monitor.fires event with
      | false => rw [firings_idle fires]; rfl
      | true =>
        rw [firings_fired fires,List.length_cons]
        exact Nat.add_right_comm _ 1 _
    | reset | endExecution | clearCoverage | close => rfl

theorem sum_firings (weight : Event → Int) (rest : List Call) :
    ((monitor.firings (.observe event location :: rest)).map fun fired => weight fired.1).sum =
      (if monitor.fires event then weight event else 0) +
        (((monitor.perform (.observe event location)).firings rest).map
          fun fired => weight fired.1).sum := by
  cases fires : monitor.fires event with
  | false => rw [firings_idle fires]; exact (Int.zero_add _).symm
  | true => rw [firings_fired fires]; rfl

-- The balance of calls between which there is no reset.
theorem total_run (attached : monitor.Attached) (unreset : Call.reset ∉ calls) :
    ((monitor.run calls).marking.total : Int) + monitor.tally.seeded = monitor.marking.total +
      (monitor.run calls).tally.seeded +
        ((monitor.firings calls).map fun fired => monitor.net.surplus fired.1).sum +
          ((monitor.stoppages calls).map List.length).sum := by
  induction calls generalizing monitor with
  | nil => simp [run,firings,stoppages]
  | cons call rest ih =>
    have later := @ih (monitor.perform call) (perform_attached attached) fun member =>
      unreset (List.mem_cons_of_mem _ member)
    rw [perform_net] at later
    rw [run_cons]
    cases call with
    | reset => exact absurd List.mem_cons_self unreset
    | observe event location =>
      have here := @total_observe _ event location attached
      have tally : (monitor.perform (.observe event location)).tally.seeded =
          monitor.tally.seeded + (monitor.growth event).seeded := congrArg Tally.seeded observe_tally
      change ((monitor.perform (.observe event location)).marking.total : Int) = _ at here
      rw [sum_firings,stoppages,List.map_append,List.sum_append]
      omega
    | endExecution =>
      have ended := @perform_endExecution monitor
      have marked : (monitor.perform .endExecution).marking = monitor.marking := by rw [ended]; rfl
      have tally : (monitor.perform .endExecution).tally = monitor.tally := by rw [ended]
      rw [marked,tally] at later
      exact later
    | clearCoverage => exact later
    | close => exact later

end Monitor

namespace Host

open Monitor

-- A host sends events through its hook, and asks all else of the monitor itself.
def perform (host : Host) : Call → Host
  | .observe event location => (host.emit event location).host
  | call => { host with monitor := host.monitor.perform call }

def run (host : Host) (calls : List Call) : Host := calls.foldl perform host

variable {host : Host} {call : Call} {calls : List Call}

-- A host that has been told of every violation that its monitor counts.
structure Told (host : Host) : Prop where
  watching : host.watching = true
  listed : host.monitor.tally.violations = host.violations.length

theorem Told.perform (told : Told host) (call : Call) :
    Told (host.perform call) ∧ (host.perform call).monitor = host.monitor.perform call := by
  have counted := congrArg Tally.violations (@perform_tally host.monitor call)
  cases call with
  | observe event location =>
    have heard : host.perform (.observe event location) = _ := emit_watching told.watching
    rw [heard]
    refine ⟨⟨rfl,counted.trans ?_⟩,rfl⟩
    rw [List.length_append,← growth_violations,← told.listed]
    rfl
  | reset | endExecution | clearCoverage | close =>
    exact ⟨⟨told.watching,counted.trans told.listed⟩,rfl⟩

theorem Told.run (told : Told host) (calls : List Call) :
    Told (host.run calls) ∧ (host.run calls).monitor = host.monitor.run calls := by
  induction calls generalizing host with
  | nil => exact ⟨told,rfl⟩
  | cons call rest ih =>
    obtain ⟨next,same⟩ := told.perform call
    obtain ⟨final,reached⟩ := ih next
    exact ⟨final,reached.trans (congrArg (Monitor.run · rest) same)⟩

end Host

namespace Monitor

-- Two sums balance in every state that calls lead to, but for the events that are stopped as a text
-- cannot be made: they are counted as processed and as nothing else, and the tokens that were seeded
-- for them stay in the marking and are not counted at all.
theorem statistics_balance (net : Net) (config : Option Config) (logger : Logger)
    (journal : Option Journal) (calls : List Call) :
    let start := startWith net config logger journal
    let reached := start.run calls
    let host := Host.run ⟨start,true,[]⟩ calls
    reached.tally.processed = reached.tally.ignored + reached.tally.fired +
      reached.tally.violations + (start.stoppages calls).length ∧
    host.monitor = reached ∧ reached.tally.violations = host.violations.length ∧
    (∀ before stretch, calls = before ++ stretch → Call.reset ∉ stretch →
      let earlier := start.run before
      let fired := earlier.firings stretch
      reached.tally.fired = earlier.tally.fired + fired.length ∧
      (reached.marking.total : Int) - earlier.marking.total =
        ((reached.tally.seeded : Int) - earlier.tally.seeded) +
          (fired.map fun entry => net.surplus entry.1).sum +
            ((earlier.stoppages stretch).map List.length).sum) ∧
    ∀ event location, (reached.observe event location).monitor.tally.seeded =
      reached.tally.seeded + if reached.fires event then reached.unseeded event else 0 := by
  intro start reached host
  have told : Host.Told ⟨start,true,[]⟩ := ⟨rfl,rfl⟩
  obtain ⟨⟨_,listed⟩,same⟩ := @Host.Told.run _ told calls
  rw [same] at listed
  have balance := @run_balance start calls
  have fresh : start.tally = {} := rfl
  refine ⟨?_,same,listed,?_,fun event location => ?_⟩
  · simpa [fresh] using balance
  · rintro before stretch rfl unreset earlier fired
    have balance := total_run (run_attached startWith_attached : earlier.Attached) unreset
    have nets : earlier.net = net := run_net
    have joined : earlier.run stretch = reached := (run_append before stretch).symm
    rw [nets,joined] at balance
    refine ⟨joined ▸ fired_run,?_⟩
    simp only [earlier,fired] at balance ⊢
    omega
  · rw [observe_tally]
    exact congrArg (reached.tally.seeded + ·) growth_seeded

-- A release whose number is too long is processed, and that is all; an acquisition of that kind
-- leaves a token in free besides, of which no count tells.
theorem stopped_event_unbalanced :
    let start := startWith (Mutex.net ["free","held"] .empty) none .silent none
    let released := start.run [.observe (.lockRelease 1 (10 ^ 4300)) none]
    let acquired := start.run [.observe (.lockAcquire 1 (10 ^ 4300)) none]
    (released.tally.processed,released.tally.ignored,released.tally.fired,
      released.tally.violations) = (1,0,0,0) ∧
    (acquired.marking.total,start.marking.total,acquired.tally.seeded,acquired.tally.fired) =
      (1,0,0,0) := by
  constructor <;> decide +kernel

end Monitor

end ProtocolNet
