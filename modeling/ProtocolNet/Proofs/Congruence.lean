import ProtocolNet.Drawing
import ProtocolNet.Proofs.LogReplay

namespace ProtocolNet

namespace Marking

-- Markings of which all that is ever written comes out the same. The names of the places
-- that are stored are not among it.
structure ReadsAlike (left right : Marking) : Prop where
  items : left.contents = right.contents
  text : left.text = right.text
  digest : left.digest = right.digest
  report : ∀ violation : Violation, Violation.report { violation with marking := left } =
    Violation.report { violation with marking := right }
  graph : ∀ net, Drawing.graph net left = Drawing.graph net right
  table : ∀ net width, Drawing.table net left width = Drawing.table net right width

variable {left right : Marking}

theorem bag_congr (same : left.sameContents right = true) (place : Str) :
    left.bag place = right.bag place :=
  Bag.ext_count (sameContents_iff.mp same place)

theorem readsAlike (same : left.sameContents right = true) : ReadsAlike left right := by
  have items : left.contents = right.contents := of_decide_eq_true same
  have digest := digest_congr same
  have bags : left.bag = right.bag := funext (bag_congr same)
  refine ⟨items,?_,digest,?_,?_,?_⟩
  · rw [text,text,isWritable,isWritable,items]
  · intro violation
    simp only [Violation.report,Violation.isWritable,Violation.reportLines,Violation.headLines,
      isWritable,items]
  · intro net
    simp only [Drawing.graph,Drawing.isWritable,Drawing.graphLines,bags]
  · intro net width
    simp only [Drawing.table,Drawing.tableLines,bags,digest]

end Marking

namespace Journal

-- A log as it stands: what was written, and what becomes of further records.
def state (journal : Journal) : List String × Nat × Option (Nat → Bool) :=
  (journal.records,journal.attempts,journal.accepts)

variable {journal journal' : Journal} {event : Event} {digest : Nat}

theorem append_state (same : journal.state = journal'.state) :
    (journal.append event digest).state = (journal'.append event digest).state := by
  obtain ⟨path,records,attempts,accepts⟩ := journal
  obtain ⟨path',records',attempts',accepts'⟩ := journal'
  cases same
  cases accepts with
  | none => rfl
  | some accepts => cases writable : event.isWritable <;> simp [append,writable,state]

theorem close_state (same : journal.state = journal'.state) :
    journal.close.state = journal'.close.state := by
  obtain ⟨path,records,attempts,accepts⟩ := journal
  obtain ⟨path',records',attempts',accepts'⟩ := journal'
  cases same
  rfl

theorem map_congr {change : Journal → Journal} {log log' : Option Journal}
    (respects : ∀ journal journal', journal.state = journal'.state →
      (change journal).state = (change journal').state)
    (same : log.map state = log'.map state) :
    log.map (state ∘ change) = log'.map (state ∘ change) := by
  cases log with
  | none =>
    cases log' with
    | none => rfl
    | some journal' => cases same
  | some journal =>
    cases log' with
    | none => cases same
    | some journal' => exact congrArg some (respects _ _ (Option.some.inj same))

end Journal

namespace Monitor

-- All that a violation says besides the marking.
def bare (violation : Violation) : Violation := { violation with marking := .empty }

-- A violation without its marking, and what is written of it with the marking.
def said (violation : Violation) : Violation × Except TextFault Str := (bare violation,violation.report)

-- The rejections of events, and all answers to them: an event is accepted, rejected, or not answered
-- since a text could not be made.
def rejections (monitor : Monitor) : List Call → List (Option (Violation × Except TextFault Str))
  | [] => []
  | call :: rest =>
    let later := (monitor.perform call).rejections rest
    match call with
    | .observe event location => (monitor.observe event location).violation.map said :: later
    | _ => later

def responses (monitor : Monitor) :
    List Call → List (Except TextFault (Option (Violation × Except TextFault Str)))
  | [] => []
  | call :: rest =>
    let later := (monitor.perform call).responses rest
    match call with
    | .observe event location => (monitor.observe event location).result.map (·.map said) :: later
    | _ => later

-- The answers at the ends of executions: a digest, if there is one, and whether it is a new one.
def coverage (monitor : Monitor) : List Call → List (Except TextFault (Nat × Bool))
  | [] => []
  | call :: rest =>
    let later := (monitor.perform call).coverage rest
    match call with
    | .endExecution => monitor.endExecution.map (·.2) :: later
    | _ => later

def SameSeen (left right : Monitor) : Prop := ∀ digest, digest ∈ left.seen ↔ digest ∈ right.seen

-- Logs that stand alike, wherever their files are.
def SameLog (left right : Monitor) : Prop :=
  left.journal.map Journal.state = right.journal.map Journal.state

variable {monitor left right : Monitor} {event : Event} {location : Option SourceLocation}
  {call : Call} {calls : List Call}

theorem endExecution_told : monitor.endExecution.map (·.2) =
    monitor.marking.digest.map fun digest => (digest,!decide (digest ∈ monitor.seen)) := by
  cases made : monitor.marking.digest with
  | error fault => rw [endExecution_error made]; rfl
  | ok digest => rw [endExecution_ok made]; rfl

theorem SameLog.digests (log : SameLog left right) (debugs : left.debug = right.debug) :
    left.digests = right.digests := by
  have opened (journal : Option Journal) : journal.any (·.accepts.isSome) =
      (journal.map Journal.state).any (·.2.2.isSome) := by
    cases journal <;> rfl
  rw [Monitor.digests,Monitor.digests,debugs,opened,opened,log]

-- No log comes up where there was none.
theorem run_bare (bare : monitor.journal = none) : (monitor.run calls).journal = none := by
  induction calls generalizing monitor with
  | nil => exact bare
  | cons call rest ih =>
    refine ih ?_
    cases call with
    | observe event location =>
      rw [perform,observe_journal,bare]
      split
      · split <;> rfl
      · rfl
    | endExecution => rw [perform_endExecution]; exact bare
    | reset | clearCoverage => exact bare
    | close => exact congrArg (Option.map Journal.close) bare

theorem perform_debug : (monitor.perform call).debug = monitor.debug := by
  cases call with
  | observe event location => rw [debug,debug,perform,observe_config]
  | endExecution => rw [perform_endExecution]; rfl
  | reset | clearCoverage | close => rfl

theorem run_debug : (monitor.run calls).debug = monitor.debug := by
  induction calls generalizing monitor with
  | nil => rfl
  | cons call rest ih => exact ih.trans perform_debug

namespace Alike

-- Every call takes monitors with the same contents to monitors with the same contents.
theorem perform (alike : Alike left right) (call : Call) :
    Alike (left.perform call) (right.perform call) := by
  have nets : (left.perform call).net = (right.perform call).net := by
    rw [perform_net,perform_net,alike.net]
  have voice : SameVoice (left.perform call).logger (right.perform call).logger := by
    rw [perform_logger,perform_logger]
    exact alike.voice
  refine ⟨nets,voice,perform_attached alike.attached,perform_attached alike.attached',?_⟩
  cases call with
  | observe event location => exact (alike.observe event location location).counts
  | reset =>
    intro place token
    show left.net.initial.count place token = right.net.initial.count place token
    rw [alike.net]
  | endExecution => rw [perform_endExecution,perform_endExecution]; exact alike.counts
  | clearCoverage | close => exact alike.counts

theorem digest (alike : Alike left right) : left.marking.digest = right.marking.digest :=
  Marking.digest_congr alike.sameContents

theorem said_congr (alike : Alike left right) (refusal : NotEnabled) :
    said (.ofEvent event location refusal left.marking) =
      said (.ofEvent event location refusal right.marking) := by
  have report := (Marking.readsAlike alike.sameContents).report
    (.ofEvent event location refusal .empty)
  exact Prod.ext rfl report

theorem rejection (alike : Alike left right) :
    (left.observe event location).violation.map said =
      (right.observe event location).violation.map said := by
  have next := alike.observe event location location
  rw [observe_violation,observe_violation,(alike.forEvent event).fate,Option.map_map,Option.map_map]
  congr 1
  funext refusal
  exact next.said_congr refusal

theorem response (alike : Alike left right) (digests : left.digests = right.digests) :
    (left.observe event location).result.map (·.map said) =
      (right.observe event location).result.map (·.map said) := by
  have next := alike.observe event location location
  rw [observe_result,observe_result,(alike.forEvent event).fate,digests,next.digest]
  cases right.fate event with
  | ignored | stopped fault => rfl
  | fired => cases right.digests <;> rfl
  | rejected refusal => exact congrArg (Except.ok ∘ some) (next.said_congr refusal)

theorem sameLog (alike : Alike left right) (log : SameLog left right) :
    SameLog (left.perform call) (right.perform call) := by
  cases call with
  | observe event location =>
    have fires := (alike.forEvent event).fires
    have digest := (alike.observe event location location).digest
    show Option.map Journal.state (left.observe event location).monitor.journal =
      Option.map Journal.state (right.observe event location).monitor.journal
    rw [observe_journal,observe_journal,fires,digest]
    split
    · split
      · rw [Option.map_map,Option.map_map]
        exact Journal.map_congr (fun _ _ => Journal.append_state) log
      · exact log
    · exact log
  | endExecution => rw [perform_endExecution,perform_endExecution]; exact log
  | close =>
    show Option.map Journal.state (left.journal.map Journal.close) =
      Option.map Journal.state (right.journal.map Journal.close)
    rw [Option.map_map,Option.map_map]
    exact Journal.map_congr (fun _ _ => Journal.close_state) log
  | reset | clearCoverage => exact log

theorem sameSeen (alike : Alike left right) (seen : SameSeen left right) :
    SameSeen (left.perform call) (right.perform call) := by
  intro digest
  cases call with
  | endExecution =>
    rw [perform_seen,perform_seen,seenAfter,seenAfter,alike.digest]
    split
    · rw [List.mem_insert_iff,List.mem_insert_iff,seen digest]
    · exact seen digest
  | clearCoverage => exact Iff.rfl
  | observe | reset | close => rw [perform_seen,perform_seen]; exact seen digest

theorem ended (alike : Alike left right) (seen : SameSeen left right) :
    left.endExecution.map (·.2) = right.endExecution.map (·.2) := by
  rw [endExecution_told,endExecution_told,alike.digest]
  cases right.marking.digest with
  | error fault => rfl
  | ok digest => simp only [Except.map,seen digest]

theorem run_calls (alike : Alike left right) (calls : List Call) :
    left.rejections calls = right.rejections calls ∧ left.firings calls = right.firings calls ∧
      Alike (left.run calls) (right.run calls) := by
  induction calls generalizing left right with
  | nil => exact ⟨rfl,rfl,alike⟩
  | cons call rest ih =>
    obtain ⟨rejections,firings,final⟩ := ih (alike.perform call)
    cases call with
    | observe event location =>
      have fires := (alike.forEvent event).fires
      have digest := (alike.observe event location location).digest
      refine ⟨?_,?_,final⟩
      · simp only [Monitor.rejections,rejections,alike.rejection]
      · simp only [Monitor.firings,firings,fires]
        show (if right.fires event = true then
          (event,(left.observe event location).monitor.marking.digest) :: _ else _) = _
        rw [digest]
        rfl
    | reset | endExecution | clearCoverage | close => exact ⟨rejections,firings,final⟩

theorem run_coverage (alike : Alike left right) (seen : SameSeen left right) (calls : List Call) :
    left.coverage calls = right.coverage calls ∧ SameSeen (left.run calls) (right.run calls) := by
  induction calls generalizing left right with
  | nil => exact ⟨rfl,seen⟩
  | cons call rest ih =>
    obtain ⟨coverage,final⟩ := ih (alike.perform call) (alike.sameSeen seen)
    refine ⟨?_,final⟩
    cases call with
    | endExecution => simp only [Monitor.coverage,coverage,alike.ended seen]
    | observe | reset | clearCoverage | close => exact coverage

theorem run_responses (alike : Alike left right) (log : SameLog left right)
    (debugs : left.debug = right.debug) (calls : List Call) :
    left.responses calls = right.responses calls := by
  induction calls generalizing left right with
  | nil => rfl
  | cons call rest ih =>
    have debugs' : (left.perform call).debug = (right.perform call).debug := by
      rw [perform_debug,perform_debug,debugs]
    have later := ih (alike.perform call) (alike.sameLog log) debugs'
    cases call with
    | observe event location =>
      simp only [Monitor.responses,later,alike.response (log.digests debugs)]
    | reset | endExecution | clearCoverage | close => exact later

theorem run_log (alike : Alike left right) (log : SameLog left right) (calls : List Call) :
    SameLog (left.run calls) (right.run calls) := by
  induction calls generalizing left right with
  | nil => exact log
  | cons call rest ih => exact ih (alike.perform call) (alike.sameLog log)

end Alike

-- Which empty places are stored is never noticed: monitors whose markings have the same
-- contents, and whose loggers have one voice, answer any calls alike, and all that is written of their markings is the same.
theorem equal_contents_behave_alike (left right : Monitor) (net : left.net = right.net)
    (voice : SameVoice left.logger right.logger) (attached : left.Attached) (attached' : right.Attached)
    (contents : left.marking.sameContents right.marking = true) (calls : List Call) :
    left.rejections calls = right.rejections calls ∧
    left.firings calls = right.firings calls ∧
    (SameLog left right → SameLog (left.run calls) (right.run calls) ∧
      (left.debug = right.debug → left.responses calls = right.responses calls)) ∧
    (SameSeen left right → left.coverage calls = right.coverage calls ∧
      SameSeen (left.run calls) (right.run calls)) ∧
    (left.run calls).marking.sameContents (right.run calls).marking = true ∧
    Marking.ReadsAlike (left.run calls).marking (right.run calls).marking := by
  have alike : Alike left right := ⟨net,voice,attached,attached',Marking.sameContents_iff.mp contents⟩
  obtain ⟨rejections,firings,final⟩ := alike.run_calls calls
  refine ⟨rejections,firings,?_,?_,final.sameContents,Marking.readsAlike final.sameContents⟩
  · intro log
    exact ⟨alike.run_log log calls,fun debugs => alike.run_responses log debugs calls⟩
  · intro seen
    exact alike.run_coverage seen calls

-- One monitor has seen lock 42 taken and given back and a lock refused that was not taken,
-- the other one nothing: the first stores a place that the second does not.
theorem equal_contents_behave_alike_emptied :
    let fresh := startWith (Mutex.net ["free","held"] Mutex.oneFree) none .silent none
    let used := fresh.run [.observe (.lockAcquire 1 42) none,.observe (.lockRelease 1 42) none,
      .observe (.lockRelease 2 7) none]
    let calls : List Call := [.observe (.lockRelease 3 42) none,.observe (.lockAcquire 3 42) none,
      .endExecution]
    used.marking.places ≠ fresh.marking.places ∧
      used.marking.sameContents fresh.marking = true ∧
      used.rejections calls = fresh.rejections calls ∧
      used.responses calls = fresh.responses calls ∧
      used.coverage calls = fresh.coverage calls ∧
      (used.run calls).marking.text = (fresh.run calls).marking.text := by
  intro fresh used calls
  have contents : used.marking.sameContents fresh.marking = true := by decide +kernel
  have voice : SameVoice used.logger fresh.logger := by
    intro pair
    rw [show used.logger = fresh.logger from run_logger]
  obtain ⟨rejections,-,logs,coverage,-,reads⟩ := equal_contents_behave_alike used fresh run_net voice
    (run_attached startWith_attached) startWith_attached contents calls
  have seen : used.seen = fresh.seen := by
    simp only [used,run,List.foldl_cons,List.foldl_nil,perform,observe_seen]
  have known : SameSeen used fresh := by
    intro digest
    rw [seen]
  have unlogged : SameLog used fresh := by
    have bare : used.journal = none := run_bare rfl
    rw [SameLog,bare]
    rfl
  have debugs : used.debug = fresh.debug := run_debug
  exact ⟨by decide +kernel,contents,rejections,(logs unlogged).2 debugs,(coverage known).1,reads.text⟩

end Monitor

end ProtocolNet
