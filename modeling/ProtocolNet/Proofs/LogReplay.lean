import Mathlib.Algebra.Group.Nat.Defs
import ProtocolNet.Proofs.Conformance
import ProtocolNet.Proofs.EventCodec
import ProtocolNet.Proofs.Reference
import ProtocolNet.Proofs.TraceFiles

namespace ProtocolNet

namespace Journal

-- A log that takes the next records, as many as are given.
def Takes (journal : Journal) (count : Nat) : Prop :=
  ∃ accepts, journal.accepts = some accepts ∧ ∀ k < count, accepts (journal.attempts + k) = true

-- The record of an event that has fired. There is none without a digest of the marking, nor
-- where a number of the event is too long.
def recorded? (entry : Event × Except TextFault Nat) : Option String :=
  match entry.2 with
  | .ok digest => if entry.1.isWritable then some (recordText entry.1 digest) else none
  | .error _ => none

variable {journal : Journal} {event : Event} {digest count : Nat}

theorem Takes.fewer (takes : journal.Takes (count + 1)) : journal.Takes count := by
  obtain ⟨accepts,working,room⟩ := takes
  exact ⟨accepts,working,fun k small => room k (Nat.lt_succ_of_lt small)⟩

theorem append_takes (takes : journal.Takes (count + 1)) :
    (journal.append event digest).records =
        journal.records ++ (recorded? (event,.ok digest)).toList ∧
      (journal.append event digest).Takes count := by
  obtain ⟨accepts,working,room⟩ := id takes
  have now : accepts journal.attempts = true := room 0 (Nat.zero_lt_succ count)
  cases writable : event.isWritable with
  | false =>
    have same : journal.append event digest = journal := by simp [append,working,writable]
    rw [same]
    exact ⟨by simp [recorded?,writable],takes.fewer⟩
  | true =>
    have appended : journal.append event digest =
        { journal with
          records := journal.records ++ [recordText event digest]
          attempts := journal.attempts + 1 } := by
      simp only [append,working,now,writable,if_true]
    rw [appended]
    refine ⟨by simp [recorded?,writable],accepts,working,fun k small => ?_⟩
    rw [Nat.add_right_comm]
    exact room (k + 1) (Nat.succ_lt_succ small)

-- The text of a log is that of its records, each on a line.
theorem toList_text : journal.text.toList = Text.unlines (journal.records.map String.toList) := by
  have joined : ∀ records : List String, (String.join (records.map (· ++ "\n"))).toList =
      Text.unlines (records.map String.toList) := by
    intro records
    induction records with
    | nil => rfl
    | cons record rest ih =>
      have ending : "\n".toList = ['\n'] := rfl
      rw [List.map_cons,String.join_cons,String.toList_append,String.toList_append,ih,ending]
      rfl
  exact joined journal.records

theorem recordText_unbroken (apart : event.Apart) (writable : event.isWritable = true)
    (short : Text.isWritable digest = true) :
    '\n' ∉ (recordText event digest).toList ∧ '\r' ∉ (recordText event digest).toList :=
  (Json.oneLine_encode _ (sound_recordValue apart writable short)).unbroken

theorem recordText_braced : ∃ inside : List Char,
    (recordText event digest).toList = '\x7b' :: (inside ++ ['\x7d']) := by
  have text := Json.toList_object [(↑"event",event.toJson),(↑"marking_hash",.int digest)] []
  rw [List.append_nil] at text
  exact ⟨_,text⟩

-- A record stands between two braces, so it is read as it is and taken for no comment.
theorem trim_recordText : Text.trim (recordText event digest).toList = (recordText event digest).toList := by
  obtain ⟨inside,text⟩ := @recordText_braced event digest
  rw [text,← List.nil_append ('\x7b' :: _)]
  refine Text.trim_of_stops [] (List.forall_mem_nil _) (Text.stops_cons.mpr (by decide)) ?_
  rw [List.reverse_cons,List.reverse_append]
  exact Text.stops_cons.mpr (by decide)

theorem significant_recordText : Trace.isSignificant (recordText event digest).toList = true := by
  obtain ⟨inside,text⟩ := @recordText_braced event digest
  rw [text]
  rfl

end Journal

namespace Marking

theorem bigEndian_lt (bytes : List UInt8) : bigEndian bytes < 256 ^ bytes.length := by
  have step : ∀ n, bytes.foldl (fun n b => n * 256 + b.toNat) n < (n + 1) * 256 ^ bytes.length := by
    induction bytes with
    | nil => intro n; simp
    | cons b rest ih =>
      intro n
      have small := b.toNat_lt
      calc
        _ < (n * 256 + b.toNat + 1) * 256 ^ rest.length := ih _
        _ ≤ ((n + 1) * 256) * 256 ^ rest.length := Nat.mul_le_mul_right _ (by omega)
        _ = (n + 1) * 256 ^ (b :: rest).length := by
          rw [List.length_cons,Nat.pow_succ',Nat.mul_assoc]
  have whole := step 0
  rwa [Nat.zero_add,Nat.one_mul] at whole

-- Eight bytes make a number of at most twenty digits.
theorem isWritable_digest {marking : Marking} {digest : Nat} (made : marking.digest = .ok digest) :
    Text.isWritable digest = true := by
  unfold Marking.digest at made
  cases fed : marking.stream with
  | error fault => rw [fed] at made; cases made
  | ok stream =>
    rw [fed] at made
    cases made
    have short : (Blake2b.hash 8 stream).length ≤ 8 := List.length_take_le ..
    have below := bigEndian_lt (Blake2b.hash 8 stream)
    have bound : 256 ^ (Blake2b.hash 8 stream).length ≤ 256 ^ 8 :=
      Nat.pow_le_pow_right (by decide) short
    exact Text.isWritable_of_lt (k := 20) (Nat.lt_of_lt_of_le below (Nat.le_trans bound (by decide)))
      (by decide)

end Marking

namespace Monitor

-- The events that fire, each with what comes of the digest of the marking right after it.
def firings (monitor : Monitor) : List Call → List (Event × Except TextFault Nat)
  | [] => []
  | call :: rest =>
    let next := monitor.perform call
    match call with
    | .observe event _ =>
      if monitor.fires event then (event,next.marking.digest) :: next.firings rest
      else next.firings rest
    | _ => next.firings rest

-- The events of a log as a trace without locations has them.
def replayOf {α : Type} (fired : List (Event × α)) : List Report :=
  fired.map fun entry => (entry.1,none)

-- No event is left without an answer.
def Answers (monitor : Monitor) : List Call → Prop
  | [] => True
  | call :: rest =>
    (∀ event location, call = .observe event location →
      (monitor.observe event location).fault = none) ∧ (monitor.perform call).Answers rest

-- Calls that neither start another execution nor close the log.
structure WithinExecution (calls : List Call) : Prop where
  unreset : Call.reset ∉ calls
  unclosed : Call.close ∉ calls

theorem WithinExecution.tail {call : Call} {rest : List Call}
    (within : WithinExecution (call :: rest)) : WithinExecution rest :=
  ⟨fun member => within.unreset (List.mem_cons_of_mem _ member),
    fun member => within.unclosed (List.mem_cons_of_mem _ member)⟩

variable {monitor left right : Monitor} {event : Event} {location : Option SourceLocation}
  {call : Call} {calls rest : List Call} {log : Journal}

theorem firings_fired (fires : monitor.fires event = true) :
    monitor.firings (.observe event location :: rest) =
      (event,(monitor.observe event location).monitor.marking.digest) ::
        (monitor.observe event location).monitor.firings rest := by
  simp only [firings,perform,fires,if_true]

theorem firings_idle (idle : monitor.fires event = false) :
    monitor.firings (.observe event location :: rest) =
      (monitor.observe event location).monitor.firings rest := by
  simp only [firings,perform,idle,Bool.false_eq_true,if_false]

theorem fate_of_fires (fires : monitor.fires event = true) : monitor.fate event = .fired :=
  of_decide_eq_true fires

theorem journal_idle (idle : monitor.fires event = false) :
    (monitor.observe event location).monitor.journal = monitor.journal := by
  rw [observe_journal,idle]
  rfl

-- Calls that are no events leave the log alone, unless they close it.
theorem perform_journal (open' : call ≠ .close)
    (other : ∀ event location, call ≠ .observe event location) :
    (monitor.perform call).journal = monitor.journal := by
  cases call with
  | observe event location => exact absurd rfl (other event location)
  | endExecution => rw [perform_endExecution]
  | close => exact absurd rfl open'
  | reset | clearCoverage => rfl

-- The log after some calls: the records that were there, then those of the events that fire.
theorem run_journal (within : WithinExecution calls) (logged : monitor.journal = some log)
    (takes : log.Takes (monitor.firings calls).length) :
    ∃ written, (monitor.run calls).journal = some written ∧
      written.records = log.records ++ (monitor.firings calls).filterMap Journal.recorded? := by
  induction calls generalizing monitor log with
  | nil => exact ⟨log,logged,(List.append_nil _).symm⟩
  | cons call rest ih =>
    cases call with
    | reset => exact absurd List.mem_cons_self within.unreset
    | close => exact absurd List.mem_cons_self within.unclosed
    | endExecution =>
      exact ih within.tail ((perform_journal (by simp) (by simp)).trans logged) takes
    | clearCoverage => exact ih within.tail logged takes
    | observe event location =>
      cases fires : monitor.fires event with
      | false =>
        rw [firings_idle fires] at takes ⊢
        exact ih within.tail ((journal_idle fires).trans logged) takes
      | true =>
        have kept : (monitor.perform (.observe event location)).journal =
            match (monitor.observe event location).monitor.marking.digest with
            | .ok digest => some (log.append event digest)
            | .error _ => some log := by
          rw [perform,observe_journal,if_pos fires,logged]
          rfl
        rw [firings_fired fires] at takes ⊢
        cases made : (monitor.observe event location).monitor.marking.digest with
        | error fault =>
          rw [made] at kept
          exact ih within.tail kept takes.fewer
        | ok digest =>
          rw [made] at kept
          obtain ⟨records,takes⟩ := @Journal.append_takes _ event digest _ takes
          obtain ⟨written,journal,contents⟩ := ih within.tail kept takes
          refine ⟨written,journal,?_⟩
          rw [contents,records,List.append_assoc]
          cases named : Journal.recorded? (event,.ok digest) with
          | none => rw [List.filterMap_cons_none named]; rfl
          | some record => rw [List.filterMap_cons_some named]; rfl

-- Where digests are made, an event that fires is answered only if there is one.
theorem digest_of_answered (fires : monitor.fires event = true) (digests : monitor.digests = true)
    (answered : (monitor.observe event location).fault = none) :
    ∃ digest, (monitor.observe event location).monitor.marking.digest = .ok digest := by
  rw [Outcome.fault,observe_result,fate_of_fires fires] at answered
  simp only [digests,if_true] at answered
  cases made : (monitor.observe event location).monitor.marking.digest with
  | ok digest => exact ⟨digest,rfl⟩
  | error fault => rw [made] at answered; cases answered

theorem told_firings (within : WithinExecution calls) (answers : monitor.Answers calls)
    (digests : monitor.digests = true) : ∃ told : List (Event × Nat),
      monitor.firings calls = told.map (fun entry => (entry.1,.ok entry.2)) ∧
      ∀ entry ∈ told, Text.isWritable entry.2 = true := by
  induction calls generalizing monitor with
  | nil => exact ⟨[],rfl,List.forall_mem_nil _⟩
  | cons call rest ih =>
    obtain ⟨here,later⟩ := answers
    cases call with
    | reset => exact absurd List.mem_cons_self within.unreset
    | close => exact absurd List.mem_cons_self within.unclosed
    | endExecution =>
      refine ih within.tail later ?_
      rw [perform_endExecution]
      exact digests
    | clearCoverage => exact ih within.tail later digests
    | observe event location =>
      obtain ⟨told,same,short⟩ := ih within.tail later (observe_digests.trans digests)
      cases fires : monitor.fires event with
      | false => rw [firings_idle fires]; exact ⟨told,same,short⟩
      | true =>
        obtain ⟨digest,made⟩ := digest_of_answered fires digests (here event location rfl)
        refine ⟨(event,digest) :: told,?_,
          List.forall_mem_cons.mpr ⟨Marking.isWritable_digest made,short⟩⟩
        rw [firings_fired fires,made,List.map_cons]
        exact congrArg (_ :: ·) same

-- A monitor beside another one: of the same net, with the same contents, and it can tell of all
-- seeds that the other one can tell of.
structure Beside (left right : Monitor) : Prop where
  net : left.net = right.net
  tells : ∀ pair, seedFault? left.logger pair = none → seedFault? right.logger pair = none
  attached : left.Attached
  attached' : right.Attached
  counts : ∀ place token, left.marking.count place token = right.marking.count place token

namespace Beside

variable (beside : Beside left right)
include beside

-- A call that leaves the contents alone is not noticed by the monitor beside.
theorem unmoved (call : Call) (counts : ∀ place token,
    (left.perform call).marking.count place token = left.marking.count place token) :
    Beside (left.perform call) right := by
  refine ⟨perform_net.trans beside.net,fun pair => ?_,perform_attached beside.attached,beside.attached',
    fun place token => (counts place token).trans (beside.counts place token)⟩
  rw [perform_logger]
  exact beside.tells pair

-- What fires in one of them fires in the other one too, and leads to the same contents.
theorem fired (fires : left.fires event = true) (location location' : Option SourceLocation) :
    right.fires event = true ∧ Beside (left.observe event location).monitor
      (right.observe event location').monitor := by
  obtain ⟨told,transition,admitted⟩ := (fired_iff beside.attached).mp (fate_of_fires fires)
  have counts : right.marking.count = left.marking.count :=
    funext fun place => funext fun token => (beside.counts place token).symm
  have told' : right.TellsSeeds event := by
    intro pair member absent
    rw [← beside.net] at member
    rw [counts] at absent
    exact beside.tells pair (told pair member absent)
  have admitted' : right.net.Admits right.marking.count event transition := by
    rw [← beside.net,counts]
    exact admitted
  refine ⟨decide_eq_true ((fired_iff beside.attached').mpr ⟨told',transition,admitted'⟩),?_,
    fun pair => ?_,observe_attached beside.attached,observe_attached beside.attached',
    fun place token => ?_⟩
  · rw [observe_net,observe_net,beside.net]
  · rw [observe_logger,observe_logger]
    exact beside.tells pair
  · have here := (observe_admitted location beside.attached admitted told).2 place token
    have there := (observe_admitted location' beside.attached' admitted' told').2 place token
    rw [counts,← beside.net] at there
    omega

end Beside

-- An event that is answered and does not fire changes nothing.
theorem observe_idle (idle : monitor.fires event = false)
    (answered : (monitor.observe event location).fault = none) (place : Str) (token : Token) :
    (monitor.observe event location).monitor.marking.count place token =
      monitor.marking.count place token := by
  cases became : monitor.fate event with
  | ignored => exact count_of_ignored became
  | rejected refusal => exact count_of_rejected became
  | fired => simp [fires,became] at idle
  | stopped fault =>
    rw [Outcome.fault,observe_result,became] at answered
    cases answered

theorem answer_of_fires {digest : Nat} (fires : monitor.fires event = true)
    (made : (monitor.observe event location).monitor.marking.digest = .ok digest) :
    (monitor.observe event location).answer = .ok none := by
  rw [Outcome.answer,observe_result,fate_of_fires fires,made]
  cases monitor.digests <;> rfl

-- One monitor runs through all calls, the other one through what fired in the first: they
-- stay beside each other, and in the second everything fires with the same digests.
theorem replay_firings {told : List (Event × Nat)} (within : WithinExecution calls)
    (answers : left.Answers calls)
    (digested : left.firings calls = told.map fun entry => (entry.1,.ok entry.2))
    (beside : Beside left right) :
    right.Accepts (replayOf told) ∧
      right.firings (observed (replayOf told)) = left.firings calls ∧
      Beside (left.run calls) (right.run (observed (replayOf told))) := by
  induction calls generalizing left right told with
  | nil =>
    cases List.map_eq_nil_iff.mp digested.symm
    exact ⟨trivial,rfl,beside⟩
  | cons call rest ih =>
    obtain ⟨here,later⟩ := answers
    cases call with
    | reset => exact absurd List.mem_cons_self within.unreset
    | close => exact absurd List.mem_cons_self within.unclosed
    | endExecution =>
      refine ih within.tail later digested (beside.unmoved .endExecution fun _ _ => ?_)
      rw [perform_endExecution]
      rfl
    | clearCoverage =>
      exact ih within.tail later digested (beside.unmoved .clearCoverage fun _ _ => rfl)
    | observe event location =>
      cases fires : left.fires event with
      | false =>
        rw [firings_idle fires] at digested ⊢
        exact ih within.tail later digested (beside.unmoved (.observe event location)
          (observe_idle fires (here event location rfl)))
      | true =>
        obtain ⟨fires',next⟩ := beside.fired fires location none
        have same := Marking.digest_congr (Marking.sameContents_iff.mpr next.counts)
        rw [firings_fired fires] at digested ⊢
        cases told with
        | nil => cases digested
        | cons entry told =>
          rw [List.map_cons,List.cons.injEq,Prod.mk.injEq] at digested
          obtain ⟨⟨rfl,made⟩,digested⟩ := digested
          obtain ⟨accepts,again,final⟩ := ih within.tail later digested next
          refine ⟨⟨answer_of_fires fires' (same.symm.trans made),accepts⟩,?_,final⟩
          show right.firings (.observe entry.1 none :: observed (replayOf told)) = _
          rw [firings_fired fires',again,same]
          rfl

-- At the start of an execution there is what the net puts there, whatever happened
-- before a reset.
theorem beside_begun {net : Net} {config config' : Option Config} {logger logger' : Logger}
    {journal journal' : Option Journal} {history : List Call}
    (begins : history = [] ∨ ∃ earlier, history = earlier ++ [.reset])
    (tells : ∀ pair, seedFault? logger pair = none → seedFault? logger' pair = none) :
    Beside ((startWith net config logger journal).run history)
      (startWith net config' logger' journal') := by
  have attached : ((startWith net config logger journal).run history).Attached :=
    run_attached startWith_attached
  refine ⟨run_net,fun pair => ?_,attached,startWith_attached,fun place token => ?_⟩
  · rw [run_logger]
    exact tells pair
  · rcases begins with rfl | ⟨earlier,rfl⟩
    · rfl
    · have same : ((startWith net config logger journal).run earlier).net = net := run_net
      rw [run_snoc]
      show ((startWith net config logger journal).run earlier).net.initial.count place token = _
      rw [same]
      rfl

-- The records of events that were told of, as the lines of a trace.
def recordLines (told : List (Event × Nat)) : List (List Char) :=
  told.map fun entry => (Journal.recordText entry.1 entry.2).toList

theorem recorded_told {told : List (Event × Nat)}
    (writable : ∀ entry ∈ told, entry.1.isWritable = true) :
    (told.map fun entry => (entry.1,(.ok entry.2 : Except TextFault Nat))).filterMap
      Journal.recorded? = told.map fun entry => Journal.recordText entry.1 entry.2 := by
  induction told with
  | nil => rfl
  | cons entry rest ih =>
    obtain ⟨here,later⟩ := List.forall_mem_cons.mp writable
    have named : Journal.recorded? (entry.1,.ok entry.2) = some (Journal.recordText entry.1 entry.2) :=
      if_pos here
    rw [List.map_cons,List.filterMap_cons_some named,ih later,List.map_cons]

-- The lines of a log are its records, and as a trace they hold the events without locations.
theorem read_recordLines {told : List (Event × Nat)}
    (writable : ∀ entry ∈ told, entry.1.isWritable = true)
    (short : ∀ entry ∈ told, Text.isWritable entry.2 = true)
    (apart : ∀ entry ∈ told, entry.1.Apart) :
    Text.lines (Text.unifyLineEnds (Text.unlines (recordLines told))) = recordLines told ∧
      List.Forall₂ (Trace.Row.ReadFrom false) (told.map fun entry => .holds entry.1 none)
        (recordLines told) := by
  constructor
  · refine (Text.ended_unlines fun line member => ?_).lines
    obtain ⟨entry,inside,rfl⟩ := List.mem_map.mp member
    exact Journal.recordText_unbroken (apart entry inside) (writable entry inside) (short entry inside)
  · rw [recordLines,List.forall₂_map_left_iff,List.forall₂_map_right_iff,List.forall₂_same]
    intro entry member
    have read := Trace.readLine_recordText entry.1 entry.2 (apart entry member)
      (writable entry member) (short entry member)
    rw [Trace.Row.ReadFrom,Journal.trim_recordText]
    exact ⟨Journal.significant_recordText,read⟩

-- What a log has of a stretch of an execution are the events that fire and that have a digest,
-- up to those with numbers that are too long. If every event of the stretch was answered, that
-- is all of them, and a new monitor that is given what is read from the log gets where
-- the first one got.
theorem log_replays (net : Net) (config : Option Config) (logger : Logger)
    (journal : Option Journal) (history calls : List Call) (log : Journal)
    (begins : history = [] ∨ ∃ earlier, history = earlier ++ [.reset])
    (within : WithinExecution calls)
    (logged : ((startWith net config logger journal).run history).journal = some log)
    (takes : log.Takes (((startWith net config logger journal).run history).firings calls).length) :
    let begun := (startWith net config logger journal).run history
    let fired := begun.firings calls
    ∃ written, (begun.run calls).journal = some written ∧
      written.records = log.records ++ fired.filterMap Journal.recorded? ∧
      (begun.Answers calls → (∀ entry ∈ fired, entry.1.isWritable = true) →
        ∃ told : List (Event × Nat), fired = told.map (fun entry => (entry.1,.ok entry.2)) ∧
          written.records =
            log.records ++ told.map (fun entry => Journal.recordText entry.1 entry.2) ∧
          written.text.toList = log.text.toList ++ Text.unlines (recordLines told) ∧
          (∀ entry ∈ told,
            Trace.readRecord (Journal.recordValue entry.1 entry.2) = .ok (entry.1,none)) ∧
          ((∀ entry ∈ told, entry.1.Apart) →
            let lines := Text.lines (Text.unifyLineEnds (Text.unlines (recordLines told)))
            lines = recordLines told ∧ ∀ path number, Trace.isTranscript path = false →
              Trace.readEntries path (Trace.significant number lines) =
                (Trace.entriesFrom number (told.map fun entry => .holds entry.1 none),none)) ∧
          ∀ config' logger' journal',
            (∀ pair, seedFault? logger pair = none → seedFault? logger' pair = none) →
            let again := startWith net config' logger' journal'
            again.Accepts (replayOf told) ∧ again.firings (observed (replayOf told)) = fired ∧
              (again.run (observed (replayOf told))).marking.sameContents
                (begun.run calls).marking = true) := by
  intro begun fired
  obtain ⟨written,journal,records⟩ := run_journal within logged takes
  refine ⟨written,journal,records,fun answers writable => ?_⟩
  have digests : begun.digests = true := by
    obtain ⟨accepts,working,-⟩ := takes
    have logged : begun.journal = some log := logged
    rw [Monitor.digests,logged,Option.any_some,working]
    exact Bool.or_true _
  obtain ⟨told,same,short⟩ := told_firings within answers digests
  have fits : ∀ entry ∈ told, entry.1.isWritable = true := fun entry member =>
    writable (entry.1,.ok entry.2) (show _ ∈ begun.firings calls from same ▸ List.mem_map_of_mem member)
  have all : written.records =
      log.records ++ told.map fun entry => Journal.recordText entry.1 entry.2 := by
    rw [records,same,recorded_told fits]
  refine ⟨told,same,all,?_,fun entry _ => Trace.readRecord_recordValue entry.1 entry.2,
    fun apart => ?_,fun config' logger' journal' tells => ?_⟩
  · rw [Journal.toList_text,Journal.toList_text,all,List.map_append,Text.unlines,Text.unlines,
      List.flatMap_append,List.map_map]
    rfl
  · obtain ⟨lines,rows⟩ := read_recordLines fits short apart
    refine ⟨lines,fun path number plain => ?_⟩
    rw [lines]
    exact Trace.readEntries_rows number (plain ▸ rows)
  · obtain ⟨accepts,again,beside⟩ :=
      replay_firings within answers same (beside_begun begins tells)
    exact ⟨accepts,again,Marking.sameContents_iff.mpr fun place token =>
      (beside.counts place token).symm⟩

def loggedMutex : Monitor :=
  (startWith (Mutex.net ["free","held"] .empty) none .silent (some openLog)).run
    [.observe (.yield 1) none,.reset]

def sparseCalls : List Call := [.observe (.lockAcquire 1 42) none,.observe (.yield 1) none,
  .observe (.lockRelease 2 7) none,.endExecution,.observe (.lockRelease 1 42) none]

-- Of five calls two are logged: an event that is ignored, one that is rejected and
-- the end of the execution lie between them.
theorem log_replays_sparse :
    loggedMutex.journal = some openLog ∧ WithinExecution sparseCalls ∧
      openLog.Takes (loggedMutex.firings sparseCalls).length ∧ loggedMutex.Answers sparseCalls ∧
      ∃ written, (loggedMutex.run sparseCalls).journal = some written ∧
        ∃ told, told.map Prod.fst = [.lockAcquire 1 42,.lockRelease 1 42] ∧
          written.text.toList = Text.unlines (recordLines told) := by
  have logged : loggedMutex.journal = some openLog := rfl
  have within : WithinExecution sparseCalls := ⟨by simp [sparseCalls],by simp [sparseCalls]⟩
  have takes : openLog.Takes (loggedMutex.firings sparseCalls).length := ⟨_,rfl,fun _ _ => rfl⟩
  have answers : loggedMutex.Answers sparseCalls := by
    refine ⟨?_,?_,?_,?_,?_,trivial⟩ <;> rintro event location ⟨⟩ <;> decide +kernel
  have names : (loggedMutex.firings sparseCalls).map Prod.fst =
      [.lockAcquire 1 42,.lockRelease 1 42] := by decide +kernel
  obtain ⟨written,journal,-,replays⟩ := log_replays (Mutex.net ["free","held"] .empty) none .silent
    (some openLog) [.observe (.yield 1) none,.reset] sparseCalls openLog
    (.inr ⟨[.observe (.yield 1) none],rfl⟩) within logged takes
  have writable : ∀ entry ∈ loggedMutex.firings sparseCalls, entry.1.isWritable = true := by
    intro entry member
    have fired : entry.1 ∈ [Event.lockAcquire 1 42,.lockRelease 1 42] :=
      names ▸ List.mem_map_of_mem member
    have each : ∀ event ∈ [Event.lockAcquire 1 42,.lockRelease 1 42], event.isWritable = true := by
      decide +kernel
    exact each _ fired
  obtain ⟨told,same,-,text,-⟩ := replays answers writable
  refine ⟨logged,within,takes,answers,written,journal,told,?_,text⟩
  have fired : loggedMutex.firings sparseCalls = told.map fun entry => (entry.1,.ok entry.2) := same
  rw [← names,fired,List.map_map]
  rfl

-- An acquisition that has fired is not in the log, where the place of the lock has no name that
-- a digest can be made of; and one that is stopped leaves its seed in the marking, while the
-- log, and with it whatever is replayed from it, has nothing.
theorem unanswered_event_unrecorded :
    let unnamed := startWith hidden none .silent (some openLog)
    let calls := [Call.observe (.lockAcquire 1 7) none]
    let plain := startWith (Mutex.net ["free","held"] .empty) none .silent (some openLog)
    let long := [Call.observe (.lockAcquire 1 (10 ^ 4300)) none]
    (unnamed.firings calls).map Prod.fst = [.lockAcquire 1 7] ∧
    (unnamed.run calls).journal.map (·.records) = some [] ∧
    (plain.firings long).map Prod.fst = [] ∧
    (plain.run long).journal.map (·.records) = some [] ∧
    (plain.run long).marking.sameContents plain.marking = false := by
  refine ⟨?_,?_,?_,?_,?_⟩ <;> decide +kernel

end Monitor

end ProtocolNet
