import ProtocolNet.Proofs.Commutation
import ProtocolNet.Proofs.Congruence
import ProtocolNet.Proofs.Executions

namespace ProtocolNet

namespace Monitor

-- What a caller is told by a call, and what can be looked up behind it.
structure Answer where
  result : Except TextFault (Option Violation)
  ended : Option (Except TextFault (Nat × Bool))
  statistics : List (String × Nat)
  marking : Marking

def answer (monitor : Monitor) (call : Call) : Answer where
  result :=
    match call with
    | .observe event location => (monitor.observe event location).result
    | _ => .ok none
  ended :=
    match call with
    | .endExecution => some (monitor.endExecution.map (·.2))
    | _ => none
  statistics := (monitor.perform call).statistics
  marking := (monitor.perform call).marking

-- Answers that are the same, but that an event that has fired may be answered on one side only if
-- there is no digest of the marking behind it.
structure Answer.Like (left right : Answer) : Prop where
  ended : left.ended = right.ended
  statistics : left.statistics = right.statistics
  marking : left.marking = right.marking
  result : left.result = right.result ∨ ∃ fault, left.marking.digest = .error fault ∧
    (left.result = .ok none ∧ right.result = .error fault ∨
      left.result = .error fault ∧ right.result = .ok none)

-- What others do to a log before each call: they may make its writes fail, close it, replace it
-- or take it away.
abbrev Meddling := Nat → Option Journal → Option Journal

def answers (meddling : Meddling) (monitor : Monitor) : List Call → List Answer
  | [] => []
  | call :: rest =>
    let here := { monitor with journal := meddling 0 monitor.journal }
    here.answer call :: answers (fun turn => meddling (turn + 1)) (here.perform call) rest

-- All in which monitors on one net can differ.
structure Setting where
  config : Option Config
  logger : Logger
  room : Nat
  files : Files
  meddling : Meddling

namespace Setting

-- A path that names no log at all: it would end at its null character.
def logNull (setting : Setting) : Bool := (setting.config.bind (·.logPath)).any (·.hasNull)

def launch (setting : Setting) (net : Net) : Except StartFault Started :=
  Monitor.launch net setting.config setting.logger setting.room setting.files

def answers (setting : Setting) (net : Net) (calls : List Call) : Except StartFault (List Answer) :=
  (setting.launch net).map fun started => started.monitor.answers setting.meddling calls

end Setting

-- Monitors that differ in nothing but what watches them.
structure Clones (left right : Monitor) : Prop extends Twins left right, SameBooks left right

variable {left right : Monitor} {net : Net} {call : Call} {calls : List Call}
  {setting : Setting}

theorem Answer.Like.equal {left right : Answer} (like : left.Like right) {digest : Nat}
    (made : left.marking.digest = .ok digest) : left = right := by
  obtain ⟨ended,statistics,marking,result⟩ := like
  rcases result with same | ⟨fault,unmade,-⟩
  · cases left; cases right
    dsimp only at *
    rw [ended,statistics,marking,same]
  · rw [made] at unmade; cases unmade

theorem Clones.meddled (clones : Clones left right) (log log' : Option Journal) :
    Clones { left with journal := log } { right with journal := log' } :=
  ⟨⟨clones.net,clones.engine,clones.voice⟩,⟨clones.tally,clones.seen⟩⟩

theorem Twins.perform (twins : Twins left right) : Twins (left.perform call) (right.perform call) := by
  cases call with
  | observe event location => exact twins.observe
  | reset => exact twins.reset
  | endExecution =>
    rw [perform_endExecution,perform_endExecution]
    exact ⟨twins.net,twins.engine,twins.voice⟩
  | clearCoverage | close => exact ⟨twins.net,twins.engine,twins.voice⟩

theorem Clones.perform (clones : Clones left right) :
    Clones (left.perform call) (right.perform call) := by
  have counts : left.counts call = right.counts call := by
    cases call with
    | observe event location => exact clones.toTwins.growth
    | reset | endExecution | clearCoverage | close => rfl
  refine ⟨clones.toTwins.perform,⟨?_,?_⟩⟩
  · rw [perform_tally,perform_tally,clones.tally,counts]
  · rw [perform_seen,perform_seen]
    cases call with
    | endExecution => rw [seenAfter,seenAfter,clones.seen,clones.toTwins.marking]
    | clearCoverage => rfl
    | observe | reset | close => exact clones.seen

-- A digest that only one of them asks for is all that can make a difference.
theorem Twins.result_like (twins : Twins left right) (event : Event)
    (location : Option SourceLocation) :
    (left.observe event location).result = (right.observe event location).result ∨
      ∃ fault, (left.observe event location).monitor.marking.digest = .error fault ∧
        ((left.observe event location).result = .ok none ∧
            (right.observe event location).result = .error fault ∨
          (left.observe event location).result = .error fault ∧
            (right.observe event location).result = .ok none) := by
  have same := (@Twins.observe left right event location twins).marking
  rw [observe_result,observe_result,twins.fate,same]
  cases right.fate event with
  | ignored | rejected refusal | stopped fault => exact .inl rfl
  | fired =>
    cases made : (right.observe event location).monitor.marking.digest with
    | ok digest => left; cases left.digests <;> cases right.digests <;> rfl
    | error fault =>
      cases left.digests <;> cases right.digests
      · exact .inl rfl
      · exact .inr ⟨fault,rfl,.inl ⟨rfl,rfl⟩⟩
      · exact .inr ⟨fault,rfl,.inr ⟨rfl,rfl⟩⟩
      · exact .inl rfl

theorem Clones.answer (clones : Clones left right) : (left.answer call).Like (right.answer call) := by
  have next : Clones (left.perform call) (right.perform call) := clones.perform
  refine ⟨?_,statistics_congr next.tally next.seen,next.toTwins.marking,?_⟩
  · cases call with
    | endExecution =>
      refine congrArg some ?_
      rw [endExecution_told,endExecution_told,clones.toTwins.marking,clones.seen]
    | observe | reset | clearCoverage | close => rfl
  · cases call with
    | observe event location => exact clones.toTwins.result_like event location
    | endExecution | reset | clearCoverage | close => exact .inl rfl

theorem Clones.answers (clones : Clones left right) (meddling meddling' : Meddling)
    (calls : List Call) :
    List.Forall₂ Answer.Like (left.answers meddling calls) (right.answers meddling' calls) := by
  induction calls generalizing left right meddling meddling' with
  | nil => exact .nil
  | cons call rest ih =>
    have here := clones.meddled (meddling 0 left.journal) (meddling' 0 right.journal)
    exact .cons here.answer (ih here.perform _ _)

namespace Setting

theorem launch_null (null : setting.logNull = true) : setting.launch net = .error .logPath := by
  unfold logNull at null
  unfold launch Monitor.launch
  cases named : setting.config.bind (·.logPath) with
  | none => rw [named] at null; cases null
  | some log =>
    rw [named] at null
    have refused : setting.files.writeText log "" = .error .nullCharacter := Files.write_null_iff.mpr null
    dsimp only
    rw [Journal.create,refused]

-- A log that cannot be opened is left out. It does not keep a monitor from starting.
theorem launch_begun (whole : setting.logNull = false) : ∃ started journal,
    setting.launch net = .ok started ∧ started.monitor = startWith net setting.config setting.logger journal := by
  unfold logNull at whole
  unfold launch Monitor.launch
  cases named : setting.config.bind (·.logPath) with
  | none => exact ⟨_,none,rfl,rfl⟩
  | some log =>
    rw [named] at whole
    dsimp only
    rw [Journal.create]
    cases opened : setting.files.writeText log "" with
    | ok files => exact ⟨_,_,rfl,rfl⟩
    | error fault =>
      cases fault with
      | refused problem path => exact ⟨_,none,rfl,rfl⟩
      | nullCharacter =>
        have null : log.hasNull = true := Files.write_null_iff.mp opened
        rw [Option.any_some,null] at whole
        cases whole

end Setting

variable {left right : Setting}

-- However two monitors on a net are watched by loggers of one voice, they answer all calls alike,
-- but for events that have fired and are not answered for want of a digest. There are no answers only
-- where no monitor can be started, as the path of its log is no path.
theorem observation_changes_digests_only (voice : SameVoice left.logger right.logger) (net : Net)
    (calls : List Call) :
    (left.logNull = true → left.answers net calls = .error .logPath) ∧
    (left.logNull = false → right.logNull = false → ∃ told told',
      left.answers net calls = .ok told ∧ right.answers net calls = .ok told' ∧
      List.Forall₂ Answer.Like told told' ∧
      ((∀ answer ∈ told, ∃ digest, answer.marking.digest = .ok digest) → told = told')) := by
  refine ⟨fun null => ?_,fun whole whole' => ?_⟩
  · rw [Setting.answers,Setting.launch_null null]
    rfl
  · obtain ⟨started,journal,launched,begun⟩ := @Setting.launch_begun net _ whole
    obtain ⟨started',journal',launched',begun'⟩ := @Setting.launch_begun net _ whole'
    have clones : Clones started.monitor started'.monitor := by
      rw [begun,begun']
      exact ⟨⟨rfl,rfl,voice⟩,⟨rfl,rfl⟩⟩
    have alike := clones.answers left.meddling right.meddling calls
    refine ⟨_,_,by rw [Setting.answers,launched]; rfl,by rw [Setting.answers,launched']; rfl,alike,
      fun made => ?_⟩
    generalize started.monitor.answers left.meddling calls = told at alike made
    generalize started'.monitor.answers right.meddling calls = told' at alike
    induction alike with
    | nil => rfl
    | cons here _ ih =>
      obtain ⟨⟨digest,first⟩,made⟩ := List.forall_mem_cons.mp made
      rw [here.equal first,ih made]

-- A monitor that nothing watches, and one with a log that tells of all it does.
def unwatched : Setting := ⟨none,.silent,0,.start [],fun _ log => log⟩

def watched : Setting where
  config := some ⟨⟨"",["net.json"]⟩,some openLog.path,false,true⟩
  logger := ⟨.debug,false⟩
  room := 4
  files := .start []
  meddling := fun _ log => log

theorem sameVoice_watched : SameVoice unwatched.logger watched.logger := fun pair => by
  rw [seedFault?_plain rfl,seedFault?_plain rfl]

theorem observation_changes_digests_only_locks :
    let net := Mutex.net ["free","held"] .empty
    let calls := [Call.observe (.lockAcquire 1 42) none,.observe (.lockRelease 1 7) none,.endExecution]
    ∃ told, unwatched.answers net calls = .ok told ∧ watched.answers net calls = .ok told := by
  intro net calls
  obtain ⟨told,told',plain,logged,-,same⟩ :=
    (observation_changes_digests_only sameVoice_watched net calls).2 rfl rfl
  have made : ((unwatched.answers net calls).toOption.getD []).all
      (fun answer => answer.marking.digest.toOption.isSome) = true := by decide +kernel
  rw [plain] at made
  have digests : ∀ answer ∈ told, ∃ digest, answer.marking.digest = .ok digest := by
    intro answer member
    have one := List.all_eq_true.mp made answer member
    cases found : answer.marking.digest with
    | ok digest => exact ⟨digest,rfl⟩
    | error fault => rw [found] at one; cases one
  exact ⟨told,plain,same digests ▸ logged⟩

-- The log asks for a digest that there is not, and so an event that has fired is not answered.
theorem logged_event_unanswered :
    let calls := [Call.observe (.lockAcquire 1 7) none]
    let answered (setting : Setting) : List Bool :=
      ((setting.answers hidden calls).toOption.getD []).map fun answer => answer.result.toOption.isSome
    SameVoice unwatched.logger watched.logger ∧ answered unwatched = [true] ∧
      answered watched = [false] := by
  refine ⟨sameVoice_watched,?_,?_⟩ <;> decide +kernel

end Monitor

end ProtocolNet
