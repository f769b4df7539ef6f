import Mathlib.Algebra.Group.Nat.Defs
import ProtocolNet.Proofs.Mutex

namespace ProtocolNet.Monitor

-- What becomes of an event in any state that calls lead to. It is answered, and answered by what
-- its transition asks for, if all that is told of it can be told.
theorem observe_reference (net : Net) (config : Option Config) (logger : Logger)
    (journal : Option Journal) (calls : List Call) (event : Event)
    (location : Option SourceLocation) :
    let monitor := (startWith net config logger journal).run calls
    let outcome := monitor.observe event location
    let before := monitor.marking
    let after := outcome.monitor.marking
    (net.transitionFor event = none → outcome.result = .ok none ∧ after = before) ∧
    (monitor.TellsSeeds event →
      (∀ transition, net.Admits before.count event transition →
        outcome.result = (if monitor.digests then after.digest.map fun _ => none else .ok none) ∧
        ∀ place token,
          after.count place token + drawnCount event.binding transition.pre place token =
            seededCounts before.count (net.targets event) place token +
              givenCount event.binding transition.post place token) ∧
      (net.transitionFor event ≠ none →
        (∀ transition, ¬ net.Admits before.count event transition) →
        (monitor.TellsLack event → ∃ violation, outcome.result = .ok (some violation) ∧
          after.sameContents before = true ∧ after.digest = before.digest ∧
          violation.marking.sameContents before = true) ∧
        (¬ monitor.TellsLack event → outcome.result = .error .unwritable ∧
          ∀ place token, after.count place token =
            seededCounts before.count (net.targets event) place token))) ∧
    (net.transitionFor event ≠ none → ¬ monitor.TellsSeeds event →
      ∃ front pair fault, outcome.result = .error fault ∧
        seedFault? monitor.logger pair = some fault ∧
        (∀ other ∈ front ++ [pair], other ∈ net.targets event ∧
          before.count other.1 other.2 = 0) ∧ (front ++ [pair]).Nodup ∧
        ∀ place token, after.count place token =
          before.count place token + (front ++ [pair]).count (place,token)) := by
  intro monitor outcome before after
  have same : monitor.net = net := run_net
  have attached : monitor.Attached := run_attached startWith_attached
  rw [← same]
  refine ⟨fun unmapped => ?_,fun told => ⟨?_,fun mapped refused => ?_⟩,fun mapped mute => ?_⟩
  · obtain ⟨silent,engine⟩ := observe_ignored location unmapped
    exact ⟨silent,congrArg Engine.marking engine⟩
  · intro transition admitted
    exact observe_admitted location attached admitted told
  · obtain ⟨id,mapped⟩ := Option.ne_none_iff_exists'.mp mapped
    obtain ⟨reported,stopped⟩ := observe_refused location attached mapped told refused
    refine ⟨fun speaks => ?_,stopped⟩
    obtain ⟨violation,answer,snapshot,restored⟩ := reported speaks
    have contents : after.sameContents before = true := Marking.sameContents_iff.mpr restored
    exact ⟨violation,answer,contents,Marking.digest_congr contents,snapshot ▸ contents⟩
  · obtain ⟨id,mapped⟩ := Option.ne_none_iff_exists'.mp mapped
    exact observe_mute location mapped mute

-- A lock goes from free to a place whose name has no encoding.
def unnamed : Str := [.lone 0]

def hidden : Net where
  places := []
  transitions := .ofList [⟨"acquire",[Mutex.arcOf "free"],[Mutex.arcOf unnamed]⟩]
  mapping := .empty
  initial := .empty
  seeds := none

-- A log that takes every record.
def openLog : Journal where
  path := ⟨"",["run.log"]⟩
  records := []
  attempts := 0
  accepts := some fun _ => true

-- The number of a lock is too long to be told of: its acquisition is admitted, and is not answered,
-- and the lock that was seeded stays in free. With a log, so it is with an acquisition that has fired.
theorem admitted_event_unanswered :
    let plain := startWith (Mutex.net ["free","held"] .empty) none .silent none
    let long := plain.observe (.lockAcquire 1 (10 ^ 4300)) none
    let logged := startWith hidden none .silent (some openLog)
    let fired := logged.observe (.lockAcquire 1 7) none
    plain.net.Admits plain.marking.count (.lockAcquire 1 (10 ^ 4300)) Mutex.acquire ∧
    long.fault = some .unwritable ∧
    long.monitor.marking.sameContents plain.marking = false ∧
    logged.net.transitionFor (.lockAcquire 1 7) ≠ none ∧
    fired.fault = some (.unencodable 0 0 1) ∧
    fired.monitor.marking.count unnamed (.ident .lock 7) = 1 := by
  refine ⟨Mutex.admits_acquire,?_,?_,?_,?_,?_⟩ <;> decide +kernel

end ProtocolNet.Monitor
