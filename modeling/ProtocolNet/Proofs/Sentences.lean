import ProtocolNet.Proofs.Lexemes
import ProtocolNet.Transcript.Line

namespace ProtocolNet

def FieldValue.Clean : FieldValue → Prop
  | .number _ => True
  | .text s => .char '\n' ∉ s

namespace Transcript

variable {progress next : Progress} {lexeme : Lexeme} {lexemes : List Lexeme} {placed : List Placed}
  {sentence : Sentence} {s : List Char}

-- The state behind lexemes, wherever they stand in the text.
def follow (progress : Progress) : List Lexeme → Option Progress
  | [] => some progress
  | lexeme :: rest => (progress.step? lexeme).bind fun next => follow next rest

def sentenceOf? (lexemes : List Lexeme) : Option Sentence :=
  (follow .start lexemes).bind Progress.sentence?

theorem follow_append (before after : List Lexeme) :
    follow progress (before ++ after) = (follow progress before).bind (follow · after) := by
  induction before generalizing progress with
  | nil => rfl
  | cons lexeme rest ih =>
    rw [List.cons_append,follow,follow,Option.bind_assoc]
    congr 1
    funext next
    exact ih

theorem parseFrom_ok_iff : parseFrom progress placed = .ok sentence ↔
    (follow progress (placed.map (·.lexeme))).bind Progress.sentence? = some sentence := by
  induction placed generalizing progress with
  | nil =>
    show parseFrom progress [] = .ok sentence ↔ progress.sentence? = some sentence
    rw [parseFrom]
    cases progress.sentence? <;> simp
  | cons first rest ih =>
    rw [parseFrom,List.map_cons,follow]
    cases progress.step? first.lexeme with
    | none => simp
    | some next => exact ih

theorem sentence_ok_iff {scan : Scan} : scan.sentence = .ok sentence ↔
    scan.ending = .endOfText ∧ sentenceOf? (scan.lexemes.map (·.lexeme)) = some sentence := by
  obtain ⟨lexemes,ending⟩ := scan
  rw [sentenceOf?,← parseFrom_ok_iff,← parse]
  unfold Scan.sentence
  dsimp only
  cases parse lexemes with
  | ok found => cases ending <;> simp
  | error fault => cases fault <;> cases ending <;> simp

-- A line is read if all of it is scanned, and its lexemes are a sentence.
theorem readSentence_ok_iff : readSentence s = .ok sentence ↔
    ∃ lexemes, Lexes (Text.trim s) lexemes ∧ sentenceOf? lexemes = some sentence := by
  have whole : readSentence s = .ok sentence ↔ (scan (Text.trim s)).sentence = .ok sentence := by
    rw [readSentence]
    split
    · rename_i empty
      rw [empty]
      constructor <;> (intro impossible; cases impossible)
    · exact Iff.rfl
  rw [whole,sentence_ok_iff]
  constructor
  · rintro ⟨ended,parsed⟩
    refine ⟨_,scan_iff.mp ⟨(scan (Text.trim s)).lexemes,?_,rfl⟩,parsed⟩
    rw [← ended]
  · rintro ⟨lexemes,lexes,parsed⟩
    obtain ⟨placed,scanned,rfl⟩ := scan_iff.mpr lexes
    rw [scanned]
    exact ⟨rfl,parsed⟩

-- What has been read of a sentence, when it was read from clean lexemes.
def Progress.Clean : Progress → Prop
  | .fieldNamed _ fields _ | .valueDue _ fields _ | .fieldRead _ fields | .fieldDue _ fields
  | .closed _ fields => ∀ field ∈ fields, field.2.Clean
  | .located _ fields location =>
    (∀ field ∈ fields, field.2.Clean) ∧ (Lexeme.location location).Clean
  | _ => True

theorem Progress.Clean.step (clean : progress.Clean) (here : lexeme.Clean)
    (stepped : progress.step? lexeme = some next) : next.Clean := by
  cases progress with
  | valueDue name fields field =>
    obtain ⟨value,given,rfl⟩ := Option.map_eq_some_iff.mp stepped
    refine List.forall_mem_append.mpr ⟨clean,List.forall_mem_singleton.mpr ?_⟩
    cases lexeme <;> cases given
    · exact fun broke => here (Str.char_mem_ofString.mp broke)
    · trivial
    · exact fun broke => here (Str.char_mem_ofString.mp broke)
  | closed name fields => cases lexeme <;> cases stepped; exact ⟨clean,here⟩
  | opened name =>
    cases lexeme <;> cases stepped
    · exact List.forall_mem_nil _
    · trivial
    · exact List.forall_mem_nil _
  | _ => cases lexeme <;> cases stepped <;> exact clean

theorem Progress.Clean.follow (clean : progress.Clean) (all : ∀ lexeme ∈ lexemes, lexeme.Clean)
    (followed : Transcript.follow progress lexemes = some next) : next.Clean := by
  induction lexemes generalizing progress with
  | nil => cases followed; exact clean
  | cons lexeme rest ih =>
    obtain ⟨here,later⟩ := List.forall_mem_cons.mp all
    obtain ⟨middle,stepped,followed⟩ := Option.bind_eq_some_iff.mp followed
    exact ih (clean.step here stepped) later followed

-- No event that is read has a line end in a field or a location that is not whole.
theorem clean_of_readSentence {name : String} {fields : Fields} {location : Option String}
    (read : readSentence s = .ok (.event name fields location)) :
    (∀ field ∈ fields, field.2.Clean) ∧ ∀ text, location = some text → (Lexeme.location text).Clean := by
  obtain ⟨lexemes,lexes,parsed⟩ := readSentence_ok_iff.mp read
  obtain ⟨progress,followed,complete⟩ := Option.bind_eq_some_iff.mp parsed
  have start : Progress.start.Clean := trivial
  have clean := start.follow lexes.clean followed
  cases progress <;> cases complete
  · exact ⟨clean,fun text none => by cases none⟩
  · exact ⟨clean.1,fun text same => by cases same; exact clean.2⟩

end Transcript

end ProtocolNet
