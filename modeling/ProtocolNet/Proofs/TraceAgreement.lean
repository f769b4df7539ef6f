import Mathlib.Data.List.Forall2
import ProtocolNet.Proofs.TraceValidation

namespace ProtocolNet

namespace Trace

-- The lines that may hold an event, each with its number, if the first row has the given one.
def solidLines (number : Nat) (rows : List (List Char)) : List NumberedLine :=
  ((rows.zipIdx number).map fun row => (row.2,Text.trim row.1)).filter
    fun line => isSignificant line.2

-- The rows of a file of the given text.
def rowsOf (text : String) : List (List Char) := Text.lines (Text.unifyLineEnds text.toList)

-- What a line is taken for, and what is said of it instead. Besides the line and its number only
-- the path of the file is looked at.
def Holds (path : Path) (line : NumberedLine) (entry : Entry) : Prop :=
  entry.line = line.1 ∧ readLine (isTranscript path) line.2 = .ok (entry.event,entry.location)

def Told (path : Path) (line : NumberedLine) (message : Str) : Prop :=
  ∃ fault, readLine (isTranscript path) line.2 = .error fault ∧
    message = (Fault.line path.text line.1 fault).message

def malformed (path : Path) (line : NumberedLine) : Bool :=
  match readLine (isTranscript path) line.2 with
  | .ok _ => false
  | .error _ => true

variable {files : Files} {path : Path} {text : String} {number : Nat} {rows first rest : List (List Char)}
  {line : NumberedLine} {lines before after : List NumberedLine} {entry : Entry}
  {found : List Entry} {fault : LineFault} {message : Str}

theorem significant_eq_solidLines : significant number rows = solidLines number rows := by
  induction rows generalizing number with
  | nil => rfl
  | cons row rest ih =>
    simp only [significant,ih,solidLines,List.zipIdx_cons,List.map_cons,List.filter_cons]

theorem solidLines_append :
    solidLines number (first ++ rest) =
      solidLines number first ++ solidLines (number + first.length) rest := by
  simp only [solidLines,List.zipIdx_append,List.map_append,List.filter_append]

theorem solidLines_increasing :
    ((solidLines number rows).map Prod.fst).Pairwise (· < ·) := by
  have numbers : (((rows.zipIdx number).map fun row => (row.2,Text.trim row.1)).map Prod.fst) =
      List.range' number rows.length := by
    rw [List.map_map,← List.zipIdx_map_snd number rows]
    rfl
  have increasing : (List.range' number rows.length).Pairwise (· < ·) :=
    List.pairwise_lt_range'
  rw [← numbers] at increasing
  exact increasing.sublist (List.filter_sublist.map Prod.fst)

theorem malformed_of_holds (holds : Holds path line entry) : malformed path line = false := by
  simp only [malformed,holds.2]

theorem malformed_of_told (told : Told path line message) : malformed path line = true := by
  obtain ⟨fault,refused,-⟩ := told
  simp only [malformed,refused]

-- A line is read, or it is told of, by its own text alone; the reader and the check both go by
-- that.
theorem readEntry_of_holds (holds : Holds path line entry) : readEntry path line = .ok entry := by
  obtain ⟨event,location,number⟩ := entry
  obtain ⟨rfl,read⟩ := holds
  simp only [readEntry,read]

theorem readEntry_of_refused (bounded : ¬Overflows path line.2)
    (refused : readLine (isTranscript path) line.2 = .error fault) :
    readEntry path line = .error (.line path.text line.1 fault) := by
  have finite : fault ≠ .record (.location .infiniteNumber) := by
    rintro rfl
    exact bounded (readLine_infinite_iff.mp refused)
  unfold readEntry
  rw [refused]
  split
  · rename_i read
    cases read
  · rename_i infinite
    exact absurd (Except.error.inj infinite) finite
  · rename_i cause _ same
    cases same
    rfl

theorem holds_or_refused (path : Path) (line : NumberedLine) :
    (∃ entry, Holds path line entry) ∨
      ∃ fault, readLine (isTranscript path) line.2 = .error fault := by
  cases here : readLine (isTranscript path) line.2 with
  | ok read => exact .inl ⟨⟨read.1,read.2,line.1⟩,rfl,here⟩
  | error fault => exact .inr ⟨fault,rfl⟩

theorem complaint?_of_holds (holds : Holds path line entry) : complaint? path line = none := by
  rw [complaint?,readEntry_of_holds holds]

theorem complaint?_of_refused (bounded : ¬Overflows path line.2)
    (refused : readLine (isTranscript path) line.2 = .error fault) :
    complaint? path line = some (Fault.line path.text line.1 fault).message := by
  rw [complaint?,readEntry_of_refused bounded refused]

-- All lines before the first one that is malformed are read, and that one is the first to be
-- told of.
theorem readEntries_bounded (bounded : ∀ line ∈ lines, ¬Overflows path line.2) :
    (∃ found, readEntries path lines = (found,none) ∧ List.Forall₂ (Holds path) lines found ∧
      lines.filterMap (complaint? path) = []) ∨
    ∃ before bad after found fault, lines = before ++ bad :: after ∧
      List.Forall₂ (Holds path) before found ∧
      readLine (isTranscript path) bad.2 = .error fault ∧
      readEntries path lines = (found,some (.line path.text bad.1 fault)) ∧
      (lines.filterMap (complaint? path)).head? = some (Fault.line path.text bad.1 fault).message := by
  induction lines with
  | nil => exact .inl ⟨[],rfl,.nil,rfl⟩
  | cons line rest ih =>
    obtain ⟨here,later⟩ := List.forall_mem_cons.mp bounded
    rcases holds_or_refused path line with ⟨entry,holds⟩ | ⟨fault,refused⟩
    · have read := readEntry_of_holds holds
      rw [List.filterMap_cons_none (complaint?_of_holds holds)]
      rcases ih later with ⟨found,whole,all,silent⟩ |
        ⟨before,bad,after,found,fault,rfl,all,refused,stopped,told⟩
      · refine .inl ⟨entry :: found,?_,.cons holds all,silent⟩
        simp only [readEntries,read,whole]
      · refine .inr ⟨line :: before,bad,after,entry :: found,fault,rfl,.cons holds all,refused,?_,told⟩
        simp only [readEntries,read,stopped]
    · rw [List.filterMap_cons_some (complaint?_of_refused here refused)]
      refine .inr ⟨[],line,rest,[],fault,rfl,.nil,refused,?_,rfl⟩
      simp only [readEntries,readEntry_of_refused here refused]

theorem readEntries_append (all : List.Forall₂ (Holds path) before found) :
    readEntries path (before ++ after) =
      (found ++ (readEntries path after).1,(readEntries path after).2) := by
  induction all with
  | nil => rfl
  | cons holds _ ih => simp only [List.cons_append,readEntries,readEntry_of_holds holds,ih]

-- What is listed is one message for each malformed line.
theorem told_complaints (bounded : ∀ line ∈ lines, ¬Overflows path line.2) :
    List.Forall₂ (Told path) (lines.filter (malformed path)) (lines.filterMap (complaint? path)) := by
  induction lines with
  | nil => exact .nil
  | cons line rest ih =>
    obtain ⟨here,later⟩ := List.forall_mem_cons.mp bounded
    rcases holds_or_refused path line with ⟨entry,holds⟩ | ⟨fault,refused⟩
    · have sound : ¬malformed path line = true := by simp [malformed_of_holds holds]
      rw [List.filter_cons_of_neg sound,List.filterMap_cons_none (complaint?_of_holds holds)]
      exact ih later
    · have bad : Told path line (Fault.line path.text line.1 fault).message := ⟨fault,refused,rfl⟩
      rw [List.filter_cons_of_pos (malformed_of_told bad),
        List.filterMap_cons_some (complaint?_of_refused here refused)]
      exact .cons bad (ih later)

theorem entries_text (read : files.read path = .ok (Text.Utf8.encode text)) :
    entries files path = readEntries path (solidLines 1 (rowsOf text)) := by
  rw [entries,openSource_text read,significant_eq_solidLines,← rowsOf]
  dsimp only
  cases readEntries path (solidLines 1 (rowsOf text)) with
  | mk found fault => cases fault <;> rfl

theorem validate_bounded (read : files.read path = .ok (Text.Utf8.encode text))
    (bounded : ∀ line ∈ solidLines 1 (rowsOf text), ¬Overflows path line.2) :
    validate files path =
      .ok ((solidLines 1 (rowsOf text)).filterMap (complaint? path)) := by
  rw [validate_text read,significant_eq_solidLines]
  exact lineMessages_bounded bounded

theorem holds_of_sound (sound : ∀ line ∈ lines, malformed path line = false) :
    ∃ found, List.Forall₂ (Holds path) lines found := by
  induction lines with
  | nil => exact ⟨[],.nil⟩
  | cons line rest ih =>
    obtain ⟨here,later⟩ := List.forall_mem_cons.mp sound
    obtain ⟨found,all⟩ := ih later
    unfold malformed at here
    split at here
    · rename_i read held
      exact ⟨⟨read.1,read.2,line.1⟩ :: found,.cons ⟨rfl,held⟩ all⟩
    · cases here

-- Reading a trace and checking it go by the same lines, and each line by itself: what is read of
-- the lines behind any others, and what is said of them, does not change with those others.
theorem reading_agrees_with_check (files : Files) (path : Path) (text : String)
    (read : files.read path = .ok (Text.Utf8.encode text))
    (bounded : ∀ line ∈ solidLines 1 (rowsOf text), ¬Overflows path line.2) :
    ∃ messages, validate files path = .ok messages ∧
      List.Forall₂ (Told path) ((solidLines 1 (rowsOf text)).filter (malformed path)) messages ∧
      ((solidLines 1 (rowsOf text)).map Prod.fst).Pairwise (· < ·) ∧
      ((∃ found, readAll files path = .ok found) ↔ messages = []) ∧
      (∀ found, readAll files path = .ok found →
        List.Forall₂ (Holds path) (solidLines 1 (rowsOf text)) found) ∧
      (messages ≠ [] → ∃ before bad after found fault,
        solidLines 1 (rowsOf text) = before ++ bad :: after ∧
        List.Forall₂ (Holds path) before found ∧
        readLine (isTranscript path) bad.2 = .error fault ∧
        entries files path = (found,some (.line path.text bad.1 fault)) ∧
        messages.head? = some (Fault.line path.text bad.1 fault).message) ∧
      ∀ (other : Files) (text' : String) (first first' rest : List (List Char)),
        rowsOf text = first ++ rest → rowsOf text' = first' ++ rest →
        first'.length = first.length → other.read path = .ok (Text.Utf8.encode text') →
        (∀ line ∈ solidLines 1 first', ¬Overflows path line.2) →
        (∃ here there later, messages = here ++ later ∧ validate other path = .ok (there ++ later) ∧
          List.Forall₂ (Told path) ((solidLines 1 first).filter (malformed path)) here ∧
          List.Forall₂ (Told path) ((solidLines 1 first').filter (malformed path)) there) ∧
        ((∀ line ∈ solidLines 1 first ++ solidLines 1 first', malformed path line = false) →
          ∃ here there later fault, entries files path = (here ++ later,fault) ∧
            entries other path = (there ++ later,fault) ∧
            List.Forall₂ (Holds path) (solidLines 1 first) here ∧
            List.Forall₂ (Holds path) (solidLines 1 first') there) := by
  have outcome := readEntries_bounded bounded
  rw [← entries_text read] at outcome
  refine ⟨_,validate_bounded read bounded,told_complaints bounded,solidLines_increasing,?_,?_,?_,?_⟩
  · rcases outcome with ⟨found,whole,all,silent⟩ |
      ⟨before,bad,after,found,fault,split,all,refused,stopped,told⟩
    · simp only [readAll,whole,silent,Except.ok.injEq,exists_eq']
    · have spoken : (solidLines 1 (rowsOf text)).filterMap (complaint? path) ≠ [] := by
        intro silent
        rw [silent] at told
        cases told
      simp only [readAll,stopped,reduceCtorEq,exists_false,spoken]
  · intro all complete
    rcases outcome with ⟨found,whole,held,-⟩ | ⟨before,bad,after,found,fault,-,-,-,stopped,-⟩
    · rw [readAll,whole] at complete
      cases complete
      exact held
    · rw [readAll,stopped] at complete
      cases complete
  · intro spoken
    rcases outcome with ⟨found,whole,all,silent⟩ | stopped
    · exact absurd silent spoken
    · exact stopped
  · intro other text' first first' rest rows rows' aligned read' bounded'
    rw [rows,solidLines_append] at bounded ⊢
    obtain ⟨boundedFirst,boundedRest⟩ := List.forall_mem_append.mp bounded
    have boundedOther : ∀ line ∈ solidLines 1 (rowsOf text'), ¬Overflows path line.2 := by
      rw [rows',solidLines_append,aligned]
      exact List.forall_mem_append.mpr ⟨bounded',boundedRest⟩
    refine ⟨⟨_,_,_,List.filterMap_append,?_,told_complaints boundedFirst,told_complaints bounded'⟩,?_⟩
    · rw [validate_bounded read' boundedOther,rows',solidLines_append,aligned,List.filterMap_append]
    · intro sound
      obtain ⟨soundFirst,soundOther⟩ := List.forall_mem_append.mp sound
      obtain ⟨here,held⟩ := holds_of_sound soundFirst
      obtain ⟨there,held'⟩ := holds_of_sound soundOther
      let behind := readEntries path (solidLines (1 + first.length) rest)
      refine ⟨here,there,behind.1,behind.2,?_,?_,held,held'⟩
      · rw [entries_text read,rows,solidLines_append,readEntries_append held]
      · rw [entries_text read',rows',solidLines_append,aligned,readEntries_append held']

-- The first record is read, the third line stops the reader, and it is the first of two that are
-- told of.
theorem reading_agrees_with_check_stopped :
    ∃ messages found fault, validate (recordsFiles boundedText) recordsPath = .ok messages ∧
      messages.length = 2 ∧
      entries (recordsFiles boundedText) recordsPath = (found,some fault) ∧
      found.map Entry.line = [1] ∧ messages.head? = some fault.message ∧
      fault.message = "run.jsonl:3: Yield.tid must be a non-negative integer, got True" := by
  have read : (recordsFiles boundedText).read recordsPath = .ok (Text.Utf8.encode boundedText) := rfl
  obtain ⟨messages,validated,told,-,-,-,stops,-⟩ :=
    reading_agrees_with_check (recordsFiles boundedText) recordsPath boundedText read (by decide +kernel)
  have two : messages.length = 2 := told.length_eq.symm.trans (by decide +kernel)
  have spoken : messages ≠ [] := by
    rintro rfl
    cases two
  obtain ⟨before,bad,after,found,fault,-,-,-,stopped,first⟩ := stops spoken
  have lines : (entries (recordsFiles boundedText) recordsPath).1.map Entry.line = [1] := by
    decide +kernel
  have said : (entries (recordsFiles boundedText) recordsPath).2.map Fault.message =
      some "run.jsonl:3: Yield.tid must be a non-negative integer, got True" := by decide +kernel
  rw [stopped] at lines said
  exact ⟨messages,found,_,validated,two,stopped,lines,first,Option.some.inj said⟩

end Trace

end ProtocolNet
