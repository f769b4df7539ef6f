import ProtocolNet.Proofs.DecodedValues
import ProtocolNet.Proofs.TraceFiles

namespace ProtocolNet

namespace SourceLocation

-- Parts of a place that end the reading of it for good: an infinite line, or an infinite
-- column behind a line that can be read. No other part is refused in this way.
inductive Infinite (parts : List (Str × Json)) : Prop where
  | line {file : Json} {negative : Bool} (named : parts.lookup ↑"file" = some file)
      (line : parts.lookup ↑"line" = some (.float (.infinite negative)))
  | column {file line : Json} {number : Int} {negative : Bool}
      (named : parts.lookup ↑"file" = some file) (placed : parts.lookup ↑"line" = some line)
      (read : readNumber (.obj parts) line = .ok number)
      (column : parts.lookup ↑"column" = some (.float (.infinite negative)))

variable {whole value : Json} {parts : List (Str × Json)}

theorem readNumber_infinite_iff : readNumber whole value = .error .infiniteNumber ↔
    ∃ negative, value = .float (.infinite negative) := by
  cases value with
  | str s =>
    simp only [readNumber,reduceCtorEq,exists_false,iff_false]
    split <;> simp
  | float x => cases x <;> simp [readNumber,Double.truncate]
  | null | bool | int | arr | obj => simp [readNumber]

theorem ofJson_infinite_iff (writable : value.isWritable = true) :
    ofJson value = .error .infiniteNumber ↔ ∃ parts, value = .obj parts ∧ Infinite parts := by
  constructor
  · intro refused
    cases value with
    | str written =>
      simp only [ofJson,ofText] at refused
      split at refused <;> cases refused
    | obj parts =>
      refine ⟨parts,rfl,?_⟩
      simp only [ofJson] at refused
      split at refused
      · rename_i file line named placed
        rw [if_pos (Json.isWritable_of_lookup writable named)] at refused
        cases read : readNumber (.obj parts) line with
        | error fault =>
          rw [read] at refused
          cases refused
          obtain ⟨negative,rfl⟩ := readNumber_infinite_iff.mp read
          exact .line named placed
        | ok number =>
          rw [read] at refused
          cases read' : readNumber (.obj parts) ((parts.lookup ↑"column").getD (.int 0)) with
          | ok column =>
            rw [read'] at refused
            cases refused
          | error fault =>
            rw [read'] at refused
            cases refused
            obtain ⟨negative,infinite⟩ := readNumber_infinite_iff.mp read'
            cases column : parts.lookup ↑"column" with
            | none => rw [column] at infinite; cases infinite
            | some found =>
              rw [column] at infinite
              exact .column named placed read (column.trans (congrArg some infinite))
      · cases refused
    | null | bool | int | float | arr => cases refused
  · rintro ⟨parts,rfl,infinite⟩
    cases infinite with
    | line named line =>
      simp only [ofJson,named,line,if_pos (Json.isWritable_of_lookup writable named)]
      rfl
    | column named placed read column =>
      simp only [ofJson,named,placed,read,column,if_pos (Json.isWritable_of_lookup writable named)]
      rfl

end SourceLocation

namespace Trace

-- A record whose place has an infinite coordinate, and a line that holds such a record.
def HasInfinitePlace (value : Json) : Prop :=
  ∃ fields parts, eventObject value = .obj fields ∧
    fields.lookup ↑"location" = some (.obj parts) ∧ SourceLocation.Infinite parts

def Overflows (path : Path) (s : List Char) : Prop :=
  isTranscript path = false ∧ ∃ value, Json.decode s = .ok value ∧ HasInfinitePlace value

-- What is said of a line that is no event.
def complaint? (path : Path) (line : NumberedLine) : Option Str :=
  match readEntry path line with
  | .ok _ => none
  | .error fault => some fault.message

variable {files : Files} {path : Path} {value : Json} {s row : List Char} {rows : List (List Char)}
  {number : Nat} {lines : List NumberedLine} {line : NumberedLine} {text : String}

theorem isWritable_eventObject (writable : value.isWritable = true) :
    (eventObject value).isWritable = true := by
  unfold eventObject
  split
  · rename_i fields here
    cases value with
    | obj outer => exact Json.isWritable_of_lookup writable here
    | null | bool | int | float | str | arr => cases here
  · exact writable

theorem readRecord_infinite_iff (writable : value.isWritable = true) :
    readRecord value = .error (.location .infiniteNumber) ↔ HasInfinitePlace value := by
  have writable := isWritable_eventObject writable
  unfold readRecord HasInfinitePlace
  cases object : eventObject value with
  | obj fields =>
    rw [object] at writable
    have place : SourceLocation.ofJson (Json.orNull (fields.lookup ↑"location")) =
        .error .infiniteNumber ↔ ∃ parts, fields.lookup ↑"location" = some (.obj parts) ∧
          SourceLocation.Infinite parts := by
      cases here : fields.lookup ↑"location" with
      | none => simp [Json.orNull,SourceLocation.ofJson]
      | some value =>
        rw [Json.orNull,Option.getD_some,
          SourceLocation.ofJson_infinite_iff (Json.isWritable_of_lookup writable here)]
        simp
    simp only [Json.obj.injEq,exists_and_left,exists_eq_left',← place]
    cases SourceLocation.ofJson (Json.orNull (fields.lookup ↑"location")) with
    | error fault => simp
    | ok location =>
      simp only [reduceCtorEq,iff_false]
      split <;> simp
  | null | bool | int | float | str | arr => simp

theorem readLine_infinite_iff :
    readLine (isTranscript path) s = .error (.record (.location .infiniteNumber)) ↔
      Overflows path s := by
  unfold Overflows readLine
  cases isTranscript path with
  | true =>
    simp only [if_true,Bool.true_eq_false,false_and,iff_false]
    split <;> simp
  | false =>
    simp only [Bool.false_eq_true,if_false,true_and]
    cases decoded : Json.decode s with
    | error fault => simp
    | ok value =>
      have writable := Json.writable_of_decodeWith Json.fair_keepLast decoded
      simp only [Except.ok.injEq,exists_eq_left',← readRecord_infinite_iff writable]
      cases readRecord value <;> simp

theorem readEntry_overflow (overflows : Overflows path s) :
    readEntry path (number,s) = .error .infiniteNumber := by
  rw [readEntry,readLine_infinite_iff.mpr overflows]

-- Any other line is an event, or it is told by its number that it is none.
theorem readEntry_bounded (bounded : ¬Overflows path s) :
    (∃ event location, readEntry path (number,s) = .ok ⟨event,location,number⟩) ∨
      ∃ fault, readEntry path (number,s) = .error (.line path.text number fault) := by
  unfold readEntry
  dsimp only
  split
  · rename_i event location read
    exact .inl ⟨event,location,rfl⟩
  · rename_i infinite
    exact absurd (readLine_infinite_iff.mp infinite) bounded
  · rename_i fault _ _
    exact .inr ⟨fault,rfl⟩

-- Whether a line overflows shows when it is read, so it can be computed.
theorem overflows_iff : Overflows path s ↔
    (match readEntry path (0,s) with | .error .infiniteNumber => true | _ => false) = true := by
  by_cases overflows : Overflows path s
  · simp [overflows,readEntry_overflow]
  · rcases @readEntry_bounded _ _ 0 overflows with ⟨event,location,read⟩ | ⟨fault,read⟩
    · simp [overflows,read]
    · simp [overflows,read]

instance (path : Path) (s : List Char) : Decidable (Overflows path s) :=
  decidable_of_iff _ overflows_iff.symm

-- A line is numbered by where it stands, lines that are passed over included.
theorem mem_significant : line ∈ significant number rows ↔ ∃ i row, rows[i]? = some row ∧
    isSignificant (Text.trim row) = true ∧ line = (number + i,Text.trim row) := by
  induction rows generalizing number with
  | nil => simp [significant]
  | cons first rest ih =>
    have shift : (∃ i row, (first :: rest)[i]? = some row ∧ isSignificant (Text.trim row) = true ∧
        line = (number + i,Text.trim row)) ↔
        (isSignificant (Text.trim first) = true ∧ line = (number,Text.trim first)) ∨
        line ∈ significant (number + 1) rest := by
      rw [ih]
      constructor
      · rintro ⟨i,row,found,solid,rfl⟩
        cases i with
        | zero =>
          obtain rfl : first = row := by simpa using found
          exact .inl ⟨solid,rfl⟩
        | succ i => exact .inr ⟨i,row,by simpa using found,solid,by rw [Nat.add_right_comm]; rfl⟩
      · rintro (⟨solid,rfl⟩ | ⟨i,row,found,solid,rfl⟩)
        · exact ⟨0,first,by simp,solid,rfl⟩
        · exact ⟨i + 1,row,by simpa using found,solid,by rw [Nat.add_right_comm]; rfl⟩
    rw [shift,significant]
    by_cases solid : isSignificant (Text.trim first) = true
    · simp [solid]
    · simp [solid]

theorem lineMessages_bounded (bounded : ∀ line ∈ lines, ¬Overflows path line.2) :
    lineMessages path lines = .ok (lines.filterMap (complaint? path)) := by
  induction lines with
  | nil => rfl
  | cons line rest ih =>
    obtain ⟨here,later⟩ := List.forall_mem_cons.mp bounded
    rw [lineMessages]
    rcases @readEntry_bounded path line.2 line.1 here with ⟨event,location,read⟩ | ⟨fault,read⟩
    · have silent : complaint? path line = none := by rw [complaint?,read]
      rw [read,List.filterMap_cons_none silent]
      exact ih later
    · have told : complaint? path line = some (Fault.line path.text line.1 fault).message := by
        rw [complaint?,read]
      rw [read,List.filterMap_cons_some told,ih later]
      rfl

theorem lineMessages_overflow (member : line ∈ lines) (overflows : Overflows path line.2) :
    lineMessages path lines = .error .infiniteNumber := by
  induction lines with
  | nil => cases member
  | cons first rest ih =>
    rw [lineMessages]
    by_cases here : Overflows path first.2
    · rw [readEntry_overflow here]
    · have later : line ∈ rest := by
        rcases List.mem_cons.mp member with rfl | later
        · exact absurd overflows here
        · exact later
      rcases @readEntry_bounded path first.2 first.1 here with ⟨event,location,read⟩ | ⟨fault,read⟩
      · rw [read]
        exact ih later
      · rw [read,ih later]
        rfl

theorem openSource_text (read : files.read path = .ok (Text.Utf8.encode text)) :
    openSource files path =
      .ok ⟨significant 1 (Text.lines (Text.unifyLineEnds text.toList)),none⟩ := by
  rw [openSource,pathExists_of_read read,Files.openStream,read]
  show Except.ok (Source.ofStream (Text.Stream.ofBytes _)) = _
  rw [Text.ofBytes_encode]
  rfl

theorem validate_text (read : files.read path = .ok (Text.Utf8.encode text)) :
    validate files path =
      lineMessages path (significant 1 (Text.lines (Text.unifyLineEnds text.toList))) := by
  rw [validate,openSource_text read]
  dsimp only
  split
  · rename_i absent
    cases absent
  · rfl

-- Each line of a trace that may hold an event is read as one, or refused by its number; the
-- only other outcome is that of an infinite coordinate, which ends the check of the file.
theorem lines_are_told (files : Files) (path : Path) (text : String)
    (read : files.read path = .ok (Text.Utf8.encode text)) :
    let rows := Text.lines (Text.unifyLineEnds text.toList)
    (∀ i row, rows[i]? = some row → isSignificant (Text.trim row) = true →
      let outcome := readEntry path (i + 1,Text.trim row)
      (¬Overflows path (Text.trim row) →
        (∃ event location, outcome = .ok ⟨event,location,i + 1⟩) ∨
          ∃ fault, outcome = .error (.line path.text (i + 1) fault)) ∧
      (Overflows path (Text.trim row) → outcome = .error .infiniteNumber)) ∧
    ((∀ row ∈ rows, isSignificant (Text.trim row) = true → ¬Overflows path (Text.trim row)) →
      validate files path = .ok ((significant 1 rows).filterMap (complaint? path))) ∧
    ((∃ row ∈ rows, isSignificant (Text.trim row) = true ∧ Overflows path (Text.trim row)) →
      validate files path = .error .infiniteNumber) := by
  intro rows
  refine ⟨?_,?_,?_⟩
  · intro i row found solid outcome
    exact ⟨readEntry_bounded,readEntry_overflow⟩
  · intro bounded
    rw [validate_text read]
    apply lineMessages_bounded
    intro line member
    obtain ⟨i,row,found,solid,rfl⟩ := mem_significant.mp member
    exact bounded row (List.mem_of_getElem? found) solid
  · rintro ⟨row,member,solid,overflows⟩
    obtain ⟨i,found⟩ := List.mem_iff_getElem?.mp member
    have numbered : (1 + i,Text.trim row) ∈ significant 1 rows :=
      mem_significant.mpr ⟨i,row,found,solid,rfl⟩
    rw [validate_text read]
    exact lineMessages_overflow numbered overflows

def recordsPath : Path := ⟨"",["run.jsonl"]⟩

def recordsFiles (text : String) : Files :=
  ⟨⟨[("run.jsonl",.file (Text.Utf8.encode text))],by simp⟩,[]⟩

def boundedText : String := "\x7b\"type\": \"Yield\", \"tid\": 1\x7d\n\n" ++
  "\x7b\"type\": \"Yield\", \"tid\": true\x7d\n" ++
  "\x7b\"type\": \"Yield\", \"tid\": 1, \"location\": \x7b\"file\": \"a\", \"line\": NaN\x7d\x7d\n"

-- A truth value for a thread and a line that is no number are both told by where they stand.
theorem lines_are_told_bounded :
    (recordsFiles boundedText).read recordsPath = .ok (Text.Utf8.encode boundedText) ∧
    validate (recordsFiles boundedText) recordsPath = .ok [
      ↑"run.jsonl:3: Yield.tid must be a non-negative integer, got True",
      ↑"run.jsonl:4: Malformed location object: \x7b'file': 'a', 'line': nan\x7d"] := by
  have read : (recordsFiles boundedText).read recordsPath = .ok (Text.Utf8.encode boundedText) := rfl
  obtain ⟨-,listed,-⟩ := lines_are_told (recordsFiles boundedText) recordsPath boundedText read
  refine ⟨read,(listed (by decide +kernel)).trans ?_⟩
  exact congrArg Except.ok (by decide +kernel)

def infiniteText : String := "\x7b\"type\": \"Yield\", \"tid\": true\x7d\n" ++
  "\x7b\"type\": \"Yield\", \"tid\": 1, \"location\": \x7b\"file\": \"a\", \"line\": 1e999\x7d\x7d\n"

-- An infinite line is not told as a fault of the second line, and the check of the file ends
-- without a list, that of the first line included.
theorem infinite_line_escapes :
    (recordsFiles infiniteText).read recordsPath = .ok (Text.Utf8.encode infiniteText) ∧
    (match validate (recordsFiles infiniteText) recordsPath with
      | .error .infiniteNumber => true
      | _ => false) = true ∧
    ∀ row, (Text.lines (Text.unifyLineEnds infiniteText.toList))[1]? = some row →
      ¬∃ fault, readEntry recordsPath (2,Text.trim row) = .error (.line recordsPath.text 2 fault) := by
  refine ⟨rfl,by decide +kernel,?_⟩
  intro row found told
  obtain ⟨fault,told⟩ := told
  have overflows : ∀ row ∈ (Text.lines (Text.unifyLineEnds infiniteText.toList))[1]?,
      Overflows recordsPath (Text.trim row) := by decide +kernel
  rw [readEntry_overflow (overflows row found)] at told
  cases told

end Trace

end ProtocolNet
