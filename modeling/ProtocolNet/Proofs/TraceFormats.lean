import ProtocolNet.Proofs.TraceFiles
import ProtocolNet.Proofs.TranscriptRoundTrip

namespace ProtocolNet

theorem Str.Whole.apart {s : Str} (whole : s.Whole) : s.Apart :=
  whole.chars ▸ Json.apart_of_chars s.shown

theorem SourceLocation.whole_text {place : SourceLocation} (whole : place.file.Whole) :
    place.text.Whole := by
  simp only [SourceLocation.text,Str.Whole,List.forall_mem_append]
  exact ⟨⟨⟨⟨whole,Str.whole_ofString _⟩,Str.whole_ofString _⟩,Str.whole_ofString _⟩,
    Str.whole_ofString _⟩

namespace Json

variable {fields given : List (Str × Json)} {value : Json} {s : List Char}

theorem soundFields_iff :
    SoundFields fields ↔ ∀ field ∈ fields, field.1.Apart ∧ field.2.Sound := by
  induction fields with
  | nil => exact iff_of_true trivial (List.forall_mem_nil _)
  | cons field rest ih =>
    rw [List.forall_mem_cons,← ih,and_assoc]
    rfl

-- The order of the fields of an object is not noticed where they are looked up.
theorem lookup_perm (perm : given.Perm fields) (distinct : (given.map (·.1)).Nodup) (name : Str) :
    given.lookup name = fields.lookup name := by
  induction perm with
  | nil => rfl
  | cons field _ ih =>
    rw [List.map_cons,List.nodup_cons] at distinct
    rw [List.lookup_cons,List.lookup_cons,ih distinct.2]
  | swap first second rest =>
    obtain ⟨key,value⟩ := first
    obtain ⟨key',value'⟩ := second
    have different : key' ≠ key := by
      rw [List.map_cons,List.map_cons,List.nodup_cons] at distinct
      exact fun same => distinct.1 (same ▸ List.mem_cons_self)
    simp only [List.lookup_cons]
    by_cases here : name = key'
    · have other : (name == key) = false := beq_eq_false_iff_ne.mpr (here ▸ different)
      rw [other]
    · rw [beq_eq_false_iff_ne.mpr here]
  | trans perm _ ih ih' =>
    exact (ih distinct).trans (ih' ((perm.map _).nodup_iff.mp distinct))

theorem lookup_absent {name : Str} (absent : name ∉ fields.map (·.1)) :
    fields.lookup name = none := by
  refine List.lookup_eq_none_iff.mpr fun field member => bne_iff_ne.mpr fun same => absent ?_
  rw [same]
  exact List.mem_map_of_mem member

theorem filter_absent {name : Str} (absent : name ∉ fields.map (·.1)) :
    fields.filter (·.1 ≠ name) = fields := by
  refine List.filter_eq_self.mpr fun field member => decide_eq_true fun same => absent ?_
  rw [← same]
  exact List.mem_map_of_mem member

-- A text of an object: the one that is written for it, or any other one that means it.
def IsTextOf (value : Json) (line : List Char) : Prop :=
  line = value.encode.toList ∨ decode (Text.trim line) = .ok value

theorem trim_encode (fields : List (Str × Json)) :
    Text.trim (encode (.obj fields)).toList = (encode (.obj fields)).toList := by
  have opening : "\x7b".toList = ['\x7b'] := rfl
  have closing : "\x7d".toList = ['\x7d'] := rfl
  have brace : Text.isBlank '\x7b' = false ∧ Text.isBlank '\x7d' = false := by decide
  rw [encode,String.toList_append,String.toList_append,opening,closing]
  refine Text.trim_of_stops [] (List.forall_mem_nil _) (Text.stops_cons.mpr brace.1) ?_
  show Text.Stops Text.isBlank ('\x7b' :: (_ ++ ['\x7d'])).reverse
  rw [List.reverse_cons,List.reverse_append]
  exact Text.stops_cons.mpr brace.2

theorem IsTextOf.decode (text : IsTextOf (.obj fields) s) (sound : (Json.obj fields).Sound) :
    Json.decode (Text.trim s) = .ok (.obj fields) := by
  rcases text with rfl | decoded
  · rw [trim_encode]
    exact decode_encode _ sound
  · exact decoded

theorem lexemeAt_hash (offset : Nat) : lexemeAt offset '#' s = (.stray,1) := by
  simp [lexemeAt,words,scanNumber?,wholeDigits,digitRun]

-- What is decoded is neither blank nor a comment.
theorem significant_of_decode (decoded : Json.decode s = .ok value) : Trace.isSignificant s = true := by
  cases s with
  | nil => cases decoded
  | cons c rest =>
    by_cases comment : c = '#'
    · subst comment
      have started : lexemes ('#' :: rest) = (0,.stray) :: lexemesFrom 0 1 rest := by
        rw [lexemes,lexemesFrom,lexemeAt_hash]
        rfl
      rw [Json.decode,decodeWith,started] at decoded
      · cases decoded
      · simp
    · exact bne_iff_ne.mpr comment

end Json

namespace Event

variable {event : Event} {values given : List (Str × Json)} {kind : Kind}

theorem readFields_congr (agree : ∀ name, given.lookup name = values.lookup name) :
    readFields kind given = readFields kind values := by
  have numbers : readNumber kind given = readNumber kind values := by
    funext name
    rw [readNumber,readNumber,agree]
  have texts : readText kind given = readText kind values := by
    funext name
    rw [readText,readText,agree]
  unfold readFields
  rw [numbers,texts]

theorem distinct_names (kind : Kind) : (("type" :: kind.fieldNames).map Str.ofString).Nodup :=
  List.Nodup.map (fun _ _ same => Str.ofString_inj.mp same) (nodup_fieldNames kind)

-- The fields of an event make it in any order.
theorem make_perm (event : Event) (perm : given.Perm event.fieldValues) :
    make event.typeName given = .ok event := by
  have names : (given.map (·.1)).Perm (event.kind.fieldNames.map Str.ofString) :=
    event.keys_fieldValues ▸ perm.map (·.1)
  have distinct : (given.map (·.1)).Nodup :=
    names.nodup_iff.mpr (List.nodup_cons.mp (distinct_names event.kind)).2
  have known : Kind.ofText? event.typeName = some event.kind := Kind.ofText?_text event.kind
  have unexpected : (given.map (·.1)).filter (· ∉ event.kind.fieldNames.map Str.ofString) = [] := by
    refine List.filter_eq_nil_iff.mpr fun name member => ?_
    rw [decide_eq_true_eq,not_not]
    exact names.mem_iff.mp member
  have missing : (event.kind.fieldNames.map Str.ofString).filter (· ∉ given.map (·.1)) = [] := by
    refine List.filter_eq_nil_iff.mpr fun name member => ?_
    rw [decide_eq_true_eq,not_not]
    exact names.mem_iff.mpr member
  rw [make,known]
  dsimp only
  rw [unexpected,missing,readFields_congr (Json.lookup_perm perm distinct)]
  exact readFields_fieldValues event

-- The fields of the structured form, in their own order.
def record (event : Event) : List (Str × Json) :=
  (↑"type",.str event.typeName) :: event.fieldValues

theorem record_names (event : Event) :
    event.record.map (·.1) = ("type" :: event.kind.fieldNames).map Str.ofString := by
  rw [record,List.map_cons,keys_fieldValues]
  rfl

theorem record_distinct (event : Event) : (event.record.map (·.1)).Nodup := by
  rw [record_names]
  exact distinct_names event.kind

theorem reserved_names (event : Event) : "type" ∉ event.kind.fieldNames ∧
    ↑"location" ∉ event.record.map (·.1) ∧ ↑"event" ∉ event.record.map (·.1) := by
  have unused (name : String) (other : name ∉ "type" :: event.kind.fieldNames) :
      ↑name ∉ event.record.map (·.1) := by
    rw [record_names]
    intro member
    obtain ⟨same,listed,called⟩ := List.mem_map.mp member
    exact other (Str.ofString_inj.mp called ▸ listed)
  refine ⟨(List.nodup_cons.mp (nodup_fieldNames event.kind)).1,unused _ ?_,unused _ ?_⟩ <;>
    cases event.kind <;> decide

-- The structured form may have its fields in any order.
theorem ofJson_perm (perm : given.Perm event.record) : ofJson (.obj given) = .ok event := by
  have distinct : (given.map (·.1)).Nodup := (perm.map _).nodup_iff.mpr event.record_distinct
  have type : given.lookup ↑"type" = some (.str event.typeName) := Json.lookup_perm perm distinct "type"
  have rest : (given.filter (·.1 ≠ ↑"type")).Perm event.fieldValues := by
    have others := perm.filter (·.1 ≠ Str.ofString "type")
    rwa [record,List.filter_cons_of_neg (by simp),filter_fieldValues event.reserved_names.1] at others
  rw [ofJson]
  simp only [type]
  exact make_perm event rest

end Event

namespace Trace

open Json (IsTextOf)

-- How a place in the source may be told in a record: not at all or by null if there is none,
-- else by its text or by its parts in any order.
inductive Placing : Option SourceLocation → List (Str × Json) → Prop
  | absent : Placing none []
  | null : Placing none [(↑"location",.null)]
  | text (place : SourceLocation) : Placing (some place) [(↑"location",.str place.text)]
  | parts {place : SourceLocation} {parts : List (Str × Json)} :
      parts.Perm [(↑"file",.str place.file),(↑"line",.int place.line),(↑"column",.int place.column)] →
      Placing (some place) [(↑"location",.obj parts)]

-- The fields of a record: those of the structured form of its event and its place, in any order.
def IsRecord (event : Event) (location : Option SourceLocation) (fields : List (Str × Json)) : Prop :=
  ∃ placing, Placing location placing ∧ fields.Perm (event.record ++ placing)

variable {event : Event} {location : Option SourceLocation} {place : SourceLocation}
  {fields placing : List (Str × Json)}

theorem Placing.named (placed : Placing location placing) :
    placing = [] ∨ ∃ value, placing = [(↑"location",value)] := by
  cases placed with
  | absent => exact .inl rfl
  | null | text | parts => exact .inr ⟨_,rfl⟩

theorem Placing.read (placed : Placing location placing)
    (marked : ∀ place, location = some place → Transcript.Marked place)
    (writable : Transcript.Writable event location) :
    SourceLocation.ofJson (Json.orNull (placing.lookup ↑"location")) = .ok location := by
  cases placed with
  | absent => rfl
  | null => rfl
  | text place =>
    have marked := marked place rfl
    have read := marked.plain.ofText_text marked.whole.chars.symm (writable.line place rfl)
      (writable.column place rfl)
    show (SourceLocation.ofText place.text).map some = _
    rw [read]
    rfl
  | @parts place parts perm =>
    have distinct : (parts.map (·.1)).Nodup := (perm.map _).nodup_iff.mpr (by simp)
    have same := Json.lookup_perm perm distinct
    show SourceLocation.ofJson (.obj parts) = _
    rw [SourceLocation.ofJson,same,same,same]
    rfl

theorem Placing.sound (placed : Placing location placing)
    (whole : ∀ place, location = some place → place.file.Whole)
    (writable : Transcript.Writable event location) : Json.SoundFields placing := by
  cases placed with
  | absent => trivial
  | null => exact ⟨Json.apart_ofString _,trivial,trivial⟩
  | text place =>
    exact ⟨Json.apart_ofString _,(SourceLocation.whole_text (whole place rfl)).apart,trivial⟩
  | @parts place parts perm =>
    have distinct : (parts.map (·.1)).Nodup := (perm.map _).nodup_iff.mpr (by simp)
    have sound : Json.SoundFields
        [(↑"file",.str place.file),(↑"line",.int place.line),(↑"column",.int place.column)] :=
      ⟨Json.apart_ofString _,(whole place rfl).apart,Json.apart_ofString _,writable.line place rfl,
        Json.apart_ofString _,writable.column place rfl,trivial⟩
    exact ⟨Json.apart_ofString _,⟨distinct,Json.soundFields_iff.mpr fun field member =>
      Json.soundFields_iff.mp sound field (perm.mem_iff.mp member)⟩,trivial⟩

-- Fields of an event with at most one more for its place.
theorem distinct_of_placed (named : placing = [] ∨ ∃ value, placing = [(↑"location",value)])
    (perm : fields.Perm (event.record ++ placing)) : (fields.map (·.1)).Nodup := by
  refine (perm.map _).nodup_iff.mpr ?_
  rw [List.map_append]
  rcases named with rfl | ⟨value,rfl⟩
  · rw [List.map_nil,List.append_nil]
    exact event.record_distinct
  · refine List.nodup_append.mpr ⟨event.record_distinct,by simp,fun name own other placed same => ?_⟩
    obtain rfl : other = ↑"location" := List.mem_singleton.mp placed
    exact event.reserved_names.2.1 (same ▸ own)

theorem IsRecord.distinct (record : IsRecord event location fields) : (fields.map (·.1)).Nodup := by
  obtain ⟨placing,placed,perm⟩ := record
  exact distinct_of_placed placed.named perm

theorem IsRecord.sound (record : IsRecord event location fields) (apart : event.Apart)
    (whole : ∀ place, location = some place → place.file.Whole)
    (writable : Transcript.Writable event location) : (Json.obj fields).Sound := by
  refine ⟨record.distinct,Json.soundFields_iff.mpr fun field member => ?_⟩
  obtain ⟨placing,placed,perm⟩ := record
  have own : Json.SoundFields event.record := (event.sound_toJson apart writable.event).2
  rcases List.mem_append.mp (perm.mem_iff.mp member) with here | here
  · exact Json.soundFields_iff.mp own field here
  · exact Json.soundFields_iff.mp (placed.sound whole writable) field here

-- A record is read as the event whose fields it has and the place that stands beside them.
theorem readRecord_of_placed (named : placing = [] ∨ ∃ value, placing = [(↑"location",value)])
    (perm : fields.Perm (event.record ++ placing))
    (placed : SourceLocation.ofJson (Json.orNull (placing.lookup ↑"location")) = .ok location) :
    readRecord (.obj fields) = .ok (event,location) ∧
      ∀ outer, outer.lookup ↑"event" = some (.obj fields) →
        readRecord (.obj outer) = .ok (event,location) := by
  have distinct := distinct_of_placed named perm
  obtain ⟨-,unplaced,unwrapped⟩ := event.reserved_names
  have bare : fields.lookup ↑"event" = none := by
    rw [Json.lookup_perm perm distinct,List.lookup_append,Json.lookup_absent unwrapped]
    rcases named with rfl | ⟨value,rfl⟩ <;> rfl
  have place : fields.lookup ↑"location" = placing.lookup ↑"location" := by
    rw [Json.lookup_perm perm distinct,List.lookup_append,Json.lookup_absent unplaced]
    rfl
  have own : (fields.filter (·.1 ≠ ↑"location")).Perm event.record := by
    have others := perm.filter (·.1 ≠ Str.ofString "location")
    have gone : placing.filter (·.1 ≠ Str.ofString "location") = [] := by
      rcases named with rfl | ⟨value,rfl⟩ <;> simp
    rwa [List.filter_append,Json.filter_absent unplaced,gone,List.append_nil] at others
  have read : ∀ whole, eventObject whole = .obj fields → readRecord whole = .ok (event,location) := by
    intro whole object
    rw [readRecord,object]
    dsimp only
    rw [place,placed]
    dsimp only
    rw [Event.ofJson_perm own]
  refine ⟨read _ ?_,fun outer wrapped => read _ ?_⟩
  · rw [eventObject,Json.field?,bare]
  · rw [eventObject,Json.field?,wrapped]

theorem IsRecord.read (record : IsRecord event location fields)
    (marked : ∀ place, location = some place → Transcript.Marked place)
    (writable : Transcript.Writable event location) :
    readRecord (.obj fields) = .ok (event,location) := by
  obtain ⟨placing,placed,perm⟩ := record
  exact (readRecord_of_placed placed.named perm (placed.read marked writable)).1

-- Rows of which both kinds of file can be made.
def Row.Valid : Row → Prop
  | .holds event location => Transcript.Writable event location ∧
      (∀ name text, (name,FieldValue.text text) ∈ event.fields →
        .char '\n' ∉ text ∧ .char '\r' ∉ text) ∧
      ∀ place, location = some place → place.Plain
  | .passed => True

-- The line of a row in a transcript, and in a file of records. Lines that are passed over are
-- blank or comments, each file having its own.
def Row.InTranscript : Row → List Char → Prop
  | .holds event location, line => Transcript.write event location = line.map .char
  | .passed, line => isSignificant (Text.trim line) = false

def Row.InRecords : Row → List Char → Prop
  | .holds event location, line => ∃ fields, IsRecord event location fields ∧
      IsTextOf (.obj fields) line
  | .passed, line => isSignificant (Text.trim line) = false

variable {row : Row} {line : List Char}

theorem significant_write (event : Event) (location : Option SourceLocation) :
    isSignificant (Transcript.write event location).shown = true := by
  have first : ∀ kind : Event.Kind, ∃ c rest, kind.text.toList = c :: rest ∧ c ≠ '#' := by
    intro kind
    cases kind <;> exact ⟨_,_,rfl,by decide⟩
  obtain ⟨c,rest,starts,solid⟩ := first event.kind
  rw [Transcript.write,Str.shown_append,Transcript.shown_writeEvent,Event.typeName,starts]
  exact bne_iff_ne.mpr solid

-- A row that stands in a transcript has no half of a pair, so that its record says the same.
def Row.Whole : Row → Prop
  | .holds event location => (Transcript.write event location).Whole
  | .passed => True

theorem Row.InTranscript.whole (written : row.InTranscript line) : row.Whole := by
  cases row with
  | passed => trivial
  | holds event location =>
    have same : Transcript.write event location = line.map .char := written
    rw [Row.Whole,same,← Str.ofString_ofList]
    exact Str.whole_ofString _

theorem Row.InTranscript.readFrom (written : row.InTranscript line) (valid : row.Valid) :
    row.ReadFrom true line := by
  have whole := written.whole
  cases row with
  | passed => exact written
  | holds event location =>
    obtain ⟨writable,clean,plain⟩ := valid
    have same : Transcript.write event location = line.map .char := written
    have shown : (Transcript.write event location).shown = line := by
      rw [same,← Str.ofString_ofList,Str.shown_ofString,String.toList_ofList]
    have trimmed := @Transcript.trim_write event location fun place here =>
      ⟨plain place here,(Transcript.whole_of_write whole).2 place here⟩
    have read := (Transcript.readEvent_write_iff event location (.ofList line)
      (same.trans Str.ofString_ofList.symm) writable).mpr
      ⟨fun name text member => (clean name text member).1,plain⟩
    rw [shown] at trimmed
    refine ⟨?_,?_⟩
    · rw [trimmed,← shown]
      exact significant_write event location
    · rw [trimmed,readLine,if_pos rfl,read]

theorem Row.InRecords.readFrom (written : row.InRecords line) (valid : row.Valid ∧ row.Whole) :
    row.ReadFrom false line := by
  cases row with
  | passed => exact written
  | holds event location =>
    obtain ⟨⟨writable,-,plain⟩,whole⟩ := valid
    obtain ⟨fields,record,text⟩ := written
    obtain ⟨wholeFields,wholeFile⟩ := Transcript.whole_of_write whole
    have apart : event.Apart := by
      rintro ⟨name,value⟩ member
      have whole := wholeFields _ member
      cases value with
      | number n => trivial
      | text s => exact Str.Whole.apart whole
    have decoded := text.decode (record.sound apart wholeFile writable)
    refine ⟨Json.significant_of_decode decoded,?_⟩
    rw [readLine,if_neg Bool.false_ne_true,decoded]
    dsimp only
    rw [record.read (fun place here => ⟨plain place here,wholeFile place here⟩) writable]

theorem forall₂_valid {rows : List Row} {lines : List (List Char)} {p q : Row → List Char → Prop}
    {r : Row → Prop} (valid : ∀ row ∈ rows, r row) (given : List.Forall₂ p rows lines)
    (step : ∀ {row line}, p row line → r row → q row line) : List.Forall₂ q rows lines := by
  induction given with
  | nil => exact .nil
  | cons here _ ih =>
    obtain ⟨first,others⟩ := List.forall_mem_cons.mp valid
    exact .cons (step here first) (ih others)

theorem whole_of_lines {rows : List Row} {lines : List (List Char)}
    (written : List.Forall₂ Row.InTranscript rows lines) : ∀ row ∈ rows, row.Whole := by
  induction written with
  | nil => exact List.forall_mem_nil _
  | cons here _ ih => exact List.forall_mem_cons.mpr ⟨here.whole,ih⟩

-- A transcript and a file of records that tell the same row by row have the same entries, and
-- are replayed alike from any stage of any monitor: with the same violations, the same
-- marking and the same final markings recorded.
theorem transcript_agrees_with_records (files : Files) (transcript records : Path)
    (rows : List Row) (written recorded : List (List Char)) (text text' : String)
    (notation' : isTranscript transcript = true) (json : isTranscript records = false)
    (here : files.read transcript = .ok (Text.Utf8.encode text))
    (there : files.read records = .ok (Text.Utf8.encode text'))
    (ended : Text.Ended written text.toList) (ended' : Text.Ended recorded text'.toList)
    (valid : ∀ row ∈ rows, row.Valid)
    (lines : List.Forall₂ Row.InTranscript rows written)
    (lines' : List.Forall₂ Row.InRecords rows recorded) :
    readAll files transcript = .ok (entriesFrom 1 rows) ∧
      readAll files records = .ok (entriesFrom 1 rows) ∧
      ∀ room stage, Replay.isLog files stage transcript = false →
        Replay.isLog files stage records = false →
        (Replay.replayTrace room files transcript stage).1.host =
            (Replay.replayTrace room files records stage).1.host ∧
          (Replay.replayTrace room files transcript stage).2 =
            (Replay.replayTrace room files records stage).2 := by
  have entries : Trace.entries files transcript = (entriesFrom 1 rows,none) := by
    refine entries_rows here ended ?_
    rw [notation']
    exact forall₂_valid valid lines fun written valid => written.readFrom valid
  have entries' : Trace.entries files records = (entriesFrom 1 rows,none) := by
    refine entries_rows there ended' ?_
    rw [json]
    have whole := whole_of_lines lines
    exact forall₂_valid (fun row member => ⟨valid row member,whole row member⟩) lines'
      fun written valid => written.readFrom valid
  exact ⟨readAll_of_entries entries,readAll_of_entries entries',
    fun _ _ unlogged unlogged' => Replay.replayTrace_host unlogged unlogged' entries entries'⟩

def waitedFor : Event := .block 2 "lock \"7\" # taken"

def sampleRows : List Row :=
  [.passed,.holds waitedFor none,.holds (.lockAcquire 1 7) (some ⟨"src:main.rs",4,9⟩)]

def sampleTranscript : List (List Char) := [
  "# two events".toList,
  "Block(tid=2, reason=\"lock \\\"7\\\" # taken\")".toList,
  "LockAcquire(tid=1, lock_id=7) @ src:main.rs:4:9".toList]

def waitedForRecord : List (Str × Json) :=
  [(↑"type",.str "Block"),(↑"tid",.int 2),(↑"reason",.str "lock \"7\" # taken")]

def acquiredRecord : List (Str × Json) :=
  [(↑"lock_id",.int 7),(↑"type",.str "LockAcquire"),(↑"tid",.int 1),(↑"location",
    .obj [(↑"line",.int 4),(↑"file",.str "src:main.rs"),(↑"column",.int 9)])]

def sampleRecords : List (List Char) :=
  [[' '],(Json.obj waitedForRecord).encode.toList,(Json.obj acquiredRecord).encode.toList]

-- A comment on the first line of one file and a blank in the other; a text full of marks,
-- and a place told by its parts.
theorem transcript_agrees_with_records_sample :
    let transcript : Path := ⟨"",["run.trace"]⟩
    let records : Path := ⟨"",["run.jsonl"]⟩
    let text := String.ofList (Text.unlines sampleTranscript)
    let text' := String.ofList (Text.unlines sampleRecords)
    let files : Files := ⟨⟨[("run.jsonl",.file (Text.Utf8.encode text')),
      ("run.trace",.file (Text.Utf8.encode text))],by decide⟩,[]⟩
    readAll files transcript = readAll files records ∧
      readAll files records = .ok [⟨waitedFor,none,2⟩,
        ⟨.lockAcquire 1 7,some ⟨"src:main.rs",4,9⟩,3⟩] := by
  intro transcript records text text' files
  have valid : ∀ row ∈ sampleRows, row.Valid := by
    have waited : (Row.holds waitedFor none).Valid := by
      refine ⟨⟨by decide +kernel,nofun,nofun⟩,?_,nofun⟩
      intro name text member
      simp only [waitedFor,Event.fields,List.mem_cons,Prod.mk.injEq,reduceCtorEq,and_false,
        FieldValue.text.injEq,List.not_mem_nil,or_false,false_or] at member
      rw [member.2]
      decide +kernel
    have acquired : (Row.holds (.lockAcquire 1 7) (some ⟨"src:main.rs",4,9⟩)).Valid := by
      refine ⟨⟨by decide +kernel,?_,?_⟩,?_,?_⟩
      · rintro _ ⟨⟩
        decide +kernel
      · rintro _ ⟨⟩
        decide +kernel
      · simp [Event.fields]
      · rintro _ ⟨⟩
        exact ⟨by decide +kernel,by decide +kernel,by decide +kernel,by decide,by decide⟩
    exact List.forall_mem_cons.mpr ⟨trivial,List.forall_mem_cons.mpr
      ⟨waited,List.forall_mem_singleton.mpr acquired⟩⟩
  have lines : List.Forall₂ Row.InTranscript sampleRows sampleTranscript :=
    .cons (show isSignificant (Text.trim sampleTranscript[0]) = false by decide +kernel)
      (.cons (show Transcript.write waitedFor none = sampleTranscript[1].map .char by decide +kernel)
        (.cons (show Transcript.write (.lockAcquire 1 7) (some ⟨"src:main.rs",4,9⟩) =
          sampleTranscript[2].map .char by decide +kernel) .nil))
  have lines' : List.Forall₂ Row.InRecords sampleRows sampleRecords := by
    refine .cons rfl (.cons ⟨waitedForRecord,⟨[],.absent,.refl _⟩,.inl rfl⟩
      (.cons ⟨acquiredRecord,⟨_,.parts (.swap ..),?_⟩,.inl rfl⟩ .nil))
    exact (List.Perm.swap ..).trans (.cons _ (.trans (.swap ..) (.cons _ (.refl _))))
  have ended : Text.Ended sampleTranscript text.toList := by
    rw [String.toList_ofList]
    exact Text.ended_unlines (by decide +kernel)
  have ended' : Text.Ended sampleRecords text'.toList := by
    rw [String.toList_ofList]
    exact Text.ended_unlines (by decide +kernel)
  obtain ⟨here,there,-⟩ := transcript_agrees_with_records files transcript records sampleRows
    sampleTranscript sampleRecords text text' (by decide +kernel) (by decide +kernel) (by decide +kernel)
    (by decide +kernel) ended
    ended' valid lines lines'
  exact ⟨here.trans there.symm,there⟩

end Trace

end ProtocolNet
