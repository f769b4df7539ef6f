import ProtocolNet.Proofs.EventCodec
import ProtocolNet.Proofs.Sentences
import ProtocolNet.Transcript.Printer

namespace ProtocolNet

namespace Str

variable {s : Str}

-- No character but the one that stands for halves of pairs is shown where it is not.
theorem mem_shown_iff {c : Char} (plain : c ≠ '\uFFFD') : c ∈ shown s ↔ .char c ∈ s := by
  constructor
  · intro member
    obtain ⟨letter,inside,same⟩ := List.mem_map.mp member
    cases letter with
    | char d => exact (show d = c from same) ▸ inside
    | lone unit => exact absurd (show '\uFFFD' = c from same).symm plain
  · exact List.mem_map_of_mem (f := Letter.shown)

end Str

open Text.Backslash in
theorem Str.shown_escape (s : Str) : shown (escapeByChars s) = escapeByChars (shown s) := by
  rw [escapeByChars_eq_escape,escapeByChars_eq_escape]
  induction s with
  | nil => rfl
  | cons c rest ih =>
    have special : (c.shown = Alphabet.quote ∨ c.shown = Alphabet.slash) ↔
        (c = Alphabet.quote ∨ c = Alphabet.slash) := by
      cases c with
      | char c => simp [Alphabet.quote,Alphabet.slash,Letter.shown]
      | lone unit =>
        have apart : '\uFFFD' ≠ '"' ∧ '\uFFFD' ≠ '\\' := by decide
        simp [Alphabet.quote,Alphabet.slash,Letter.shown,apart]
    have slash : Letter.shown Alphabet.slash = Alphabet.slash := rfl
    have cons : shown (c :: rest) = c.shown :: shown rest := rfl
    rw [cons,escape,escape,← ih]
    by_cases here : c = Alphabet.quote ∨ c = Alphabet.slash
    · rw [if_pos here,if_pos (special.mpr here),shown,List.map_cons,List.map_cons,slash]
      rfl
    · rw [if_neg here,if_neg (mt special.mp here)]
      rfl

def FieldValue.Whole : FieldValue → Prop
  | .number _ => True
  | .text s => s.Whole

namespace Transcript

structure Writable (event : Event) (location : Option SourceLocation) : Prop where
  event : event.isWritable = true
  line : ∀ place, location = some place → Text.isWritable place.line.natAbs = true
  column : ∀ place, location = some place → Text.isWritable place.column.natAbs = true

def valueLexeme : FieldValue → Lexeme
  | .number n => .number n
  | .text s => .string (.ofList s.shown)

def fieldLexemes (field : String × FieldValue) : List Lexeme :=
  [.name field.1,.equals,valueLexeme field.2]

-- The fields behind the first one, each with the comma in front of it.
def laterLexemes (fields : Fields) : List Lexeme :=
  fields.flatMap fun field => .comma :: fieldLexemes field

def fieldsLexemes : Fields → List Lexeme
  | [] => []
  | first :: rest => fieldLexemes first ++ laterLexemes rest

def eventLexemes (event : Event) : List Lexeme :=
  .name event.typeName :: .lparen :: (fieldsLexemes event.fields ++ [.rparen])

def locationLexemes : Option SourceLocation → List Lexeme
  | some place => [.location (.ofList place.text.shown)]
  | none => []

-- A field that is written so that it is read again.
structure Legible (field : String × FieldValue) : Prop where
  named : Lexes.isName field.1.toList = true
  clean : field.2.Clean
  whole : field.2.Whole
  writable : field.2.isWritable = true

-- A location that is written so that it is read again.
structure Marked (place : SourceLocation) : Prop where
  plain : place.Plain
  whole : place.file.Whole

variable {event : Event} {location : Option SourceLocation} {place : SourceLocation}
  {field : String × FieldValue} {fields done : Fields} {value : FieldValue} {rest : List Char}
  {lexemes : List Lexeme} {name s : String}

theorem lexes_value (clean : value.Clean) (writable : value.isWritable = true)
    (stops : Text.Stops Text.isDigit rest) (later : Lexes rest lexemes) :
    Lexes ((writeValue value).shown ++ rest) (valueLexeme value :: lexemes) := by
  cases value with
  | number n =>
    rw [writeValue,Str.shown_ofString]
    exact Lexes.number writable stops later
  | text s =>
    have sameLine : '\n' ∉ s.shown := mt (Str.mem_shown_iff (by decide)).mp clean
    have quote : Str.shown ↑"\"" = ['"'] := rfl
    rw [writeValue,Str.shown_append,Str.shown_append,quote,Str.shown_escape]
    simpa [valueLexeme] using Lexes.string sameLine later

theorem lexes_field (legible : Legible field) (stops : Text.Stops Text.isDigit rest)
    (later : Lexes rest lexemes) :
    Lexes ((writeField field).shown ++ rest) (fieldLexemes field ++ lexemes) := by
  have sign : Str.shown ↑"=" = ['='] := rfl
  have value := lexes_value legible.clean legible.writable stops later
  have named := Lexes.name legible.named (Text.stops_cons.mpr (by decide)) (Lexes.equals value)
  rw [String.ofList_toList] at named
  rw [writeField,Str.shown_append,Str.shown_append,sign,Str.shown_ofString]
  simpa [fieldLexemes] using named

-- The fields behind the first one as they are written.
def laterFields (fields : Fields) : Str := (fields.map writeField).flatMap (↑", " ++ ·)

theorem laterFields_cons (first : String × FieldValue) (fields : Fields) :
    (laterFields (first :: fields)).shown =
      ',' :: ' ' :: ((writeField first).shown ++ (laterFields fields).shown) := by
  rw [laterFields,List.map_cons,List.flatMap_cons,Str.shown_append,Str.shown_append]
  rfl

theorem stops_laterFields (stops : Text.Stops Text.isDigit rest) :
    Text.Stops Text.isDigit ((laterFields fields).shown ++ rest) := by
  cases fields with
  | nil => exact stops
  | cons first fields => rw [laterFields_cons]; exact Text.stops_cons.mpr (by decide)

theorem lexes_laterFields (legible : ∀ field ∈ fields, Legible field)
    (stops : Text.Stops Text.isDigit rest) (later : Lexes rest lexemes) :
    Lexes ((laterFields fields).shown ++ rest) (laterLexemes fields ++ lexemes) := by
  induction fields with
  | nil => exact later
  | cons first fields ih =>
    obtain ⟨here,others⟩ := List.forall_mem_cons.mp legible
    have lexes := Lexes.comma (.gap (c := ' ') rfl
      (lexes_field here (stops_laterFields stops) (ih others)))
    rw [laterFields_cons]
    simpa [laterLexemes] using lexes

theorem lexes_fields (legible : ∀ field ∈ fields, Legible field)
    (stops : Text.Stops Text.isDigit rest) (later : Lexes rest lexemes) :
    Lexes ((Str.joined ", " (fields.map writeField)).shown ++ rest)
      (fieldsLexemes fields ++ lexemes) := by
  cases fields with
  | nil => exact later
  | cons first others =>
    obtain ⟨here,legible⟩ := List.forall_mem_cons.mp legible
    rw [List.map_cons,Str.joined_cons,Str.shown_append,fieldsLexemes,List.append_assoc,
      List.append_assoc]
    exact lexes_field here (stops_laterFields stops) (lexes_laterFields legible stops later)

theorem isName_kind (kind : Event.Kind) : Lexes.isName kind.text.toList = true ∧
    ∀ name ∈ kind.fieldNames, Lexes.isName name.toList = true := by
  cases kind <;> decide

theorem isName_fields (event : Event) :
    ∀ field ∈ event.fields, Lexes.isName field.1.toList = true := by
  intro field member
  refine (isName_kind event.kind).2 field.1 ?_
  rw [Event.fieldNames_kind]
  exact List.mem_map_of_mem member

theorem shown_writeEvent (event : Event) : (writeEvent event).shown = event.typeName.toList ++
    '(' :: ((Str.joined ", " (event.fields.map writeField)).shown ++ [')']) := by
  have opening : Str.shown ↑"(" = ['('] := rfl
  have closing : Str.shown ↑")" = [')'] := rfl
  rw [writeEvent,Str.shown_append,Str.shown_append,Str.shown_append,opening,closing,
    Str.shown_ofString]
  simp

theorem lexes_event (legible : ∀ field ∈ event.fields, Legible field) (later : Lexes rest lexemes) :
    Lexes ((writeEvent event).shown ++ rest) (eventLexemes event ++ lexemes) := by
  have closed : Lexes (')' :: rest) (.rparen :: lexemes) := later.rparen
  have inner := lexes_fields legible (Text.stops_cons.mpr (by decide)) closed
  have named := Lexes.name (isName_kind event.kind).1 (Text.stops_cons.mpr (by decide)) inner.lparen
  rw [String.ofList_toList] at named
  rw [shown_writeEvent]
  simpa [eventLexemes,Event.typeName] using named

theorem Marked.text (marked : Marked place) : place.text.shown =
    Rule.locationChars place.file.shown (Nat.toDigits 10 place.line.toNat)
      (Nat.toDigits 10 place.column.toNat) := by
  have same : Letter.shown ∘ Letter.char = id := rfl
  rw [marked.plain.text marked.whole.chars.symm,Str.shown,List.map_map,same,List.map_id]

theorem Marked.spelled (marked : Marked place) : Str.ofString (.ofList place.text.shown) = place.text := by
  rw [marked.text,marked.plain.text marked.whole.chars.symm,Str.ofString_ofList]

theorem lexes_location (marked : ∀ place, location = some place → Marked place) :
    Lexes (writeLocation location).shown (locationLexemes location) := by
  cases location with
  | none => exact .done
  | some place =>
    have marked := marked place rfl
    have separator : Str.shown ↑" @ " = [' ','@',' '] := rfl
    rw [writeLocation,Str.shown_append,separator,locationLexemes,marked.text]
    exact Lexes.gap (c := ' ') rfl (Lexes.location (marked.plain.parts marked.whole.chars.symm))

-- What the lexemes of an event lead to, one field after another.
theorem fieldValue?_written (whole : value.Whole) : fieldValue? (valueLexeme value) = some value := by
  cases value with
  | number n => rfl
  | text s => exact congrArg (some ∘ FieldValue.text) (Str.Whole.spelled whole)

theorem follow_firstField (whole : field.2.Whole) :
    follow (.opened name) (fieldLexemes field) = some (.fieldRead name [field]) := by
  obtain ⟨key,value⟩ := field
  have read := fieldValue?_written whole
  cases value <;> simp_all [follow,fieldLexemes,Progress.step?]

theorem follow_nextField (whole : field.2.Whole) :
    follow (.fieldDue name done) (fieldLexemes field) =
      some (.fieldRead name (done ++ [field])) := by
  obtain ⟨key,value⟩ := field
  have read := fieldValue?_written whole
  cases value <;> simp_all [follow,fieldLexemes,Progress.step?]

theorem follow_laterFields (whole : ∀ field ∈ fields, field.2.Whole) :
    follow (.fieldRead name done) (laterLexemes fields) = some (.fieldRead name (done ++ fields)) := by
  induction fields generalizing done with
  | nil => rw [List.append_nil]; rfl
  | cons first fields ih =>
    obtain ⟨here,others⟩ := List.forall_mem_cons.mp whole
    rw [laterLexemes,List.flatMap_cons,← laterLexemes,follow_append,follow]
    show ((follow (.fieldDue name done) (fieldLexemes first)).bind _) = _
    rw [follow_nextField here,Option.bind_some,ih others,List.append_assoc]
    rfl

theorem follow_event (whole : ∀ field ∈ event.fields, field.2.Whole) :
    follow .start (eventLexemes event) = some (.closed event.typeName event.fields) := by
  show follow (.opened event.typeName) (fieldsLexemes event.fields ++ [.rparen]) = _
  cases listed : event.fields with
  | nil => rfl
  | cons first fields =>
    obtain ⟨here,others⟩ := List.forall_mem_cons.mp (listed ▸ whole)
    rw [fieldsLexemes,follow_append,follow_append,follow_firstField here,Option.bind_some,
      follow_laterFields others]
    rfl

theorem sentenceOf?_written (whole : ∀ field ∈ event.fields, field.2.Whole) :
    sentenceOf? (eventLexemes event ++ locationLexemes location) =
      some (.event event.typeName event.fields (location.map fun place => .ofList place.text.shown)) := by
  rw [sentenceOf?,follow_append,follow_event whole]
  cases location <;> rfl

theorem solid_kind (kind : Event.Kind) :
    kind.text.toList ≠ [] ∧ ∀ c ∈ kind.text.toList, Text.isBlank c = false := by
  cases kind <;> exact ⟨by decide,Text.solid_of_all (by decide)⟩

-- A written line neither starts nor ends with a blank.
theorem trim_write (marked : ∀ place, location = some place → Marked place) :
    Text.trim (write event location).shown = (write event location).shown := by
  have first : Text.Stops Text.isBlank (write event location).shown := by
    obtain ⟨nonempty,solid⟩ := solid_kind event.kind
    rw [write,Str.shown_append,shown_writeEvent,List.append_assoc]
    exact Text.stops_append nonempty solid
  have last : Text.Stops Text.isBlank (write event location).shown.reverse := by
    rw [write,Str.shown_append,List.reverse_append]
    cases location with
    | none =>
      rw [shown_writeEvent,List.reverse_append,List.reverse_cons,List.reverse_append]
      exact Text.stops_cons.mpr (by decide)
    | some place =>
      have marked := marked place rfl
      rw [writeLocation,Str.shown_append,List.reverse_append,marked.text,List.append_assoc]
      refine Text.stops_append (fun none => ?_) fun c member => ?_
      · simp [Rule.locationChars,Rule.positionChars] at none
      · exact (marked.plain.parts marked.whole.chars.symm).solid c (List.mem_reverse.mp member)
  exact Text.trim_of_stops [] (List.forall_mem_nil _) first last

theorem readSentence_write (legible : ∀ field ∈ event.fields, Legible field)
    (marked : ∀ place, location = some place → Marked place) :
    readSentence (write event location).shown =
      .ok (.event event.typeName event.fields
        (location.map fun place => .ofList place.text.shown)) := by
  refine readSentence_ok_iff.mpr ⟨eventLexemes event ++ locationLexemes location,?_,
    sentenceOf?_written fun field member => (legible field member).whole⟩
  rw [trim_write marked,write,Str.shown_append]
  exact lexes_event legible (lexes_location marked)

theorem eventOf_written (marked : ∀ place, location = some place → Marked place)
    (writable : Writable event location) (written : String) :
    eventOf written (.event event.typeName event.fields
      (location.map fun place => .ofList place.text.shown)) = .ok (event,location) := by
  have unrepeated : repeatedField? event.fields = none := by cases event <;> rfl
  have located : locationOf (location.map fun place => .ofList place.text.shown) = .ok location := by
    cases location with
    | none => rfl
    | some place =>
      have marked := marked place rfl
      have here := marked.plain.ofText_text marked.whole.chars.symm (writable.line place rfl)
        (writable.column place rfl)
      rw [Option.map_some,locationOf,marked.spelled,here]
  have made := Event.make_fields event
  rw [Event.fieldValues] at made
  simp only [eventOf,unrepeated,made,located]
  rfl

theorem readEvent_write (legible : ∀ field ∈ event.fields, Legible field)
    (marked : ∀ place, location = some place → Marked place) (writable : Writable event location) :
    readEvent (.ofList (write event location).shown) = .ok (event,location) := by
  rw [readEvent,String.toList_ofList,readSentence_write legible marked]
  exact eventOf_written marked writable (Text.trimmed (.ofList (write event location).shown))

theorem clean_of_toJson {given : FieldValue} (clean : given.Clean) (same : given.toJson = value.toJson) :
    value.Clean := by
  cases given <;> cases value <;> cases same
  · trivial
  · exact clean

theorem plain_of_locationOf {written : Option String} (read : locationOf written = .ok location)
    (whole : ∀ text, written = some text → (Lexeme.location text).Clean) :
    ∀ place, location = some place → place.Plain := by
  cases written with
  | none => cases read; exact fun place none => by cases none
  | some text =>
    obtain ⟨file,line,column,parts,same⟩ := whole text rfl
    rw [locationOf] at read
    split at read
    · rename_i place found
      cases read
      intro other here
      cases here
      exact SourceLocation.plain_of_ofText parts same found
    · cases read

theorem eventOf_parts {written : String} {sentence : Sentence}
    (made : eventOf written sentence = .ok (event,location)) :
    ∃ name fields text, sentence = .event name fields text ∧
      Event.make name (fields.map fun field => (↑field.1,field.2.toJson)) = .ok event ∧
      locationOf text = .ok location := by
  cases sentence with
  | token => cases made
  | event name fields text =>
    rw [eventOf] at made
    split at made
    · cases made
    · split at made
      · cases made
      · rename_i found maker
        cases located : locationOf text with
        | error fault => rw [located] at made; cases made
        | ok place =>
          rw [located] at made
          cases made
          exact ⟨name,fields,text,rfl,maker,located⟩

-- Whatever line an event is read from, its texts have no line end and its location is
-- one that survives.
theorem clean_of_readEvent (read : readEvent s = .ok (event,location)) :
    (∀ field ∈ event.fields, field.2.Clean) ∧ ∀ place, location = some place → place.Plain := by
  obtain ⟨sentence,parsed,made⟩ := Event.bind_ok read
  obtain ⟨name,fields,text,rfl,maker,located⟩ := eventOf_parts made
  obtain ⟨clean,whole⟩ := clean_of_readSentence parsed
  refine ⟨fun field member => ?_,plain_of_locationOf located whole⟩
  obtain ⟨source,there,same⟩ := List.mem_map.mp (Event.mem_of_make maker field member)
  exact clean_of_toJson (clean source there) (congrArg Prod.snd same)

theorem whole_of_write (whole : (write event location).Whole) :
    (∀ field ∈ event.fields, field.2.Whole) ∧
      ∀ place, location = some place → place.file.Whole := by
  obtain ⟨inEvent,inPlace⟩ := List.forall_mem_append.mp whole
  refine ⟨fun field member => ?_,?_⟩
  · obtain ⟨name,value⟩ := field
    cases value with
    | number n => trivial
    | text text =>
      intro c inside
      refine inEvent c (List.mem_append_left _ (List.mem_append_right _ ?_))
      refine (Str.infix_joined (List.mem_map_of_mem member)).subset (List.mem_append_right _ ?_)
      refine List.mem_append_left _ (List.mem_append_right _ ?_)
      rw [Text.Backslash.escapeByChars_eq_escape]
      exact Text.Backslash.mem_escape inside
  · rintro place rfl c inside
    refine inPlace c (List.mem_append_right _ ?_)
    simp only [SourceLocation.text,List.append_assoc]
    exact List.mem_append_left _ inside

-- The round trip succeeds where it can: a line end in a text, or a file that is empty
-- or has a blank or mark in it, or a negative coordinate, is never read back.
theorem readEvent_write_iff (event : Event) (location : Option SourceLocation) (text : String)
    (written : write event location = ↑text) (writable : Writable event location) :
    readEvent text = .ok (event,location) ↔
      (∀ name s, (name,FieldValue.text s) ∈ event.fields → .char '\n' ∉ s) ∧
        ∀ place, location = some place → place.Plain := by
  have same : text = .ofList (write event location).shown := by
    rw [written,Str.shown_ofString,String.ofList_toList]
  obtain ⟨wholeFields,wholeFile⟩ := whole_of_write (written ▸ Str.whole_ofString text)
  constructor
  · intro read
    obtain ⟨clean,plain⟩ := clean_of_readEvent read
    exact ⟨fun name s member => clean _ member,plain⟩
  · rintro ⟨sameLine,plain⟩
    rw [same]
    refine readEvent_write (fun field member => ?_)
      (fun place here => ⟨plain place here,wholeFile place here⟩) writable
    refine ⟨isName_fields event field member,?_,wholeFields field member,
      Event.isWritable_iff.mp writable.event field member⟩
    obtain ⟨name,value⟩ := field
    cases value with
    | number n => trivial
    | text s => exact sameLine name s member

theorem readEvent_write_quoted :
    let event : Event := .block 3 "wait \\\"on\\\\ # @ (a,b)\""
    let place : SourceLocation := ⟨"src:main.rs:10:5",3,0⟩
    let text := "Block(tid=3, reason=\"wait \\\\\\\"on\\\\\\\\ # @ (a,b)\\\"\") @ src:main.rs:10:5:3:0"
    write event (some place) = ↑text ∧ Writable event (some place) ∧ place.Plain ∧
      readEvent text = .ok (event,some place) := by
  intro event place text
  have written : write event (some place) = ↑text := by decide +kernel
  have writable : Writable event (some place) := by
    refine ⟨by decide +kernel,fun _ same => ?_,fun _ same => ?_⟩ <;> cases same <;> decide +kernel
  have plain : place.Plain :=
    ⟨by decide +kernel,by decide +kernel,by decide +kernel,by decide,by decide⟩
  refine ⟨written,writable,plain,
    (readEvent_write_iff event (some place) text written writable).mpr ⟨?_,?_⟩⟩
  · intro name s member
    simp only [event,Event.fields,List.mem_cons,Prod.mk.injEq,reduceCtorEq,and_false,
      FieldValue.text.injEq,List.not_mem_nil,or_false,false_or] at member
    rw [member.2]
    decide +kernel
  · rintro _ ⟨⟩
    exact plain

end Transcript

end ProtocolNet
