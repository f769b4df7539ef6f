import Mathlib.Data.List.Perm.Subperm
import ProtocolNet.Proofs.Layouts
import ProtocolNet.Proofs.TraceFormats

namespace ProtocolNet

namespace Event

variable {event : Event} {kind : Kind} {values : List (Str × Json)} {typeName : Str}
  {fields : Transcript.Fields}

theorem fieldNames_nodup (kind : Kind) : kind.fieldNames.Nodup := by cases kind <;> decide

theorem names_nodup (event : Event) : (event.fields.map (·.1)).Nodup := by
  rw [← fieldNames_kind]
  exact fieldNames_nodup event.kind

theorem toJson_inj {a b : FieldValue} (same : a.toJson = b.toJson) : a = b := by
  cases a <;> cases b <;> cases same <;> rfl

theorem kind_of_readFields (read : readFields kind values = .ok event) : event.kind = kind := by
  cases kind with
  | yield | wake =>
    obtain ⟨tid,_,read⟩ := bind_ok read
    cases read
    rfl
  | threadSpawn | threadJoin | block | lockAcquire | lockRelease =>
    obtain ⟨former,_,read⟩ := bind_ok read
    obtain ⟨latter,_,read⟩ := bind_ok read
    cases read
    rfl
  | atomicLoad | atomicStore | unsafeRead | unsafeWrite =>
    obtain ⟨tid,_,read⟩ := bind_ok read
    obtain ⟨object,_,read⟩ := bind_ok read
    obtain ⟨last,_,read⟩ := bind_ok read
    cases read
    rfl

theorem text_of_ofText? (known : Kind.ofText? typeName = some kind) : ↑kind.text = typeName := by
  have found := List.find?_some (p := fun kind => decide (↑(Kind.text kind) = typeName)) known
  exact of_decide_eq_true found

-- What an event is made of has the names of its fields and no others.
theorem make_parts (made : make typeName values = .ok event) :
    typeName = ↑event.typeName ∧ values.map (·.1) ⊆ event.fieldValues.map (·.1) := by
  unfold make at made
  split at made
  · cases made
  · rename_i kind known
    have named : ↑kind.text = typeName := text_of_ofText? known
    dsimp only at made
    split at made
    · cases made
    · rename_i expected
      split at made
      · cases made
      · have same := kind_of_readFields made
        refine ⟨by rw [← named,← same]; rfl,fun name given => ?_⟩
        rw [Bool.not_eq_true,Bool.not_eq_false',List.isEmpty_iff] at expected
        have allowed := List.filter_eq_nil_iff.mp expected name given
        rwa [decide_eq_true_eq,not_not,← same,← keys_fieldValues] at allowed

-- Fields make an event if they are its own, in any order.
theorem make_ok_iff (distinct : (values.map (·.1)).Nodup) : make typeName values = .ok event ↔
    typeName = ↑event.typeName ∧ values.Perm event.fieldValues := by
  constructor
  · intro made
    obtain ⟨named,within⟩ := make_parts made
    have own : event.fieldValues.Nodup := by
      apply List.Nodup.of_map (·.1)
      rw [keys_fieldValues]
      exact List.Nodup.map (fun _ _ same => Str.ofString_inj.mp same) (fieldNames_nodup event.kind)
    have given : event.fieldValues ⊆ values := by
      intro field member
      obtain ⟨source,there,rfl⟩ := List.mem_map.mp member
      exact mem_of_make made source there
    have few := (List.subperm_of_subset distinct within).length_le
    rw [List.length_map,List.length_map] at few
    exact ⟨named,((List.subperm_of_subset own given).perm_of_length_le few).symm⟩
  · rintro ⟨rfl,perm⟩
    exact make_perm event perm

theorem make_iff {name : String} (distinct : (fields.map (·.1)).Nodup) :
    make name (fields.map fun field => (↑field.1,field.2.toJson)) = .ok event ↔
      name = event.typeName ∧ fields.Perm event.fields := by
  have injective : Function.Injective fun field : String × FieldValue =>
      (Str.ofString field.1,field.2.toJson) := by
    intro a b same
    obtain ⟨name,value⟩ := Prod.mk.inj same
    exact Prod.ext (Str.ofString_inj.mp name) (toJson_inj value)
  have keys : (fields.map fun field => (Str.ofString field.1,field.2.toJson)).map (·.1) =
      (fields.map (·.1)).map Str.ofString := by
    rw [List.map_map,List.map_map]
    rfl
  rw [make_ok_iff,fieldValues,List.map_perm_map_iff injective,Str.ofString_inj]
  rw [keys]
  exact List.Nodup.map (fun _ _ same => Str.ofString_inj.mp same) distinct

end Event

namespace Transcript

open Rule

variable {event : Event} {location : Option SourceLocation} {sentence : Sentence} {fields : Fields}
  {lexemes : List Lexeme} {place : Option String} {name written : String}

theorem repeatedField?_eq_none_iff : repeatedField? fields = none ↔ (fields.map (·.1)).Nodup := by
  have go : ∀ seen, repeatedField?.go seen fields = none ↔
      (∀ name ∈ fields.map (·.1), name ∉ seen) ∧ (fields.map (·.1)).Nodup := by
    induction fields with
    | nil => simp [repeatedField?.go]
    | cons field fields ih =>
      intro seen
      obtain ⟨name,value⟩ := field
      rw [repeatedField?.go]
      by_cases again : name ∈ seen
      · simp [again]
      · rw [if_neg again,ih]
        simp only [List.map_cons,List.mem_cons,List.nodup_cons,not_or]
        constructor
        · rintro ⟨fresh,distinct⟩
          refine ⟨?_,fun later => (fresh name later).1 rfl,distinct⟩
          rintro other (rfl | later)
          · exact again
          · exact (fresh other later).2
        · rintro ⟨fresh,first,distinct⟩
          exact ⟨fun other later => ⟨fun same => first (same ▸ later),fresh other (.inr later)⟩,distinct⟩
  rw [repeatedField?,go]
  simp

-- A location and what stands behind the mark for it. There may be zeros in front of its numbers.
inductive Locates : Option SourceLocation → Option String → Prop
  | absent : Locates none none
  | present {file line column : List Char} {n m : Nat} (parts : LocationParts file line column)
      (lineNumber : Text.readDigits line = .ok n) (columnNumber : Text.readDigits column = .ok m) :
      Locates (some ⟨file.map .char,n,m⟩) (some (.ofList (locationChars file line column)))

theorem Locates.read (located : Locates location place) : locationOf place = .ok location := by
  cases located with
  | absent => rfl
  | present parts lineNumber columnNumber =>
    rw [locationOf,SourceLocation.ofText,Str.ofString_ofList,SourceLocation.ofStr?_parts parts,
      lineNumber,columnNumber]

theorem Locates.of_read (whole : ∀ text, place = some text → (Lexeme.location text).Clean)
    (read : locationOf place = .ok location) : Locates location place := by
  cases place with
  | none => cases read; exact .absent
  | some text =>
    obtain ⟨file,line,column,parts,same⟩ := whole text rfl
    rw [← String.ofList_toList (s := text),same] at read ⊢
    rw [locationOf,SourceLocation.ofText,Str.ofString_ofList,SourceLocation.ofStr?_parts parts] at read
    cases lineNumber : Text.readDigits line with
    | error fault => rw [lineNumber] at read; cases read
    | ok n =>
      cases columnNumber : Text.readDigits column with
      | error fault => rw [lineNumber,columnNumber] at read; cases read
      | ok m =>
        rw [lineNumber,columnNumber] at read
        cases read
        exact .present parts lineNumber columnNumber

-- A text that says what an event is and where it happened: the event's name and all of its
-- fields in some order, then its location, in any layout. Blanks of every kind may stand around.
inductive EventText (event : Event) (location : Option SourceLocation) : List Char → Prop
  | written {front core back : List Char} {tree : EventTree} {place : Option String}
      (before : ∀ c ∈ front, Text.isBlank c = true) (behind : ∀ c ∈ back, Text.isBlank c = true)
      (named : tree.name = event.typeName) (told : tree.fields.Perm event.fields)
      (located : Locates location place)
      (laid : LaidOut core (tree.lexemes ++ (place.map Lexeme.location).toList)) :
      EventText event location (front ++ (core ++ back))

-- The line of an event and its location.
theorem line_of_event (tree : EventTree) (place : Option String) : ∃ line : LineTree,
    line.lexemes = tree.lexemes ++ (place.map Lexeme.location).toList ∧
      line.sentence = .event tree.name tree.fields place := by
  cases place with
  | none => exact ⟨.event tree,(List.append_nil _).symm,rfl⟩
  | some text => exact ⟨.located tree text,rfl,rfl⟩

theorem tree_of_event (parsed : sentenceOf? lexemes = some (.event name fields place)) :
    ∃ tree : EventTree, lexemes = tree.lexemes ++ (place.map Lexeme.location).toList ∧
      tree.name = name ∧ tree.fields = fields := by
  obtain ⟨tree,rfl,same⟩ := tree_of_sentenceOf? parsed
  cases tree with
  | located event location => cases same; exact ⟨event,rfl,rfl,rfl⟩
  | event event => cases same; exact ⟨event,by simp [LineTree.lexemes],rfl,rfl⟩
  | token token => cases token <;> cases same

theorem laidOut_of_event {s : List Char} (parsed : readSentence s = .ok (.event name fields place)) :
    ∃ tree : EventTree,
      LaidOut (Text.trim s) (tree.lexemes ++ (place.map Lexeme.location).toList) ∧
        tree.name = name ∧ tree.fields = fields := by
  obtain ⟨lexemes,lexes,whole⟩ := readSentence_ok_iff.mp parsed
  obtain ⟨tree,rfl,named,told⟩ := tree_of_event whole
  exact ⟨tree,.of_lexes lexes,named,told⟩

theorem eventOf_iff : eventOf written sentence = .ok (event,location) ↔
    ∃ fields place, sentence = .event event.typeName fields place ∧ fields.Perm event.fields ∧
      locationOf place = .ok location := by
  constructor
  · intro made
    obtain ⟨name,fields,place,rfl,maker,located⟩ := eventOf_parts made
    have unrepeated : repeatedField? fields = none := by
      rw [eventOf] at made
      split at made
      · cases made
      · assumption
    obtain ⟨rfl,perm⟩ := (Event.make_iff (repeatedField?_eq_none_iff.mp unrepeated)).mp maker
    exact ⟨fields,place,rfl,perm,located⟩
  · rintro ⟨fields,place,rfl,perm,located⟩
    have distinct : (fields.map (·.1)).Nodup := (perm.map _).nodup_iff.mpr event.names_nodup
    have maker := (Event.make_iff distinct).mpr ⟨rfl,perm⟩
    simp only [eventOf,repeatedField?_eq_none_iff.mpr distinct,maker,located]
    rfl

-- Any layout of a line is read as the line says, with any blanks around it.
theorem readSentence_laidOut {front core back : List Char} {line : LineTree}
    (before : ∀ c ∈ front, Text.isBlank c = true) (behind : ∀ c ∈ back, Text.isBlank c = true)
    (laid : LaidOut core line.lexemes) :
    readSentence (front ++ (core ++ back)) = .ok line.sentence := by
  refine readSentence_ok_iff.mpr ⟨line.lexemes,?_,sentenceOf?_tree line⟩
  rw [Text.trim_surrounded before behind]
  exact (lexes_line_iff line).mpr laid.trim

theorem readEvent_ok_iff {s : String} : readEvent s = .ok (event,location) ↔
    EventText event location s.toList := by
  constructor
  · intro read
    obtain ⟨sentence,parsed,made⟩ := Event.bind_ok read
    obtain ⟨fields,place,rfl,perm,located⟩ := eventOf_iff.mp made
    obtain ⟨_,whole⟩ := clean_of_readSentence parsed
    obtain ⟨tree,laid,named,rfl⟩ := laidOut_of_event parsed
    obtain ⟨front,back,split,before,behind⟩ := Text.trim_parts s.toList
    rw [split]
    exact .written before behind named perm (.of_read whole located) laid
  · intro text
    generalize split : s.toList = chars at text
    cases text with
    | @written front core back tree place before behind named told located laid =>
      obtain ⟨line,lexemes,sentence⟩ := line_of_event tree place
      have parsed : readSentence s.toList = .ok (.event tree.name tree.fields place) := by
        rw [split,← sentence]
        rw [← lexemes] at laid
        exact readSentence_laidOut before behind laid
      have made : eventOf (Text.trimmed s) (.event tree.name tree.fields place) = .ok (event,location) :=
        eventOf_iff.mpr ⟨tree.fields,place,by rw [named],told,located.read⟩
      rw [readEvent,parsed]
      exact made

end Transcript

end ProtocolNet
