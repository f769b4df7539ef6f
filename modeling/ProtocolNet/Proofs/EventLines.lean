import ProtocolNet.Proofs.EventFlaws

namespace ProtocolNet.Transcript

open Rule

-- The classes of errors that a reader of lines may meet.
inductive ErrorClass where
  | lexer | parser | number

def Fault.errorClass : Fault → ErrorClass
  | .invalidCharacter .. => .lexer
  | .longNumber _ => .number
  | .empty | .sentence _ | .noToken _ | .badToken .. | .noEvent _ | .repeatedField .. | .badEvent _
  | .badLocation _ => .parser

-- The texts with which something is wrong: no line can be laid out so, or a token, or an event
-- with a flaw.
inductive Refused (s : List Char) : Cause → Prop
  | unread {cause : Cause} (either : cause = .badCharacter ∨ cause = .badSyntax)
      (none : ∀ line : LineTree, ¬LaidOut (Text.trim s) line.lexemes) : Refused s cause
  | token {token : TokenTree} (laid : LaidOut (Text.trim s) token.lexemes) : Refused s .tokenLiteral
  | event {tree : EventTree} {place : Option String} {cause : Cause}
      (laid : LaidOut (Text.trim s) (tree.lexemes ++ (place.map Lexeme.location).toList))
      (flaw : Flaw tree.name tree.fields cause) : Refused s cause

variable {sentence : Sentence} {fields : Fields} {lexemes : List Lexeme} {place : Option String}
  {name kind : String} {number : Option Nat} {fault : Fault} {cause : Cause} {rule : Rule}
  {s rest taken : List Char}

theorem errorClass_of_cause? (known : fault.cause? = some cause) :
    fault.errorClass = .lexer ∨ fault.errorClass = .parser := by
  cases fault with
  | invalidCharacter => exact .inl rfl
  | longNumber => cases known
  | _ => exact .inr rfl

-- What a scan has still before it when it has cut off some lexemes of a text.
inductive Reaches (s : List Char) : List Char → Prop
  | start : Reaches s s
  | gap {c : Char} {rest : List Char} (blank : isGap c = true) (earlier : Reaches s (c :: rest)) :
      Reaches s rest
  | part {rule : Rule} {taken rest : List Char} (takes : rule.Takes taken)
      (longest : rule.length? (taken ++ rest) = some taken.length)
      (earlier : Reaches s (taken ++ rest)) : Reaches s rest

-- What a rule takes somewhere in a text.
structure Cut (s : List Char) (rule : Rule) (taken : List Char) : Prop where
  takes : rule.Takes taken
  reached : ∃ rest, Reaches s (taken ++ rest) ∧ rule.length? (taken ++ rest) = some taken.length

-- The numerals of a text: its numbers, and the lines and columns of its locations. Digits in
-- names, texts and comments are none.
inductive Numeral (s : List Char) : List Char → Prop
  | number {digits : List Char} (cut : Cut s .number digits) : Numeral s digits
  | line {gap file line column : List Char} (parts : LocationParts file line column)
      (cut : Cut s .location ('@' :: (gap ++ locationChars file line column))) : Numeral s line
  | column {gap file line column : List Char} (parts : LocationParts file line column)
      (cut : Cut s .location ('@' :: (gap ++ locationChars file line column))) : Numeral s column

def ShortNumerals (s : List Char) : Prop := ∀ digits, Numeral s digits → digits.length ≤ Text.digitLimit

theorem Reaches.suffix (reached : Reaches s rest) : rest <:+ s := by
  induction reached with
  | start => exact List.suffix_refl s
  | gap blank earlier ih => exact (List.suffix_cons _ _).trans ih
  | part takes longest earlier ih => exact (List.suffix_append _ _).trans ih

theorem Cut.within (cut : Cut s rule taken) : taken <:+: s := by
  obtain ⟨rest,reached,_⟩ := cut.reached
  exact (List.prefix_append taken rest).isInfix.trans reached.suffix.isInfix

theorem Numeral.within {digits : List Char} (numeral : Numeral s digits) : digits <:+: s := by
  cases numeral with
  | number cut => exact cut.within
  | @line gap file line column parts cut =>
    refine .trans ⟨'@' :: (gap ++ (file ++ [':'])),':' :: column,?_⟩ cut.within
    simp [locationChars,positionChars]
  | @column gap file line column parts cut =>
    refine .trans ⟨'@' :: (gap ++ (file ++ ':' :: (line ++ [':']))),[],?_⟩ cut.within
    simp [locationChars,positionChars]

theorem shortNumerals_of_length (short : s.length ≤ Text.digitLimit) : ShortNumerals s :=
  fun _ numeral => numeral.within.length_le.trans short

theorem ShortNumerals.makes (short : ShortNumerals s) (cut : Cut s rule taken) :
    ∃ part, rule.lexeme taken = .ok part := by
  cases rule with
  | number =>
    have value : Text.readDigits taken = .ok (Text.digitsValue taken) := if_pos (short taken (.number cut))
    exact ⟨_,by rw [Rule.lexeme,value]⟩
  | _ => exact ⟨_,rfl⟩

theorem ShortNumerals.run (short : ShortNumerals s) (reached : Reaches s rest) {line offset : Nat}
    {found : Scan} (run : Scanned line offset rest found) (fault : Text.IntegerFault) :
    found.ending ≠ .longNumber fault := by
  induction run with
  | done => exact nofun
  | gap blank later ih => exact ih (.gap blank reached)
  | stuck => exact nofun
  | refused takes first made =>
    obtain ⟨part,other⟩ := short.makes ⟨takes,_,reached,Rule.first?_sound first⟩
    rw [made] at other
    cases other
  | passed takes first made later ih => exact ih (.part takes (Rule.first?_sound first) reached)
  | put takes first made later ih => exact ih (.part takes (Rule.first?_sound first) reached)

theorem ShortNumerals.scan (short : ShortNumerals s) (fault : Text.IntegerFault) :
    (Transcript.scan s).ending ≠ .longNumber fault := short.run .start (scanned_scanFrom s 1 0) fault

theorem Lexes.cut (lexes : Lexes rest lexemes) (reached : Reaches s rest) {text : String}
    (member : .location text ∈ lexemes) : ∃ gap file line column, LocationParts file line column ∧
      text = .ofList (locationChars file line column) ∧
      Cut s .location ('@' :: (gap ++ locationChars file line column)) := by
  induction lexes with
  | done => cases member
  | gap blank later ih => exact ih (.gap blank reached) member
  | @part rule taken rest part lexemes takes longest made later ih =>
    rcases List.mem_append.mp member with here | there
    · rw [Option.mem_toList.mp here] at made
      cases takes with
      | @location gap file line column gaps parts =>
        rw [lexeme_location gaps parts] at made
        cases made
        exact ⟨gap,file,line,column,parts,rfl,.location gaps parts,rest,reached,longest⟩
      | number =>
        rw [Rule.lexeme] at made
        split at made <;> cases made
      | _ => cases made
    · exact ih (.part takes longest reached) there

-- With short numerals every location that is scanned is read.
theorem ShortNumerals.located (short : ShortNumerals (Text.trim s))
    (parsed : readSentence s = .ok (.event name fields place)) :
    ∃ location, locationOf place = .ok location := by
  cases place with
  | none => exact ⟨none,rfl⟩
  | some text =>
    obtain ⟨lexemes,lexes,same⟩ := readSentence_ok_iff.mp parsed
    obtain ⟨tree,rfl,_,_⟩ := tree_of_event same
    have member : Lexeme.location text ∈ tree.lexemes ++ ((some text).map Lexeme.location).toList := by
      simp
    obtain ⟨gap,file,line,column,parts,rfl,cut⟩ := lexes.cut .start member
    exact ⟨_,(Locates.present parts (if_pos (short line (.line parts cut)))
      (if_pos (short column (.column parts cut)))).read⟩

theorem unread_of_readSentence (failed : readSentence s = .error fault) (line : LineTree) :
    ¬LaidOut (Text.trim s) line.lexemes := by
  intro laid
  have parsed : readSentence s = .ok line.sentence :=
    readSentence_ok_iff.mpr ⟨line.lexemes,(lexes_line_iff line).mpr laid,sentenceOf?_tree line⟩
  rw [failed] at parsed
  cases parsed

theorem cause_of_readSentence (short : ShortNumerals (Text.trim s))
    (failed : readSentence s = .error fault) :
    fault.cause? = some .badCharacter ∨ fault.cause? = some .badSyntax := by
  have ending := short.scan
  rw [readSentence] at failed
  split at failed
  · cases failed
    exact .inr rfl
  · unfold Scan.sentence at failed
    split at failed
    · cases failed
      exact .inr rfl
    · cases failed
      exact .inl rfl
    · rename_i long ended _
      exact absurd ended (ending long)
    · cases failed
      exact .inr rfl
    · cases failed

theorem laidOut_of_token (parsed : readSentence s = .ok (.token kind number)) :
    ∃ token : TokenTree, LaidOut (Text.trim s) token.lexemes := by
  obtain ⟨lexemes,lexes,whole⟩ := readSentence_ok_iff.mp parsed
  obtain ⟨line,rfl,same⟩ := tree_of_sentenceOf? whole
  cases line with
  | located | event => cases same
  | token token => exact ⟨token,.of_lexes lexes⟩

theorem refused_of_readEvent {s : String} (short : ShortNumerals (Text.trim s.toList))
    (failed : readEvent s = .error fault) :
    ∃ cause, fault.cause? = some cause ∧ Refused s.toList cause := by
  rw [readEvent] at failed
  cases parsed : readSentence s.toList with
  | error other =>
    rw [parsed] at failed
    cases failed
    have unread := unread_of_readSentence parsed
    rcases cause_of_readSentence short parsed with character | syntactic
    · exact ⟨_,character,.unread (.inl rfl) unread⟩
    · exact ⟨_,syntactic,.unread (.inr rfl) unread⟩
  | ok sentence =>
    rw [parsed] at failed
    change eventOf (Text.trimmed s) sentence = .error fault at failed
    cases sentence with
    | token kind number =>
      obtain ⟨token,laid⟩ := laidOut_of_token parsed
      cases failed
      exact ⟨_,rfl,.token laid⟩
    | event name fields place =>
      obtain ⟨tree,laid,rfl,rfl⟩ := laidOut_of_event parsed
      obtain ⟨cause,known,flaw⟩ := flaw_of_eventOf (short.located parsed) failed
      exact ⟨cause,known,.event laid flaw⟩

-- The texts of an event are those that name each of its fields once and nothing else, in any
-- order and layout. For every other text one of eight causes is told, and it is what is wrong
-- with the text; the error is of one of two classes.
theorem lines_mean_their_fields (s : String) :
    (∀ event location, readEvent s = .ok (event,location) ↔ EventText event location s.toList) ∧
      (ShortNumerals (Text.trim s.toList) → (¬∃ event location, EventText event location s.toList) →
        ∃ fault cause, readEvent s = .error fault ∧ fault.cause? = some cause ∧
          Refused s.toList cause ∧ (fault.errorClass = .lexer ∨ fault.errorClass = .parser)) := by
  refine ⟨fun _ _ => readEvent_ok_iff,fun short other => ?_⟩
  cases read : readEvent s with
  | ok result => exact absurd ⟨result.1,result.2,readEvent_ok_iff.mp read⟩ other
  | error fault =>
    obtain ⟨cause,known,refused⟩ := refused_of_readEvent short read
    exact ⟨fault,cause,rfl,known,refused,errorClass_of_cause? known⟩

theorem lines_mean_their_fields_permuted :
    EventText (.atomicLoad 1 7 "SeqCst") (some ⟨"a:b.rs",3,14⟩)
        "AtomicLoad( # first\n ordering=SeqCst,\tloc_id=007 ,tid=1) @ a:b.rs:3:14#done".toList ∧
      ShortNumerals (Text.trim "Yield(tid=1, tid=2)".toList) ∧
      (¬∃ event location, EventText event location "Yield(tid=1, tid=2)".toList) ∧
      ∃ fault cause, readEvent "Yield(tid=1, tid=2)" = .error fault ∧ fault.cause? = some cause ∧
        Refused "Yield(tid=1, tid=2)".toList cause ∧
        (fault.errorClass = .lexer ∨ fault.errorClass = .parser) := by
  have short : ShortNumerals (Text.trim "Yield(tid=1, tid=2)".toList) :=
    shortNumerals_of_length (by decide)
  have refused : readEvent "Yield(tid=1, tid=2)" = .error (.repeatedField "Yield" "tid") := by rfl
  have other : ¬∃ event location, EventText event location "Yield(tid=1, tid=2)".toList := by
    rintro ⟨event,location,text⟩
    have read := ((lines_mean_their_fields "Yield(tid=1, tid=2)").1 event location).mpr text
    rw [refused] at read
    cases read
  exact ⟨((lines_mean_their_fields _).1 _ _).mp (by rfl),short,other,
    (lines_mean_their_fields _).2 short other⟩

end ProtocolNet.Transcript
