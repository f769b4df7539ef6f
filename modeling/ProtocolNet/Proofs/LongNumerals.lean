import ProtocolNet.Proofs.Recognition
import ProtocolNet.Proofs.TokenText

namespace ProtocolNet.Transcript

open Rule

-- A text that is scanned up to a numeral of too many digits, the lexemes in front of the numeral,
-- and the number of its digits.
inductive Breaks : List Char → List Lexeme → Nat → Prop
  | gap {c : Char} {rest : List Char} {lexemes : List Lexeme} {digits : Nat} (blank : isGap c = true)
      (later : Breaks rest lexemes digits) : Breaks (c :: rest) lexemes digits
  | part {rule : Rule} {taken rest : List Char} {part : Option Lexeme} {lexemes : List Lexeme}
      {digits : Nat} (takes : rule.Takes taken)
      (longest : rule.length? (taken ++ rest) = some taken.length)
      (made : rule.lexeme taken = .ok part) (later : Breaks rest lexemes digits) :
      Breaks (taken ++ rest) (part.toList ++ lexemes) digits
  | numeral {digits rest : List Char} (takes : Rule.number.Takes digits)
      (longest : Rule.number.length? (digits ++ rest) = some digits.length)
      (long : Text.digitLimit < digits.length) : Breaks (digits ++ rest) [] digits.length

-- A text that starts like a line and then has a numeral of too many digits.
def HasLongNumber (s : List Char) : Prop := ∃ lexemes digits, Breaks s lexemes digits ∧ Viable lexemes

variable {s rest taken digits : List Char} {lexemes more : List Lexeme} {placed : List Placed}
  {found : Placed} {line offset size : Nat} {fault : Text.IntegerFault} {rule : Rule} {scan : Scan}
  {kind : String}

theorem Breaks.long (breaks : Breaks s lexemes size) : Text.digitLimit < size := by
  induction breaks with
  | gap _ _ ih => exact ih
  | part _ _ _ _ ih => exact ih
  | numeral _ _ long => exact long

theorem scanFrom_of_breaks (breaks : Breaks s lexemes size) (line offset : Nat) : ∃ placed,
    scanFrom 0 line offset s = ⟨placed,.longNumber (.tooLong size)⟩ ∧
      placed.map (·.lexeme) = lexemes := by
  induction breaks generalizing line offset with
  | gap blank later ih =>
    rw [scanFrom,if_pos blank]
    exact ih _ _
  | @part rule taken rest part lexemes size takes longest made later ih =>
    obtain ⟨line',offset',scanned⟩ := scanFrom_part takes longest line offset
    obtain ⟨placed,behind,rfl⟩ := ih line' offset'
    rw [scanned,made]
    cases part with
    | none => exact ⟨placed,behind,rfl⟩
    | some lexeme => exact ⟨_ :: placed,by rw [behind]; rfl,rfl⟩
  | @numeral digits rest takes longest long =>
    obtain ⟨line',offset',scanned⟩ := scanFrom_part takes longest line offset
    have refused : Rule.number.lexeme digits = .error (.tooLong digits.length) := by
      rw [Rule.lexeme,Text.readDigits,if_neg (Nat.not_le.mpr long)]
    rw [scanned,refused]
    exact ⟨[],rfl,rfl⟩

-- Only numerals are refused for what they are.
theorem breaks_of_refused (takes : rule.Takes taken)
    (longest : rule.length? (taken ++ rest) = some taken.length)
    (refused : rule.lexeme taken = .error fault) :
    ∃ size, fault = .tooLong size ∧ Breaks (taken ++ rest) [] size := by
  have whole := takes
  cases takes with
  | @number c tail each =>
    rw [Rule.lexeme,Text.readDigits] at refused
    by_cases short : (c :: tail).length ≤ Text.digitLimit
    · rw [if_pos short] at refused
      cases refused
    · rw [if_neg short] at refused
      cases refused
      exact ⟨_,rfl,.numeral whole longest (Nat.not_le.mp short)⟩
  | comment | newline | location | name | string | lparen | rparen | comma | equals => cases refused

theorem Scanned.breaks (run : Scanned line offset s scan) (ended : scan.ending = .longNumber fault) :
    ∃ size, fault = .tooLong size ∧ Breaks s (scan.lexemes.map (·.lexeme)) size := by
  induction run with
  | done => cases ended
  | gap blank later ih =>
    obtain ⟨size,same,breaks⟩ := ih ended
    exact ⟨size,same,.gap blank breaks⟩
  | stuck => cases ended
  | refused takes first made =>
    cases ended
    exact breaks_of_refused takes (Rule.first?_sound first) made
  | passed takes first made later ih =>
    obtain ⟨size,same,breaks⟩ := ih ended
    exact ⟨size,same,.part takes (Rule.first?_sound first) made breaks⟩
  | put takes first made later ih =>
    obtain ⟨size,same,breaks⟩ := ih ended
    exact ⟨size,same,.part takes (Rule.first?_sound first) made breaks⟩

theorem Viable.of_append (viable : Viable (lexemes ++ more)) : Viable lexemes := by
  obtain ⟨rest,line⟩ := viable
  exact ⟨more ++ rest,by rwa [← List.append_assoc]⟩

-- What a line can start with has no lexeme that is out of place.
theorem viable_iff_no_unexpected :
    Viable (placed.map (·.lexeme)) ↔ ∀ found, parse placed ≠ .error (.unexpected found) := by
  constructor
  · intro viable found unexpected
    obtain ⟨before,after,rfl,_,stuck⟩ := parse_unexpected_iff.mp unexpected
    rw [List.map_append,List.map_cons,List.append_cons] at viable
    exact stuck viable.of_append
  · intro none
    cases parsed : parse placed with
    | ok sentence =>
      have line := parse_ok_iff_isLine.mp ⟨sentence,parsed⟩
      exact ⟨[],by rwa [List.append_nil]⟩
    | error fault =>
      cases fault with
      | unexpected found => exact absurd parsed (none found)
      | unexpectedEnd => exact (parse_unexpectedEnd_iff.mp parsed).1

theorem sentence_longNumber_iff : scan.sentence = .error (.longNumber fault) ↔
    scan.ending = .longNumber fault ∧ Viable (scan.lexemes.map (·.lexeme)) := by
  rw [viable_iff_no_unexpected]
  unfold Scan.sentence
  cases parse scan.lexemes with
  | ok sentence => cases scan.ending <;> simp
  | error other => cases other <;> cases scan.ending <;> simp

-- A line is refused for its number, and not for its syntax, where it starts like a line.
theorem readSentence_longNumber_iff : readSentence s = .error (.longNumber fault) ↔
    ∃ lexemes size, fault = .tooLong size ∧ Breaks (Text.trim s) lexemes size ∧ Viable lexemes := by
  have whole : readSentence s = .error (.longNumber fault) ↔
      (Transcript.scan (Text.trim s)).sentence = .error (.longNumber fault) := by
    rw [readSentence]
    split
    · rename_i empty
      rw [empty]
      constructor <;> (intro impossible; cases impossible)
    · exact Iff.rfl
  rw [whole,sentence_longNumber_iff]
  constructor
  · rintro ⟨ended,viable⟩
    obtain ⟨size,same,breaks⟩ := (scanned_scanFrom (Text.trim s) 1 0).breaks ended
    exact ⟨_,size,same,breaks,viable⟩
  · rintro ⟨lexemes,size,rfl,breaks,viable⟩
    obtain ⟨placed,scanned,rfl⟩ := scanFrom_of_breaks breaks 1 0
    rw [Transcript.scan,scanned]
    exact ⟨rfl,viable⟩

theorem readToken_longNumber_iff {written : String} : readToken written = .error (.longNumber fault) ↔
    readSentence written.toList = .error (.longNumber fault) := by
  rw [readToken]
  cases readSentence written.toList with
  | error other => simp [bind,Except.bind]
  | ok sentence =>
    simp only [bind,Except.bind,reduceCtorEq,iff_false]
    cases sentence with
    | event => simp [tokenOf]
    | token kind value =>
      rw [tokenOf]
      cases Token.make kind (literalValue value) <;> simp

-- A name with too many digits in brackets is such a text.
theorem hasLongNumber_call (named : Lexes.isName kind.toList = true)
    (each : ∀ c ∈ digits, Text.isDigit c = true) (long : Text.digitLimit < digits.length) :
    HasLongNumber (Text.trim (kind.toList ++ '(' :: (digits ++ [')']))) := by
  have nonempty : digits ≠ [] := List.ne_nil_of_length_pos (Nat.zero_lt_of_lt long)
  have solid : ∀ c ∈ kind.toList ++ '(' :: (digits ++ [')']), Text.isBlank c = false := by
    intro c member
    simp only [List.mem_append,List.mem_cons,List.not_mem_nil,or_false] at member
    rcases member with inside | rfl | digit | rfl
    · exact (solid_name named).2 c inside
    · rfl
    · exact Text.isBlank_of_isDigit (each c digit)
    · rfl
  have trimmed := Text.trim_of_forall [] (List.forall_mem_nil _) solid
  rw [List.nil_append] at trimmed
  have numeral : Breaks (digits ++ [')']) [] digits.length :=
    .numeral (Lexes.takes_digits nonempty each)
      (Lexes.length?_digits nonempty each (Text.stops_cons.mpr (by decide))) long
  have opened : Breaks (['('] ++ (digits ++ [')'])) ((some Lexeme.lparen).toList ++ []) digits.length :=
    .part .lparen rfl rfl numeral
  have stops : Text.Stops isNameRest ('(' :: (digits ++ [')'])) := Text.stops_cons.mpr (by decide)
  rw [trimmed]
  refine ⟨_,_,.part (Lexes.takes_name named) (Lexes.length?_name named stops) rfl opened,?_⟩
  exact viable_iff.mpr ⟨.opened (.ofList kind.toList),rfl⟩

end ProtocolNet.Transcript
