import Mathlib.Data.List.Chain
import ProtocolNet.Proofs.Recognition

namespace ProtocolNet.Transcript

open Rule Text.Backslash

-- What a lexeme may look like. A number may have zeros in front and a text any pairs that are
-- read as one of its characters.
inductive Spells : Lexeme → List Char → Prop
  | name {chars : List Char} (named : Lexes.isName chars = true) :
      Spells (.name (.ofList chars)) chars
  | number {chars : List Char} {n : Nat} (nonempty : chars ≠ [])
      (digits : ∀ c ∈ chars, Text.isDigit c = true) (value : Text.readDigits chars = .ok n) :
      Spells (.number n) chars
  | string {inside : List Char} (allowed : Inside inside) :
      Spells (.string (.ofList (unescape inside))) ('"' :: (inside ++ ['"']))
  | location {gap file line column : List Char} (gaps : ∀ c ∈ gap, isGap c = true)
      (parts : LocationParts file line column) :
      Spells (.location (.ofList (locationChars file line column)))
        ('@' :: (gap ++ locationChars file line column))
  | lparen : Spells .lparen ['(']
  | rparen : Spells .rparen [')']
  | comma : Spells .comma [',']
  | equals : Spells .equals ['=']

-- A text in which lexemes stand one after another. Around them there may be spaces, tabs, line
-- ends and comments; only the last comment may lack its line end.
inductive LaidOut : List Char → List Lexeme → Prop
  | done : LaidOut [] []
  | blank {c : Char} {rest : List Char} {lexemes : List Lexeme} (gap : isGap c = true)
      (later : LaidOut rest lexemes) : LaidOut (c :: rest) lexemes
  | newline {rest : List Char} {lexemes : List Lexeme} (later : LaidOut rest lexemes) :
      LaidOut ('\n' :: rest) lexemes
  | comment {said rest : List Char} {lexemes : List Lexeme} (sameLine : '\n' ∉ said)
      (later : LaidOut rest lexemes) : LaidOut ('#' :: (said ++ '\n' :: rest)) lexemes
  | lastComment {said : List Char} (sameLine : '\n' ∉ said) : LaidOut ('#' :: said) []
  | lexeme {lexeme : Lexeme} {chars rest : List Char} {lexemes : List Lexeme}
      (spelled : Spells lexeme chars) (later : LaidOut rest lexemes) :
      LaidOut (chars ++ rest) (lexeme :: lexemes)

variable {rule : Rule} {lexeme next : Lexeme} {lexemes later : List Lexeme} {c : Char}
  {s rest chars taken inside said : List Char}

theorem isName_cons {tail : List Char} (start : isNameStart c = true)
    (inside : ∀ d ∈ tail, isNameRest d = true) : Lexes.isName (c :: tail) = true :=
  (Bool.and_eq_true _ _).mpr ⟨start,List.all_eq_true.mpr inside⟩

-- A lexeme is made of one of its spellings.
theorem spells_of_takes (takes : rule.Takes taken) (made : rule.lexeme taken = .ok (some lexeme)) :
    Spells lexeme taken := by
  cases takes with
  | comment | newline => cases made
  | lparen => cases made; exact .lparen
  | rparen => cases made; exact .rparen
  | comma => cases made; exact .comma
  | equals => cases made; exact .equals
  | name start inside => cases made; exact .name (isName_cons start inside)
  | @number c tail digits =>
    rw [Rule.lexeme] at made
    split at made
    · rename_i value
      cases made
      exact .number (List.cons_ne_nil c tail) digits value
    · cases made
  | @string inside allowed =>
    rw [lexeme_string] at made
    cases made
    exact .string allowed
  | @location gap file line column gaps parts =>
    rw [lexeme_location gaps parts] at made
    cases made
    exact .location gaps parts

-- The characters with which a lexeme would go on.
def Lexeme.runsOn : Lexeme → Char → Bool
  | .name _ => isNameRest
  | .number _ => Text.isDigit
  | .location _ => isFileChar
  | _ => fun _ => false

theorem Spells.lexes (spelled : Spells lexeme chars) (stops : Text.Stops lexeme.runsOn rest)
    (later : Lexes rest lexemes) : Lexes (chars ++ rest) (lexeme :: lexemes) := by
  cases spelled with
  | name named => exact Lexes.name named stops later
  | number nonempty digits value => exact Lexes.digits nonempty digits value stops later
  | string allowed =>
    rw [List.cons_append,List.append_assoc]
    exact Lexes.quoted allowed later
  | location gaps parts => exact Lexes.located gaps parts stops later
  | lparen => exact later.lparen
  | rparen => exact later.rparen
  | comma => exact later.comma
  | equals => exact later.equals

theorem isBlank_of_isNameRest (inside : isNameRest c = true) : Text.isBlank c = false := by
  have bounds : 48 ≤ c.toNat ∧ c.toNat ≤ 122 := by
    rcases (Bool.or_eq_true _ _).mp inside with alphanumeric | underscore
    · rcases (Bool.or_eq_true _ _).mp alphanumeric with letter | digit
      · rcases (Bool.or_eq_true _ _).mp letter with upper | lower
        · have range : 65 ≤ c.toNat ∧ c.toNat ≤ 90 := of_decide_eq_true upper
          omega
        · obtain ⟨above,below⟩ := (Bool.and_eq_true _ _).mp lower
          have range : 97 ≤ c.toNat ∧ c.toNat ≤ 122 := ⟨of_decide_eq_true above,of_decide_eq_true below⟩
          omega
      · obtain ⟨above,below⟩ := (Bool.and_eq_true _ _).mp digit
        have range : 48 ≤ c.toNat ∧ c.toNat ≤ 57 := ⟨of_decide_eq_true above,of_decide_eq_true below⟩
        omega
    · rw [of_decide_eq_true underscore]
      decide
  simp [Text.isBlank]
  omega

theorem isNameRest_of_isNameStart (start : isNameStart c = true) : isNameRest c = true := by
  simp only [isNameStart,isNameRest,Char.isAlphanum,Bool.or_eq_true] at start ⊢
  exact start.imp_left .inl

theorem solid_name (named : Lexes.isName chars = true) :
    chars ≠ [] ∧ ∀ c ∈ chars, Text.isBlank c = false := by
  cases chars with
  | nil => cases named
  | cons c tail =>
    obtain ⟨start,inside⟩ := (Bool.and_eq_true _ _).mp named
    refine ⟨List.cons_ne_nil c tail,List.forall_mem_cons.mpr ⟨?_,fun d member => ?_⟩⟩
    · exact isBlank_of_isNameRest (isNameRest_of_isNameStart start)
    · exact isBlank_of_isNameRest (List.all_eq_true.mp inside d member)

-- A text that is not empty and has a solid character at each end.
structure Solid (s : List Char) : Prop where
  nonempty : s ≠ []
  first : Text.Stops Text.isBlank s
  last : Text.Stops Text.isBlank s.reverse

theorem solid_of_forall (nonempty : chars ≠ []) (solid : ∀ c ∈ chars, Text.isBlank c = false) :
    Solid chars :=
  ⟨nonempty,Text.stops_of_forall solid,
    Text.stops_of_forall fun c member => solid c (List.mem_reverse.mp member)⟩

theorem Spells.solid (spelled : Spells lexeme chars) : Solid chars := by
  cases spelled with
  | name named => exact solid_of_forall (solid_name named).1 (solid_name named).2
  | number nonempty digits =>
    exact solid_of_forall nonempty fun c member => Text.isBlank_of_isDigit (digits c member)
  | string => exact ⟨List.cons_ne_nil _ _,Text.stops_cons.mpr (by decide),by simp; decide⟩
  | @location gap file line column gaps parts =>
    refine ⟨List.cons_ne_nil _ _,Text.stops_cons.mpr (by decide),?_⟩
    have written : (locationChars file line column).reverse ≠ [] := by
      simp [locationChars,positionChars]
    rw [List.reverse_cons,List.reverse_append,List.append_assoc]
    exact Text.stops_append written fun c member => parts.solid c (List.mem_reverse.mp member)
  | lparen | rparen | comma | equals =>
    exact solid_of_forall (List.cons_ne_nil _ _) (List.forall_mem_singleton.mpr (by decide))

-- A text that is laid out stays so when blanks are taken off its ends.
theorem LaidOut.trimStart (laid : LaidOut s lexemes) : LaidOut (Text.trimStart s) lexemes := by
  induction laid with
  | done => exact .done
  | blank gap later ih => rwa [Text.trimStart,List.dropWhile_cons,if_pos (isBlank_of_isGap gap)]
  | newline later ih => rwa [Text.trimStart,List.dropWhile_cons,if_pos (by decide)]
  | comment sameLine later ih =>
    rw [Text.trimStart_of_not_blank (by decide)]
    exact .comment sameLine later
  | lastComment sameLine =>
    rw [Text.trimStart_of_not_blank (by decide)]
    exact .lastComment sameLine
  | @lexeme lexeme chars rest lexemes spelled later ih =>
    obtain ⟨c,tail,rfl⟩ := List.exists_cons_of_ne_nil spelled.solid.nonempty
    rw [List.cons_append,Text.trimStart_of_not_blank (Text.stops_cons.mp spelled.solid.first)]
    exact .lexeme spelled later

theorem LaidOut.nil (laid : LaidOut [] lexemes) : lexemes = [] := by
  generalize empty : ([] : List Char) = s at laid
  cases laid with
  | done => rfl
  | lexeme spelled => exact absurd (List.append_eq_nil_iff.mp empty.symm).1 spelled.solid.nonempty
  | blank | newline | comment | lastComment => cases empty

theorem LaidOut.trimEnd_cons (blank : Text.isBlank c = true)
    (laid : LaidOut (Text.trimEnd rest) lexemes) (kept : LaidOut (c :: Text.trimEnd rest) lexemes) :
    LaidOut (Text.trimEnd (c :: rest)) lexemes := by
  rw [Text.trimEnd_cons blank]
  split
  · rename_i none
    rwa [none] at laid
  · exact kept

theorem lastComment_trimEnd (sameLine : '\n' ∉ said) : LaidOut (Text.trimEnd ('#' :: said)) [] := by
  have mark : Text.Stops Text.isBlank ['#'].reverse := Text.stops_cons.mpr (by decide)
  rw [← List.singleton_append,Text.trimEnd_append_of_stops mark]
  exact .lastComment fun member => sameLine ((Text.trimEnd_prefix said).subset member)

theorem LaidOut.trimEnd (laid : LaidOut s lexemes) : LaidOut (Text.trimEnd s) lexemes := by
  induction laid with
  | done => exact .done
  | blank gap later ih => exact .trimEnd_cons (isBlank_of_isGap gap) ih (.blank gap ih)
  | newline later ih => exact .trimEnd_cons (by decide) ih (.newline ih)
  | @comment said rest lexemes sameLine later ih =>
    rw [← List.cons_append,Text.trimEnd_append,Text.trimEnd_cons (by decide)]
    by_cases none : Text.trimEnd rest = []
    -- Nothing is left behind the line end, and so the comment is the last one.
    · rw [none] at ih
      rw [if_pos none,if_pos rfl,ih.nil]
      exact lastComment_trimEnd sameLine
    · rw [if_neg none,if_neg (List.cons_ne_nil _ _)]
      exact .comment sameLine ih
  | lastComment sameLine => exact lastComment_trimEnd sameLine
  | lexeme spelled later ih =>
    rw [Text.trimEnd_append_of_stops spelled.solid.last]
    exact .lexeme spelled ih

theorem LaidOut.trim (laid : LaidOut s lexemes) : LaidOut (Text.trim s) lexemes :=
  laid.trimStart.trimEnd

-- Line ends in front of a layout may be taken away.
theorem LaidOut.of_newline (laid : LaidOut ('\n' :: rest) lexemes) : LaidOut rest lexemes := by
  generalize written : '\n' :: rest = s at laid
  cases laid with
  | done | comment | lastComment => cases written
  | blank gap => cases written; exact absurd gap (by decide)
  | newline later => cases written; exact later
  | @lexeme lexeme chars rest' lexemes spelled later =>
    obtain ⟨c,tail,rfl⟩ := List.exists_cons_of_ne_nil spelled.solid.nonempty
    cases written
    exact absurd (Text.stops_cons.mp spelled.solid.first) (by decide)

theorem LaidOut.newlines (ends : ∀ c ∈ said, c = '\n') (laid : LaidOut rest lexemes) :
    LaidOut (said ++ rest) lexemes := by
  induction said with
  | nil => exact laid
  | cons c said ih =>
    obtain ⟨rfl,later⟩ := List.forall_mem_cons.mp ends
    exact .newline (ih later)

-- A comment takes the rest of its line.
theorem behind_comment (sameLine : ∀ c ∈ said, c ≠ '\n')
    (longest : Rule.comment.length? ('#' :: said ++ rest) = some ('#' :: said).length) :
    rest = [] ∨ ∃ later, rest = '\n' :: later := by
  have inside : ∀ c ∈ said, decide (c ≠ '\n') = true := fun c member =>
    decide_eq_true (sameLine c member)
  cases rest with
  | nil => exact .inl rfl
  | cons c later =>
    refine .inr ⟨later,?_⟩
    by_contra other
    have onward : c ≠ '\n' := fun same => other (by rw [same])
    rw [List.cons_append,Rule.length?,runLength,List.takeWhile_append_of_pos inside,
      List.takeWhile_cons,if_pos (decide_eq_true onward)] at longest
    simp at longest

theorem LaidOut.of_lexes (lexes : Lexes s lexemes) : LaidOut s lexemes := by
  induction lexes with
  | done => exact .done
  | gap blank later ih => exact .blank blank ih
  | @part rule taken rest part lexemes takes longest made later ih =>
    cases part with
    | some lexeme => exact .lexeme (spells_of_takes takes made) ih
    | none =>
      cases takes with
      | newline ends => exact ih.newlines (List.forall_mem_cons.mpr ⟨rfl,ends⟩)
      | @comment said sameLine =>
        have sameLine' : '\n' ∉ said := fun member => sameLine _ member rfl
        rcases behind_comment sameLine longest with rfl | ⟨rest,rfl⟩
        · rw [ih.nil,List.append_nil]
          exact .lastComment sameLine'
        · exact .comment sameLine' ih.of_newline
      | number digits =>
        rw [Rule.lexeme] at made
        split at made <;> cases made
      | _ => cases made

-- Two lexemes that stay two when nothing stands between them.
def Apart (lexeme next : Lexeme) : Prop := ∀ chars, Spells next chars → Text.Stops lexeme.runsOn chars

theorem runsOn_spacing (spacing : c = ' ' ∨ c = '\t' ∨ c = '\n' ∨ c = '#') :
    lexeme.runsOn c = false := by
  rcases spacing with rfl | rfl | rfl | rfl <;> cases lexeme <;> rfl

theorem LaidOut.stops (laid : LaidOut s lexemes) (apart : ∀ next ∈ lexemes.head?, Apart lexeme next) :
    Text.Stops lexeme.runsOn s := by
  cases laid with
  | done => exact Text.stops_nil
  | blank gap =>
    simp only [isGap,Bool.or_eq_true,decide_eq_true_eq] at gap
    exact Text.stops_cons.mpr (runsOn_spacing (by simpa only [or_assoc] using Or.inl gap))
  | newline | comment | lastComment => exact Text.stops_cons.mpr (runsOn_spacing (by decide))
  | @lexeme next chars rest lexemes spelled later =>
    obtain ⟨c,tail,rfl⟩ := List.exists_cons_of_ne_nil spelled.solid.nonempty
    have first := apart next rfl (c :: tail) spelled
    exact Text.stops_cons.mpr (Text.stops_cons.mp first)

theorem Lexes.lineEnd (stops : Text.Stops (fun c => decide (c = '\n')) rest)
    (later : Lexes rest lexemes) : Lexes ('\n' :: rest) lexemes := by
  have longest : Rule.newline.length? (['\n'] ++ rest) = some ['\n'].length := by
    rw [List.singleton_append,Rule.length?,runLength,Text.takeWhile_of_stops stops]
    rfl
  exact .part (.newline (List.forall_mem_nil _)) longest rfl later

-- A line end in front of a text is taken together with those that follow it.
theorem Lexes.newline (later : Lexes rest lexemes) : Lexes ('\n' :: rest) lexemes := by
  cases later with
  | done => exact .lineEnd Text.stops_nil .done
  | @gap c rest _ blank later =>
    refine .lineEnd (Text.stops_cons.mpr (decide_eq_false ?_)) (.gap blank later)
    rintro rfl
    exact absurd blank (by decide)
  | @part rule taken rest part lexemes takes longest made later =>
    by_cases same : rule = .newline
    · subst same
      cases takes with
      | @newline tail ends =>
        cases made
        have more : Rule.newline.length? ('\n' :: '\n' :: tail ++ rest) =
            some ('\n' :: '\n' :: tail).length := by
          simp only [List.cons_append,Rule.length?,runLength,Option.some.injEq,List.length_cons] at longest ⊢
          simp [longest]
        exact .part (.newline (List.forall_mem_cons.mpr ⟨rfl,ends⟩)) more rfl later
    · refine .lineEnd ?_ (.part takes longest made later)
      obtain ⟨c,tail,behind,written,_,first,_⟩ := Rule.length?_sound longest
      rw [written]
      refine Text.stops_cons.mpr (decide_eq_false ?_)
      rintro rfl
      exact same (Option.some.inj first).symm

theorem Lexes.comment (sameLine : '\n' ∉ said) (stops : Text.Stops (fun c => decide (c ≠ '\n')) rest)
    (later : Lexes rest lexemes) : Lexes ('#' :: (said ++ rest)) lexemes := by
  have plain : ∀ c ∈ said, c ≠ '\n' := fun c member same => sameLine (same ▸ member)
  have inside : ∀ c ∈ said, decide (c ≠ '\n') = true := fun c member => decide_eq_true (plain c member)
  have longest : Rule.comment.length? ('#' :: said ++ rest) = some ('#' :: said).length := by
    rw [List.cons_append,Rule.length?,runLength_append inside stops]
    rfl
  exact .part (.comment plain) longest rfl later

theorem LaidOut.lexes (laid : LaidOut s lexemes) (chain : lexemes.IsChain Apart) :
    Lexes s lexemes := by
  induction laid with
  | done => exact .done
  | blank gap later ih => exact .gap gap (ih chain)
  | newline later ih => exact (ih chain).newline
  | comment sameLine later ih =>
    exact .comment sameLine (Text.stops_cons.mpr (by decide)) (ih chain).newline
  | @lastComment said sameLine =>
    have lexes := Lexes.comment sameLine Text.stops_nil .done
    rwa [List.append_nil] at lexes
  | lexeme spelled later ih =>
    obtain ⟨apart,chain⟩ := List.isChain_cons.mp chain
    exact spelled.lexes (later.stops apart) (ih chain)

theorem apart_behind (closed : lexeme.runsOn = fun _ => false) : Apart lexeme next :=
  fun _ _ => Text.stops_of_forall fun c _ => congrFun closed c

def Lexeme.isMark : Lexeme → Bool
  | .lparen | .rparen | .comma | .equals | .location _ => true
  | _ => false

-- No name and no number goes on with a mark; only the file of a location does.
theorem apart_mark (mark : next.isMark = true) (unplaced : ∀ text, lexeme ≠ .location text) :
    Apart lexeme next := by
  have stop : (['(',')',',','=','@'].all fun c => !lexeme.runsOn c) = true := by
    cases lexeme with
    | location text => exact absurd rfl (unplaced text)
    | _ => rfl
  simp only [List.all_cons,Bool.and_eq_true,Bool.not_eq_true'] at stop
  obtain ⟨opening,closing,comma,equals,place,_⟩ := stop
  intro chars spelled
  cases spelled with
  | name | number | string => cases mark
  | lparen => exact Text.stops_cons.mpr opening
  | rparen => exact Text.stops_cons.mpr closing
  | comma => exact Text.stops_cons.mpr comma
  | equals => exact Text.stops_cons.mpr equals
  | location => exact Text.stops_cons.mpr place

-- In the lexemes of an event each one is a mark or stands behind one.
theorem FieldsTree.isChain (tree : FieldsTree) (mark : next.isMark = true)
    (chain : (next :: later).IsChain Apart) : (tree.lexemes ++ next :: later).IsChain Apart := by
  have field : ∀ name (value : ValueTree) {next later}, next.isMark = true →
      (next :: later).IsChain Apart →
        (.name name :: .equals :: value.lexeme :: next :: later).IsChain Apart := by
    intro name value next later mark chain
    refine .cons_cons (apart_mark rfl (by simp)) (.cons_cons (apart_behind rfl) (.cons_cons ?_ chain))
    exact apart_mark mark (by cases value <;> simp [ValueTree.lexeme])
  induction tree generalizing next later with
  | more earlier name value ih =>
    rw [FieldsTree.lexemes,List.append_assoc]
    exact ih rfl (.cons_cons (apart_behind rfl) (field name value mark chain))
  | one name value => exact field name value mark chain

theorem EventTree.isChain (tree : EventTree) (chain : (.rparen :: later).IsChain Apart) :
    (tree.lexemes ++ later).IsChain Apart := by
  cases tree with
  | filled name fields =>
    have inner := fields.isChain rfl chain
    rw [EventTree.lexemes,List.cons_append,List.cons_append,List.append_assoc]
    exact .cons_cons (apart_mark rfl (by simp))
      (List.isChain_cons.mpr ⟨fun _ _ => apart_behind rfl,inner⟩)
  | bare name => exact .cons_cons (apart_mark rfl (by simp)) (.cons_cons (apart_behind rfl) chain)

theorem LineTree.isChain (tree : LineTree) : tree.lexemes.IsChain Apart := by
  cases tree with
  | located event location => exact event.isChain (.cons_cons (apart_behind rfl) (.singleton _))
  | event event =>
    have chain := event.isChain (.singleton Lexeme.rparen)
    rwa [List.append_nil] at chain
  | token token =>
    cases token with
    | plain kind => exact .singleton _
    | numbered kind n =>
      exact .cons_cons (apart_mark rfl (by simp)) (.cons_cons (apart_behind rfl)
        (.cons_cons (apart_mark rfl (by simp)) (.singleton _)))

-- The layouts of a line are the texts that are scanned to its lexemes.
theorem lexes_line_iff (tree : LineTree) : Lexes s tree.lexemes ↔ LaidOut s tree.lexemes :=
  ⟨.of_lexes,fun laid => laid.lexes tree.isChain⟩

end ProtocolNet.Transcript
