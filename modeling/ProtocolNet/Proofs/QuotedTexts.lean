import ProtocolNet.Proofs.Tiling

namespace ProtocolNet.Transcript

open Rule Text.Backslash

variable {s inside : List Char} {placed : Placed} {text : String} {event : Event}
  {location : Option SourceLocation} {field : String × FieldValue}

theorem stands_of_mem_scan (member : placed ∈ (scan s).lexemes) : placed.Stands s := by
  have run := scanned_scanFrom s 1 0
  obtain ⟨finish,tiling,_⟩ := @Scanned.tiles 1 0 s s [] (scan s) run rfl rfl rfl
  exact tiling.stands placed member

-- Whatever quoted text a scan finds, it has read the characters between its quotes from the left.
theorem Placed.Stands.quoted (stands : placed.Stands s) (string : placed.lexeme = .string text) :
    ∃ front inside rest, Between s placed.start placed.stop front ('"' :: (inside ++ ['"'])) rest ∧
      Inside inside ∧ text = .ofList (unescape inside) := by
  obtain ⟨front,taken,rest,between,_,longest,made,_⟩ := stands
  rw [string] at longest made
  obtain ⟨inside,allowed,rfl⟩ : ∃ inside, Inside inside ∧ taken = '"' :: (inside ++ ['"']) := by
    cases longest.takes with
    | string allowed => exact ⟨_,allowed,rfl⟩
  have same : Lexeme.string (.ofList (unescape inside)) = .string text :=
    Option.some.inj (Except.ok.inj (lexeme_string.symm.trans made))
  exact ⟨front,inside,rest,between,allowed,(Lexeme.string.inj same).symm⟩

theorem scan_string (allowed : Inside inside) : scan ('"' :: (inside ++ ['"'])) =
    ⟨[⟨.string (.ofList (unescape inside)),1,0,inside.length + 2⟩],.endOfText⟩ := by
  have longest := @Lexes.length?_string inside [] allowed
  have step := scanFrom_takes (.string allowed) longest 1 0
  rw [List.append_nil,lexeme_string] at step
  rw [scan,step]
  simp [scanFrom,Scan.put]

-- What may stand between quotes is what the scan finds to be one quoted text.
theorem inside_iff_scan : Inside inside ↔ ∃ text, scan ('"' :: (inside ++ ['"'])) =
    ⟨[⟨.string text,1,0,inside.length + 2⟩],.endOfText⟩ := by
  constructor
  · intro allowed
    exact ⟨_,scan_string allowed⟩
  · rintro ⟨text,scanned⟩
    have member : (⟨.string text,1,0,inside.length + 2⟩ : Placed) ∈
        (scan ('"' :: (inside ++ ['"']))).lexemes := by
      rw [scanned]
      exact List.mem_singleton.mpr rfl
    obtain ⟨front,found,rest,⟨whole,begins,ends⟩,allowed,_⟩ := (stands_of_mem_scan member).quoted rfl
    obtain rfl : front = [] := List.length_eq_zero_iff.mp begins
    have length : inside.length = found.length := by simpa using ends.symm
    have behind : inside ++ ['"'] = found ++ '"' :: rest := by simpa using whole
    rw [(List.append_inj behind length).1]
    exact allowed

theorem infix_field (member : field ∈ event.fields) : writeField field <:+: write event location := by
  have listed := @Str.infix_joined ↑", " _ _ (@List.mem_map_of_mem _ _ _ _ writeField member)
  refine listed.trans ⟨event.typeName ++ ↑"(",↑")" ++ writeLocation location,?_⟩
  simp only [write,writeEvent,List.append_assoc]

theorem writeText_eq (name : String) (text : Str) : writeField (name,.text text) =
    Str.ofString name ++ .char '=' :: .char '"' :: (escapeByChars text ++ [.char '"']) := by
  have sign : Str.ofString "=" = [.char '='] := rfl
  have quote : Str.ofString "\"" = [.char '"'] := rfl
  simp only [writeField,writeValue,sign,quote,List.append_assoc]
  rfl

-- The two replacements read any text as one reading from the left does, and so they read whatever
-- quoted text a scan finds. What is written between quotes for a text they turn back into it, and a
-- scan takes it for one quoted text unless a line ends in it.
theorem quoted_texts_read_from_left (s inside : List Char) (letters : Str) (event : Event)
    (location : Option SourceLocation) :
    (unescapeByPairs inside = unescape inside ∧ unescapeByPairs letters = unescape letters) ∧
    (Inside inside ↔ ∃ text, scan ('"' :: (inside ++ ['"'])) =
      ⟨[⟨.string text,1,0,inside.length + 2⟩],.endOfText⟩) ∧
    (∀ placed ∈ (scan s).lexemes, ∀ text, placed.lexeme = .string text → ∃ front inside rest,
      Between s placed.start placed.stop front ('"' :: (inside ++ ['"'])) rest ∧
        Inside inside ∧ text = .ofList (unescape inside)) ∧
    ∀ name text, (name,.text text) ∈ event.fields →
      Str.ofString name ++ .char '=' :: .char '"' :: (escapeByChars text ++ [.char '"']) <:+:
        write event location ∧
      unescapeByPairs (escapeByChars text) = text ∧
      (Inside (Str.shown (escapeByChars text)) ↔ .char '\n' ∉ text) := by
  refine ⟨⟨unescapeByPairs_eq_unescape inside,unescapeByPairs_eq_unescape letters⟩,inside_iff_scan,
    ?_,?_⟩
  · intro placed member text string
    exact (stands_of_mem_scan member).quoted string
  · intro name text member
    have written := @infix_field event location _ member
    rw [writeText_eq] at written
    refine ⟨written,?_,?_⟩
    · rw [unescapeByPairs_eq_unescape,escapeByChars_eq_escape,unescape_escape]
    · rw [Str.shown_escape,escapeByChars_eq_escape,inside_escape_iff,Str.mem_shown_iff (by decide)]

theorem quoted_texts_read_from_left_slashes :
    let text := "\\\"\\a"
    let s := "Wait \"\\\\\\\"\\a\"".toList
    ⟨.string text,1,5,13⟩ ∈ (scan s).lexemes ∧ ("reason",.text text) ∈ (Event.block 3 text).fields ∧
      .char '\n' ∉ Str.ofString text ∧
      (∃ front inside rest, Between s 5 13 front ('"' :: (inside ++ ['"'])) rest ∧ Inside inside ∧
        text = .ofList (unescape inside)) ∧
      unescapeByPairs (escapeByChars (Str.ofString text)) = text ∧
      Inside (Str.shown (escapeByChars (Str.ofString text))) := by
  intro text s
  have scanned : (scan s).lexemes = [⟨.name "Wait",1,0,4⟩,⟨.string text,1,5,13⟩] := by decide +kernel
  have member : (⟨.string text,1,5,13⟩ : Placed) ∈ (scan s).lexemes := by
    rw [scanned]
    exact .tail _ (.head _)
  have field : ("reason",FieldValue.text text) ∈ (Event.block 3 text).fields := .tail _ (.head _)
  have sameLine : .char '\n' ∉ Str.ofString text := by decide +kernel
  obtain ⟨_,_,found,written⟩ := quoted_texts_read_from_left s [] [] (.block 3 text) none
  obtain ⟨_,restored,allowed⟩ := written "reason" text field
  exact ⟨member,field,sameLine,found _ member text rfl,restored,allowed.mpr sameLine⟩

end ProtocolNet.Transcript
