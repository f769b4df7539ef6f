import ProtocolNet.Proofs.Lexing

namespace ProtocolNet

namespace Transcript

open Rule

namespace Rule

theorem Inside.sameLine {inside : List Char} (allowed : Inside inside) : '\n' ∉ inside := by
  induction allowed with
  | nil => exact List.not_mem_nil
  | plain noQuote noSlash sameLine later ih =>
    rw [List.mem_cons]
    exact fun member => member.elim (fun same => sameLine same.symm) ih
  | pair sameLine later ih =>
    rw [List.mem_cons,List.mem_cons]
    exact fun member => member.elim (by decide) (·.elim (fun same => sameLine same.symm) ih)

theorem inside_escape {s : List Char} (sameLine : '\n' ∉ s) : Inside (Text.Backslash.escape s) := by
  induction s with
  | nil => exact .nil
  | cons c rest ih =>
    rw [List.mem_cons,not_or] at sameLine
    obtain ⟨first,later⟩ := sameLine
    rw [Text.Backslash.escape]
    split
    · exact .pair (Ne.symm first) (ih later)
    · rename_i plain
      exact .plain (fun same => plain (.inl same)) (fun same => plain (.inr same)) (Ne.symm first)
        (ih later)

theorem inside_escape_iff {s : List Char} : Inside (Text.Backslash.escape s) ↔ '\n' ∉ s :=
  ⟨fun allowed member => allowed.sameLine (Text.Backslash.mem_escape member),inside_escape⟩

end Rule

-- What no scan brings into a lexeme: line ends in a name or text, and locations
-- that are not whole.
def Lexeme.Clean : Lexeme → Prop
  | .name text | .string text => '\n' ∉ text.toList
  | .location text => ∃ file line column, LocationParts file line column ∧
      text.toList = locationChars file line column
  | _ => True

variable {rule : Rule} {lexeme : Lexeme} {taken s : List Char} {lexemes : List Lexeme}

theorem isBlank_of_isGap {c : Char} (gap : isGap c = true) : Text.isBlank c = true := by
  simp only [isGap,Bool.or_eq_true,decide_eq_true_eq] at gap
  rcases gap with rfl | rfl <;> decide

theorem lexeme_string {inside : List Char} : Rule.string.lexeme ('"' :: (inside ++ ['"'])) =
    .ok (some (.string (.ofList (Text.Backslash.unescape inside)))) := by
  rw [Rule.lexeme,List.drop_one,List.tail_cons,List.dropLast_concat,
    Text.Backslash.unescapeByPairs_eq_unescape]

theorem lexeme_location {gap file line column : List Char} (gaps : ∀ c ∈ gap, isGap c = true)
    (parts : LocationParts file line column) :
    Rule.location.lexeme ('@' :: (gap ++ locationChars file line column)) =
      .ok (some (.location (.ofList (locationChars file line column)))) := by
  rw [Rule.lexeme,List.drop_one,List.tail_cons,
    Text.trim_of_forall gap (fun c member => isBlank_of_isGap (gaps c member)) parts.solid]

theorem clean_of_takes (takes : rule.Takes taken) (made : rule.lexeme taken = .ok (some lexeme)) :
    lexeme.Clean := by
  cases takes with
  | comment | newline => cases made
  | lparen | rparen | comma | equals => cases made; trivial
  | @location gap file line column gaps parts =>
    rw [lexeme_location gaps parts] at made
    cases made
    exact ⟨file,line,column,parts,String.toList_ofList⟩
  | @name c tail start later =>
    cases made
    rw [Lexeme.Clean,String.toList_ofList,List.mem_cons]
    rintro (rfl | member)
    · exact absurd start (by decide)
    · exact absurd (later _ member) (by decide)
  | @number c tail digits =>
    rw [Rule.lexeme] at made
    split at made <;> cases made
    trivial
  | @string inside allowed =>
    cases made
    rw [Lexeme.Clean,String.toList_ofList,List.drop_one,List.tail_cons,List.dropLast_concat]
    exact fun member => allowed.sameLine
      (Text.Backslash.mem_of_mem_unescapeByPairs (by decide) (by decide) member)

theorem Lexes.clean (lexes : Lexes s lexemes) : ∀ lexeme ∈ lexemes, lexeme.Clean := by
  induction lexes with
  | done => exact List.forall_mem_nil _
  | gap blank later ih => exact ih
  | part takes longest made later ih =>
    intro lexeme member
    rcases List.mem_append.mp member with here | there
    · exact clean_of_takes takes (by rw [made,Option.mem_toList.mp here])
    · exact ih lexeme there

namespace Lexes

variable {chars rest file line column : List Char} {text : String} {n : Nat}

def isName : List Char → Bool
  | [] => false
  | c :: tail => isNameStart c && tail.all isNameRest

theorem takes_name (named : isName chars = true) : Rule.name.Takes chars := by
  cases chars with
  | nil => cases named
  | cons c tail =>
    obtain ⟨start,inside⟩ := (Bool.and_eq_true _ _).mp named
    exact .name start (List.all_eq_true.mp inside)

theorem length?_name (named : isName chars = true) (stops : Text.Stops isNameRest rest) :
    Rule.name.length? (chars ++ rest) = some chars.length := by
  cases chars with
  | nil => cases named
  | cons c tail =>
    obtain ⟨start,inside⟩ := (Bool.and_eq_true _ _).mp named
    rw [List.cons_append,Rule.length?,if_pos start,runLength_append (List.all_eq_true.mp inside) stops]
    rfl

theorem name (named : isName chars = true) (stops : Text.Stops isNameRest rest)
    (later : Lexes rest lexemes) : Lexes (chars ++ rest) (.name (.ofList chars) :: lexemes) :=
  .part (takes_name named) (length?_name named stops) rfl later

theorem takes_digits (nonempty : chars ≠ []) (digits : ∀ c ∈ chars, Text.isDigit c = true) :
    Rule.number.Takes chars := by
  cases chars with
  | nil => exact absurd rfl nonempty
  | cons c tail => exact .number digits

theorem length?_digits (nonempty : chars ≠ []) (digits : ∀ c ∈ chars, Text.isDigit c = true)
    (stops : Text.Stops Text.isDigit rest) :
    Rule.number.length? (chars ++ rest) = some chars.length := by
  cases chars with
  | nil => exact absurd rfl nonempty
  | cons c tail =>
    obtain ⟨first,inside⟩ := List.forall_mem_cons.mp digits
    rw [List.cons_append,Rule.length?,if_pos first,runLength_append inside stops]
    rfl

theorem digits (nonempty : chars ≠ []) (digits : ∀ c ∈ chars, Text.isDigit c = true)
    (value : Text.readDigits chars = .ok n) (stops : Text.Stops Text.isDigit rest)
    (later : Lexes rest lexemes) : Lexes (chars ++ rest) (.number n :: lexemes) := by
  have made : Rule.number.lexeme chars = .ok (some (.number n)) := by
    rw [Rule.lexeme,value]
  exact .part (takes_digits nonempty digits) (length?_digits nonempty digits stops) made later

theorem number (writable : Text.isWritable n = true) (stops : Text.Stops Text.isDigit rest)
    (later : Lexes rest lexemes) : Lexes ((Nat.repr n).toList ++ rest) (.number n :: lexemes) := by
  rw [Nat.toList_repr]
  exact digits Nat.toDigits_ne_nil Text.isDigit_toDigits (Text.readDigits_toDigits writable) stops later

theorem length?_string (allowed : Inside chars) :
    Rule.string.length? ('"' :: (chars ++ ['"']) ++ rest) = some ('"' :: (chars ++ ['"'])).length := by
  have closed : stringBody? (chars ++ '"' :: rest) = some (chars.length + 1) :=
    stringBody?_iff.mpr ⟨chars,rest,rfl,allowed,rfl⟩
  rw [List.cons_append,List.append_assoc,List.singleton_append,Rule.length?,closed]
  simp

theorem quoted (allowed : Inside chars) (later : Lexes rest lexemes) :
    Lexes ('"' :: (chars ++ '"' :: rest))
      (.string (.ofList (Text.Backslash.unescape chars)) :: lexemes) := by
  have whole : '"' :: (chars ++ '"' :: rest) = '"' :: (chars ++ ['"']) ++ rest := by simp
  rw [whole]
  exact .part (.string allowed) (length?_string allowed) lexeme_string later

theorem string (sameLine : '\n' ∉ chars) (later : Lexes rest lexemes) :
    Lexes ('"' :: (Text.Backslash.escapeByChars chars ++ '"' :: rest))
      (.string (.ofList chars) :: lexemes) := by
  have lexes := quoted (inside_escape sameLine) later
  rw [Text.Backslash.escapeByChars_eq_escape]
  rwa [Text.Backslash.unescape_escape] at lexes

theorem lparen (later : Lexes rest lexemes) : Lexes ('(' :: rest) (.lparen :: lexemes) :=
  .part .lparen rfl rfl later

theorem rparen (later : Lexes rest lexemes) : Lexes (')' :: rest) (.rparen :: lexemes) :=
  .part .rparen rfl rfl later

theorem comma (later : Lexes rest lexemes) : Lexes (',' :: rest) (.comma :: lexemes) :=
  .part .comma rfl rfl later

theorem equals (later : Lexes rest lexemes) : Lexes ('=' :: rest) (.equals :: lexemes) :=
  .part .equals rfl rfl later

theorem located (gaps : ∀ c ∈ chars, isGap c = true) (parts : LocationParts file line column)
    (stops : Text.Stops isFileChar rest) (later : Lexes rest lexemes) :
    Lexes ('@' :: (chars ++ locationChars file line column) ++ rest)
      (.location (.ofList (locationChars file line column)) :: lexemes) := by
  have inside : Text.Stops isGap (locationChars file line column ++ rest) := by
    refine Text.stops_append (fun none => ?_) fun c member => ?_
    · simp [locationChars,positionChars] at none
    · cases gap : isGap c with
      | false => rfl
      | true => exact absurd (isBlank_of_isGap gap) (by rw [parts.solid c member]; decide)
  have longest : Rule.location.length? ('@' :: (chars ++ locationChars file line column) ++ rest) =
      some ('@' :: (chars ++ locationChars file line column)).length := by
    rw [List.cons_append,List.append_assoc,Rule.length?,runLength_append gaps inside,List.drop_left,
      locationBody?_append stops,locationBody?_of_parts parts]
    simp [Nat.add_comm]
  exact .part (.location gaps parts) longest (lexeme_location gaps parts) later

theorem location (parts : LocationParts file line column) :
    Lexes ('@' :: ' ' :: locationChars file line column)
      [.location (.ofList (locationChars file line column))] := by
  have gaps : ∀ c ∈ [' '], isGap c = true := List.forall_mem_singleton.mpr rfl
  have lexes := located gaps parts Text.stops_nil .done
  rwa [List.append_nil] at lexes

end Lexes

end Transcript

end ProtocolNet
