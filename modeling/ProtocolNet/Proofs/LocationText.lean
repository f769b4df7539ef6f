import ProtocolNet.Location
import ProtocolNet.Proofs.Numerals
import ProtocolNet.Transcript.Lexer

namespace ProtocolNet

namespace Transcript.Rule

-- A file, a line and a column as the rule for locations takes them. The file may
-- hold colons and digits too: the last two colons are those that count.
structure LocationParts (file line column : List Char) : Prop where
  named : file ≠ []
  plain : ∀ c ∈ file, isFileChar c = true
  lined : line ≠ []
  lineDigits : ∀ c ∈ line, Text.isDigit c = true
  columned : column ≠ []
  columnDigits : ∀ c ∈ column, Text.isDigit c = true

def positionChars (line column : List Char) : List Char := ':' :: (line ++ ':' :: column)

def locationChars (file line column : List Char) : List Char := file ++ positionChars line column

variable {c : Char} {p : Char → Bool} {s run rest file line column digits : List Char} {n : Nat}

theorem runLength_append (inside : ∀ c ∈ run, p c = true) (stops : Text.Stops p rest) :
    runLength p (run ++ rest) = run.length := by
  rw [runLength,Text.takeWhile_append_of_stops inside stops]

theorem colon_not_mem (inside : ∀ c ∈ digits, Text.isDigit c = true) : ':' ∉ digits :=
  fun member => (Text.ne_of_isDigit (inside _ member)).2.2.2 rfl

theorem colonDigits?_iff : colonDigits? s = some n ↔ ∃ digits rest, s = ':' :: (digits ++ rest) ∧
    digits ≠ [] ∧ (∀ c ∈ digits, Text.isDigit c = true) ∧ Text.Stops Text.isDigit rest ∧
      n = digits.length + 1 := by
  constructor
  · intro found
    unfold colonDigits? at found
    split at found
    · rename_i rest
      dsimp only at found
      split at found
      · cases found
      · rename_i nonzero
        cases found
        refine ⟨rest.takeWhile Text.isDigit,rest.dropWhile Text.isDigit,?_,?_,?_,
          Text.stops_dropWhile,rfl⟩
        · rw [List.takeWhile_append_dropWhile]
        · exact fun none => nonzero (by rw [runLength,none]; rfl)
        · exact List.all_eq_true.mp List.all_takeWhile
    · cases found
  · rintro ⟨digits,rest,rfl,nonempty,inside,stops,rfl⟩
    have length : digits.length ≠ 0 := fun none => nonempty (List.length_eq_zero_iff.mp none)
    simp only [colonDigits?,runLength_append inside stops,if_neg length]

theorem position?_of_digits (nonempty : line ≠ []) (inside : ∀ c ∈ line, Text.isDigit c = true)
    (nonempty' : column ≠ []) (inside' : ∀ c ∈ column, Text.isDigit c = true)
    (stops : Text.Stops Text.isDigit rest) :
    position? (positionChars line column ++ rest) = some (positionChars line column).length := by
  have first : colonDigits? (positionChars line column ++ rest) = some (line.length + 1) :=
    colonDigits?_iff.mpr ⟨line,':' :: (column ++ rest),by simp [positionChars],nonempty,inside,
      Text.stops_cons.mpr (by decide),rfl⟩
  have second : colonDigits? (':' :: (column ++ rest)) = some (column.length + 1) :=
    colonDigits?_iff.mpr ⟨column,rest,rfl,nonempty',inside',stops,rfl⟩
  have behind : (positionChars line column ++ rest).drop (line.length + 1) =
      ':' :: (column ++ rest) := by simp [positionChars]
  simp only [position?,first,behind,second,Option.map_some]
  simp [positionChars,Nat.add_comm,Nat.add_left_comm]

theorem parts_of_position? (found : position? s = some n) : ∃ line column rest,
    s = positionChars line column ++ rest ∧ n = (positionChars line column).length ∧
      line ≠ [] ∧ (∀ c ∈ line, Text.isDigit c = true) ∧
      column ≠ [] ∧ ∀ c ∈ column, Text.isDigit c = true := by
  unfold position? at found
  split at found
  · cases found
  · rename_i length first
    obtain ⟨line,rest,rfl,nonempty,inside,_,rfl⟩ := colonDigits?_iff.mp first
    obtain ⟨length,second,rfl⟩ := Option.map_eq_some_iff.mp found
    rw [List.drop_succ_cons,List.drop_left] at second
    obtain ⟨column,rest,rfl,nonempty',inside',_,rfl⟩ := colonDigits?_iff.mp second
    refine ⟨line,column,rest,?_,?_,nonempty,inside,nonempty',inside'⟩
    · simp [positionChars]
    · simp [positionChars,Nat.add_comm,Nat.add_left_comm]

-- What the rule takes has the three parts.
theorem parts_of_locationBody? (found : locationBody? s = some n) : ∃ file line column rest,
    s = locationChars file line column ++ rest ∧ n = (locationChars file line column).length ∧
      LocationParts file line column := by
  induction s generalizing n with
  | nil => cases found
  | cons c later ih =>
    rw [locationBody?] at found
    split at found
    · rename_i plain
      split at found
      · rename_i length inner
        cases found
        obtain ⟨file,line,column,rest,rfl,rfl,parts⟩ := ih inner
        refine ⟨c :: file,line,column,rest,rfl,rfl,{ parts with named := List.cons_ne_nil _ _, plain := ?_ }⟩
        exact List.forall_mem_cons.mpr ⟨plain,parts.plain⟩
      · obtain ⟨length,position,rfl⟩ := Option.map_eq_some_iff.mp found
        obtain ⟨line,column,rest,rfl,rfl,lined,lineDigits,columned,columnDigits⟩ :=
          parts_of_position? position
        exact ⟨[c],line,column,rest,rfl,rfl,List.cons_ne_nil _ _,
          List.forall_mem_singleton.mpr plain,lined,lineDigits,columned,columnDigits⟩
    · cases found

-- A location takes two colons behind the first character of its file.
theorem locationBody?_eq_none (few : s.count ':' < 2) : locationBody? (c :: s) = none := by
  cases found : locationBody? (c :: s) with
  | none => rfl
  | some n =>
    obtain ⟨file,line,column,rest,same,_,parts⟩ := parts_of_locationBody? found
    obtain ⟨d,file,rfl⟩ := List.exists_cons_of_ne_nil parts.named
    have later : s = locationChars file line column ++ rest := (List.cons.inj same).2
    rw [later,locationChars,positionChars,List.count_append,List.count_append,List.count_cons_self,
      List.count_append,List.count_cons_self] at few
    omega

-- The longest match is the whole: there is no shorter file with the position behind it.
theorem locationBody?_of_parts (parts : LocationParts file line column) :
    locationBody? (locationChars file line column) = some (locationChars file line column).length := by
  obtain ⟨named,plain,lined,lineDigits,columned,columnDigits⟩ := parts
  have position : position? (positionChars line column) = some (positionChars line column).length := by
    rw [← List.append_nil (positionChars line column),
      position?_of_digits lined lineDigits columned columnDigits Text.stops_nil,List.append_nil]
  have alone : locationBody? (positionChars line column) = none := by
    refine locationBody?_eq_none ?_
    rw [List.count_append,List.count_cons_self,List.count_eq_zero.mpr (colon_not_mem lineDigits),
      List.count_eq_zero.mpr (colon_not_mem columnDigits)]
    decide
  induction file with
  | nil => exact absurd rfl named
  | cons c file ih =>
    have plainFirst := plain c List.mem_cons_self
    cases file with
    | nil =>
      simp [locationChars,locationBody?,plainFirst,alone,position]
    | cons d file =>
      have inner := ih (List.cons_ne_nil _ _) fun e member => plain e (List.mem_cons_of_mem _ member)
      show locationBody? (c :: locationChars (d :: file) line column) = _
      rw [locationBody?,if_pos plainFirst,inner]
      rfl

theorem isBlank_of_isFileChar (plain : isFileChar c = true) : Text.isBlank c = false := by
  simp only [isFileChar,Bool.and_eq_true,Bool.not_eq_true'] at plain
  exact plain.1.1

theorem isFileChar_of_isDigit (digit : Text.isDigit c = true) : isFileChar c = true :=
  Text.of_isDigit (p := fun c => isFileChar c = true) (by decide) digit

theorem runLength_append_of_stops (stops : Text.Stops p rest) :
    runLength p (s ++ rest) = runLength p s := by
  induction s with
  | nil => rw [List.nil_append,runLength,Text.takeWhile_of_stops stops]; rfl
  | cons c s ih =>
    simp only [runLength,List.cons_append,List.takeWhile_cons] at ih ⊢
    split
    · rw [List.length_cons,List.length_cons,ih]
    · rfl

theorem colonDigits?_append (stops : Text.Stops isFileChar rest) :
    colonDigits? (s ++ rest) = colonDigits? s := by
  have digits : Text.Stops Text.isDigit rest := fun c first => by
    cases digit : Text.isDigit c with
    | false => rfl
    | true => exact absurd (isFileChar_of_isDigit digit) (by rw [stops c first]; decide)
  cases s with
  | nil =>
    cases rest with
    | nil => rfl
    | cons c rest =>
      have noColon : c ≠ ':' := by
        rintro rfl
        exact absurd (Text.stops_cons.mp stops) (by decide)
      rw [List.nil_append]
      unfold colonDigits?
      split
      · rename_i same
        cases same
        exact absurd rfl noColon
      · rfl
  | cons c s =>
    by_cases colon : c = ':'
    · subst colon
      simp only [List.cons_append,colonDigits?,runLength_append_of_stops digits]
    · unfold colonDigits?
      split
      · rename_i same
        cases same
        exact absurd rfl colon
      · split
        · rename_i same
          cases same
          exact absurd rfl colon
        · rfl

theorem position?_append (stops : Text.Stops isFileChar rest) :
    position? (s ++ rest) = position? s := by
  rw [position?,position?,colonDigits?_append stops]
  cases found : colonDigits? s with
  | none => rfl
  | some length =>
    obtain ⟨digits,later,rfl,-,-,-,rfl⟩ := colonDigits?_iff.mp found
    have within : digits.length + 1 ≤ (':' :: (digits ++ later)).length := by simp
    dsimp only
    rw [List.drop_append_of_le_length within,colonDigits?_append stops]

-- A location ends where no character of a file can follow, whatever stands behind it.
theorem locationBody?_append (stops : Text.Stops isFileChar rest) :
    locationBody? (s ++ rest) = locationBody? s := by
  induction s with
  | nil =>
    cases rest with
    | nil => rfl
    | cons c rest => simp [locationBody?,Text.stops_cons.mp stops]
  | cons c s ih => rw [List.cons_append,locationBody?,locationBody?,ih,position?_append stops]

theorem LocationParts.solid (parts : LocationParts file line column) :
    ∀ c ∈ locationChars file line column, Text.isBlank c = false := by
  intro c member
  simp only [locationChars,positionChars,List.mem_append,List.mem_cons] at member
  rcases member with inFile | rfl | inLine | rfl | inColumn
  · exact isBlank_of_isFileChar (parts.plain c inFile)
  · decide
  · exact Text.isBlank_of_isDigit (parts.lineDigits c inLine)
  · decide
  · exact Text.isBlank_of_isDigit (parts.columnDigits c inColumn)

end Transcript.Rule

namespace SourceLocation

open Transcript.Rule

variable {c : Letter} {back : Str} {file line column : List Char}

theorem splitLast?_append (front : Str) (last : c ∉ back) :
    splitLast? c (front ++ c :: back) = some (front,back) := by
  have inside : ∀ d ∈ back.reverse, decide (d ≠ c) = true := fun d member =>
    decide_eq_true fun same => last (same ▸ List.mem_reverse.mp member)
  have stops : Text.Stops (fun d => decide (d ≠ c)) (c :: front.reverse) :=
    Text.stops_cons.mpr (decide_eq_false fun different => different rfl)
  have reversed : (front ++ c :: back).reverse = back.reverse ++ c :: front.reverse := by simp
  rw [splitLast?,reversed,Text.dropWhile_append_of_stops inside stops,
    Text.takeWhile_append_of_stops inside stops]
  simp only [List.reverse_reverse]

theorem readCoordinate_chars (s : List Char) : readCoordinate (s.map .char) = Text.readInteger s := by
  rw [readCoordinate,← Str.ofString_ofList,Str.encode_ofString]
  simp only [String.toList_ofList]

-- What the rule for locations takes is split at the same two colons.
theorem ofStr?_parts (parts : LocationParts file line column) :
    ofStr? ((locationChars file line column).map .char) =
      match Text.readDigits line, Text.readDigits column with
      | .ok line, .ok column => some ⟨file.map .char,line,column⟩
      | _, _ => none := by
  have colon : ∀ {digits : List Char}, (∀ c ∈ digits, Text.isDigit c = true) →
      Letter.char ':' ∉ digits.map .char := fun digits => by
    simpa using colon_not_mem digits
  have trimmed : Text.trim (locationChars file line column) = locationChars file line column :=
    Text.trim_of_forall [] (List.forall_mem_nil _) parts.solid
  have outer : splitLast? (.char ':') ((locationChars file line column).map .char) =
      some ((file ++ ':' :: line).map .char,column.map .char) := by
    have here := splitLast?_append ((file ++ ':' :: line).map .char) (colon parts.columnDigits)
    simpa [locationChars,positionChars] using here
  have inner : splitLast? (.char ':') ((file ++ ':' :: line).map .char) =
      some (file.map .char,line.map .char) := by
    have here := splitLast?_append (file.map .char) (colon parts.lineDigits)
    simpa using here
  rw [ofStr?,Text.trim_chars,trimmed,outer]
  simp only [inner,readCoordinate_chars,Text.readInteger_of_digits parts.lineDigits parts.lined,
    Text.readInteger_of_digits parts.columnDigits parts.columned]
  cases Text.readDigits line <;> cases Text.readDigits column <;> rfl

-- The locations that survive on a transcript line.
structure Plain (place : SourceLocation) : Prop where
  named : place.file ≠ []
  solid : ∀ c ∈ place.file, c.isBlank = false
  unmarked : .char '@' ∉ place.file ∧ .char '#' ∉ place.file
  line : 0 ≤ place.line
  column : 0 ≤ place.column

variable {place : SourceLocation} {written : String} {n : Int} {d : Char}

theorem isFileChar_iff : isFileChar d = true ↔ Text.isBlank d = false ∧ d ≠ '@' ∧ d ≠ '#' := by
  simp [isFileChar,and_assoc]

theorem integerText_of_nonneg (natural : 0 ≤ n) :
    (Text.integerText n).toList = Nat.toDigits 10 n.toNat := by
  cases n with
  | ofNat k => exact Nat.toList_repr
  | negSucc k => exact absurd natural (by omega)

theorem Plain.parts (plain : place.Plain) (spelled : place.file = file.map .char) :
    LocationParts file (Nat.toDigits 10 place.line.toNat) (Nat.toDigits 10 place.column.toNat) := by
  obtain ⟨named,solid,⟨unmarked,uncommented⟩,-,-⟩ := plain
  simp only [spelled,List.mem_map,Letter.char.injEq,exists_eq_right] at unmarked uncommented
  refine ⟨fun none => named ?_,fun c member => isFileChar_iff.mpr ⟨?_,?_,?_⟩,Nat.toDigits_ne_nil,
    Text.isDigit_toDigits,Nat.toDigits_ne_nil,Text.isDigit_toDigits⟩
  · rw [spelled,none,List.map_nil]
  · exact solid (.char c) (spelled ▸ List.mem_map_of_mem member)
  · exact fun same => unmarked (same ▸ member)
  · exact fun same => uncommented (same ▸ member)

theorem Plain.text (plain : place.Plain) (spelled : place.file = file.map .char) :
    place.text = (locationChars file (Nat.toDigits 10 place.line.toNat)
      (Nat.toDigits 10 place.column.toNat)).map .char := by
  have colon : Str.ofString ":" = [.char ':'] := rfl
  rw [SourceLocation.text,spelled,colon,Str.ofString,Str.ofString,integerText_of_nonneg plain.line,
    integerText_of_nonneg plain.column]
  simp [locationChars,positionChars]

theorem readDigits_of_nonneg (natural : 0 ≤ n) (writable : Text.isWritable n.natAbs = true) :
    Text.readDigits (Nat.toDigits 10 n.toNat) = .ok n.toNat := by
  have same : n.natAbs = n.toNat := by omega
  exact Text.readDigits_toDigits (same ▸ writable)

theorem Plain.ofText_text (plain : place.Plain) (spelled : place.file = file.map .char)
    (line : Text.isWritable place.line.natAbs = true)
    (column : Text.isWritable place.column.natAbs = true) : ofText place.text = .ok place := by
  rw [ofText,plain.text spelled,ofStr?_parts (plain.parts spelled),readDigits_of_nonneg plain.line line,
    readDigits_of_nonneg plain.column column]
  simp only [← spelled,Int.toNat_of_nonneg plain.line,Int.toNat_of_nonneg plain.column]

-- What is read of a whole location is plain.
theorem plain_of_ofText (parts : LocationParts file line column)
    (whole : written.toList = locationChars file line column)
    (read : ofText written = .ok place) : place.Plain := by
  rw [ofText,Str.ofString,whole,ofStr?_parts parts] at read
  split at read
  · rename_i found
    split at found
    · cases found
      cases read
      have plain : ∀ d ∈ file, Text.isBlank d = false ∧ d ≠ '@' ∧ d ≠ '#' := fun d member =>
        isFileChar_iff.mp (parts.plain d member)
      refine ⟨by simpa using parts.named,fun c member => ?_,?_,Int.natCast_nonneg _,
        Int.natCast_nonneg _⟩
      · obtain ⟨d,inside,rfl⟩ := List.mem_map.mp member
        exact (plain d inside).1
      · simp only [List.mem_map,Letter.char.injEq,exists_eq_right]
        exact ⟨fun member => (plain _ member).2.1 rfl,fun member => (plain _ member).2.2 rfl⟩
    · cases found
  · cases read

end SourceLocation

end ProtocolNet
