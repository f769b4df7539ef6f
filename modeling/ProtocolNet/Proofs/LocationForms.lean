import ProtocolNet.Proofs.Integers
import ProtocolNet.Proofs.LocationText

namespace ProtocolNet.SourceLocation

variable {c : Letter} {s front back written : Str} {place : SourceLocation} {n : Int}
  {fields : List (Str × Json)}

-- A place as it is written: the file, and behind two colons the texts of two integers. The file
-- may hold colons of its own, the integers hold none.
def Written (place : SourceLocation) (s : Str) : Prop :=
  ∃ line column : List Char, s = place.file ++ .char ':' :: (line.map .char ++ .char ':' ::
      column.map .char) ∧
    ':' ∉ line ∧ ':' ∉ column ∧
    Text.IntegerText line place.line ∧ Text.IntegerText column place.column

theorem splitLast?_eq_some_iff :
    splitLast? c s = some (front,back) ↔ s = front ++ c :: back ∧ c ∉ back := by
  constructor
  · intro split
    unfold splitLast? at split
    cases dropped : s.reverse.dropWhile (· ≠ c) with
    | nil => rw [dropped] at split; cases split
    | cons d rest =>
      rw [dropped] at split
      cases split
      have last : Text.Stops (fun e => decide (e ≠ c)) (d :: rest) := by
        rw [← dropped]
        exact Text.stops_dropWhile
      have here : d = c := by simpa using Text.stops_cons.mp last
      refine ⟨?_,fun member => ?_⟩
      · rw [← List.reverse_inj,List.reverse_append,List.reverse_cons,List.reverse_reverse,
          List.reverse_reverse,List.append_assoc,List.singleton_append,← here,← dropped,here,
          List.takeWhile_append_dropWhile]
      · have inside := List.all_eq_true.mp List.all_takeWhile c (List.mem_reverse.mp member)
        exact of_decide_eq_true inside rfl
  · rintro ⟨rfl,last⟩
    exact splitLast?_append front last

theorem readCoordinate_ok_iff :
    readCoordinate s = .ok n ↔ ∃ chars : List Char, s = chars.map .char ∧ Text.IntegerText chars n := by
  constructor
  · intro read
    unfold readCoordinate at read
    split at read
    · rename_i text encoded
      exact ⟨text.toList,Str.encode_eq_ok_iff.mp encoded,Text.readInteger_ok_iff.mp read⟩
    · cases read
  · rintro ⟨chars,rfl,text⟩
    rw [readCoordinate_chars]
    exact Text.readInteger_ok_iff.mpr text

-- What is read as a place: its written form with blanks around it.
theorem ofStr?_eq_some_iff : ofStr? s = some place ↔ place.Written s.trim := by
  constructor
  · intro read
    unfold ofStr? at read
    split at read
    · cases read
    · rename_i front column outer
      split at read
      · cases read
      · rename_i file line inner
        obtain ⟨whole,lastColon⟩ := splitLast?_eq_some_iff.mp outer
        obtain ⟨rfl,colon⟩ := splitLast?_eq_some_iff.mp inner
        split at read
        · rename_i lineNumber columnNumber
          cases read
          obtain ⟨line,rfl,lineText⟩ := readCoordinate_ok_iff.mp lineNumber
          obtain ⟨column,rfl,columnText⟩ := readCoordinate_ok_iff.mp columnNumber
          refine ⟨line,column,?_,by simpa using colon,by simpa using lastColon,lineText,columnText⟩
          rw [whole,List.append_assoc,List.cons_append]
        · cases read
  · rintro ⟨line,column,whole,colon,lastColon,lineText,columnText⟩
    have outer : splitLast? (.char ':') s.trim =
        some (place.file ++ .char ':' :: line.map .char,column.map .char) :=
      splitLast?_eq_some_iff.mpr ⟨by rw [whole]; simp,by simpa using lastColon⟩
    have inner : splitLast? (.char ':') (place.file ++ .char ':' :: line.map .char) =
        some (place.file,line.map .char) :=
      splitLast?_append place.file (by simpa using colon)
    rw [ofStr?,outer]
    simp only [inner,readCoordinate_ok_iff.mpr ⟨line,rfl,lineText⟩,
      readCoordinate_ok_iff.mpr ⟨column,rfl,columnText⟩]

theorem ofText_ok_iff : ofText written = .ok place ↔ place.Written written.trim := by
  rw [← ofStr?_eq_some_iff,ofText]
  cases ofStr? written <;> simp

theorem text_eq (place : SourceLocation) : place.text = place.file ++
    .char ':' :: ((Text.integerText place.line).toList.map .char ++
      .char ':' :: (Text.integerText place.column).toList.map .char) := by
  simp [SourceLocation.text,Str.ofString]

theorem written_text (line : Text.isWritable place.line.natAbs = true)
    (column : Text.isWritable place.column.natAbs = true) : place.Written place.text :=
  ⟨_,_,text_eq place,(Text.integerText_written line).colon_not_mem,
    (Text.integerText_written column).colon_not_mem,Text.integerText_written line,
    Text.integerText_written column⟩

-- A text ends with a digit of its column, so that only blanks in front of the file can go.
theorem trim_text (solid : Text.Stops Letter.isBlank place.file) : place.text.trim = place.text := by
  have marks : ∀ {n : Int}, ∀ c ∈ (Text.integerText n).toList, Text.isBlank c = false :=
    fun c member => Text.isBlank_of_isIntegerMark (Text.isIntegerMark_integerText c member)
  have first : Text.Stops Letter.isBlank place.text := by
    rw [text_eq]
    cases named : place.file with
    | nil => exact Text.stops_cons.mpr (by decide)
    | cons c rest =>
      rw [named] at solid
      exact Text.stops_cons.mpr (Text.stops_cons.mp solid)
  have last : Text.Stops Letter.isBlank place.text.reverse := by
    rw [text_eq,List.reverse_append]
    refine Text.stops_append (by simp) fun c member => ?_
    simp only [List.mem_reverse,List.mem_cons,List.mem_append,List.mem_map] at member
    rcases member with rfl | ⟨d,inLine,rfl⟩ | rfl | ⟨d,inColumn,rfl⟩
    · decide
    · exact marks d inLine
    · decide
    · exact marks d inColumn
  have stripped := @Text.strip_of_stops _ _ _ [] [] (List.forall_mem_nil _)
    (List.forall_mem_nil _) first last
  rwa [List.append_nil] at stripped

theorem ofText_text_iff (line : Text.isWritable place.line.natAbs = true)
    (column : Text.isWritable place.column.natAbs = true) :
    ofText place.text = .ok place ↔ Text.Stops Letter.isBlank place.file := by
  rw [ofText_ok_iff]
  constructor
  · -- A blank in front of the file would have gone with the others.
    rintro ⟨_,_,whole,-⟩ c head
    have stops : Text.Stops Letter.isBlank place.text.trim := Text.stops_strip
    refine stops c ?_
    rw [whole,List.head?_append,head]
    rfl
  · intro solid
    rw [trim_text solid]
    exact written_text line column

-- Whatever else the object holds, and in whatever order.
theorem ofJson_object (file : fields.lookup ↑"file" = some (.str place.file))
    (line : fields.lookup ↑"line" = some (.int place.line))
    (column : fields.lookup ↑"column" = some (.int place.column)) :
    ofJson (.obj fields) = .ok (some place) := by
  simp only [ofJson,file,line,column]
  rfl

-- A location survives as a text, unless a blank starts its file, and as an object; and a text is
-- read as a location only if it is written as one between blanks, with the last two colons in
-- front of the line and the column.
theorem locations_survive (place : SourceLocation) (written : Str) (fields : List (Str × Json)) :
    (Text.isWritable place.line.natAbs = true → Text.isWritable place.column.natAbs = true →
      (ofText place.text = .ok place ↔ Text.Stops Letter.isBlank place.file) ∧
      (Text.Stops Letter.isBlank place.file → ofJson (.str place.text) = .ok (some place))) ∧
    (fields.lookup ↑"file" = some (.str place.file) → fields.lookup ↑"line" = some (.int place.line) →
      fields.lookup ↑"column" = some (.int place.column) → ofJson (.obj fields) = .ok (some place)) ∧
    (ofText written = .ok place ↔ place.Written written.trim) := by
  refine ⟨fun line column => ⟨ofText_text_iff line column,fun solid => ?_⟩,ofJson_object,ofText_ok_iff⟩
  have read := (ofText_text_iff line column).mpr solid
  show (ofText place.text).map some = _
  rw [read]
  rfl

-- A file with colons and digits of its own survives, and one that a blank starts does not.
theorem locations_survive_drive :
    let place : SourceLocation := ⟨"C:/a.rs:12:34",0,-5⟩
    let indented : SourceLocation := ⟨" a.rs",1,2⟩
    let object : List (Str × Json) :=
      [("column",.int (-5)),("file",.str "C:/a.rs:12:34"),("line",.int 0)]
    (Text.Stops Letter.isBlank place.file ∧ ofText "C:/a.rs:12:34:0:-5" = .ok place) ∧
    (¬ Text.Stops Letter.isBlank indented.file ∧ ofText " a.rs:1:2" ≠ .ok indented) ∧
    ofJson (.str "C:/a.rs:12:34:0:-5") = .ok (some place) ∧
    ofJson (.obj object) = .ok (some place) ∧
    ofText " C:/a.rs:12:34: +0_0 :-5\n" = .ok place ∧
    place.Written "C:/a.rs:12:34: +0_0 :-5" := by
  intro place indented object
  have digit : ∀ {n : Nat}, n < 10 → Text.isWritable n = true :=
    fun small => Text.isWritable_of_lt (k := 1) small (by decide)
  have solid : Text.Stops Letter.isBlank place.file := Text.stops_of_forall (by decide +kernel)
  have blank : ¬ Text.Stops Letter.isBlank indented.file := fun stops =>
    absurd (stops (.char ' ') (by decide +kernel)) (by decide)
  have text : place.text = ↑"C:/a.rs:12:34:0:-5" := by decide +kernel
  have indentedText : indented.text = ↑" a.rs:1:2" := by decide +kernel
  have trimmed : Str.trim " C:/a.rs:12:34: +0_0 :-5\n" = ↑"C:/a.rs:12:34: +0_0 :-5" := by
    decide +kernel
  have loose : ofStr? " C:/a.rs:12:34: +0_0 :-5\n" = some place := by decide +kernel
  have read : ofText " C:/a.rs:12:34: +0_0 :-5\n" = .ok place := by rw [ofText,loose]
  obtain ⟨survives,inObject,reads⟩ := locations_survive place " C:/a.rs:12:34: +0_0 :-5\n" object
  obtain ⟨survives,json⟩ := survives (digit (by decide)) (digit (by decide))
  obtain ⟨indents,_⟩ := (locations_survive indented [] []).1 (digit (by decide)) (digit (by decide))
  rw [text] at survives json
  rw [indentedText] at indents
  refine ⟨⟨solid,survives.mpr solid⟩,⟨blank,fun read => blank (indents.mp read)⟩,json solid,?_,read,?_⟩
  · exact inObject rfl rfl rfl
  · rw [← trimmed]
    exact reads.mp read

end ProtocolNet.SourceLocation
