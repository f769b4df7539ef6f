import ProtocolNet.Text.Blank
import ProtocolNet.Text.Fault

namespace ProtocolNet.Text

-- A run of characters of some class ends where this text starts.
def Stops {α : Type} (p : α → Bool) (s : List α) : Prop := ∀ c, s.head? = some c → p c = false

section

variable {α : Type} {c : α} {p : α → Bool} {s run rest front back : List α}

@[simp] theorem stops_nil : Stops p [] := fun _ none => by cases none

@[simp] theorem stops_cons : Stops p (c :: rest) ↔ p c = false :=
  ⟨fun stops => stops c rfl,fun stop d same => by cases same; exact stop⟩

theorem stops_of_forall (none : ∀ c ∈ s, p c = false) : Stops p s := by
  cases s with
  | nil => exact stops_nil
  | cons c rest => exact stops_cons.mpr (none c List.mem_cons_self)

theorem stops_append (nonempty : s ≠ []) (none : ∀ c ∈ s, p c = false) : Stops p (s ++ rest) := by
  obtain ⟨c,tail,rfl⟩ := List.exists_cons_of_ne_nil nonempty
  exact stops_cons.mpr (none c List.mem_cons_self)

theorem stops_dropWhile : Stops p (s.dropWhile p) := by
  intro c head
  have found := List.head?_dropWhile_not p s
  rwa [head] at found

theorem takeWhile_of_stops (stops : Stops p s) : s.takeWhile p = [] := by
  cases s with
  | nil => rfl
  | cons c rest => rw [List.takeWhile_cons,stops_cons.mp stops,if_neg Bool.false_ne_true]

theorem dropWhile_of_stops (stops : Stops p s) : s.dropWhile p = s := by
  cases s with
  | nil => rfl
  | cons c rest => rw [List.dropWhile_cons,stops_cons.mp stops,if_neg Bool.false_ne_true]

theorem takeWhile_append_of_stops (inside : ∀ c ∈ run, p c = true) (stops : Stops p rest) :
    (run ++ rest).takeWhile p = run := by
  rw [List.takeWhile_append_of_pos inside,takeWhile_of_stops stops,List.append_nil]

theorem dropWhile_append_of_stops (inside : ∀ c ∈ run, p c = true) (stops : Stops p rest) :
    (run ++ rest).dropWhile p = rest := by
  rw [List.dropWhile_append_of_pos inside,dropWhile_of_stops stops]

-- A text without the characters of a class at its two ends.
def strip (p : α → Bool) (s : List α) : List α := ((s.dropWhile p).reverse.dropWhile p).reverse

-- What stands around goes, and what neither starts nor ends with the class stays.
theorem strip_of_stops (before : ∀ c ∈ front, p c = true) (behind : ∀ c ∈ back, p c = true)
    (first : Stops p s) (last : Stops p s.reverse) : strip p (front ++ (s ++ back)) = s := by
  rw [strip,List.dropWhile_append_of_pos before]
  cases s with
  | nil =>
    have none := dropWhile_append_of_stops behind (stops_nil (p := p))
    rw [List.append_nil] at none
    rw [List.nil_append,none]
    rfl
  | cons c rest =>
    have reversed : ∀ d ∈ back.reverse, p d = true := fun d member => behind d (List.mem_reverse.mp member)
    have kept : (c :: rest ++ back).dropWhile p = c :: rest ++ back :=
      dropWhile_of_stops (stops_cons.mpr (stops_cons.mp first))
    rw [kept,List.reverse_append,dropWhile_append_of_stops reversed last,List.reverse_reverse]

theorem strip_parts (p : α → Bool) (s : List α) : ∃ front back, s = front ++ (strip p s ++ back) ∧
    (∀ c ∈ front, p c = true) ∧ ∀ c ∈ back, p c = true := by
  refine ⟨s.takeWhile p,((s.dropWhile p).reverse.takeWhile p).reverse,?_,
    List.all_eq_true.mp List.all_takeWhile,fun c member => ?_⟩
  · rw [strip,← List.reverse_append,List.takeWhile_append_dropWhile,List.reverse_reverse,
      List.takeWhile_append_dropWhile]
  · exact List.all_eq_true.mp List.all_takeWhile c (List.mem_reverse.mp member)

theorem stops_strip : Stops p (strip p s) := by
  have front : strip p s <+: s.dropWhile p := by
    rw [strip,← List.reverse_suffix,List.reverse_reverse]
    exact List.dropWhile_suffix _
  obtain ⟨behind,whole⟩ := front
  cases kept : strip p s with
  | nil => exact stops_nil
  | cons c rest =>
    have stops : Stops p (s.dropWhile p) := stops_dropWhile
    rw [← whole,kept] at stops
    exact stops_cons.mpr (stops_cons.mp stops)

theorem dropWhile_of_forall (all : ∀ c ∈ s, p c = true) : s.dropWhile p = [] := by
  have dropped := dropWhile_append_of_stops all stops_nil
  rwa [List.append_nil] at dropped

end

variable {c : Char} {s front back : List Char}

theorem solid_of_all (all : (s.all fun c => !isBlank c) = true) : ∀ c ∈ s, isBlank c = false := by
  simpa using all

-- Blanks in front go, and what neither starts nor ends with one stays.
theorem trim_of_stops (blanks : List Char) (inside : ∀ c ∈ blanks, isBlank c = true)
    (first : Stops isBlank s) (last : Stops isBlank s.reverse) : trim (blanks ++ s) = s := by
  have stripped := strip_of_stops inside (List.forall_mem_nil _) first last
  rwa [List.append_nil] at stripped

theorem trim_of_forall (blanks : List Char) (inside : ∀ c ∈ blanks, isBlank c = true)
    (solid : ∀ c ∈ s, isBlank c = false) : trim (blanks ++ s) = s :=
  trim_of_stops blanks inside (stops_of_forall solid)
    (stops_of_forall fun c member => solid c (List.mem_reverse.mp member))

theorem trimEnd_of_forall (blanks : ∀ c ∈ s, isBlank c = true) : trimEnd s = [] := by
  rw [trimEnd,dropWhile_of_forall fun c member => blanks c (List.mem_reverse.mp member)]
  rfl

-- Nothing is taken off the front part of a text unless all of the back part goes.
theorem trimEnd_append (front back : List Char) : trimEnd (front ++ back) =
    if trimEnd back = [] then trimEnd front else front ++ trimEnd back := by
  have reversed : (front ++ back).reverse = back.reverse ++ front.reverse := List.reverse_append
  rw [trimEnd,reversed,List.dropWhile_append,trimEnd,trimEnd]
  cases back.reverse.dropWhile isBlank with
  | nil => rfl
  | cons c rest => simp

theorem trimEnd_cons (blank : isBlank c = true) :
    trimEnd (c :: s) = if trimEnd s = [] then [] else c :: trimEnd s := by
  have alone : trimEnd [c] = [] := trimEnd_of_forall (List.forall_mem_singleton.mpr blank)
  rw [← List.singleton_append,trimEnd_append,alone]
  rfl

theorem trimEnd_append_of_stops (last : Stops isBlank front.reverse) :
    trimEnd (front ++ back) = front ++ trimEnd back := by
  rw [trimEnd_append]
  split
  · rename_i none
    rw [none,List.append_nil,trimEnd,dropWhile_of_stops last,List.reverse_reverse]
  · rfl

theorem trimEnd_prefix (s : List Char) : trimEnd s <+: s := by
  rw [trimEnd,← List.reverse_suffix,List.reverse_reverse]
  exact List.dropWhile_suffix _

theorem trim_surrounded (before : ∀ c ∈ front, isBlank c = true)
    (behind : ∀ c ∈ back, isBlank c = true) : trim (front ++ (s ++ back)) = trim s := by
  rw [trim,trimStart,List.dropWhile_append_of_pos before,List.dropWhile_append,
    dropWhile_of_forall behind,trim,trimStart]
  cases s.dropWhile isBlank with
  | nil => rfl
  | cons c rest => rw [if_neg (by simp),trimEnd_append,if_pos (trimEnd_of_forall behind)]

theorem trim_parts (s : List Char) : ∃ front back, s = front ++ (trim s ++ back) ∧
    (∀ c ∈ front, isBlank c = true) ∧ ∀ c ∈ back, isBlank c = true := strip_parts isBlank s

theorem trim_chars (s : List Char) : Str.trim (s.map .char) = (trim s).map .char := by
  have same : Letter.isBlank ∘ Letter.char = isBlank := rfl
  simp only [Str.trim,Str.trimEnd,trim,trimEnd,trimStart,List.dropWhile_map,← List.map_reverse,same]

-- The items of a list behind the first one, as it is written on one line.
def behindCommas (others : List String) : List Char :=
  others.flatMap fun other => ',' :: ' ' :: other.toList

theorem toList_commaSeparated (first : String) (others : List String) :
    (", ".intercalate (first :: others)).toList = first.toList ++ behindCommas others := by
  induction others generalizing first with
  | nil => simp [behindCommas]
  | cons second others ih =>
    have separator : ", ".toList = [',',' '] := rfl
    rw [String.intercalate_cons_cons,String.toList_append,String.toList_append,separator,ih]
    simp [behindCommas]

theorem infix_flatMap {α β : Type} {a : α} {as : List α} (member : a ∈ as) (f : α → List β) :
    f a <:+: as.flatMap f := by
  rw [List.flatMap_def]
  exact List.infix_of_mem_flatten (List.mem_map_of_mem member)

theorem infix_commaSeparated {part : String} {parts : List String} (member : part ∈ parts) :
    part.toList <:+: (", ".intercalate parts).toList := by
  cases parts with
  | nil => cases member
  | cons first others =>
    rw [toList_commaSeparated]
    rcases List.mem_cons.mp member with rfl | later
    · exact (List.prefix_append part.toList _).isInfix
    · have behind : part.toList <:+: behindCommas others := by
        have inside := infix_flatMap later fun other => ',' :: ' ' :: other.toList
        exact List.IsInfix.trans (List.suffix_append [',',' '] part.toList).isInfix inside
      exact behind.trans (List.suffix_append first.toList _).isInfix

end ProtocolNet.Text

namespace ProtocolNet.Str

theorem joined_cons (separator first : Str) (others : List Str) :
    joined separator (first :: others) = first ++ others.flatMap (separator ++ ·) := by
  induction others generalizing first with
  | nil => simp [joined]
  | cons second others ih =>
    have later := ih second
    rw [joined] at later ⊢
    rw [List.intersperse_cons_cons,List.flatten_cons,List.flatten_cons,later,List.flatMap_cons,
      List.append_assoc]

theorem infix_joined {separator part : Str} {parts : List Str} (member : part ∈ parts) :
    part <:+: joined separator parts := by
  cases parts with
  | nil => cases member
  | cons first others =>
    rw [joined_cons]
    rcases List.mem_cons.mp member with rfl | later
    · exact (List.prefix_append part _).isInfix
    · have behind := Text.infix_flatMap later (separator ++ ·)
      exact ((List.suffix_append separator part).isInfix.trans behind).trans
        (List.suffix_append first _).isInfix

-- A text that a file can hold: no letter of it is half of a pair.
def Whole (s : Str) : Prop := ∀ c ∈ s, c.isLone = false

variable {s t : Str}

@[simp] theorem shown_append (s t : Str) : shown (s ++ t) = shown s ++ shown t := List.map_append

@[simp] theorem shown_ofString (s : String) : shown (ofString s) = s.toList := by
  rw [shown,ofString,List.map_map]
  exact List.map_id _

theorem Whole.chars (whole : s.Whole) : s.shown.map .char = s := by
  rw [shown,List.map_map]
  refine (List.map_congr_left fun c member => ?_).trans (List.map_id s)
  cases c with
  | char c => rfl
  | lone unit => exact absurd (whole _ member) (by simp [Letter.isLone])

theorem Whole.spelled (whole : s.Whole) : ofString (.ofList s.shown) = s := by
  rw [ofString_ofList,whole.chars]

@[simp] theorem whole_ofString (s : String) : (ofString s).Whole := by
  intro c member
  obtain ⟨d,-,rfl⟩ := List.mem_map.mp member
  rfl

theorem whole_cons {c : Letter} : Whole (c :: s) ↔ c.isLone = false ∧ s.Whole := List.forall_mem_cons

@[simp] theorem whole_append : (s ++ t).Whole ↔ s.Whole ∧ t.Whole := List.forall_mem_append

theorem whole_flatMap {α : Type} {items : List α} {text : α → Str} :
    Whole (items.flatMap text) ↔ ∀ item ∈ items, (text item).Whole := by
  simp only [Whole,List.mem_flatMap]
  exact ⟨fun all item member c inside => all c ⟨item,member,inside⟩,
    fun all c ⟨item,member,inside⟩ => all item member c inside⟩

theorem whole_joined {separator : String} {pieces : List Str} :
    (joined separator pieces).Whole ↔ ∀ piece ∈ pieces, piece.Whole := by
  cases pieces with
  | nil => simp [joined,Whole]
  | cons first others =>
    rw [joined_cons,whole_append,whole_flatMap,List.forall_mem_cons]
    simp only [whole_append,whole_ofString,true_and]

theorem encodes_iff : (∃ text, s.encode = .ok text) ↔ s.Whole := by
  constructor
  · rintro ⟨text,encoded⟩
    rw [encode_eq_ok_iff.mp encoded]
    exact whole_ofString text
  · intro whole
    exact ⟨_,encode_eq_ok_iff.mpr whole.spelled.symm⟩

end ProtocolNet.Str
