import Mathlib.Algebra.Group.Nat.Defs
import ProtocolNet.Proofs.Lexemes
import ProtocolNet.Proofs.Visibility

namespace ProtocolNet.Drawing

-- A part of a graph: a character outside of quotes, or all that stands between two of them.
inductive Piece where
  | mark (c : Letter)
  | quoted (inside : Str)
deriving DecidableEq

-- The rule for quotes: one opens, a backslash takes the next character with it, and the next free
-- one closes. There are no pieces of a text that ends inside of quotes.
def pieces? : Option (Str) → Str → Option (List Piece)
  | none, [] => some []
  | none, c :: rest =>
    if c = .char '"' then pieces? (some []) rest else (pieces? none rest).map (.mark c :: ·)
  | some _, [] => none
  | some inside, .char '\\' :: c :: rest => pieces? (some (c :: .char '\\' :: inside)) rest
  | some inside, c :: rest =>
    if c = .char '"' then (pieces? none rest).map (.quoted inside.reverse :: ·)
    else pieces? (some (c :: inside)) rest

def quotes (pieces : List Piece) : List Str :=
  pieces.filterMap fun
    | .mark _ => none
    | .quoted inside => some inside

def outside (pieces : List Piece) : Str :=
  pieces.filterMap fun
    | .mark c => some c
    | .quoted _ => none

-- The lines of a label. A backslash with an n behind it breaks the line, with any other character
-- it stands for that character.
def labelLines : Str → Str → List Str
  | begun, [] => [begun.reverse]
  | begun, .char '\\' :: c :: rest =>
    if c = .char 'n' then begun.reverse :: labelLines [] rest else labelLines (c :: begun) rest
  | begun, c :: rest => labelLines (c :: begun) rest

def hasArrow : Str → Bool
  | .char '-' :: .char '>' :: _ => true
  | _ :: rest => hasArrow rest
  | [] => false

-- What a graph tells: nodes and edges with the lines of their labels.
inductive Statement where
  | node (id : Str) (label : List Str)
  | edge (origin target : Str) (label : List Str)

open Text.Backslash in
-- The statement that pieces up to a semicolon make. Those of a node have two quoted texts, and
-- those of an edge three and an arrow outside of them.
def statement? (pieces : List Piece) : Option (List Statement) :=
  match quotes pieces, hasArrow (outside pieces) with
  | [], _ => some []
  | [id,label], false => some [.node (unescape id) (labelLines [] label)]
  | [origin,target,label], true => some [.edge (unescape origin) (unescape target) (labelLines [] label)]
  | _, _ => none

def statements? (pieces : List Piece) : Option (List Statement) :=
  ((pieces.splitOn (.mark (.char ';'))).mapM statement?).map List.flatten

def readGraph (s : Str) : Option (List Statement) := (pieces? none s).bind statements?

def placeId (place : Str) : Str := .char 'p' :: .char ':' :: place

def transitionId (id : Str) : Str := .char 't' :: .char ':' :: id

-- The statements about a transition: its node, and an edge for each of its arcs.
def transitionStatements (transition : Transition) : List Statement :=
  let node := transitionId transition.id
  .node node [transition.id] ::
    (transition.pre.map fun arc => .edge (placeId arc.place) node [arc.pattern.text]) ++
    transition.post.map fun arc => .edge node (placeId arc.place) [arc.pattern.text]

-- What is to be told of a net with a marking.
def drawing (net : Net) (marking : Marking) : List Statement :=
  (net.allPlaces.map fun place => .node (placeId place)
    (place :: (marking.bag place).entries.map fun entry => ↑(Bag.entryText entry))) ++
  net.transitions.entries.flatMap transitionStatements

def labelText : List Str → Str
  | [] => []
  | first :: others => Text.Backslash.escape first ++
    others.flatMap fun line => labelBreak ++ Text.Backslash.escape line

-- The quoted texts of a statement as they are written.
def Statement.texts : Statement → List Str
  | .node id label => [Text.Backslash.escape id,labelText label]
  | .edge origin target label =>
    [Text.Backslash.escape origin,Text.Backslash.escape target,labelText label]

-- A text whose quotes all stand behind a backslash, and each backslash in front of a character.
inductive Whole : Str → Prop
  | nil : Whole []
  | plain {c : Letter} {rest : Str} (noQuote : c ≠ .char '"') (noSlash : c ≠ .char '\\')
      (later : Whole rest) : Whole (c :: rest)
  | pair {c : Letter} {rest : Str} (later : Whole rest) : Whole (.char '\\' :: c :: rest)

-- A part of a graph gives its pieces whatever stands behind it.
def Scans (s : Str) (pieces : List Piece) : Prop :=
  ∀ rest, pieces? none (s ++ rest) = (pieces? none rest).map (pieces ++ ·)

variable {c : Letter} {s t rest inside label : Str} {pieces others segment : List Piece}
  {statement : Statement} {statements : List Statement} {line : Str} {lines : List Str}
  {net : Net} {marking : Marking} {bag : Bag} {place id : Str}
  {transition : Transition} {drawn : Str}

theorem Whole.append (former : Whole s) (latter : Whole t) : Whole (s ++ t) := by
  induction former with
  | nil => exact latter
  | plain noQuote noSlash later ih => exact .plain noQuote noSlash ih
  | pair later ih => exact .pair ih

theorem whole_escape (s : Str) : Whole (Text.Backslash.escape s) := by
  induction s with
  | nil => exact .nil
  | cons c rest ih =>
    rw [Text.Backslash.escape]
    split
    · exact .pair ih
    · rename_i plain
      exact .plain (fun same => plain (.inl same)) (fun same => plain (.inr same)) ih

theorem whole_labelText (label : List Str) : Whole (labelText label) := by
  cases label with
  | nil => exact .nil
  | cons first others =>
    refine (whole_escape first).append ?_
    induction others with
    | nil => exact .nil
    | cons line others ih =>
      rw [List.flatMap_cons]
      exact Whole.append (.pair (whole_escape line)) ih

theorem pieces?_inside (whole : Whole s) (begun : Str) :
    pieces? (some begun) (s ++ .char '"' :: rest) =
      (pieces? none rest).map (.quoted (begun.reverse ++ s) :: ·) := by
  induction whole generalizing begun with
  | nil =>
    rw [List.nil_append,pieces?]
    · rw [if_pos rfl,List.append_nil]
    · exact fun _ _ same => absurd same (by decide)
  | @plain c later noQuote noSlash _ ih =>
    rw [List.cons_append,pieces?]
    · rw [if_neg noQuote,ih]
      simp
    · exact fun _ _ same => absurd same noSlash
  | pair later ih =>
    rw [List.cons_append,List.cons_append,pieces?,ih]
    simp

theorem Scans.nil : Scans [] [] := fun rest => by
  rw [List.nil_append]
  exact Option.map_id'.symm

theorem Scans.whole (scans : Scans s pieces) : pieces? none s = some pieces := by
  have alone := scans []
  rw [List.append_nil] at alone
  rw [alone]
  exact congrArg some (List.append_nil pieces)

theorem Scans.append (former : Scans s pieces) (latter : Scans t others) :
    Scans (s ++ t) (pieces ++ others) := fun rest => by
  rw [List.append_assoc,former,latter,Option.map_map]
  simp [Function.comp_def]

theorem Scans.marks (free : .char '"' ∉ s) : Scans s (s.map .mark) := by
  induction s with
  | nil => exact .nil
  | cons c s ih =>
    rw [List.mem_cons,not_or] at free
    intro rest
    rw [List.cons_append,pieces?,if_neg (Ne.symm free.1),ih free.2,Option.map_map]
    rfl

theorem Scans.quoted (whole : Whole s) : Scans (inQuotes s) [.quoted s] := fun rest => by
  have opened : inQuotes s ++ rest = .char '"' :: (s ++ .char '"' :: rest) := by
    rw [inQuotes,List.append_assoc,List.append_assoc]
    rfl
  rw [opened,pieces?,if_pos rfl,pieces?_inside whole]
  rfl

-- What stands around quoted texts, and the quoted texts, piece by piece.
theorem quotes_append : quotes (pieces ++ others) = quotes pieces ++ quotes others :=
  List.filterMap_append

theorem quotes_marks : quotes (s.map .mark) = [] := by
  induction s with
  | nil => rfl
  | cons c s ih => exact ih

theorem outside_append : outside (pieces ++ others) = outside pieces ++ outside others :=
  List.filterMap_append

theorem outside_marks : outside (s.map .mark) = s := by
  induction s with
  | nil => rfl
  | cons c s ih => exact congrArg (c :: ·) ih

theorem mark_not_mem (absent : c ∉ s) : Piece.mark c ∉ s.map Piece.mark := by
  rw [List.mem_map]
  rintro ⟨d,member,same⟩
  cases same
  exact absent member

theorem labelLines_escape (s begun : Str) :
    labelLines begun (Text.Backslash.escape s ++ rest) = labelLines (s.reverse ++ begun) rest := by
  induction s generalizing begun with
  | nil => rfl
  | cons c s ih =>
    rw [Text.Backslash.escape]
    split
    · rename_i special
      have other : c ≠ .char 'n' := by
        rintro rfl
        exact absurd special (by decide)
      have slash : (Text.Backslash.Alphabet.slash : Letter) = .char '\\' := rfl
      rw [List.cons_append,List.cons_append,slash,labelLines,if_neg other,ih]
      simp
    · rename_i plain
      rw [List.cons_append,labelLines,ih]
      · simp
      · exact fun _ _ same => absurd (.inr same) plain

theorem labelLines_labelText (first : Str) (others : List Str) :
    labelLines [] (labelText (first :: others)) = first :: others := by
  have behind : ∀ begun, labelLines begun
      (others.flatMap fun line => labelBreak ++ Text.Backslash.escape line) = begun.reverse :: others := by
    induction others with
    | nil => exact fun _ => rfl
    | cons line others ih =>
      intro begun
      have broken : labelLines begun (labelBreak ++ (Text.Backslash.escape line ++
          others.flatMap fun line => labelBreak ++ Text.Backslash.escape line)) =
            begun.reverse :: labelLines [] (Text.Backslash.escape line ++
              others.flatMap fun line => labelBreak ++ Text.Backslash.escape line) := by
        show labelLines begun (.char '\\' :: .char 'n' :: _) = _
        rw [labelLines,if_pos rfl]
        rfl
      rw [List.flatMap_cons,List.append_assoc,broken,labelLines_escape,ih]
      simp
  rw [labelText,labelLines_escape,behind]
  simp

-- Gaps, each with a quoted text behind it, and their pieces.
def writeParts (parts : List (Str × Str)) : Str :=
  parts.flatMap fun part => part.1 ++ inQuotes part.2

def partPieces (parts : List (Str × Str)) : List Piece :=
  parts.flatMap fun part => part.1.map .mark ++ [.quoted part.2]

variable {parts : List (Str × Str)}

theorem scans_parts (free : ∀ part ∈ parts, .char '"' ∉ part.1) (whole : ∀ part ∈ parts, Whole part.2) :
    Scans (writeParts parts) (partPieces parts) := by
  induction parts with
  | nil => exact .nil
  | cons part parts ih =>
    obtain ⟨free,others⟩ := List.forall_mem_cons.mp free
    obtain ⟨whole,wholes⟩ := List.forall_mem_cons.mp whole
    exact ((Scans.marks free).append (.quoted whole)).append (ih others wholes)

theorem quotes_partPieces : quotes (partPieces parts) = parts.map (·.2) := by
  induction parts with
  | nil => rfl
  | cons part parts ih =>
    rw [partPieces,List.flatMap_cons,quotes_append,quotes_append,quotes_marks]
    exact congrArg (part.2 :: ·) ih

theorem outside_partPieces : outside (partPieces parts) = parts.flatMap (·.1) := by
  induction parts with
  | nil => rfl
  | cons part parts ih =>
    have none : outside [.quoted part.2] = [] := rfl
    rw [partPieces,List.flatMap_cons,outside_append,outside_append,outside_marks,none,List.append_nil,
      List.flatMap_cons]
    exact congrArg (part.1 ++ ·) ih

theorem semicolon_not_mem (free : ∀ part ∈ parts, .char ';' ∉ part.1) : .mark (.char ';') ∉ partPieces parts := by
  rw [partPieces,List.mem_flatMap]
  rintro ⟨part,member,found⟩
  rcases List.mem_append.mp found with inGap | inQuoted
  · exact mark_not_mem (free part member) inGap
  · cases List.mem_singleton.mp inQuoted

-- A line, with the break in front of it, holds the pieces of one statement up to its semicolon.
def Draws (line : Str) (statement : Statement) : Prop :=
  ∃ segment, Scans (.char '\n' :: line) (segment ++ [.mark (.char ';')]) ∧ .mark (.char ';') ∉ segment ∧
    quotes segment = statement.texts ∧ statement? segment = some [statement]

theorem draws_of_parts (same : .char '\n' :: line = writeParts parts ++ [.char ']',.char ';'])
    (free : ∀ part ∈ parts, .char '"' ∉ part.1 ∧ .char ';' ∉ part.1)
    (whole : ∀ part ∈ parts, Whole part.2) (texts : parts.map (·.2) = statement.texts)
    (read : statement? (partPieces parts ++ [.mark (.char ']')]) = some [statement]) : Draws line statement := by
  refine ⟨partPieces parts ++ [.mark (.char ']')],?_,?_,?_,read⟩
  · have last : Scans [.char ']',.char ';'] [.mark (.char ']'),.mark (.char ';')] := Scans.marks (s := [.char ']',.char ';']) (by decide)
    rw [same,List.append_assoc]
    exact (scans_parts (fun part member => (free part member).1) whole).append last
  · rw [List.mem_append,not_or]
    exact ⟨semicolon_not_mem fun part member => (free part member).2,by decide⟩
  · rw [quotes_append,quotes_partPieces,texts]
    exact List.append_nil _

theorem draws_node (before between : Str) {id first : Str} {label : List Str}
    (same : .char '\n' :: line = writeParts [(before,Text.Backslash.escape id),
      (between,labelText (first :: label))] ++ [.char ']',.char ';'])
    (free : .char '"' ∉ before ++ between ∧ .char ';' ∉ before ++ between)
    (plain : hasArrow (before ++ between ++ [.char ']']) = false) :
    Draws line (.node id (first :: label)) := by
  simp only [List.mem_append,not_or] at free
  refine draws_of_parts same ?_ ?_ rfl ?_
  · simp [free]
  · simp [whole_escape,whole_labelText]
  · have around : outside (partPieces [(before,Text.Backslash.escape id),
        (between,labelText (first :: label))] ++ [.mark (.char ']')]) = before ++ between ++ [.char ']'] := by
      rw [outside_append,outside_partPieces]
      simp [outside]
    rw [statement?,around,quotes_append,quotes_partPieces,plain]
    show some [Statement.node (Text.Backslash.unescape (Text.Backslash.escape id))
      (labelLines [] (labelText (first :: label)))] = _
    rw [Text.Backslash.unescape_escape,labelLines_labelText]

theorem draws_edge (before arrow between : Str) {origin target text : Str}
    (same : .char '\n' :: line = writeParts [(before,Text.Backslash.escape origin),
      (arrow,Text.Backslash.escape target),(between,labelText [text])] ++ [.char ']',.char ';'])
    (free : .char '"' ∉ before ++ arrow ++ between ∧ .char ';' ∉ before ++ arrow ++ between)
    (pointed : hasArrow (before ++ arrow ++ between ++ [.char ']']) = true) :
    Draws line (.edge origin target [text]) := by
  simp only [List.mem_append,not_or] at free
  refine draws_of_parts same ?_ ?_ rfl ?_
  · simp [free]
  · simp [whole_escape,whole_labelText]
  · have around : outside (partPieces [(before,Text.Backslash.escape origin),
        (arrow,Text.Backslash.escape target),(between,labelText [text])] ++ [.mark (.char ']')]) =
          before ++ arrow ++ between ++ [.char ']'] := by
      rw [outside_append,outside_partPieces]
      simp [outside]
    rw [statement?,around,quotes_append,quotes_partPieces,pointed]
    show some [Statement.edge (Text.Backslash.unescape (Text.Backslash.escape origin))
      (Text.Backslash.unescape (Text.Backslash.escape target)) (labelLines [] (labelText [text]))] = _
    rw [Text.Backslash.unescape_escape,Text.Backslash.unescape_escape,labelLines_labelText]

theorem escape_eq (s : Str) : escape s = Text.Backslash.escape s :=
  Text.Backslash.escapeByChars_eq_escape s

theorem placeLabel_eq : placeLabel place bag = labelText (place ::
    bag.entries.map fun entry => ↑(Bag.entryText entry)) := by
  simp only [placeLabel,labelText,List.flatMap_map,escape_eq]

theorem placeNode_eq : placeNode place = inQuotes (Text.Backslash.escape (placeId place)) := by
  rw [placeNode,escape_eq]
  rfl

theorem transitionNode_eq :
    transitionNode id = inQuotes (Text.Backslash.escape (transitionId id)) := by
  rw [transitionNode,escape_eq]
  rfl

theorem labelText_single : labelText [s] = Text.Backslash.escape s := List.append_nil _

theorem draws_place : Draws (placeLine place bag) (.node (placeId place)
    (place :: bag.entries.map fun entry => ↑(Bag.entryText entry))) := by
  let between (fill : String) : Str := " [shape=circle, style=filled, fillcolor=" ++ fill ++ ", label="
  have fills : ∃ fill, (fill = "white" ∨ fill = "lightblue") ∧ placeLine place bag =
      "  " ++ placeNode place ++ between fill ++ inQuotes (placeLabel place bag) ++ "];" := by
    unfold placeLine
    split
    · exact ⟨_,.inl rfl,by simp [between]⟩
    · exact ⟨_,.inr rfl,by simp [between]⟩
  obtain ⟨fill,either,whole⟩ := fills
  refine draws_node "\n  " (between fill) ?_ ?_ ?_
  · rw [whole,placeNode_eq,placeLabel_eq]
    simp only [writeParts,List.flatMap_cons,List.flatMap_nil,List.append_assoc,List.nil_append]
    rfl
  · rcases either with rfl | rfl <;> decide
  · rcases either with rfl | rfl <;> decide

theorem draws_transition : Draws (transitionLine id) (.node (transitionId id) [id]) := by
  refine draws_node "\n  " " [shape=box, style=filled, fillcolor=lightyellow, label="
    ?_ ?_ ?_
  · rw [transitionLine,transitionNode_eq,labelText_single,escape_eq]
    simp only [writeParts,List.flatMap_cons,List.flatMap_nil,List.append_assoc,List.nil_append]
    rfl
  · decide
  · decide

theorem draws_arc (pattern : Pattern) (origin target : Str) :
    Draws (edgeLine (inQuotes (Text.Backslash.escape origin)) (inQuotes (Text.Backslash.escape target))
      pattern) (.edge origin target [pattern.text]) := by
  refine draws_edge "\n  " " -> " " [label=" ?_ ?_ ?_
  · rw [edgeLine,labelText_single,escape_eq]
    simp only [writeParts,List.flatMap_cons,List.flatMap_nil,List.append_assoc,List.nil_append]
    rfl
  · decide
  · decide

theorem statements?_segment (inside : Piece.mark (.char ';') ∉ segment)
    (read : statement? segment = some statements) :
    statements? (segment ++ .mark (.char ';') :: pieces) = (statements? pieces).map (statements ++ ·) := by
  rw [statements?,List.splitOn_append_cons_self_of_not_mem inside,List.mapM_cons,read,statements?]
  cases (pieces.splitOn (.mark (.char ';'))).mapM statement? <;> rfl

theorem statements?_last (inside : Piece.mark (.char ';') ∉ segment)
    (read : statement? segment = some statements) : statements? segment = some statements := by
  have whole : segment.splitOn (.mark (.char ';')) = [segment] := List.splitOn_eq_singleton inside
  rw [statements?,whole,List.mapM_cons,read]
  exact congrArg some (List.append_nil statements)

-- Lines tell statements: this is what the pieces of the lines hold, whatever stands behind them.
def Tells (lines : List Str) (statements : List Statement) : Prop :=
  ∃ pieces, Scans (lines.flatMap (.char '\n' :: ·)) pieces ∧ quotes pieces = statements.flatMap (·.texts) ∧
    ∀ others, statements? (pieces ++ others) = (statements? others).map (statements ++ ·)

variable {told more : List Statement} {latter : List Str}

theorem Tells.none : Tells [] [] := ⟨[],.nil,rfl,fun _ => Option.map_id'.symm⟩

theorem Tells.single (draws : Draws line statement) : Tells [line] [statement] := by
  obtain ⟨segment,scans,inside,texts,read⟩ := draws
  refine ⟨segment ++ [.mark (.char ';')],?_,?_,fun others => ?_⟩
  · rwa [List.flatMap_singleton]
  · rw [quotes_append,texts,List.flatMap_singleton]
    exact List.append_nil _
  · rw [List.append_assoc,List.singleton_append,statements?_segment inside read]

theorem Tells.append (former : Tells lines told) (behind : Tells latter more) :
    Tells (lines ++ latter) (told ++ more) := by
  obtain ⟨pieces,scans,texts,read⟩ := former
  obtain ⟨others,scans',texts',read'⟩ := behind
  refine ⟨pieces ++ others,?_,?_,fun rest => ?_⟩
  · rw [List.flatMap_append]
    exact scans.append scans'
  · rw [quotes_append,texts,texts',List.flatMap_append]
  · rw [List.append_assoc,read,read',Option.map_map]
    simp [Function.comp_def]

theorem Tells.flatMap {α : Type} {as : List α} {lines : α → List Str}
    {told : α → List Statement} (each : ∀ a ∈ as, Tells (lines a) (told a)) :
    Tells (as.flatMap lines) (as.flatMap told) := by
  induction as with
  | nil => exact .none
  | cons a as ih =>
    obtain ⟨first,others⟩ := List.forall_mem_cons.mp each
    exact first.append (ih others)

theorem Tells.map {α : Type} (as : List α) {line : α → Str} {told : α → Statement}
    (each : ∀ a, Draws (line a) (told a)) : Tells (as.map line) (as.map told) := by
  rw [List.map_eq_flatMap,List.map_eq_flatMap]
  exact .flatMap fun a _ => .single (each a)

theorem tells_transition : Tells (transitionLines transition) (transitionStatements transition) := by
  have first := Tells.single (@draws_transition transition.id)
  have before := Tells.map transition.pre fun arc =>
    draws_arc arc.pattern (placeId arc.place) (transitionId transition.id)
  have behind := Tells.map transition.post fun arc =>
    draws_arc arc.pattern (transitionId transition.id) (placeId arc.place)
  simp only [transitionLines,placeNode_eq,transitionNode_eq]
  exact (first.append before).append behind

theorem tells_graph : Tells
    ((net.allPlaces.map fun place => placeLine place (marking.bag place)) ++
      net.transitions.entries.flatMap transitionLines) (drawing net marking) :=
  .append (.map net.allPlaces fun _ => draws_place) (.flatMap fun _ _ => tells_transition)

theorem graph_pieces (made : graph net marking = .ok drawn) :
    ∃ pieces, pieces? none drawn = some pieces ∧
      quotes pieces = (drawing net marking).flatMap (·.texts) ∧
      statements? pieces = some (drawing net marking) := by
  obtain ⟨-,rfl⟩ := graph_eq_ok_iff.mp made
  obtain ⟨pieces,scans,texts,read⟩ := @tells_graph net marking
  let header : Str := "digraph CPN \x7b\n  rankdir=LR"
  let footer : Str := "\n\x7d"
  have opening : Scans (header ++ [.char ';']) (header.map .mark ++ [.mark (.char ';')]) := by
    have scans : Scans (header ++ [.char ';']) _ := Scans.marks (by decide)
    rwa [List.map_append] at scans
  have closing : Scans footer (footer.map .mark) := Scans.marks (by decide)
  have written : Str.joined "\n" (graphLines net marking) = header ++ [.char ';'] ++
      (((net.allPlaces.map fun place => placeLine place (marking.bag place)) ++
        net.transitions.entries.flatMap transitionLines).flatMap (.char '\n' :: ·) ++ footer) := by
    rw [graphLines]
    simp only [List.cons_append,List.append_assoc,Str.joined_cons,List.flatMap_cons,
      List.flatMap_append]
    rfl
  refine ⟨_,by rw [written]; exact (opening.append (scans.append closing)).whole,?_,?_⟩
  · rw [quotes_append,quotes_append,quotes_append,quotes_marks,quotes_marks,texts,List.append_nil]
    rfl
  · have first : statement? (header.map .mark) = some [] := by
      rw [statement?,quotes_marks]
    have last : statement? (footer.map .mark) = some [] := by
      rw [statement?,quotes_marks]
    rw [List.append_assoc,List.singleton_append,
      statements?_segment (mark_not_mem (by decide)) first,read,
      statements?_last (mark_not_mem (by decide)) last]
    simp

-- The nodes of a graph, by their ids.
def nodeIds (statements : List Statement) : List Str :=
  statements.filterMap fun
    | .node id _ => some id
    | .edge .. => none

theorem nodeIds_append : nodeIds (told ++ more) = nodeIds told ++ nodeIds more :=
  List.filterMap_append

theorem nodeIds_transition : nodeIds (transitionStatements transition) = [transitionId transition.id] := by
  simp [nodeIds,transitionStatements,List.filterMap_append,List.filterMap_map]

theorem nodeIds_drawing : nodeIds (drawing net marking) =
    net.allPlaces.map placeId ++ net.transitions.ids.map transitionId := by
  have places : nodeIds (net.allPlaces.map fun place => .node (placeId place)
      (place :: (marking.bag place).entries.map fun entry => ↑(Bag.entryText entry))) =
        net.allPlaces.map placeId := by
    rw [nodeIds,List.filterMap_map]
    exact congrFun List.filterMap_eq_map _
  have transitions : ∀ entries : List Transition, nodeIds (entries.flatMap transitionStatements) =
      (entries.map (·.id)).map transitionId := by
    intro entries
    induction entries with
    | nil => rfl
    | cons transition entries ih =>
      rw [List.flatMap_cons,nodeIds_append,nodeIds_transition,ih]
      rfl
  rw [drawing,nodeIds_append,places,transitions]
  rfl

theorem placeId_inj {former latter : Str} (same : placeId former = placeId latter) :
    former = latter := (List.cons.inj (List.cons.inj same).2).2

theorem transitionId_inj {former latter : Str} (same : transitionId former = transitionId latter) :
    former = latter := (List.cons.inj (List.cons.inj same).2).2

-- Neither two places nor two transitions share a node, nor does a place with a transition.
theorem nodup_nodeIds : (nodeIds (drawing net marking)).Nodup := by
  rw [nodeIds_drawing,List.nodup_append]
  refine ⟨?_,?_,?_⟩
  · exact List.pairwise_map.mpr ((Table.nodup_keys _).imp fun apart same => apart (placeId_inj same))
  · exact List.pairwise_map.mpr
      (net.transitions.distinct.imp fun apart same => apart (transitionId_inj same))
  · rintro id inPlaces _ inTransitions rfl
    obtain ⟨place,_,rfl⟩ := List.mem_map.mp inPlaces
    obtain ⟨transition,_,same⟩ := List.mem_map.mp inTransitions
    exact absurd (List.cons.inj same).1 (by decide)

theorem edge_between_nodes {origin target : Str} {label : List Str}
    (drawn : .edge origin target label ∈ drawing net marking) :
    origin ∈ nodeIds (drawing net marking) ∧ target ∈ nodeIds (drawing net marking) := by
  rw [nodeIds_drawing,List.mem_append,List.mem_append]
  rcases List.mem_append.mp drawn with inPlaces | inTransitions
  · obtain ⟨_,_,same⟩ := List.mem_map.mp inPlaces
    cases same
  · obtain ⟨transition,member,stated⟩ := List.mem_flatMap.mp inTransitions
    have node : transitionId transition.id ∈ net.transitions.ids.map transitionId :=
      List.mem_map_of_mem (List.mem_map_of_mem member)
    have place : ∀ arc ∈ transition.pre ++ transition.post,
        placeId arc.place ∈ net.allPlaces.map placeId := fun arc within =>
      List.mem_map_of_mem (Net.mem_allPlaces.mpr (.inr (.inr ⟨transition,member,arc,within,rfl⟩)))
    simp only [transitionStatements,List.mem_append,List.mem_cons,List.mem_map] at stated
    rcases stated with (same | ⟨arc,within,same⟩) | ⟨arc,within,same⟩ <;> cases same
    · exact ⟨.inl (place arc (List.mem_append_left _ within)),.inr node⟩
    · exact ⟨.inr node,.inl (place arc (List.mem_append_right _ within))⟩

-- Whatever the names hold, the quotes of a graph are closed where they should be, and what stands
-- between them are the texts of the net in their order, from which it is read back: a node for
-- each place and each transition, all different, and an edge between two of them for each arc.
-- There is a graph unless it would have to show a number that is too long to be written.
theorem graph_tells_net (net : Net) (marking : Marking) :
    ((∃ drawn, graph net marking = .ok drawn) ↔
      (∀ place ∈ net.allPlaces, (marking.bag place).isWritable = true) ∧
        ∀ transition ∈ net.transitions.entries, transition.isWritable = true) ∧
    (∀ drawn, graph net marking = .ok drawn →
      (pieces? none drawn).map quotes = some ((drawing net marking).flatMap (·.texts)) ∧
      readGraph drawn = some (drawing net marking)) ∧
    (nodeIds (drawing net marking)).Nodup ∧
    ∀ origin target label, .edge origin target label ∈ drawing net marking →
      origin ∈ nodeIds (drawing net marking) ∧ target ∈ nodeIds (drawing net marking) := by
  refine ⟨graph_made_iff,fun drawn made => ?_,nodup_nodeIds,fun _ _ _ => edge_between_nodes⟩
  obtain ⟨pieces,scanned,texts,read⟩ := graph_pieces made
  constructor
  · rw [scanned]
    exact congrArg some texts
  · rw [readGraph,scanned]
    exact read

-- A place with one token more than a number can tell.
def overfull : Marking := (Marking.empty.add "p" .unit (10 ^ 4300 - 1)).add "p" .unit 1

theorem overfull_place_undrawn :
    let net : Net := ⟨["p"],.empty,.empty,.empty,none⟩
    overfull.count "p" .unit = 10 ^ 4300 ∧ Str.ofString "p" ∈ net.allPlaces ∧
      graph net overfull = .error .unwritable := by
  have heavy : isWritable ⟨["p"],.empty,.empty,.empty,none⟩ overfull = false := by decide +kernel
  refine ⟨by decide +kernel,by decide,?_⟩
  rw [graph,heavy]
  rfl

end ProtocolNet.Drawing
