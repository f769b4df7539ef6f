import ProtocolNet.Proofs.FileTree
import ProtocolNet.Proofs.Visibility
import ProtocolNet.Replay

namespace ProtocolNet

namespace Drawing

open Str (whole_cons whole_append whole_ofString whole_flatMap whole_joined)

variable {net : Net} {left right marking : Marking} {place s drawn told : Str} {bag : Bag}

theorem escape_whole_iff : (escape s).Whole ↔ s.Whole := by
  have slash : (Text.Backslash.Alphabet.slash : Letter).isLone = false := rfl
  rw [escape,Text.Backslash.escapeByChars_eq_escape]
  induction s with
  | nil => exact Iff.rfl
  | cons c rest ih =>
    rw [Text.Backslash.escape]
    split
    · simp only [whole_cons,slash,ih,true_and]
    · simp only [whole_cons,ih]

-- What a place holds is written in characters, so a line about it has halves of pairs only in
-- the name.
theorem whole_placeLine : (placeLine place bag).Whole ↔ place.Whole := by
  have ending : labelBreak.Whole := whole_ofString _
  simp only [placeLine,placeNode,placeLabel,inQuotes,whole_append,whole_ofString,escape_whole_iff,
    whole_flatMap,ending,implies_true,true_and,and_true,and_self]

-- A graph can be encoded or not by what the net has written in it.
theorem whole_graph (made : graph net marking = .ok drawn) : drawn.Whole ↔
    (∀ place ∈ net.allPlaces, place.Whole) ∧
      ∀ transition ∈ net.transitions.entries, ∀ line ∈ transitionLines transition, line.Whole := by
  obtain ⟨-,rfl⟩ := graph_eq_ok_iff.mp made
  rw [whole_joined,graphLines]
  simp only [List.forall_mem_append,List.forall_mem_cons,List.forall_mem_map,List.not_mem_nil,
    List.forall_mem_flatMap,whole_placeLine,whole_ofString,true_and,and_true,false_imp_iff,
    implies_true]

-- Rows of a table that are too long are cut, and a long name is cut with them.
theorem whole_tableLine {column : Nat} :
    (tableLine column defaultWidth place bag).Whole ↔ Str.Whole (place.take 77) := by
  let blanks : Str := List.replicate (column - place.length) (.char ' ')
  let tokens : String := if bag.isEmpty then "(empty)" else bag.entriesText
  have plain : blanks.Whole := fun c member => by rw [List.eq_of_mem_replicate member]; rfl
  have bar : (Str.ofString " | ").length = 3 := rfl
  obtain ⟨rest,whole,long,same⟩ : ∃ rest : Str, rest.Whole ∧ 3 ≤ rest.length ∧
      tableLine column defaultWidth place bag = fit defaultWidth (place ++ rest) := by
    refine ⟨blanks ++ (" | " ++ tokens),?_,?_,?_⟩
    · simp only [whole_append,plain,whole_ofString,and_self]
    · rw [List.length_append,List.length_append]
      omega
    · simp only [tableLine,padTo,blanks,tokens,List.append_assoc]
  have cut (n : Nat) : Str.Whole (rest.take n) := fun c member => whole c (List.mem_of_mem_take member)
  have dots : Str.Whole ("..." : Str) := whole_ofString _
  rw [same,fit]
  split
  · have width : defaultWidth - 3 = .ofNat 77 := rfl
    rw [width,leading,List.take_append,whole_append,whole_append]
    simp only [cut,dots,and_true]
  · rename_i fits
    have short : place.length ≤ 77 := by
      rw [List.length_append,defaultWidth] at fits
      omega
    rw [whole_append,List.take_of_length_le short]
    simp only [whole,and_true]

theorem whole_table (made : table net marking defaultWidth = .ok told) :
    told.Whole ↔ ∀ place ∈ net.allPlaces, Str.Whole (place.take 77) := by
  obtain ⟨last,rfl⟩ := lines_of_table made
  rw [whole_joined,tableLines]
  simp only [List.forall_mem_append,List.forall_mem_cons,List.forall_mem_map,List.not_mem_nil,
    whole_tableLine,whole_ofString,true_and,and_true,false_imp_iff,implies_true]

-- What comes of rendering, the files left aside: an image, and what it ends with.
def rendered (renderer : Renderer) (net : Net) (marking : Marking) (path : Path) :
    Option Text.Utf8.Bytes × Option RenderFault :=
  match graph net marking with
  | .error fault => (none,some (.text fault))
  | .ok graph =>
    if path.hasNull then (none,some .nullCharacter)
    else
      match renderer, graph.encode with
      | none, _ => (none,some .notInstalled)
      | some _, .error fault => (none,some (.text fault))
      | some run, .ok graph =>
        match run (formatFor path) path graph with
        | .ended 0 _ image => (image,none)
        | .ended _ stderr image => (image,some (.failed stderr))
        | .givenUp message image => (image,some (.givenUp message))

-- How a rendering came out: it was done, it failed, or it was given up.
def Rendering.done? : Rendering → Option Bool
  | .ended status _ _ => some (status = 0)
  | .givenUp .. => none

-- The program is not installed, or fares with every graph as with any other.
def Indifferent (renderer : Renderer) : Prop :=
  ∀ run, renderer = some run → ∀ format path graph graph',
    (run format path graph).done? = (run format path graph').done?

variable {renderer : Renderer} {path : Path} {files : Files}

theorem render_eq : render renderer net marking path files =
    (leave files path (rendered renderer net marking path).1,
      (rendered renderer net marking path).2) := by
  unfold render rendered
  cases graph net marking with
  | error fault => rfl
  | ok graph =>
    dsimp only
    split
    · rfl
    · cases renderer with
      | none => rfl
      | some run =>
        cases graph.encode with
        | error fault => rfl
        | ok text =>
          dsimp only
          cases run (formatFor path) path text with
          | ended status stderr image => cases status <;> rfl
          | givenUp message image => rfl

end Drawing

namespace Replay

open CommandLine (Options)

-- How a drawing is carried out: what is printed, which files may be written, and whether it
-- fails, the writing of the graph left aside.
structure Strokes where
  stdout : Str
  stderr : String
  image : Option (Path × Text.Utf8.Bytes)
  graph : Option (Path × String)
  fault : Option DrawFault

def afterImage (image : Option (Path × Text.Utf8.Bytes)) (files : Files) : Files :=
  match image with
  | none => files
  | some (path,image) => Drawing.leave files path (some image)

namespace Strokes

def failed (fault : DrawFault) : Strokes := ⟨[],"",none,none,some fault⟩

def printing (stdout : Str) : Strokes := ⟨stdout,"",none,none,none⟩

-- A graph that cannot be encoded leaves its file empty.
def saving (graph : Except TextFault Str) (path : Path) (stderr : String)
    (image : Option (Path × Text.Utf8.Bytes)) : Strokes :=
  match graph with
  | .error fault => ⟨[],stderr,image,none,some (.text fault)⟩
  | .ok graph =>
    match graph.encode with
    | .ok text => ⟨[],stderr,image,some (path,text),none⟩
    | .error fault => ⟨[],stderr,image,some (path,""),some (.text fault)⟩

def carryOut (strokes : Strokes) (files : Files) : Drawn × Option DrawFault :=
  let files := afterImage strokes.image files
  match strokes.graph with
  | none => (⟨strokes.stdout,strokes.stderr,files⟩,strokes.fault)
  | some (path,text) =>
    match files.writeText path text with
    | .ok files => (⟨strokes.stdout,strokes.stderr,files⟩,strokes.fault)
    | .error refused => (⟨strokes.stdout,strokes.stderr,files⟩,some (.file refused))

end Strokes

def graphStrokes (renderer : Drawing.Renderer) (options : Options) (monitor : Monitor) : Strokes :=
  let graph := Drawing.graph monitor.net monitor.marking
  match options.graph with
  | none => .printing []
  | some .screen =>
    match printed graph with
    | .ok graph => .printing (graph ++ "\n")
    | .error fault => .failed (.text fault)
  | some (.file path) =>
    if path.suffix ∈ imageSuffixes then
      let (image,fault) := Drawing.rendered renderer monitor.net monitor.marking path
      let image := image.map fun image => (path,image)
      match fault with
      | none => ⟨[],"",image,none,none⟩
      | some fault =>
        if fault.isTold then
          .saving graph (path.withSuffix ".dot") ("Warning: " ++ fault.message ++ "\n") image
        else ⟨[],"",image,none,some (.render fault)⟩
    else .saving graph path "" none

def strokes (renderer : Drawing.Renderer) (options : Options) (monitor : Monitor) : Strokes :=
  match drawTable options monitor with
  | (table,some fault) => { Strokes.failed (.text fault) with stdout := table }
  | (table,none) =>
    let strokes := graphStrokes renderer options monitor
    { strokes with stdout := table ++ strokes.stdout }

variable {renderer : Drawing.Renderer} {options : Options} {monitor : Monitor} {files : Files}
  {path : Path}

theorem save_eq {net : Net} {marking : Marking} {stderr : String}
    {image : Option (Path × Text.Utf8.Bytes)} :
    (match Drawing.save net marking path (afterImage image files) with
      | (files,fault) => ((⟨[],stderr,files⟩ : Drawn),fault.map DrawFault.ofSave)) =
      (Strokes.saving (Drawing.graph net marking) path stderr image).carryOut files := by
  unfold Drawing.save Strokes.saving
  cases Drawing.graph net marking with
  | error fault => rfl
  | ok graph =>
    dsimp only
    cases graph.encode with
    | ok text =>
      dsimp only [Strokes.carryOut]
      cases Files.writeText (afterImage image files) path text <;> rfl
    | error fault =>
      dsimp only [Strokes.carryOut]
      cases Files.writeText (afterImage image files) path "" <;> rfl

theorem drawGraph_eq : drawGraph renderer options monitor files =
    (graphStrokes renderer options monitor).carryOut files := by
  unfold drawGraph graphStrokes
  cases options.graph with
  | none => rfl
  | some target =>
    cases target with
    | screen =>
      dsimp only
      cases printed (Drawing.graph monitor.net monitor.marking) <;> rfl
    | file path =>
      dsimp only
      split
      · have left (image : Option Text.Utf8.Bytes) : Drawing.leave files path image =
            afterImage (image.map fun image => (path,image)) files := by
          cases image <;> rfl
        rw [Drawing.render_eq,left]
        cases (Drawing.rendered renderer monitor.net monitor.marking path).2 with
        | none => rfl
        | some fault =>
          dsimp only
          split
          · exact save_eq
          · rfl
      · exact @save_eq _ _ _ _ _ none

theorem draw_eq : draw renderer options monitor files =
    (strokes renderer options monitor).carryOut files := by
  unfold draw strokes
  cases drawTable options monitor with
  | mk table fault =>
    cases fault with
    | some fault => rfl
    | none =>
      dsimp only
      rw [drawGraph_eq]
      unfold Strokes.carryOut
      dsimp only
      cases (graphStrokes renderer options monitor).graph with
      | none => rfl
      | some save =>
        dsimp only
        cases Files.writeText (afterImage (graphStrokes renderer options monitor).image files)
          save.1 save.2 <;> rfl

-- Whether drawing is left to the program that renders graphs.
def AsksImage (options : Options) : Prop :=
  ∃ path, options.graph = some (.file path) ∧ path.suffix ∈ imageSuffixes

-- A text that can be made and printed.
def Encodes (text : Except TextFault Str) : Prop := ∃ told, text = .ok told ∧ told.Whole

theorem printed_ok_iff {text : Except TextFault Str} :
    (∃ told, printed text = .ok told) ↔ Encodes text := by
  unfold printed Encodes
  cases text with
  | error fault => simp [Except.bind]
  | ok told =>
    simp only [Except.bind,Except.ok.injEq,exists_eq_left']
    rw [← Str.encodes_iff]
    cases told.encode <;> simp [Except.map]

section

variable {net : Net} {marking : Marking} {digest : Nat}

-- Where a marking has a digest, only the net decides on what can be drawn of it.
theorem encodes_graph (made : marking.digest = .ok digest) :
    Encodes (Drawing.graph net marking) ↔
      (∀ transition ∈ net.transitions.entries, transition.isWritable = true) ∧
      (∀ place ∈ net.allPlaces, place.Whole) ∧
      ∀ transition ∈ net.transitions.entries,
        ∀ line ∈ Drawing.transitionLines transition, line.Whole := by
  have stored := Marking.digest_ok_iff.mp ⟨digest,made⟩
  have bags : ∀ place ∈ net.allPlaces, (marking.bag place).isWritable = true :=
    fun place _ => Drawing.writable_bags (fun stored' member => (stored stored' member).1) place
  have drawable := @Drawing.graph_made_iff net marking
  constructor
  · rintro ⟨drawn,graph,whole⟩
    exact ⟨(drawable.mp ⟨drawn,graph⟩).2,(Drawing.whole_graph graph).mp whole⟩
  · rintro ⟨writable,names⟩
    obtain ⟨drawn,graph⟩ := drawable.mpr ⟨bags,writable⟩
    exact ⟨drawn,graph,(Drawing.whole_graph graph).mpr names⟩

theorem encodes_table (made : marking.digest = .ok digest) :
    Encodes (Drawing.table net marking Drawing.defaultWidth) ↔
      ∀ place ∈ net.allPlaces, Str.Whole (place.take 77) := by
  obtain ⟨told,table⟩ := (@Drawing.table_eq_ok_iff net _ Drawing.defaultWidth).mpr
    (Marking.digest_ok_iff.mp ⟨digest,made⟩)
  constructor
  · rintro ⟨told,table,whole⟩
    exact (Drawing.whole_table table).mp whole
  · intro names
    exact ⟨told,table,(Drawing.whole_table table).mpr names⟩

end

-- Drawings that both fail, or both write a graph to the same file or none.
structure Strokes.Alike (left right : Strokes) : Prop where
  fault : left.fault = none ↔ right.fault = none
  graph : left.fault = none → left.graph.map Prod.fst = right.graph.map Prod.fst

theorem Strokes.Alike.both {left right : Strokes} (failed : left.fault ≠ none)
    (failed' : right.fault ≠ none) : left.Alike right :=
  ⟨iff_of_false failed failed',fun none => absurd none failed⟩

theorem sameTree_afterImage {image : Option (Path × Text.Utf8.Bytes)} :
    Files.SameTree files (afterImage image files) := by
  unfold afterImage Drawing.leave
  split
  · exact .refl
  · dsimp only
    split
    · rename_i written
      exact Files.sameTree_write written
    · exact .refl

theorem carryOut_none_iff {strokes : Strokes} : (strokes.carryOut files).2 = none ↔
    strokes.fault = none ∧
      ∀ save ∈ strokes.graph, ∃ next, files.writeText save.1 save.2 = .ok next := by
  have tree := @sameTree_afterImage files strokes.image
  unfold Strokes.carryOut
  cases strokes.graph with
  | none => simp
  | some save =>
    obtain ⟨path,text⟩ := save
    simp only [Option.mem_some_iff,forall_eq']
    cases written : Files.writeText (afterImage strokes.image files) path text with
    | ok next =>
      have writes : ∃ next, files.writeText path text = .ok next := tree.symm.write ⟨next,written⟩
      simp only [writes,and_true]
    | error refused =>
      have refuses : ¬ ∃ next, files.writeText path text = .ok next := by
        intro writes
        obtain ⟨next,written'⟩ := tree.write writes
        rw [Files.writeText,written'] at written
        cases written
      simp only [refuses,and_false,reduceCtorEq]

theorem Strokes.Alike.carryOut {left right : Strokes} {files' : Files} (alike : left.Alike right)
    (tree : Files.SameTree files files') :
    (left.carryOut files).2 = none ↔ (right.carryOut files').2 = none := by
  rw [carryOut_none_iff,carryOut_none_iff,← alike.fault]
  refine and_congr_right fun drawn => ?_
  have paths := alike.graph drawn
  have one {strokes strokes' : Strokes} {files files' : Files} (tree : Files.SameTree files files')
      (paths : strokes.graph.map Prod.fst = strokes'.graph.map Prod.fst)
      (writes : ∀ save ∈ strokes.graph, ∃ next, files.writeText save.1 save.2 = .ok next) :
      ∀ save ∈ strokes'.graph, ∃ next, files'.writeText save.1 save.2 = .ok next := by
    intro save member
    have named : strokes.graph.map Prod.fst = some save.1 := by rw [paths,member]; rfl
    obtain ⟨former,given,same⟩ := Option.map_eq_some_iff.mp named
    rw [← same]
    exact tree.write (writes former given)
  exact ⟨one tree paths,one tree.symm paths.symm⟩

theorem drawTable_none_iff : (drawTable options monitor).2 = none ↔ (options.table = true →
    Encodes (Drawing.table monitor.net monitor.marking Drawing.defaultWidth)) := by
  rw [← printed_ok_iff]
  unfold drawTable
  cases options.table with
  | false => simp
  | true =>
    simp only [if_true,true_imp_iff]
    cases printed (Drawing.table monitor.net monitor.marking Drawing.defaultWidth) <;> simp

theorem Encodes.text {made : Except TextFault Str} (encodes : Encodes made) :
    ∃ told text, made = .ok told ∧ told.encode = .ok text := by
  obtain ⟨told,same,whole⟩ := encodes
  obtain ⟨text,encoded⟩ := Str.encodes_iff.mpr whole
  exact ⟨told,text,same,encoded⟩

theorem saving_fault_none_iff {graph : Except TextFault Str} {stderr : String}
    {image : Option (Path × Text.Utf8.Bytes)} :
    (Strokes.saving graph path stderr image).fault = none ↔ Encodes graph := by
  unfold Strokes.saving Encodes
  cases graph with
  | error fault => simp
  | ok drawn =>
    simp only [Except.ok.injEq,exists_eq_left']
    rw [← Str.encodes_iff]
    cases drawn.encode <;> simp

-- An image is made of a graph that can be encoded only.
theorem rendered_encodes {net : Net} {marking : Marking}
    (done : (Drawing.rendered renderer net marking path).2 = none) :
    Encodes (Drawing.graph net marking) := by
  unfold Drawing.rendered at done
  cases graph : Drawing.graph net marking with
  | error fault => rw [graph] at done; cases done
  | ok drawn =>
    rw [graph] at done
    dsimp only at done
    split at done
    · cases done
    · cases renderer with
      | none => cases done
      | some run =>
        cases encoded : drawn.encode with
        | error fault => rw [encoded] at done; cases done
        | ok text => exact ⟨drawn,rfl,Str.encodes_iff.mp ⟨text,encoded⟩⟩

theorem graphStrokes_unencoded (asked : options.graph ≠ none)
    (mute : ¬ Encodes (Drawing.graph monitor.net monitor.marking)) :
    (graphStrokes renderer options monitor).fault ≠ none := by
  unfold graphStrokes
  cases wanted : options.graph with
  | none => exact absurd wanted asked
  | some target =>
    cases target with
    | screen =>
      dsimp only
      rw [← printed_ok_iff] at mute
      cases same : printed (Drawing.graph monitor.net monitor.marking) with
      | ok told => exact absurd ⟨told,same⟩ mute
      | error fault => exact Option.some_ne_none _
    | file path =>
      dsimp only
      have unsaved (path : Path) (stderr : String) (image : Option (Path × Text.Utf8.Bytes)) :
          (Strokes.saving (Drawing.graph monitor.net monitor.marking) path stderr image).fault ≠
            none := mt saving_fault_none_iff.mp mute
      split
      · cases ended : (Drawing.rendered renderer monitor.net monitor.marking path).2 with
        | none => exact absurd (rendered_encodes ended) mute
        | some fault =>
          dsimp only
          split
          · exact unsaved _ _ _
          · exact Option.some_ne_none _
      · exact unsaved _ _ _

-- Graphs that can be encoded are rendered alike, if the program does not look at them.
theorem rendered_alike {net net' : Net} {marking marking' : Marking} {drawn drawn' : Str}
    {text text' : String} (graph : Drawing.graph net marking = .ok drawn)
    (encoded : drawn.encode = .ok text) (graph' : Drawing.graph net' marking' = .ok drawn')
    (encoded' : drawn'.encode = .ok text') (indifferent : Drawing.Indifferent renderer) :
    (Drawing.rendered renderer net marking path).2.map Drawing.RenderFault.isTold =
      (Drawing.rendered renderer net' marking' path).2.map Drawing.RenderFault.isTold := by
  unfold Drawing.rendered
  rw [graph,graph']
  dsimp only
  split
  · rfl
  · rw [encoded,encoded']
    cases renderer with
    | none => rfl
    | some run =>
      have settles (rendering : Drawing.Rendering) : Option.map Drawing.RenderFault.isTold
          (match rendering with
          | .ended 0 _ image => (image,none)
          | .ended _ stderr image => (image,some (.failed stderr))
          | .givenUp message image => (image,some (.givenUp message)) :
            Option Text.Utf8.Bytes × Option Drawing.RenderFault).2 =
          match rendering.done? with
          | some true => none
          | some false => some true
          | none => some false := by
        cases rendering with
        | ended status stderr image => cases status <;> rfl
        | givenUp message image => rfl
      dsimp only
      rw [settles,settles,indifferent run rfl]

theorem graphStrokes_encoded {left right : Monitor} {drawn drawn' : Str} {text text' : String}
    (graph : Drawing.graph left.net left.marking = .ok drawn) (encoded : drawn.encode = .ok text)
    (graph' : Drawing.graph right.net right.marking = .ok drawn')
    (encoded' : drawn'.encode = .ok text')
    (indifferent : AsksImage options → Drawing.Indifferent renderer) :
    (graphStrokes renderer options left).Alike (graphStrokes renderer options right) := by
  have saved (path : Path) (stderr stderr' : String) (image image' : Option (Path × Text.Utf8.Bytes)) :
      (Strokes.saving (Drawing.graph left.net left.marking) path stderr image).Alike
        (Strokes.saving (Drawing.graph right.net right.marking) path stderr' image') := by
    simp only [Strokes.saving,graph,encoded,graph',encoded']
    exact ⟨Iff.rfl,fun _ => rfl⟩
  unfold graphStrokes
  cases wanted : options.graph with
  | none => exact ⟨Iff.rfl,fun _ => rfl⟩
  | some target =>
    cases target with
    | screen =>
      simp only [printed,graph,encoded,graph',encoded',Except.bind,Except.map]
      exact ⟨Iff.rfl,fun _ => rfl⟩
    | file path =>
      dsimp only
      split
      · rename_i image
        have kinds := @rendered_alike _ path _ _ _ _ _ _ _ _ graph encoded graph' encoded'
          (indifferent ⟨path,wanted,image⟩)
        generalize Drawing.rendered renderer left.net left.marking path = ran at kinds ⊢
        generalize Drawing.rendered renderer right.net right.marking path = ran' at kinds ⊢
        obtain ⟨image,fault⟩ := ran
        obtain ⟨image',fault'⟩ := ran'
        cases fault with
        | none =>
          cases fault' with
          | none => exact ⟨Iff.rfl,fun _ => rfl⟩
          | some fault' => cases kinds
        | some fault =>
          cases fault' with
          | none => cases kinds
          | some fault' =>
            have told : fault.isTold = fault'.isTold := Option.some.inj kinds
            dsimp only
            rw [told]
            split
            · exact saved _ _ _ _ _
            · exact .both (Option.some_ne_none _) (Option.some_ne_none _)
      · exact saved _ _ _ _ _

section

variable {left right : Monitor} {digest digest' : Nat} (net : left.net = right.net)
  (made : left.marking.digest = .ok digest) (made' : right.marking.digest = .ok digest')
include net made made'

theorem drawTable_alike :
    (drawTable options left).2 = none ↔ (drawTable options right).2 = none := by
  rw [drawTable_none_iff,drawTable_none_iff,encodes_table made,encodes_table made',net]

theorem graphStrokes_alike (indifferent : AsksImage options → Drawing.Indifferent renderer) :
    (graphStrokes renderer options left).Alike (graphStrokes renderer options right) := by
  have graphs : Encodes (Drawing.graph left.net left.marking) ↔
      Encodes (Drawing.graph right.net right.marking) := by
    rw [encodes_graph made,encodes_graph made',net]
  by_cases asked : options.graph = none
  · rw [graphStrokes,graphStrokes,asked]
    exact ⟨Iff.rfl,fun _ => rfl⟩
  · by_cases encodes : Encodes (Drawing.graph left.net left.marking)
    · obtain ⟨drawn,text,graph,encoded⟩ := encodes.text
      obtain ⟨drawn',text',graph',encoded'⟩ := (graphs.mp encodes).text
      exact graphStrokes_encoded graph encoded graph' encoded' indifferent
    · exact .both (graphStrokes_unencoded asked encodes)
        (graphStrokes_unencoded asked (mt graphs.mpr encodes))

-- Whether the final marking can be drawn is settled by the net and the directories.
theorem draw_alike {files' : Files}
    (indifferent : AsksImage options → Drawing.Indifferent renderer) (tree : Files.SameTree files files') :
    (draw renderer options left files).2 = none ↔ (draw renderer options right files').2 = none := by
  have tables := @drawTable_alike options _ _ _ _ net made made'
  have graphs := @graphStrokes_alike _ options _ _ _ _ net made made' indifferent
  rw [draw_eq,draw_eq]
  refine Strokes.Alike.carryOut ?_ tree
  unfold strokes
  generalize drawTable options left = table at tables ⊢
  generalize drawTable options right = table' at tables ⊢
  obtain ⟨table,fault⟩ := table
  obtain ⟨table',fault'⟩ := table'
  cases fault with
  | none =>
    cases tables.mp rfl
    exact ⟨graphs.fault,graphs.graph⟩
  | some fault =>
    cases fault' with
    | none => cases tables.mpr rfl
    | some fault' => exact .both (Option.some_ne_none _) (Option.some_ne_none _)

end

-- Where the final marking may be written: as an image, as a graph, or as a graph beside the image.
def picturesOf (options : Options) : List Path :=
  match options.graph with
  | some (.file path) =>
    if path.suffix ∈ imageSuffixes then [path,path.withSuffix ".dot"] else [path]
  | _ => []

section

variable {left right : Files} {log : Path} {bytes : Text.Utf8.Bytes}
  {image : Option (Path × Text.Utf8.Bytes)} {strokes : Strokes}

theorem sameBut_afterImage (same : left.SameBut log right) :
    Files.SameBut log (afterImage image left) (afterImage image right) := by
  unfold afterImage
  split
  · exact same
  · rename_i path image
    dsimp only [Drawing.leave]
    cases written : left.write path image with
    | ok next =>
      obtain ⟨next',written',same'⟩ := same.write written
      rw [written']
      exact same'
    | error fault =>
      cases written' : right.write path image with
      | error fault' => exact same
      | ok next' =>
        obtain ⟨next,clash,-⟩ := same.symm.write written'
        rw [written] at clash
        cases clash

theorem carryOut_stdout : (strokes.carryOut files).1.stdout = strokes.stdout := by
  unfold Strokes.carryOut
  cases strokes.graph with
  | none => rfl
  | some save =>
    dsimp only
    cases Files.writeText (afterImage strokes.image files) save.1 save.2 <;> rfl

-- A graph is left behind as an image is.
theorem carryOut_files : (strokes.carryOut files).1.files =
    afterImage (strokes.graph.map fun save => (save.1,Text.Utf8.encode save.2))
      (afterImage strokes.image files) := by
  unfold Strokes.carryOut
  cases strokes.graph with
  | none => rfl
  | some save =>
    dsimp only [Option.map_some,afterImage,Drawing.leave,Files.writeText]
    cases Files.write _ save.1 (Text.Utf8.encode save.2) <;> rfl

-- A drawing is carried out alike on trees that differ in the log alone.
theorem draw_sameBut (same : left.SameBut log right) :
    (draw renderer options monitor left).1.stdout = (draw renderer options monitor right).1.stdout ∧
      ((draw renderer options monitor left).2 = none ↔
        (draw renderer options monitor right).2 = none) ∧
      Files.SameBut log (draw renderer options monitor left).1.files
        (draw renderer options monitor right).1.files := by
  rw [draw_eq,draw_eq,carryOut_stdout,carryOut_stdout,carryOut_files,carryOut_files]
  exact ⟨rfl,Strokes.Alike.carryOut ⟨Iff.rfl,fun _ => rfl⟩ same.toSameTree,
    sameBut_afterImage (sameBut_afterImage same)⟩

theorem sameTree_draw : Files.SameTree files (draw renderer options monitor files).1.files := by
  rw [draw_eq,carryOut_files]
  exact sameTree_afterImage.trans sameTree_afterImage

-- What is written is written to some of the given paths.
structure Strokes.Within (places : List Path) (strokes : Strokes) : Prop where
  image : ∀ save ∈ strokes.image, save.1 ∈ places
  graph : ∀ save ∈ strokes.graph, save.1 ∈ places

theorem Strokes.within_saving {graph : Except TextFault Str} {stderr : String} {places : List Path}
    (imaged : ∀ save ∈ image, save.1 ∈ places) (listed : path ∈ places) :
    (Strokes.saving graph path stderr image).Within places := by
  unfold Strokes.saving
  cases graph with
  | error fault => exact ⟨imaged,fun save member => (nomatch member)⟩
  | ok graph =>
    dsimp only
    cases graph.encode <;> exact ⟨imaged,fun save member => Option.some.inj member ▸ listed⟩

theorem graphStrokes_within :
    (graphStrokes renderer options monitor).Within (picturesOf options) := by
  have nothing {α : Type} {places : α → Prop} : ∀ save ∈ (none : Option α), places save :=
    fun save member => nomatch member
  unfold graphStrokes picturesOf
  cases options.graph with
  | none => exact ⟨nothing,nothing⟩
  | some target =>
    cases target with
    | screen =>
      dsimp only
      cases printed (Drawing.graph monitor.net monitor.marking) <;> exact ⟨nothing,nothing⟩
    | file path =>
      dsimp only
      split
      · generalize Drawing.rendered renderer monitor.net monitor.marking path = ran
        obtain ⟨image,fault⟩ := ran
        have imaged : ∀ save ∈ image.map fun image => (path,image),
            save.1 ∈ [path,path.withSuffix ".dot"] := by
          intro save member
          obtain ⟨_,_,rfl⟩ := Option.map_eq_some_iff.mp member
          exact List.mem_cons_self
        cases fault with
        | none => exact ⟨imaged,nothing⟩
        | some fault =>
          dsimp only
          split
          · exact Strokes.within_saving imaged (List.mem_cons_of_mem _ List.mem_cons_self)
          · exact ⟨imaged,nothing⟩
      · exact Strokes.within_saving nothing List.mem_cons_self

theorem strokes_within : (Replay.strokes renderer options monitor).Within (picturesOf options) := by
  unfold Replay.strokes
  cases drawTable options monitor with
  | mk table fault =>
    cases fault with
    | none => exact ⟨graphStrokes_within.image,graphStrokes_within.graph⟩
    | some fault => exact ⟨fun save member => (nomatch member),fun save member => (nomatch member)⟩

theorem afterImage_keeps (apart : ∀ save ∈ image, ¬files.Meet save.1 path)
    (read : files.read path = .ok bytes) : (afterImage image files).read path = .ok bytes := by
  unfold afterImage Drawing.leave
  split
  · exact read
  · dsimp only
    split
    · rename_i written
      exact Files.read_write_apart written (apart _ rfl) read
    · exact read

theorem draw_keeps (apart : ∀ picture ∈ picturesOf options, ¬files.Meet picture path)
    (read : files.read path = .ok bytes) :
    (draw renderer options monitor files).1.files.read path = .ok bytes := by
  have within := @strokes_within renderer options monitor
  rw [draw_eq,carryOut_files]
  refine afterImage_keeps ?_ (afterImage_keeps (fun save member => apart _ (within.image save member)) read)
  intro save member
  obtain ⟨graph,given,rfl⟩ := Option.map_eq_some_iff.mp member
  exact fun meet => apart _ (within.graph graph given) (sameTree_afterImage.meet meet)

end

end Replay

end ProtocolNet
