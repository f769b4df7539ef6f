import ProtocolNet.Files
import ProtocolNet.Net
import ProtocolNet.Text.Backslash

namespace ProtocolNet.Drawing

def inQuotes (body : Str) : Str := "\"" ++ body ++ "\""

-- A name stands in double quotes with its quotes and backslashes escaped, so that
-- no name can end its quotes.
def escape (s : Str) : Str := Text.Backslash.escapeByChars s

-- A line break inside a label.
def labelBreak : Str := "\\n"

def placeNode (place : Str) : Str := inQuotes ("p:" ++ escape place)

def transitionNode (id : Str) : Str := inQuotes ("t:" ++ escape id)

def placeLabel (place : Str) (bag : Bag) : Str :=
  escape place ++ bag.entries.flatMap fun entry => labelBreak ++ escape (Bag.entryText entry)

def placeLine (place : Str) (bag : Bag) : Str :=
  let fill := if bag.isEmpty then "white" else "lightblue"
  "  " ++ placeNode place ++ " [shape=circle, style=filled, fillcolor=" ++ fill ++ ", label=" ++
    inQuotes (placeLabel place bag) ++ "];"

def transitionLine (id : Str) : Str :=
  "  " ++ transitionNode id ++ " [shape=box, style=filled, fillcolor=lightyellow, label=" ++
    inQuotes (escape id) ++ "];"

def edgeLine (origin target : Str) (pattern : Pattern) : Str :=
  "  " ++ origin ++ " -> " ++ target ++ " [label=" ++ inQuotes (escape pattern.text) ++ "];"

def transitionLines (transition : Transition) : List Str :=
  let node := transitionNode transition.id
  transitionLine transition.id ::
    (transition.pre.map fun arc => edgeLine (placeNode arc.place) node arc.pattern) ++
    transition.post.map fun arc => edgeLine node (placeNode arc.place) arc.pattern

def graphLines (net : Net) (marking : Marking) : List Str :=
  [("digraph CPN \x7b" : Str),"  rankdir=LR;"] ++
  (net.allPlaces.map fun place => placeLine place (marking.bag place)) ++
  net.transitions.entries.flatMap transitionLines ++
  [("\x7d" : Str)]

def isWritable (net : Net) (marking : Marking) : Bool :=
  (net.allPlaces.all fun place => (marking.bag place).isWritable) &&
  net.transitions.entries.all (·.isWritable)

def graph (net : Net) (marking : Marking) : Except TextFault Str :=
  TextFault.gated (isWritable net marking) (Str.joined "\n" (graphLines net marking))

def padTo (width : Nat) (s : Str) : Str := s ++ List.replicate (width - s.length) (.char ' ')

-- A negative number of characters counts from the end of the text.
def leading (count : Int) (s : Str) : Str :=
  match count with
  | .ofNat n => s.take n
  | .negSucc n => s.take (s.length - (n + 1))

def fit (width : Int) (line : Str) : Str :=
  if width < line.length then leading (width - 3) line ++ "..." else line

def tableLine (column : Nat) (width : Int) (place : Str) (bag : Bag) : Str :=
  let tokens := if bag.isEmpty then "(empty)" else bag.entriesText
  fit width (padTo column place ++ " | " ++ tokens)

def defaultWidth : Int := 80

def tableLines (net : Net) (marking : Marking) (width : Int) : List Str :=
  let places := net.allPlaces
  let column := (places.map List.length).foldl max 0
  "=== Marking ===" :: places.map fun place => tableLine column width place (marking.bag place)

-- The places of the net with their tokens, and the digest of all of the marking below.
def table (net : Net) (marking : Marking) (width : Int) : Except TextFault Str :=
  if net.allPlaces.all fun place => (marking.bag place).isWritable then
    marking.digest.map fun digest =>
      let last : Str := "hash: " ++ Nat.repr digest
      Str.joined "\n" (tableLines net marking width ++ [last])
  else .error .unwritable

inductive SaveFault where
  | text (fault : TextFault)
  | file (fault : Files.Fault)
deriving DecidableEq, Repr

-- A graph that cannot be encoded leaves its file empty.
def save (net : Net) (marking : Marking) (path : Path) (files : Files) :
    Files × Option SaveFault :=
  match graph net marking with
  | .error fault => (files,some (.text fault))
  | .ok graph =>
    let (text,fault) :=
      match graph.encode with
      | .ok text => (text,none)
      | .error fault => ("",some (SaveFault.text fault))
    match files.writeText path text with
    | .ok files => (files,fault)
    | .error refused => (files,some (.file refused))

-- What comes of running the program that renders graphs: its status and what it said
-- when it ended by itself, else why it was given up. It may leave an image either way.
inductive Rendering where
  | ended (status : Nat) (stderr : String) (image : Option Text.Utf8.Bytes)
  | givenUp (message : String) (image : Option Text.Utf8.Bytes)
deriving DecidableEq, Repr

-- The rendering of a graph in a format to a path; `none` where the program is not installed.
abbrev Renderer := Option (String → Path → String → Rendering)

inductive RenderFault where
  | text (fault : TextFault)
  | nullCharacter
  | notInstalled
  | failed (stderr : String)
  | givenUp (message : String)
deriving DecidableEq, Repr

def RenderFault.message : RenderFault → String
  | .text fault => fault.message
  | .nullCharacter => Files.Fault.nullCharacter.message
  | .notInstalled => "Graphviz 'dot' command not found. Install Graphviz to render images."
  | .failed stderr => "Graphviz error: " ++ stderr
  | .givenUp message => message

-- Faults that the caller is told of as such; any other one ends it.
def RenderFault.isTold : RenderFault → Bool
  | .notInstalled | .failed _ => true
  | _ => false

-- The format follows the suffix of the image.
def formatFor (path : Path) : String :=
  match path.suffix.toList.dropWhile (· = '.') with
  | [] => "png"
  | format => .ofList format

def leave (files : Files) (path : Path) : Option Text.Utf8.Bytes → Files
  | none => files
  | some image =>
    match files.write path image with
    | .ok files => files
    | .error _ => files

-- The graph is made before anything is run, and handed over once the program runs.
def render (renderer : Renderer) (net : Net) (marking : Marking) (path : Path) (files : Files) :
    Files × Option RenderFault :=
  match graph net marking with
  | .error fault => (files,some (.text fault))
  | .ok graph =>
    if path.hasNull then (files,some .nullCharacter)
    else
      match renderer, graph.encode with
      | none, _ => (files,some .notInstalled)
      | some _, .error fault => (files,some (.text fault))
      | some run, .ok graph =>
        match run (formatFor path) path graph with
        | .ended 0 _ image => (leave files path image,none)
        | .ended _ stderr image => (leave files path image,some (.failed stderr))
        | .givenUp message image => (leave files path image,some (.givenUp message))

end ProtocolNet.Drawing
