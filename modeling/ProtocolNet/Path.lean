namespace ProtocolNet

structure Path where
  root : String
  names : List String
deriving DecidableEq, Repr

namespace Path

def pieces : List Char → List (List Char)
  | [] => [[]]
  | c :: rest =>
    if c = '/' then [] :: pieces rest
    else
      match pieces rest with
      | [] => [[c]]
      | piece :: more => (c :: piece) :: more

def rootOf : List Char → String
  | '/' :: '/' :: '/' :: _ => "/"
  | '/' :: '/' :: _ => "//"
  | '/' :: _ => "/"
  | _ => ""

def ofText (s : String) : Path :=
  let names := (pieces s.toList).map String.ofList
  ⟨rootOf s.toList,names.filter fun n => n ≠ "" ∧ n ≠ "."⟩

def text (path : Path) : String :=
  let joined := path.root ++ "/".intercalate path.names
  if joined = "" then "." else joined

def hasNull (path : Path) : Bool := path.names.any fun n => n.toList.contains '\x00'

def lastName (path : Path) : String := path.names.getLastD ""

def splitSuffix (name : List Char) : List Char × List Char :=
  let tail := (name.reverse.takeWhile (· ≠ '.')).reverse
  match name.reverse.dropWhile (· ≠ '.') with
  | _ :: front =>
    if front.isEmpty || tail.isEmpty then (name,[]) else (front.reverse,'.' :: tail)
  | [] => (name,[])

def suffix (path : Path) : String :=
  .ofList ((splitSuffix path.lastName.toList).2.map Char.toLower)

def withSuffix (path : Path) (suffix : String) : Path :=
  let stem := String.ofList (splitSuffix path.lastName.toList).1
  { path with names := path.names.dropLast ++ [stem ++ suffix] }

end Path

end ProtocolNet
