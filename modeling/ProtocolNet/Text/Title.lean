import ProtocolNet.Text.CaseTable

namespace ProtocolNet.Text

def inRanges (ranges : List (Nat × Nat)) (c : Char) : Bool :=
  ranges.any fun (first,last) => first ≤ c.toNat && c.toNat ≤ last

def isCased (c : Char) : Bool := inRanges casedRanges c

def isCaseIgnorable (c : Char) : Bool := inRanges caseIgnorableRanges c

def caseForm (sequences : List (Nat × List Nat)) (runs : List CaseRun) (c : Char) : List Char :=
  match sequences.lookup c.toNat with
  | some form => form.map Char.ofNat
  | none =>
    match runs.find? (·.holds c.toNat) with
    | some run => [Char.ofNat (c.toNat + run.shift).toNat]
    | none => [c]

def titleForm (c : Char) : List Char := caseForm titleSequences titleRuns c

def nextIsCased (s : List Char) : Bool :=
  match s.dropWhile isCaseIgnorable with
  | [] => false
  | c :: _ => isCased c

def lowerForm (before : List Char) (c : Char) (after : List Char) : List Char :=
  if c = '\u03A3' then
    if nextIsCased before && !nextIsCased after then ['\u03C2'] else ['\u03C3']
  else caseForm lowerSequences lowerRuns c

def titleFrom (before : List Char) : List Char → List Char
  | [] => []
  | c :: rest =>
    let inWord := match before with
      | [] => false
      | last :: _ => isCased last
    (if inWord then lowerForm before c rest else titleForm c) ++ titleFrom (c :: before) rest

def titled (s : String) : String := .ofList (titleFrom [] s.toList)

end ProtocolNet.Text
