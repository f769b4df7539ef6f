namespace ProtocolNet.Text

def unifyLineEnds : List Char → List Char
  | [] => []
  | '\r' :: '\n' :: rest => '\n' :: unifyLineEnds rest
  | c :: rest => (if c = '\r' then '\n' else c) :: unifyLineEnds rest

def linesFrom (begun : List Char) : List Char → List (List Char)
  | [] => if begun = [] then [] else [begun.reverse]
  | '\n' :: rest => begun.reverse :: linesFrom [] rest
  | c :: rest => linesFrom (c :: begun) rest

def lines (s : List Char) : List (List Char) := linesFrom [] s

def unlines (ls : List (List Char)) : List Char := ls.flatMap (· ++ ['\n'])

theorem linesFrom_append {begun line : List Char} (rest : List Char) (single : '\n' ∉ line) :
    linesFrom begun (line ++ '\n' :: rest) = (begun.reverse ++ line) :: linesFrom [] rest := by
  induction line generalizing begun with
  | nil => simp [linesFrom]
  | cons c line ih =>
    simp only [List.mem_cons,not_or] at single
    rw [List.cons_append,linesFrom,ih single.2]
    · simp
    · intro broke; exact single.1 broke.symm

end ProtocolNet.Text
