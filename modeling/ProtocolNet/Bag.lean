import ProtocolNet.Token

namespace ProtocolNet

-- Tokens with how many copies there are, at least one of each.
structure Bag where
  table : Table Token Nat
  positive : ∀ entry ∈ table.entries, 0 < entry.2

namespace Bag

def empty : Bag := ⟨.empty,fun _ member => nomatch member⟩

instance : Inhabited Bag := ⟨empty⟩

def entries (bag : Bag) : List (Token × Nat) := bag.table.entries

def tokens (bag : Bag) : List Token := bag.table.keys

def count (bag : Bag) (token : Token) : Nat := (bag.table.get? token).getD 0

def contains (bag : Bag) (token : Token) (copies : Nat) : Bool := copies ≤ bag.count token

def isEmpty (bag : Bag) : Bool := bag.entries.isEmpty

def size (bag : Bag) : Nat := bag.entries.length

def total (bag : Bag) : Nat := bag.entries.foldr (fun entry n => entry.2 + n) 0

theorem positive_put {table : Table Token Nat} {token : Token} {copies : Nat}
    (positive : ∀ entry ∈ table.entries, 0 < entry.2) (some : 0 < copies) :
    ∀ entry ∈ (table.put token copies).entries, 0 < entry.2 := fun _ member =>
  (Table.mem_putEntry member).elim (fun new => new ▸ some) (positive _)

def setCount (bag : Bag) (token : Token) (copies : Nat) : Bag :=
  if some : 0 < copies then ⟨bag.table.put token copies,positive_put bag.positive some⟩
  else ⟨bag.table.erase token,fun entry member => bag.positive entry (List.mem_filter.1 member).1⟩

def add (bag : Bag) (token : Token) (copies : Nat) : Bag :=
  bag.setCount token (bag.count token + copies)

-- All or nothing: with fewer copies in the bag than asked for, none is taken.
def remove? (bag : Bag) (token : Token) (copies : Nat) : Option Bag :=
  if copies ≤ bag.count token then some (bag.setCount token (bag.count token - copies)) else none

def remove (bag : Bag) (token : Token) (copies : Nat) : Bag :=
  (bag.remove? token copies).getD bag

@[simp] theorem count_empty {token : Token} : empty.count token = 0 := rfl

@[simp] theorem count_setCount {bag : Bag} {token probe : Token} {copies : Nat} :
    (bag.setCount token copies).count probe = if token = probe then copies else bag.count probe := by
  have names : name token = name probe ↔ token = probe := name_eq_iff
  unfold setCount
  split
  · by_cases hit : token = probe <;> simp [count,names,hit]
  · by_cases hit : token = probe
    · simp only [count,Table.get?_erase,hit,if_true]
      exact (Nat.eq_zero_of_not_pos ‹_›).symm
    · simp [count,names,hit]

@[simp] theorem count_add {bag : Bag} {token probe : Token} {copies : Nat} :
    (bag.add token copies).count probe =
      bag.count probe + if token = probe then copies else 0 := by
  rw [add,count_setCount]
  split <;> simp_all

theorem remove?_eq_some {bag : Bag} {token : Token} {copies : Nat}
    (enough : copies ≤ bag.count token) :
    bag.remove? token copies = some (bag.setCount token (bag.count token - copies)) :=
  if_pos enough

theorem remove?_eq_none {bag : Bag} {token : Token} {copies : Nat}
    (short : bag.count token < copies) : bag.remove? token copies = none :=
  if_neg (Nat.not_le.2 short)

theorem get?_eq_some_count {bag : Bag} {token : Token} (present : 0 < bag.count token) :
    bag.table.get? token = some (bag.count token) := by
  cases found : bag.table.get? token with
  | none => simp [count,found] at present
  | some n => simp [count,found]

theorem get?_eq_none_of_count {bag : Bag} {token : Token} (absent : bag.count token = 0) :
    bag.table.get? token = none := by
  cases found : bag.table.get? token with
  | none => rfl
  | some n =>
    have present := bag.positive _ (Table.mem_entries_iff.2 found)
    simp [count,found] at absent
    simp [absent] at present

theorem ext_count {left right : Bag} (same : ∀ token, left.count token = right.count token) :
    left = right := by
  have tables : left.table = right.table := Table.ext_get? fun token => by
    rcases Nat.eq_zero_or_pos (left.count token) with none | some
    · rw [get?_eq_none_of_count none,get?_eq_none_of_count (same token ▸ none)]
    · rw [get?_eq_some_count some,get?_eq_some_count (same token ▸ some),same]
  cases left; cases right; cases tables; rfl

instance : DecidableEq Bag := fun left right =>
  if same : left.entries = right.entries then
    isTrue (by
      rcases left with ⟨⟨entries,_⟩,_⟩
      rcases right with ⟨⟨entries',_⟩,_⟩
      have : entries = entries' := same
      cases this; rfl)
  else isFalse fun equal => same (equal ▸ rfl)

-- Tokens are put in order by their texts, so each of them must have one, even if it is alone.
def items (bag : Bag) : Except TextFault (List (Token × Nat)) :=
  TextFault.gated (bag.entries.all fun entry => entry.1.isWritable) bag.entries

def isWritable (bag : Bag) : Bool :=
  bag.entries.all fun entry => entry.1.isWritable && Text.isWritable entry.2

def entryText (entry : Token × Nat) : String := entry.1.text ++ " x" ++ Nat.repr entry.2

def entriesText (bag : Bag) : String := ", ".intercalate (bag.entries.map entryText)

def text (bag : Bag) : Except TextFault String :=
  TextFault.gated bag.isWritable ("[" ++ bag.entriesText ++ "]")

def description (bag : Bag) : Except TextFault String :=
  let entry (entry : Token × Nat) : String := entry.1.text ++ ": " ++ Nat.repr entry.2
  TextFault.gated bag.isWritable
    ("Multiset(\x7b" ++ ", ".intercalate (bag.entries.map entry) ++ "\x7d)")

structure BadCount where
  value : Json

def BadCount.message (bad : BadCount) : Str :=
  bad.value.told "count must be a non-negative integer, got "

def readCount (value : Json) : Except BadCount Nat :=
  match value.natural? with
  | some n => .ok n
  | none => .error ⟨value⟩

-- A token that has a count keeps its place among the others.
def assign (token : Token) (count : Json) : List (Token × Json) → List (Token × Json)
  | [] => [(token,count)]
  | (t,c) :: rest =>
    if t = token then (t,count) :: rest else (t,c) :: assign token count rest

-- The last count that a token is assigned is the one it has, and a count that is no
-- number is reported in the order in which the tokens were first named.
def ofAssignments (assignments : List (Token × Json)) : Except BadCount Bag :=
  let last := assignments.foldl (fun counts (token,count) => assign token count counts) []
  last.foldlM (fun bag (token,count) => (readCount count).map (bag.add token)) empty

end Bag

end ProtocolNet
