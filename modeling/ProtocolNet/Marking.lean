import ProtocolNet.Bag

namespace ProtocolNet

-- The bag of tokens in each place. A place that is not stored counts as an empty one.
structure Marking where
  table : Table Str Bag

namespace Marking

def empty : Marking := ⟨.empty⟩

instance : Inhabited Marking := ⟨empty⟩

def ofBags (bags : List (Str × Bag)) : Marking := ⟨.ofList bags⟩

def places (marking : Marking) : List Str := marking.table.keys

def bag (marking : Marking) (place : Str) : Bag := (marking.table.get? place).getD .empty

def count (marking : Marking) (place : Str) (token : Token) : Nat :=
  (marking.bag place).count token

def holds (marking : Marking) (place : Str) (token : Token) (copies : Nat) : Bool :=
  (marking.bag place).contains token copies

def contents (marking : Marking) : List (Str × Bag) :=
  marking.table.entries.filter fun (_,bag) => !bag.isEmpty

def isEmpty (marking : Marking) : Bool := marking.contents.isEmpty

def sameContents (left right : Marking) : Bool := left.contents = right.contents

def insert (marking : Marking) (place : Str) : Marking :=
  ⟨marking.table.put place (marking.bag place)⟩

def change (marking : Marking) (place : Str) (f : Bag → Bag) : Marking :=
  ⟨marking.table.put place (f (marking.bag place))⟩

def changeStored (marking : Marking) (place : Str) (f : Bag → Bag) : Marking :=
  if (marking.table.get? place).isSome then marking.change place f else marking

def add (marking : Marking) (place : Str) (token : Token) (copies : Nat) : Marking :=
  marking.change place (·.add token copies)

def draw (marking : Marking) (place : Str) (token : Token) (copies : Nat) : Marking :=
  marking.change place (·.remove token copies)

def withdraw (marking : Marking) (place : Str) (token : Token) (copies : Nat) :
    Marking × Bool :=
  (marking.changeStored place (·.remove token copies),marking.holds place token copies)

def addRead (marking : Marking) (place : Str) (token : Token) (copies : Json) :
    Marking × Except Bag.BadCount Unit :=
  match Bag.readCount copies with
  | .ok n => (marking.add place token n,.ok ())
  | .error bad => (marking.insert place,.error bad)

theorem bag_change {marking : Marking} {place probe : Str} {f : Bag → Bag} :
    (marking.change place f).bag probe =
      if place = probe then f (marking.bag place) else marking.bag probe := by
  have names : name place = name probe ↔ place = probe := name_eq_iff
  by_cases hit : place = probe <;> simp [change,bag,names,hit]

theorem bag_insert {marking : Marking} {place probe : Str} :
    (marking.insert place).bag probe = marking.bag probe := by
  change (marking.change place id).bag probe = _
  rw [bag_change]
  split <;> simp_all

theorem bag_changeStored {marking : Marking} {place probe : Str} {f : Bag → Bag}
    (stays : f .empty = .empty) :
    (marking.changeStored place f).bag probe =
      if place = probe then f (marking.bag place) else marking.bag probe := by
  unfold changeStored
  split
  · exact bag_change
  · rename_i absent
    have none : marking.bag place = .empty := by
      unfold bag; rw [Option.not_isSome_iff_eq_none.1 absent]; rfl
    by_cases hit : place = probe
    · subst hit; simp [none,stays]
    · simp [hit]

@[simp] theorem count_add {marking : Marking} {place probe : Str} {token other : Token}
    {copies : Nat} :
    (marking.add place token copies).count probe other =
      marking.count probe other + if place = probe ∧ token = other then copies else 0 := by
  unfold count add
  rw [bag_change]
  by_cases hit : place = probe
  · subst hit; simp
  · simp [hit]

theorem isEmpty_bag_iff {bag : Bag} : bag.isEmpty = true ↔ bag = .empty := by
  constructor
  · intro none
    rcases bag with ⟨⟨entries,_⟩,_⟩
    have : entries = [] := List.isEmpty_iff.1 none
    cases this; rfl
  · rintro rfl; rfl

theorem mem_contents_iff {marking : Marking} {place : Str} {stored : Bag} :
    (place,stored) ∈ marking.contents ↔ marking.bag place = stored ∧ stored ≠ .empty := by
  simp only [contents,List.mem_filter,Table.mem_entries_iff,Bool.not_eq_true',← Bool.not_eq_true,
    isEmpty_bag_iff]
  constructor
  · rintro ⟨found,filled⟩
    exact ⟨by simp [bag,found],filled⟩
  · rintro ⟨found,filled⟩
    refine ⟨?_,filled⟩
    cases get : marking.table.get? place with
    | none => exact absurd (by simp [bag,get] at found; exact found.symm) filled
    | some bag' => simp [bag,get] at found; simp [found]

theorem contents_eq_iff {left right : Marking} :
    left.contents = right.contents ↔
      ∀ place token, left.count place token = right.count place token := by
  constructor
  · intro same place token
    have bags : left.bag place = right.bag place := by
      have members (stored : Bag) : left.bag place = stored ∧ stored ≠ .empty ↔
          right.bag place = stored ∧ stored ≠ .empty := by
        rw [← mem_contents_iff,← mem_contents_iff,same]
      by_cases filled : left.bag place = .empty
      · by_cases other : right.bag place = .empty
        · rw [filled,other]
        · exact ((members _).2 ⟨rfl,other⟩).1
      · exact ((members _).1 ⟨rfl,filled⟩).1.symm
    simp only [count,bags]
  · intro same
    have bags (place : Str) : left.bag place = right.bag place := Bag.ext_count (same place)
    refine Table.entries_eq_of_mem_iff (left.table.ordered.filter _) (right.table.ordered.filter _)
      fun (place,stored) => ?_
    rw [mem_contents_iff,mem_contents_iff,bags]

def isWritable (marking : Marking) : Bool := marking.contents.all fun (_,bag) => bag.isWritable

def text (marking : Marking) : Except TextFault Str :=
  let entry (item : Str × Bag) : Str := item.1 ++ ": [" ++ item.2.entriesText ++ "]"
  TextFault.gated marking.isWritable
    ("Marking(\x7b" ++ Str.joined ", " (marking.contents.map entry) ++ "\x7d)")

end Marking

end ProtocolNet
