import ProtocolNet.Text.Letter

namespace ProtocolNet

-- Things that are told apart, and put in order, by the code points of their names.
class Named (α : Type) where
  name : α → List Nat
  name_inj : ∀ {a b : α}, name a = name b → a = b

export Named (name)

instance : Named String where
  name s := s.toList.map Char.toNat
  name_inj same := String.toList_inj.mp ((List.map_inj_right fun _ _ => Char.toNat_inj.mp).mp same)

instance : Named Str where
  name s := s.map Letter.code
  name_inj same := (List.map_inj_right fun _ _ => Letter.code_inj).mp same

theorem name_eq_iff {κ : Type} [Named κ] {a b : κ} : name a = name b ↔ a = b :=
  ⟨Named.name_inj,congrArg name⟩

structure Table (κ υ : Type) [Named κ] where
  entries : List (κ × υ)
  ordered : entries.Pairwise fun a b => name a.1 < name b.1

namespace Table

variable {κ υ : Type} [Named κ]

def empty : Table κ υ := ⟨[],.nil⟩

def lookup (key : κ) : List (κ × υ) → Option υ
  | [] => none
  | (k,v) :: rest => if name k = name key then some v else lookup key rest

def get? (table : Table κ υ) (key : κ) : Option υ := lookup key table.entries

def putEntry (key : κ) (value : υ) : List (κ × υ) → List (κ × υ)
  | [] => [(key,value)]
  | entry :: rest =>
    if name key < name entry.1 then (key,value) :: entry :: rest
    else if name key = name entry.1 then (key,value) :: rest
    else entry :: putEntry key value rest

theorem mem_putEntry {key : κ} {value : υ} {entry : κ × υ} {entries : List (κ × υ)}
    (member : entry ∈ putEntry key value entries) : entry = (key,value) ∨ entry ∈ entries := by
  induction entries with
  | nil => simpa [putEntry] using member
  | cons head rest ih =>
    rw [putEntry] at member
    split at member
    · simpa using member
    · split at member
      · rcases List.mem_cons.1 member with rfl | tail
        · exact .inl rfl
        · exact .inr (List.mem_cons_of_mem _ tail)
      · rcases List.mem_cons.1 member with rfl | tail
        · exact .inr List.mem_cons_self
        · exact (ih tail).imp_right (List.mem_cons_of_mem _)

theorem lt_of_not_lt_of_ne {a b : List Nat} (above : ¬ a < b) (apart : a ≠ b) : b < a :=
  Decidable.byContradiction fun notBelow =>
    apart (List.le_antisymm (List.not_lt.1 notBelow) (List.not_lt.1 above))

theorem ordered_putEntry {key : κ} {value : υ} {entries : List (κ × υ)}
    (ordered : entries.Pairwise fun a b => name a.1 < name b.1) :
    (putEntry key value entries).Pairwise fun a b => name a.1 < name b.1 := by
  induction ordered with
  | nil => simp [putEntry]
  | @cons head rest before sorted ih =>
    rw [putEntry]
    split
    · rename_i below
      refine .cons (fun entry member => ?_) (.cons before sorted)
      rcases List.mem_cons.1 member with rfl | tail
      · exact below
      · exact List.lt_trans below (before entry tail)
    · rename_i notBelow
      split
      · rename_i same
        exact .cons (fun entry member => same ▸ before entry member) sorted
      · rename_i apart
        refine .cons (fun entry member => ?_) ih
        rcases mem_putEntry member with rfl | tail
        · exact lt_of_not_lt_of_ne notBelow apart
        · exact before entry tail

def put (table : Table κ υ) (key : κ) (value : υ) : Table κ υ :=
  ⟨putEntry key value table.entries,ordered_putEntry table.ordered⟩

def erase (table : Table κ υ) (key : κ) : Table κ υ :=
  ⟨table.entries.filter fun entry => !decide (name entry.1 = name key),table.ordered.filter _⟩

def keys (table : Table κ υ) : List κ := table.entries.map (·.1)

theorem nodup_keys (table : Table κ υ) : table.keys.Nodup := by
  refine List.pairwise_map.mpr (table.ordered.imp ?_)
  intro former latter before same
  rw [same] at before
  exact List.lt_irrefl _ before

def ofList (entries : List (κ × υ)) : Table κ υ :=
  entries.foldl (fun table (key,value) => table.put key value) empty

theorem lookup_putEntry {key probe : κ} {value : υ} {entries : List (κ × υ)} :
    lookup probe (putEntry key value entries) =
      if name key = name probe then some value else lookup probe entries := by
  induction entries with
  | nil => simp [putEntry,lookup]
  | cons head rest ih =>
    rw [putEntry]
    split
    · simp [lookup]
    · split
      · rename_i same
        by_cases hit : name key = name probe <;> simp [lookup,hit,← same]
      · rename_i apart
        by_cases hit : name head.1 = name probe
        · have missed : name key ≠ name probe := fun h => apart (h.trans hit.symm)
          simp [lookup,hit,missed]
        · simp [lookup,hit,ih]

@[simp] theorem get?_put {table : Table κ υ} {key probe : κ} {value : υ} :
    (table.put key value).get? probe =
      if name key = name probe then some value else table.get? probe :=
  lookup_putEntry

theorem lookup_eq_none {key : κ} {entries : List (κ × υ)}
    (apart : ∀ entry ∈ entries, name entry.1 ≠ name key) : lookup key entries = none := by
  induction entries with
  | nil => rfl
  | cons head rest ih =>
    rw [lookup,if_neg (apart head List.mem_cons_self)]
    exact ih fun entry member => apart entry (List.mem_cons_of_mem _ member)

theorem lookup_filter {key probe : κ} {entries : List (κ × υ)} :
    lookup probe (entries.filter fun entry => !decide (name entry.1 = name key)) =
      if name key = name probe then none else lookup probe entries := by
  induction entries with
  | nil => simp [lookup]
  | cons head rest ih =>
    by_cases taken : name head.1 = name key
    · simp only [List.filter_cons,taken,decide_true,Bool.not_true,Bool.false_eq_true,if_false]
      rw [ih,lookup,taken]
      split <;> rfl
    · have kept : (!decide (name head.1 = name key)) = true := by simp [taken]
      rw [List.filter_cons,if_pos kept,lookup,lookup,ih]
      by_cases hit : name head.1 = name probe
      · have missed : name key ≠ name probe := fun h => taken (hit.trans h.symm)
        simp [hit,missed]
      · simp [hit]

@[simp] theorem get?_erase {table : Table κ υ} {key probe : κ} :
    (table.erase key).get? probe = if name key = name probe then none else table.get? probe :=
  lookup_filter

theorem lookup_of_mem {key : κ} {value : υ} {entries : List (κ × υ)}
    (ordered : entries.Pairwise fun a b => name a.1 < name b.1)
    (member : (key,value) ∈ entries) : lookup key entries = some value := by
  induction ordered with
  | nil => cases member
  | @cons head rest before _ ih =>
    rcases List.mem_cons.1 member with rfl | tail
    · simp [lookup]
    · have apart : name head.1 ≠ name key := fun same => by
        have below : name head.1 < name key := before _ tail
        exact List.lt_irrefl _ (same ▸ below)
      rw [lookup,if_neg apart,ih tail]

theorem mem_of_lookup {key : κ} {value : υ} {entries : List (κ × υ)}
    (found : lookup key entries = some value) : (key,value) ∈ entries := by
  induction entries with
  | nil => cases found
  | cons head rest ih =>
    rw [lookup] at found
    split at found
    · rename_i same
      cases found
      exact Named.name_inj same ▸ List.mem_cons_self
    · exact List.mem_cons_of_mem _ (ih found)

theorem mem_entries_iff {table : Table κ υ} {key : κ} {value : υ} :
    (key,value) ∈ table.entries ↔ table.get? key = some value :=
  ⟨lookup_of_mem table.ordered,mem_of_lookup⟩

theorem entries_eq_of_mem_iff {left right : List (κ × υ)}
    (leftOrdered : left.Pairwise fun a b => name a.1 < name b.1)
    (rightOrdered : right.Pairwise fun a b => name a.1 < name b.1)
    (same : ∀ entry, entry ∈ left ↔ entry ∈ right) : left = right := by
  induction leftOrdered generalizing right with
  | nil =>
    cases right with
    | nil => rfl
    | cons head rest => exact absurd ((same head).2 List.mem_cons_self) List.not_mem_nil
  | @cons head rest before sorted ih =>
    cases rightOrdered with
    | nil => exact absurd ((same head).1 List.mem_cons_self) List.not_mem_nil
    | @cons other more after sortedMore =>
      have heads : head = other := by
        rcases List.mem_cons.1 ((same head).1 List.mem_cons_self) with equal | inMore
        · exact equal
        · rcases List.mem_cons.1 ((same other).2 List.mem_cons_self) with equal | inRest
          · exact equal.symm
          · exact absurd (after head inMore) (List.lt_asymm (before other inRest))
      subst heads
      refine congrArg (head :: ·) (ih sortedMore fun entry => ⟨fun member => ?_,fun member => ?_⟩)
      · rcases List.mem_cons.1 ((same entry).1 (List.mem_cons_of_mem _ member)) with rfl | tail
        · exact absurd (before _ member) (List.lt_irrefl _)
        · exact tail
      · rcases List.mem_cons.1 ((same entry).2 (List.mem_cons_of_mem _ member)) with rfl | tail
        · exact absurd (after _ member) (List.lt_irrefl _)
        · exact tail

theorem ext_get? {left right : Table κ υ} (same : ∀ key, left.get? key = right.get? key) :
    left = right := by
  have entries : left.entries = right.entries :=
    entries_eq_of_mem_iff left.ordered right.ordered fun (key,value) => by
      rw [mem_entries_iff,mem_entries_iff,same]
  cases left; cases right; cases entries; rfl

end Table

def sortedNames {κ : Type} [Named κ] (names : List κ) : List κ :=
  (Table.ofList (names.map fun n => (n,()))).keys

end ProtocolNet
