import ProtocolNet.Files

namespace ProtocolNet.Files

-- Trees with the same directories: a path leads to the same spot in both, if it leads anywhere.
structure SameTree (left right : Files) : Prop where
  current : left.current = right.current
  directories : ∀ key, left.table.get? key = some .directory ↔ right.table.get? key = some .directory

-- Two paths that lead to one node.
def Meet (files : Files) (path path' : Path) : Prop :=
  ∃ spot spot', files.spot path = .ok spot ∧ files.spot path' = .ok spot' ∧ key spot = key spot'

-- Trees that agree on everything but what stands at the end of one path.
structure SameBut (log : Path) (left right : Files) : Prop extends SameTree left right where
  elsewhere : ∀ probe, (∀ spot, left.spot log = .ok spot → key spot ≠ probe) →
    left.table.get? probe = right.table.get? probe

variable {files left right middle next : Files} {log path path' : Path} {there start : Spot}
  {names : List String} {bytes bytes' : Text.Utf8.Bytes}

instance : Decidable (files.Meet path path') :=
  match led : files.spot path, led' : files.spot path' with
  | .ok spot, .ok spot' =>
    if same : key spot = key spot' then isTrue ⟨spot,spot',led,led',same⟩
    else isFalse fun ⟨_,_,there,there',same'⟩ => by
      cases led.symm.trans there
      cases led'.symm.trans there'
      exact same same'
  | .error _, _ => isFalse fun ⟨_,_,there,_⟩ => by cases led.symm.trans there
  | _, .error _ => isFalse fun ⟨_,_,_,there',_⟩ => by cases led'.symm.trans there'

theorem SameTree.refl : SameTree files files := ⟨rfl,fun _ => Iff.rfl⟩

theorem SameTree.symm (same : SameTree left right) : SameTree right left :=
  ⟨same.current.symm,fun key => (same.directories key).symm⟩

theorem SameTree.trans (same : SameTree left middle) (same' : SameTree middle right) :
    SameTree left right :=
  ⟨same.current.trans same'.current,fun key => (same.directories key).trans (same'.directories key)⟩

theorem SameTree.node (same : SameTree left right) :
    left.node? there = some .directory ↔ right.node? there = some .directory := by
  unfold node?
  split
  · exact Iff.rfl
  · exact same.directories (key there)

theorem walk_cons {name : String} : files.walk start (name :: names) = .ok there ↔
    files.node? start = some .directory ∧ name.utf8ByteSize ≤ nameLimit ∧
      files.walk (below start name) names = .ok there := by
  rw [walk]
  cases node : files.node? start with
  | none => simp
  | some found =>
    cases found with
    | file bytes => simp
    | directory =>
      by_cases long : nameLimit < name.utf8ByteSize
      · simp [long,Nat.not_le.mpr long]
      · simp [long,Nat.not_lt.mp long]

theorem SameTree.walk (same : SameTree left right) (walked : left.walk start names = .ok there) :
    right.walk start names = .ok there := by
  induction names generalizing start with
  | nil => exact walked
  | cons name rest ih =>
    obtain ⟨directory,short,later⟩ := walk_cons.mp walked
    exact walk_cons.mpr ⟨same.node.mp directory,short,ih later⟩

theorem spot_ok_iff : files.spot path = .ok there ↔ path.hasNull = false ∧
    path.text.utf8ByteSize ≤ pathLimit ∧ files.walk (files.origin path) path.names = .ok there := by
  unfold Files.spot
  by_cases null : path.hasNull = true
  · simp [null]
  · by_cases long : pathLimit < path.text.utf8ByteSize
    · simp [null,long,Nat.not_le.mpr long]
    · cases walked : files.walk (files.origin path) path.names with
      | ok found => simp [null,long,Nat.not_lt.mp long]
      | error problem => simp [null,long,Nat.not_lt.mp long]

theorem SameTree.spot (same : SameTree left right) (led : left.spot path = .ok there) :
    right.spot path = .ok there := by
  obtain ⟨whole,short,walked⟩ := spot_ok_iff.mp led
  have origin : left.origin path = right.origin path := by
    unfold Files.origin
    rw [same.current]
  rw [origin] at walked
  exact spot_ok_iff.mpr ⟨whole,short,same.walk walked⟩

-- A file can be written wherever a path leads, unless there is a directory.
theorem write_ok_iff : files.write path bytes = .ok right ↔ ∃ spot, files.spot path = .ok spot ∧
    files.node? spot ≠ some .directory ∧
    right = { files with table := files.table.put (key spot) (.file bytes) } := by
  unfold write
  cases led : files.spot path with
  | error fault => simp
  | ok spot =>
    dsimp only
    split
    · rename_i directory
      simp [directory]
    · rename_i free
      simp only [Except.ok.injEq,exists_eq_left']
      constructor
      · intro same
        exact ⟨free,same.symm⟩
      · intro written
        exact written.2.symm

theorem spot_null_iff : files.spot path = .error .nullCharacter ↔ path.hasNull = true := by
  unfold Files.spot
  by_cases null : path.hasNull = true
  · simp [null]
  · by_cases long : pathLimit < path.text.utf8ByteSize
    · simp [null,long]
    · cases walked : files.walk (files.origin path) path.names with
      | ok found => simp [null,long]
      | error problem => simp [null,long]

theorem read_null_iff : files.read path = .error .nullCharacter ↔ path.hasNull = true := by
  rw [← @spot_null_iff files path]
  unfold read
  cases led : files.spot path with
  | error fault => simp
  | ok there => dsimp only; split <;> simp

theorem write_null_iff :
    files.write path bytes = .error .nullCharacter ↔ path.hasNull = true := by
  rw [← @spot_null_iff files path]
  unfold write
  cases led : files.spot path with
  | error fault => simp
  | ok there => dsimp only; split <;> simp

theorem get?_of_node (free : files.node? there ≠ some .directory) :
    files.table.get? (key there) ≠ some .directory := by
  intro directory
  unfold node? at free
  split at free
  · exact free rfl
  · exact free directory

theorem sameTree_write (written : left.write path bytes = .ok right) : SameTree left right := by
  obtain ⟨spot,led,free,rfl⟩ := write_ok_iff.mp written
  refine ⟨rfl,fun probe => ?_⟩
  rw [Table.get?_put]
  by_cases hit : name (key spot) = name probe
  · rw [if_pos hit]
    have same : key spot = probe := Named.name_inj hit
    have none := get?_of_node free
    rw [same] at none
    simp [none]
  · rw [if_neg hit]

-- Whether a file can be written does not depend on what stands in any file.
theorem SameTree.write (same : SameTree left right)
    (written : ∃ next, left.write path bytes = .ok next) : ∃ next, right.write path bytes' = .ok next := by
  obtain ⟨next,written⟩ := written
  obtain ⟨spot,led,free,-⟩ := write_ok_iff.mp written
  exact ⟨_,write_ok_iff.mpr ⟨spot,same.spot led,fun directory => free (same.node.mpr directory),rfl⟩⟩

theorem read_ok_iff : files.read path = .ok bytes ↔
    ∃ spot, files.spot path = .ok spot ∧ files.node? spot = some (.file bytes) := by
  unfold read
  cases led : files.spot path with
  | error fault => simp
  | ok spot =>
    dsimp only
    split
    · rename_i found node
      simp [node]
    · rename_i node
      simp [node]
    · rename_i node
      simp [node]

-- Writing one file leaves all others as they are.
theorem read_write_apart (written : left.write path bytes = .ok right)
    (apart : ¬left.Meet path path') (read : left.read path' = .ok bytes') :
    right.read path' = .ok bytes' := by
  have same := sameTree_write written
  obtain ⟨spot,led,free,rfl⟩ := write_ok_iff.mp written
  obtain ⟨spot',led',node⟩ := read_ok_iff.mp read
  refine read_ok_iff.mpr ⟨spot',same.spot led',?_⟩
  have keys : key spot ≠ key spot' := fun same => apart ⟨spot,spot',led,led',same⟩
  have other : ¬name (key spot) = name (key spot') := fun same => keys (Named.name_inj same)
  rw [node?] at node ⊢
  rw [Table.get?_put,if_neg other]
  exact node

theorem SameTree.meet (same : SameTree left right) (meet : right.Meet log path) :
    left.Meet log path := by
  obtain ⟨spot,spot',led,led',keys⟩ := meet
  exact ⟨spot,spot',same.symm.spot led,same.symm.spot led',keys⟩

theorem SameBut.refl : SameBut log files files := ⟨.refl,fun _ _ => rfl⟩

theorem SameBut.symm (same : SameBut log left right) : SameBut log right left :=
  ⟨same.toSameTree.symm,fun probe apart =>
    (same.elsewhere probe fun spot led => apart spot (same.spot led)).symm⟩

theorem SameBut.trans (same : SameBut log left middle) (same' : SameBut log middle right) :
    SameBut log left right := by
  refine ⟨same.toSameTree.trans same'.toSameTree,fun probe apart => ?_⟩
  rw [same.elsewhere probe apart]
  exact same'.elsewhere probe fun spot led => apart spot (same.symm.spot led)

theorem sameBut_write (written : files.write log bytes = .ok next) : SameBut log files next := by
  refine ⟨sameTree_write written,fun probe apart => ?_⟩
  obtain ⟨spot,led,-,rfl⟩ := write_ok_iff.mp written
  have other : ¬name (key spot) = name probe := fun same => apart spot led (Named.name_inj same)
  rw [Table.get?_put,if_neg other]

-- The same change made to both trees keeps them the same elsewhere.
theorem SameBut.write (same : SameBut log left right) (written : left.write path bytes = .ok next) :
    ∃ next', right.write path bytes = .ok next' ∧ SameBut log next next' := by
  have sameTree := sameTree_write written
  obtain ⟨spot,led,free,rfl⟩ := write_ok_iff.mp written
  have free' : right.node? spot ≠ some .directory :=
    fun directory => free (same.toSameTree.node.mpr directory)
  have written' := (@write_ok_iff right _ path bytes).mpr ⟨spot,same.spot led,free',rfl⟩
  refine ⟨_,written',⟨(sameTree.symm.trans same.toSameTree).trans (sameTree_write written'),?_⟩⟩
  intro probe apart
  rw [Table.get?_put,Table.get?_put]
  split
  · rfl
  · exact same.elsewhere probe fun spot led => apart spot (sameTree.spot led)

theorem SameBut.node (same : SameBut log left right) (led : left.spot path = .ok there)
    (apart : ¬left.Meet log path) : right.node? there = left.node? there := by
  unfold node?
  split
  · rfl
  · exact (same.elsewhere _ fun spot led' keys => apart ⟨spot,there,led',led,keys⟩).symm

theorem SameBut.read (same : SameBut log left right) (apart : ¬left.Meet log path) :
    left.read path = .ok bytes ↔ right.read path = .ok bytes := by
  simp only [read_ok_iff]
  constructor
  · rintro ⟨spot,led,node⟩
    exact ⟨spot,same.spot led,(same.node led apart).trans node⟩
  · rintro ⟨spot,led,node⟩
    have led' := same.symm.spot led
    exact ⟨spot,led',(same.node led' apart).symm.trans node⟩

theorem pathExists_true_iff : files.pathExists path = .ok true ↔
    ∃ spot, files.spot path = .ok spot ∧ (files.node? spot).isSome = true := by
  unfold pathExists
  cases led : files.spot path with
  | ok spot => simp
  | error fault =>
    cases fault with
    | nullCharacter => simp
    | refused problem written => cases problem <;> simp

end ProtocolNet.Files
