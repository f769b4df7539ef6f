import ProtocolNet.Proofs.DecodedValues

namespace ProtocolNet.Json

mutual

-- The lexemes that write a value. A value is taken here for the tree of a text: the fields of an
-- object are all that are written, whatever their keys.
def spelled : Json → List Lexeme
  | .null => [.scalar .null]
  | .bool value => [.scalar (.bool value)]
  | .int n => [.scalar (.int n)]
  | .float x => [.scalar (.float x)]
  | .str s => [.string s]
  | .arr items => .openArray :: ([.comma].intercalate (spelledItems items) ++ [.closeArray])
  | .obj fields => .openObject :: ([.comma].intercalate (spelledFields fields) ++ [.closeObject])

def spelledItems : List Json → List (List Lexeme)
  | [] => []
  | item :: rest => spelled item :: spelledItems rest

def spelledFields : List (Str × Json) → List (List Lexeme)
  | [] => []
  | (key,value) :: rest => (.string key :: .colon :: spelled value) :: spelledFields rest

end

-- A text writes a tree: its lexemes are those of the tree, and the end.
def WritesTree (s : List Char) (tree : Json) : Prop := (lexemes s).map (·.2) = spelled tree ++ [.fin]

-- Every field of an object is kept.
def keepAll : Policy := fun pairs => .ok (.obj pairs)

def spelledField (field : Str × Json) : List Lexeme := .string field.1 :: .colon :: spelled field.2

-- Lexemes that take decoding from one state to another, wherever they stand.
inductive Takes : Expected → List Lexeme → Expected → Prop
  | none {expected : Expected} : Takes expected [] expected
  | next {expected middle next : Expected} {lexeme : Lexeme} {later : List Lexeme}
      (unended : lexeme ≠ .fin) (stepped : ∀ offset, step keepAll offset lexeme expected = .ok middle)
      (rest : Takes middle later next) : Takes expected (lexeme :: later) next

variable {α : Type} {sep : α} {parts : List (List α)} {part : List α}

theorem intercalate_cons : [sep].intercalate (part :: parts) = part ++ parts.flatMap (sep :: ·) := by
  induction parts generalizing part with
  | nil => simp [List.intercalate]
  | cons next parts ih =>
    rw [List.flatMap_cons,List.intercalate_cons_cons,ih]
    simp

theorem intercalate_snoc : [sep].intercalate (parts ++ [part]) = parts.flatMap (· ++ [sep]) ++ part := by
  induction parts with
  | nil => simp [List.intercalate]
  | cons first parts ih =>
    rw [List.cons_append,List.flatMap_cons,List.append_assoc,← ih]
    cases parts <;> simp [List.intercalate]

variable {expected middle next : Expected} {frames : List Frame} {lexeme : Lexeme}
  {taken later : List Lexeme} {value tree : Json} {items done : List Json} {s : List Char}
  {fields pairs : List (Str × Json)} {key : Str} {offset : Nat} {policy : Policy}
  {placed : List (Nat × Lexeme)} {c : Char} {length : Nat} {negative : Bool}

theorem spelledItems_eq (items : List Json) : spelledItems items = items.map spelled := by
  induction items with
  | nil => rfl
  | cons item items ih => rw [spelledItems,ih,List.map_cons]

theorem spelledFields_eq (fields : List (Str × Json)) :
    spelledFields fields = fields.map spelledField := by
  induction fields with
  | nil => rfl
  | cons field fields ih => rw [spelledFields,ih,List.map_cons]; rfl

theorem spelled_of_scalar (scalar : Scalar value) : spelled value = [.scalar value] := by
  cases scalar <;> rw [spelled]

theorem spelled_arr_snoc : spelled (.arr (items ++ [value])) =
    .openArray :: (items.flatMap (spelled · ++ [.comma]) ++ spelled value ++ [.closeArray]) := by
  rw [spelled,spelledItems_eq,List.map_append,List.map_singleton,intercalate_snoc,List.flatMap_map]

theorem spelled_obj_snoc : spelled (.obj (fields ++ [(key,value)])) =
    .openObject :: (fields.flatMap (spelledField · ++ [.comma]) ++ spelledField (key,value) ++
      [.closeObject]) := by
  rw [spelled,spelledFields_eq,List.map_append,List.map_singleton,intercalate_snoc,List.flatMap_map]

-- The lexemes that opened frames and filled them so far.
def before : List Frame → List Lexeme
  | [] => []
  | .array items :: frames =>
    before frames ++ .openArray :: items.reverse.flatMap (spelled · ++ [.comma])
  | .object fields key :: frames =>
    before frames ++ .openObject :: (fields.reverse.flatMap (spelledField · ++ [.comma]) ++
      [.string key,.colon])

-- The lexemes behind which something is expected.
def Expected.read : Expected → List Lexeme
  | .value frames => before frames
  | .firstItem frames => before frames ++ [.openArray]
  | .firstKey frames => before frames ++ [.openObject]
  | .key fields frames =>
    before frames ++ .openObject :: fields.reverse.flatMap (spelledField · ++ [.comma])
  | .colon fields key frames =>
    before frames ++ .openObject :: (fields.reverse.flatMap (spelledField · ++ [.comma]) ++
      [.string key])
  | .delimiter value frames => before frames ++ spelled value

theorem startValue_read (scalar : ∀ value, lexeme = .scalar value → Scalar value)
    (stepped : startValue offset lexeme frames = .ok next) : next.read = before frames ++ [lexeme] := by
  cases lexeme with
  | scalar value =>
    cases stepped
    rw [Expected.read,spelled_of_scalar (scalar value rfl)]
  | string s =>
    cases stepped
    rw [Expected.read,spelled]
  | openArray | openObject =>
    cases stepped
    rfl
  | closeObject | closeArray | colon | comma | longInteger | badString | stray | fin => cases stepped

theorem startKey_read (stepped : startKey offset lexeme fields frames = .ok next) :
    next.read = before frames ++ .openObject :: (fields.reverse.flatMap (spelledField · ++ [.comma]) ++
      [lexeme]) := by
  cases lexeme with
  | string key =>
    cases stepped
    rfl
  | openArray | openObject | closeObject | closeArray | colon | comma | longInteger | badString | stray
  | fin | scalar => cases stepped

-- One step reads one lexeme.
theorem step_read (scalar : ∀ value, lexeme = .scalar value → Scalar value)
    (stepped : step keepAll offset lexeme expected = .ok next) :
    next.read = expected.read ++ [lexeme] := by
  unfold step at stepped
  split at stepped
  · exact startValue_read scalar stepped
  · split at stepped
    · cases stepped
      simp [Expected.read,spelled,spelledItems,List.intercalate]
    · rw [startValue_read scalar stepped]
      simp [Expected.read,before]
  · split at stepped
    · cases stepped
      simp [Expected.read,spelled,spelledFields,List.intercalate]
    · rw [startKey_read stepped]
      simp [Expected.read]
  · rw [startKey_read stepped]
    simp [Expected.read]
  · split at stepped
    · cases stepped
      simp [Expected.read,before]
    · cases stepped
  · cases stepped
  · split at stepped
    · cases stepped
      simp [Expected.read,before]
    · cases stepped
      rw [Expected.read,Expected.read,List.reverse_cons,spelled_arr_snoc]
      simp [before]
    · cases stepped
  · split at stepped
    · cases stepped
      simp [Expected.read,before,spelledField]
    · cases stepped
      rw [Expected.read,Expected.read,List.reverse_cons,spelled_obj_snoc]
      simp [before,spelledField]
    · cases stepped

theorem Fed.read (fed : Fed keepAll expected placed tree)
    (scalars : ∀ offset value, (offset,Lexeme.scalar value) ∈ placed → Scalar value) : ∃ rest,
      expected.read ++ placed.map (·.2) = spelled tree ++ .fin :: rest := by
  induction fed with
  | @done value offset rest => exact ⟨rest.map (·.2),rfl⟩
  | @next expected next offset lexeme rest value stepped _ ih =>
    have scalar : ∀ value, lexeme = .scalar value → Scalar value := by
      rintro value rfl
      exact scalars offset value List.mem_cons_self
    obtain ⟨behind,whole⟩ := ih fun offset value member =>
      scalars offset value (List.mem_cons_of_mem _ member)
    refine ⟨behind,?_⟩
    rw [← whole,step_read scalar stepped]
    simp

theorem feed_nil : feed policy expected [] = .error (.at .value 0) := by
  rw [feed]

theorem feed_cons (unended : ∀ value, expected = .delimiter value [] → lexeme ≠ .fin) :
    feed policy expected ((offset,lexeme) :: placed) =
      (step policy offset lexeme expected).bind fun next => feed policy next placed := by
  rw [feed]
  · cases step policy offset lexeme expected <;> rfl
  · exact unended

theorem unended_of_scanNumber? (scanned : scanNumber? negative s = some (lexeme,length)) :
    lexeme ≠ .fin := by
  rintro rfl
  unfold scanNumber? at scanned
  dsimp only at scanned
  split at scanned
  · cases scanned
  · split at scanned
    · cases scanned
    · split at scanned
      · split at scanned <;> cases scanned
      · cases scanned

-- The end of a text is no lexeme inside it.
theorem unended_lexemeAt : (lexemeAt offset c s).1 ≠ .fin := by
  intro same
  unfold lexemeAt at same
  split at same
  any_goals cases same
  · split at same <;> cases same
  · split at same
    · cases same
    · split at same
      · split at same
        · rename_i lexeme length scanned
          exact unended_of_scanNumber? scanned same
        · cases same
      · cases scanned : scanNumber? false (c :: s) with
        | none => rw [scanned] at same; cases same
        | some found =>
          rw [scanned,Option.getD_some] at same
          exact unended_of_scanNumber? scanned same

theorem fin_last {skip : Nat}
    (whole : (lexemesFrom skip offset s).map (·.2) = taken ++ .fin :: later) : later = [] := by
  induction s generalizing skip offset taken with
  | nil =>
    rw [lexemesFrom] at whole
    cases taken with
    | nil => exact (List.cons.inj whole).2.symm
    | cons first taken => simp at whole
  | cons c s ih =>
    cases skip with
    | succ skip => exact ih whole
    | zero =>
      rw [lexemesFrom] at whole
      split at whole
      · exact ih whole
      · cases taken with
        | nil => exact absurd (List.cons.inj whole).1 unended_lexemeAt
        | cons first taken => exact ih (List.cons.inj whole).2

theorem Takes.feed (takes : Takes expected taken next) (same : placed.map (·.2) = taken)
    (others : List (Nat × Lexeme)) :
    feed keepAll expected (placed ++ others) = feed keepAll next others := by
  induction takes generalizing placed with
  | none =>
    rw [List.map_eq_nil_iff.mp same]
    rfl
  | next unended stepped _ ih =>
    obtain ⟨⟨offset,lexeme⟩,placed,rfl,rfl,same⟩ := List.map_eq_cons_iff.mp same
    rw [List.cons_append,feed_cons fun _ _ => unended,stepped]
    exact ih (List.cons.inj same).2

mutual

theorem takes_value (value : Json) (expected : Expected) (frames : List Frame)
    (awaits : Awaits keepAll expected frames) (later : List Lexeme)
    (rest : Takes (.delimiter value frames) later next) :
    Takes expected (spelled value ++ later) next := by
  cases value with
  | null | bool | int | float | str =>
    rw [spelled]
    exact .next Lexeme.noConfusion (fun offset => awaits offset _ Lexeme.noConfusion) rest
  | arr items =>
    rw [spelled,List.cons_append,List.append_assoc]
    refine .next Lexeme.noConfusion (fun offset => awaits offset _ Lexeme.noConfusion) ?_
    cases items with
    | nil => exact .next Lexeme.noConfusion (fun _ => rfl) rest
    | cons item items =>
      rw [spelledItems,intercalate_cons,List.append_assoc]
      exact takes_value item _ _ awaits_firstItem _ (takes_items items item [] frames later rest)
  | obj fields =>
    rw [spelled,List.cons_append,List.append_assoc]
    refine .next Lexeme.noConfusion (fun offset => awaits offset _ Lexeme.noConfusion) ?_
    cases fields with
    | nil => exact .next Lexeme.noConfusion (fun _ => rfl) rest
    | cons field fields =>
      obtain ⟨key,value⟩ := field
      rw [spelledFields,intercalate_cons,List.append_assoc]
      refine .next Lexeme.noConfusion (fun _ => rfl) (.next Lexeme.noConfusion (fun _ => rfl) ?_)
      exact takes_value value _ _ awaits_value _ (takes_fields fields value key [] frames later rest)

theorem takes_items (items : List Json) (value : Json) (done : List Json) (frames : List Frame)
    (later : List Lexeme)
    (rest : Takes (.delimiter (.arr (done.reverse ++ value :: items)) frames) later next) :
    Takes (.delimiter value (.array done :: frames))
      ((spelledItems items).flatMap (.comma :: ·) ++ ([.closeArray] ++ later)) next := by
  cases items with
  | nil =>
    refine .next Lexeme.noConfusion (fun _ => rfl) ?_
    rwa [List.reverse_cons]
  | cons item items =>
    rw [spelledItems,List.flatMap_cons,List.append_assoc]
    refine .next Lexeme.noConfusion (fun _ => rfl) ?_
    refine takes_value item _ _ awaits_value _ (takes_items items item (value :: done) frames later ?_)
    rwa [List.reverse_cons,List.append_assoc]

theorem takes_fields (fields : List (Str × Json)) (value : Json) (key : Str)
    (done : List (Str × Json)) (frames : List Frame) (later : List Lexeme)
    (rest : Takes (.delimiter (.obj (done.reverse ++ (key,value) :: fields)) frames) later next) :
    Takes (.delimiter value (.object done key :: frames))
      ((spelledFields fields).flatMap (.comma :: ·) ++ ([.closeObject] ++ later)) next := by
  cases fields with
  | nil =>
    refine .next Lexeme.noConfusion (fun _ => rfl) ?_
    rwa [List.reverse_cons]
  | cons field fields =>
    obtain ⟨other,item⟩ := field
    rw [spelledFields,List.flatMap_cons,List.append_assoc]
    refine .next Lexeme.noConfusion (fun _ => rfl) (.next Lexeme.noConfusion (fun _ => rfl) (.next Lexeme.noConfusion (fun _ => rfl) ?_))
    refine takes_value item _ _ awaits_value _
      (takes_fields fields item other ((key,value) :: done) frames later ?_)
    rwa [List.reverse_cons,List.append_assoc]

end

theorem unmarked_of_writesTree (writes : WritesTree s tree) : s.head? ≠ some '\uFEFF' := by
  intro marked
  obtain ⟨s,rfl⟩ : ∃ others, s = '\uFEFF' :: others := List.head?_eq_some_iff.mp marked
  have opening : ((lexemes ('\uFEFF' :: s)).map (·.2)).head? = some .stray := rfl
  have spells : ∀ value later, (spelled value ++ later).head? ≠ some .stray := by
    intro value later
    cases value <;> simp [spelled]
  rw [writes] at opening
  exact spells _ _ opening

-- A text writes a tree exactly when decoding it with all fields kept gives the tree.
theorem writesTree_iff : WritesTree s tree ↔ decodeWith keepAll s = .ok tree := by
  constructor
  · intro writes
    have unmarked := unmarked_of_writesTree writes
    obtain ⟨placed,ending,whole,tokens,final⟩ := List.map_eq_append_iff.mp writes
    obtain ⟨⟨offset,lexeme⟩,rfl,rfl⟩ := List.map_eq_singleton_iff.mp final
    have takes : Takes (.value []) (spelled tree ++ []) (.delimiter tree []) :=
      takes_value tree _ _ awaits_value [] .none
    rw [List.append_nil] at takes
    have fed : feed keepAll (.value []) (lexemes s) = .ok tree := by
      rw [whole,takes.feed tokens]
      rfl
    unfold decodeWith
    split
    · exact absurd rfl unmarked
    · rw [fed]
  · intro decoded
    unfold decodeWith at decoded
    split at decoded
    · cases decoded
    · split at decoded
      · rename_i value fed
        cases decoded
        obtain ⟨later,whole⟩ := (fed_of_feed fed).read fun _ _ => scalar_of_mem_lexemesFrom
        rw [Expected.read,before,List.nil_append] at whole
        have ended := fin_last whole
        rwa [ended] at whole
      · cases decoded

end ProtocolNet.Json
