import ProtocolNet.Proofs.Framing

namespace ProtocolNet

-- What can be done to a marking from outside. A place is reached either in a way
-- that stores it, or in a way that leaves a place alone which is not stored.
inductive Edit
  | insert (place : Str)
  | add (place : Str) (token : Token) (copies : Nat)
  | addStored (place : Str) (token : Token) (copies : Nat)
  | draw (place : Str) (token : Token) (copies : Nat)
  | withdraw (place : Str) (token : Token) (copies : Nat)
deriving DecidableEq

-- The edits that take nothing out and do not depend on what is stored.
inductive Edit.Adds : Edit → Prop
  | insert {place : Str} : Adds (.insert place)
  | add {place : Str} {token : Token} {copies : Nat} : Adds (.add place token copies)

namespace Marking

def edit (marking : Marking) : Edit → Marking
  | .insert place => marking.insert place
  | .add place token copies => marking.add place token copies
  | .addStored place token copies => marking.changeStored place (·.add token copies)
  | .draw place token copies => marking.draw place token copies
  | .withdraw place token copies => (marking.withdraw place token copies).1

def edited (marking : Marking) (edits : List Edit) : Marking := edits.foldl edit marking

end Marking

-- The books of a marking, kept without bags, tables or an order: which places are
-- stored and how many copies there are.
@[ext]
structure Ledger where
  stored : Str → Bool
  counts : Counts

namespace Ledger

def store (ledger : Ledger) (place : Str) : Ledger :=
  { ledger with stored := fun probe => ledger.stored probe || place = probe }

def credit (ledger : Ledger) (place : Str) (token : Token) (copies : Nat) : Ledger :=
  { ledger with counts := fun probe other =>
      ledger.counts probe other + if place = probe ∧ token = other then copies else 0 }

-- All or nothing: what is not covered is not taken.
def debit (ledger : Ledger) (place : Str) (token : Token) (copies : Nat) : Ledger :=
  { ledger with counts := fun probe other =>
      if place = probe ∧ token = other ∧ copies ≤ ledger.counts place token then
        ledger.counts probe other - copies
      else ledger.counts probe other }

def enter (ledger : Ledger) : Edit → Ledger
  | .insert place => ledger.store place
  | .add place token copies => (ledger.store place).credit place token copies
  | .addStored place token copies =>
    ledger.credit place token (if ledger.stored place then copies else 0)
  | .draw place token copies => (ledger.store place).debit place token copies
  | .withdraw place token copies => ledger.debit place token copies

def after (ledger : Ledger) (edits : List Edit) : Ledger := edits.foldl enter ledger

theorem enter_comm {former latter : Edit} (adds : former.Adds) (adds' : latter.Adds)
    (ledger : Ledger) : (ledger.enter former).enter latter = (ledger.enter latter).enter former := by
  refine Ledger.ext ?_ ?_
  · funext probe
    cases adds <;> cases adds' <;> exact Bool.or_right_comm _ _ _
  · funext probe other
    cases adds <;> cases adds' <;> simp only [enter,store,credit,Nat.add_right_comm]

theorem after_perm {edits edits' : List Edit} (adds : ∀ edit ∈ edits, edit.Adds)
    (reordered : edits.Perm edits') (ledger : Ledger) : ledger.after edits = ledger.after edits' :=
  reordered.foldl_eq' (fun former member latter member' ledger =>
    enter_comm (adds former member) (adds latter member') ledger) ledger

end Ledger

namespace Marking

variable {marking left right : Marking} {place probe : Str} {token other : Token} {copies : Nat}

def stored (marking : Marking) (place : Str) : Bool := (marking.table.get? place).isSome

def ledger (marking : Marking) : Ledger := ⟨marking.stored,marking.count⟩

theorem stored_change {f : Bag → Bag} :
    (marking.change place f).stored probe = (marking.stored probe || place = probe) := by
  have names : name place = name probe ↔ place = probe := name_eq_iff
  simp only [stored,change,Table.get?_put,names]
  by_cases hit : place = probe
  · simp [hit]
  · simp [hit]

theorem changeStored_eq {f : Bag → Bag} : marking.changeStored place f =
    if marking.stored place = true then marking.change place f else marking := rfl

theorem stored_changeStored {f : Bag → Bag} :
    (marking.changeStored place f).stored probe = marking.stored probe := by
  rw [changeStored_eq]
  split
  · rename_i present
    rw [stored_change]
    by_cases hit : place = probe
    · subst hit; simp [present]
    · simp [hit]
  · rfl

theorem count_insert : (marking.insert place).count probe other = marking.count probe other := by
  rw [count,bag_insert,count]

-- What was added can be taken out again, and then it has never been there.
theorem count_draw_add : ((marking.add place token copies).draw place token copies).count probe
    other = marking.count probe other := by
  rw [count_draw,count_add,count_add]
  by_cases hit : place = probe ∧ token = other
  · rw [if_pos ⟨hit.1,hit.2,by simp⟩,if_pos hit,Nat.add_sub_cancel]
  · rw [if_neg fun taken => hit ⟨taken.1,taken.2.1⟩,if_neg hit,Nat.add_zero]

theorem count_addStored : (marking.changeStored place (·.add token copies)).count probe other =
    marking.count probe other +
      if place = probe ∧ token = other then (if marking.stored place then copies else 0) else 0 := by
  rw [changeStored_eq]
  by_cases present : marking.stored place = true
  · rw [if_pos present,if_pos present]
    exact count_add
  · rw [if_neg present,if_neg present]
    simp

-- Every edit of a marking is the same edit of its books.
theorem ledger_edit (marking : Marking) (edit : Edit) :
    (marking.edit edit).ledger = marking.ledger.enter edit := by
  cases edit with
  | insert place =>
    refine Ledger.ext (funext fun probe => stored_change (f := id)) ?_
    funext probe other
    exact count_insert
  | add place token copies =>
    refine Ledger.ext (funext fun probe => stored_change) ?_
    funext probe other
    exact count_add
  | addStored place token copies =>
    refine Ledger.ext (funext fun probe => stored_changeStored) ?_
    funext probe other
    exact count_addStored
  | draw place token copies =>
    refine Ledger.ext (funext fun probe => stored_change) ?_
    funext probe other
    exact count_draw
  | withdraw place token copies =>
    refine Ledger.ext (funext fun probe => stored_changeStored) ?_
    funext probe other
    exact count_withdraw.trans count_draw

theorem ledger_edited (marking : Marking) (edits : List Edit) :
    (marking.edited edits).ledger = marking.ledger.after edits := by
  induction edits generalizing marking with
  | nil => rfl
  | cons edit rest ih =>
    change ((marking.edit edit).edited rest).ledger = (marking.ledger.enter edit).after rest
    rw [ih,ledger_edit]

theorem digest_ok_iff : (∃ digest, marking.digest = .ok digest) ↔
    ∀ place ∈ marking.contents, place.2.isWritable = true ∧ ∃ name : String, place.1 = ↑name := by
  rw [← stream_ok_iff,digest]
  cases marking.stream <;> simp [Except.map]

theorem stream_eq_iff (short : left.Encodable) (short' : right.Encodable) :
    left.stream = right.stream ↔ left.sameContents right = true := by
  constructor
  · intro same
    simpa [sameContents] using contents_eq_of_stream_eq short short' same
  · intro same
    exact stream_congr same

-- The digest is a hash of a stream that tells what a marking holds and nothing else:
-- not the order in which things came, nor places that are empty, nor tokens that
-- have been there.
theorem stream_tells_contents (left right : Marking) (edits edits' : List Edit)
    (short : (left.edited edits).Encodable) (short' : (right.edited edits').Encodable) :
    (∃ fed fed', (left.edited edits).stream = .ok fed ∧ (right.edited edits').stream = .ok fed' ∧
      (fed = fed' ↔ (left.edited edits).sameContents (right.edited edits') = true)) ∧
    ((left.edited edits).sameContents (right.edited edits') = true ↔
      ∀ place token, (left.edited edits).count place token = (right.edited edits').count place token) ∧
    ((left.edited edits).sameContents (right.edited edits') = true →
      (left.edited edits).digest = (right.edited edits').digest) ∧
    (∀ place token, (left.edited edits).count place token =
      (left.ledger.after edits).counts place token) ∧
    (∀ more more' : List Edit, (∀ edit ∈ more, edit.Adds) → more.Perm more' →
      (left.edited (edits ++ more)).stream = (left.edited (edits ++ more')).stream) ∧
    (∀ place, ((left.edited edits).insert place).stream = (left.edited edits).stream) ∧
    ∀ place token copies, (((left.edited edits).add place token copies).draw
      place token copies).stream = (left.edited edits).stream := by
  refine ⟨?_,sameContents_iff,digest_congr,?_,?_,?_,?_⟩
  · obtain ⟨places,-,-,made⟩ := short.stream
    obtain ⟨places',-,-,made'⟩ := short'.stream
    have same := stream_eq_iff short short'
    rw [made,made',Except.ok.injEq] at same
    exact ⟨_,_,made,made',same⟩
  · intro place token
    rw [← ledger_edited,ledger]
  · intro more more' adds reordered
    have books : (left.edited (edits ++ more)).ledger = (left.edited (edits ++ more')).ledger := by
      simp only [ledger_edited,Ledger.after,List.foldl_append]
      exact Ledger.after_perm adds reordered _
    apply stream_congr
    rw [sameContents_iff]
    intro place token
    exact congrFun (congrFun (congrArg Ledger.counts books) place) token
  · intro place
    exact stream_congr (sameContents_iff.mpr fun probe other => count_insert)
  · intro place token copies
    exact stream_congr (sameContents_iff.mpr fun probe other => count_draw_add)

-- The same contents, reached with and without detours.
def detour : List Edit :=
  [.insert "spare",.add "held" (.ident .lock 1) 2,.add "free" .unit 1,
    .draw "held" (.ident .lock 1) 1,.withdraw "gone" .unit 3]

def direct : List Edit := [.add "free" .unit 1,.add "held" (.ident .lock 1) 1]

theorem encodable_of_named {places : List (String × Bag)}
    (listed : marking.contents = places.map fun place => (↑place.1,place.2))
    (fits : ∀ place ∈ places, place.2.isWritable = true ∧ PlaceFits place) : marking.Encodable := by
  intro place member
  rw [listed] at member
  obtain ⟨named,known,rfl⟩ := List.mem_map.mp member
  exact ⟨(fits named known).1,named.1,rfl,(fits named known).2⟩

theorem stream_tells_contents_detour : (empty.edited detour).Encodable ∧
    (empty.edited direct).Encodable ∧ (empty.edited detour).stream.isOk = true ∧
    (empty.edited detour).stream = (empty.edited direct).stream := by
  let places : List (String × Bag) :=
    [("free",Bag.empty.add .unit 1),("held",Bag.empty.add (.ident .lock 1) 1)]
  have fits : ∀ place ∈ places, place.2.isWritable = true ∧ PlaceFits place := by
    unfold PlaceFits ItemFits Short; decide +kernel
  have short : (empty.edited detour).Encodable :=
    @encodable_of_named _ places (by decide +kernel) fits
  have short' : (empty.edited direct).Encodable :=
    @encodable_of_named _ places (by decide +kernel) fits
  obtain ⟨fed,fed',made,made',same⟩ := (stream_tells_contents empty empty detour direct short short').1
  have equal : fed = fed' := same.mpr (by decide +kernel)
  rw [made,made',equal]
  exact ⟨short,short',rfl,rfl⟩

end Marking

end ProtocolNet
