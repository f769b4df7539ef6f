import ProtocolNet.Engine
import ProtocolNet.Marking.Digest

namespace ProtocolNet

-- Contents are looked at through their counts only: a place that is stored but
-- empty and a place that is not stored cannot be told apart this way.
abbrev Counts := Str → Token → Nat

-- How many arcs ask a place for a token. An arc whose variable stands for no
-- token asks for nothing.
def drawnCount (binding : Binding) (arcs : List Arc) : Counts := fun place token =>
  arcs.countP fun arc => arc.place = place ∧ arc.resolve binding = some token

-- How many arcs give a token to a place, the unit token included.
def givenCount (binding : Binding) (arcs : List Arc) : Counts := fun place token =>
  arcs.countP fun arc => arc.place = place ∧ arc.produced binding = token

-- How many arcs at a place have a variable that stands for no token.
def unboundCount (binding : Binding) (arcs : List Arc) (place : Str) : Nat :=
  arcs.countP fun arc => arc.place = place ∧ arc.resolve binding = none

variable {binding : Binding} {arc : Arc} {arcs rest : List Arc} {place probe : Str}
  {token other : Token} {marking : Marking}

theorem drawnCount_nil : drawnCount binding [] place token = 0 := rfl

theorem drawnCount_cons : drawnCount binding (arc :: rest) place token =
    drawnCount binding rest place token +
      if arc.place = place ∧ arc.resolve binding = some token then 1 else 0 := by
  simp [drawnCount,List.countP_cons]

theorem unboundCount_nil : unboundCount binding [] place = 0 := rfl

theorem unboundCount_cons : unboundCount binding (arc :: rest) place =
    unboundCount binding rest place +
      if arc.place = place ∧ arc.resolve binding = none then 1 else 0 := by
  simp [unboundCount,List.countP_cons]

-- No arc is unbound exactly when none is at any place.
theorem bound_iff_unboundCount : (∀ arc ∈ arcs, ∃ token, arc.resolve binding = some token) ↔
    ∀ place, unboundCount binding arcs place = 0 := by
  constructor
  · intro bound place
    refine List.countP_eq_zero.mpr fun arc member => ?_
    obtain ⟨_,resolved⟩ := bound arc member
    simp [resolved]
  · intro none arc member
    have listed := List.countP_eq_zero.mp (none arc.place) arc member
    simp only [true_and,decide_eq_true_eq] at listed
    exact Option.ne_none_iff_exists'.mp listed

theorem givenCount_nil : givenCount binding [] place token = 0 := rfl

theorem givenCount_cons : givenCount binding (arc :: rest) place token =
    givenCount binding rest place token +
      if arc.place = place ∧ arc.produced binding = token then 1 else 0 := by
  simp [givenCount,List.countP_cons]

theorem givenCount_append (left right : List Arc) : givenCount binding (left ++ right) place token =
    givenCount binding left place token + givenCount binding right place token :=
  List.countP_append

theorem produced_eq_iff (bound : arc.resolve binding = some token) :
    arc.produced binding = other ↔ arc.resolve binding = some other := by
  simp [Arc.produced,bound]

-- Where every variable is bound, what arcs ask for is what they would give.
theorem drawnCount_eq_givenCount (bound : ∀ arc ∈ arcs, ∃ token, arc.resolve binding = some token) :
    drawnCount binding arcs = givenCount binding arcs := by
  funext place token
  refine List.countP_congr fun arc member => ?_
  obtain ⟨_,resolved⟩ := bound arc member
  simp [produced_eq_iff resolved]

theorem Bag.count_remove {bag : Bag} {token probe : Token} {copies : Nat} :
    (bag.remove token copies).count probe =
      if token = probe ∧ copies ≤ bag.count token then bag.count probe - copies
      else bag.count probe := by
  by_cases enough : copies ≤ bag.count token
  · rw [Bag.remove,Bag.remove?_eq_some enough,Option.getD_some,Bag.count_setCount]
    by_cases hit : token = probe
    · subst hit; simp [enough]
    · simp [hit]
  · rw [Bag.remove,Bag.remove?_eq_none (Nat.lt_of_not_le enough)]
    simp [enough]

theorem Bag.remove_empty {copies : Nat} : Bag.empty.remove token copies = .empty :=
  Bag.ext_count fun probe => by simp [Bag.count_remove]

namespace Marking

theorem holds_iff {copies : Nat} :
    marking.holds place token copies = true ↔ copies ≤ marking.count place token := by
  simp [holds,Bag.contains,count]

theorem count_draw {copies : Nat} : (marking.draw place token copies).count probe other =
    if place = probe ∧ token = other ∧ copies ≤ marking.count place token then
      marking.count probe other - copies
    else marking.count probe other := by
  simp only [count,draw,bag_change]
  by_cases hit : place = probe
  · subst hit; simp [Bag.count_remove]
  · simp [hit]

theorem count_withdraw {copies : Nat} : (marking.withdraw place token copies).1.count probe other =
    (marking.draw place token copies).count probe other := by
  have changed : (marking.changeStored place (·.remove token copies)).bag probe =
      if place = probe then (marking.bag place).remove token copies else marking.bag probe :=
    bag_changeStored Bag.remove_empty
  simp only [count,withdraw,draw,changed,bag_change]

-- Taking a single copy: a count of zero stays zero, which is what subtraction does.
theorem count_draw_one : (marking.draw place token 1).count probe other =
    marking.count probe other - if place = probe ∧ token = other then 1 else 0 := by
  rw [count_draw]
  by_cases hit : place = probe ∧ token = other
  · obtain ⟨rfl,rfl⟩ := hit
    simp only [true_and,and_self,if_true]
    split <;> omega
  · rw [if_neg hit,if_neg fun taken => hit ⟨taken.1,taken.2.1⟩]
    rfl

theorem count_withdraw_one : (marking.withdraw place token 1).1.count probe other =
    marking.count probe other - if place = probe ∧ token = other then 1 else 0 :=
  count_withdraw.trans count_draw_one

theorem consume_cons : marking.consume binding (arc :: rest) =
    (marking.draw arc.place (arc.produced binding) 1).consume binding rest := rfl

theorem produce_cons : marking.produce binding (arc :: rest) =
    (marking.add arc.place (arc.produced binding) 1).produce binding rest := rfl

theorem consume_append (left right : List Arc) : marking.consume binding (left ++ right) =
    (marking.consume binding left).consume binding right := List.foldl_append

theorem count_consume : (marking.consume binding arcs).count place token =
    marking.count place token - givenCount binding arcs place token := by
  induction arcs generalizing marking with
  | nil => rfl
  | cons arc rest ih =>
    rw [consume_cons,ih,count_draw_one,givenCount_cons]
    omega

theorem count_produce : (marking.produce binding arcs).count place token =
    marking.count place token + givenCount binding arcs place token := by
  induction arcs generalizing marking with
  | nil => rfl
  | cons arc rest ih =>
    rw [produce_cons,ih,count_add,givenCount_cons]
    omega

theorem sameContents_iff {left right : Marking} : left.sameContents right = true ↔
    ∀ place token, left.count place token = right.count place token := by
  simp only [sameContents,decide_eq_true_eq,contents_eq_iff]

theorem stream_congr {left right : Marking} (same : left.sameContents right = true) :
    left.stream = right.stream := by
  have equal : left.contents = right.contents := by simpa [sameContents] using same
  rw [stream,stream,equal]

theorem digest_congr {left right : Marking} (same : left.sameContents right = true) :
    left.digest = right.digest := by
  rw [digest,digest,stream_congr same]

end Marking

end ProtocolNet
