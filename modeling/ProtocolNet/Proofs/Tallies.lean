import Mathlib.Algebra.BigOperators.Group.Finset.Basic
import Mathlib.Algebra.Ring.Nat
import Mathlib.Data.List.Induction
import ProtocolNet.Proofs.Fingerprint

namespace ProtocolNet

theorem lookup_entry {κ υ : Type} [BEq κ] [LawfulBEq κ] [DecidableEq κ] {entry : κ × υ}
    {rest : List (κ × υ)} {probe : κ} :
    (entry :: rest).lookup probe = if entry.1 = probe then some entry.2 else rest.lookup probe := by
  obtain ⟨key,value⟩ := entry
  by_cases hit : key = probe
  · subst hit; simp
  · simp [List.lookup_cons,hit,beq_false_of_ne (Ne.symm hit)]

theorem lookup_reverse_concat {κ υ : Type} [BEq κ] [LawfulBEq κ] [DecidableEq κ] {entry : κ × υ}
    {former : List (κ × υ)} {probe : κ} : (former ++ [entry]).reverse.lookup probe =
      if entry.1 = probe then some entry.2 else former.reverse.lookup probe := by
  rw [List.reverse_concat,lookup_entry]

-- Texts are in order as the code points of their letters are.
theorem text_lt_of_name_lt {s t : String} (before : name s < name t) : s < t := by
  refine Decidable.byContradiction fun above => ?_
  have codes : ¬ name s < name t :=
    List.not_lt.mpr (List.map_le (fun _ _ less => less) (List.not_lt.mp above))
  exact codes before

namespace Bag

-- What can be read off a bag is what a function on tokens says: the tokens that it does not send
-- to zero, listed by their texts, and how much it comes to over them. The list is answered where
-- each of them has a text.
structure Tells (bag : Bag) (tally : Token → Nat) : Prop where
  ordered : bag.entries.Pairwise fun former latter => former.1.text < latter.1.text
  listed : ∀ token n, (token,n) ∈ bag.entries ↔ 0 < n ∧ tally token = n
  answered : (∀ token, 0 < tally token → token.isWritable = true) → bag.items = .ok bag.entries
  mute : ∀ token, 0 < tally token → token.isWritable = false → bag.items = .error .unwritable
  summed : ∃ support : Finset Token, (∀ token, token ∈ support ↔ 0 < tally token) ∧
    bag.size = support.card ∧ bag.total = ∑ token ∈ support, tally token

variable {bag left right : Bag} {token probe : Token} {copies : Nat} {value : Json}
  {counts assignments : List (Token × Json)}

theorem mem_entries_iff {n : Nat} : (token,n) ∈ bag.entries ↔ 0 < n ∧ bag.count token = n := by
  rw [entries,Table.mem_entries_iff]
  constructor
  · intro found
    have positive := bag.positive _ (Table.mem_entries_iff.mpr found)
    exact ⟨positive,by rw [count,found,Option.getD_some]⟩
  · intro counted
    obtain ⟨positive,rfl⟩ := counted
    exact get?_eq_some_count positive

theorem nodup_tokens : bag.tokens.Nodup := bag.table.nodup_keys

theorem mem_tokens_iff : token ∈ bag.tokens ↔ 0 < bag.count token := by
  constructor
  · intro member
    obtain ⟨⟨token,n⟩,listed,rfl⟩ := List.mem_map.mp member
    obtain ⟨positive,counted⟩ := mem_entries_iff.mp listed
    exact counted ▸ positive
  · intro positive
    exact List.mem_map.mpr ⟨_,mem_entries_iff.mpr ⟨positive,rfl⟩,rfl⟩

theorem total_eq_sum : bag.total = (bag.tokens.map bag.count).sum := by
  have counts : bag.tokens.map bag.count = bag.entries.map Prod.snd := by
    rw [tokens,Table.keys,List.map_map]
    refine List.map_congr_left ?_
    intro item listed
    exact (mem_entries_iff.mp listed).2
  rw [counts,total,List.sum,List.foldr_map]

theorem tells (bag : Bag) : bag.Tells bag.count where
  ordered := bag.table.ordered.imp text_lt_of_name_lt
  listed _ _ := mem_entries_iff
  answered writable := by
    rw [items,TextFault.gated,if_pos]
    refine List.all_eq_true.mpr fun entry listed => writable entry.1 ?_
    obtain ⟨positive,counted⟩ := mem_entries_iff.mp listed
    exact counted ▸ positive
  mute token positive unwritable := by
    have listed := mem_entries_iff.mpr ⟨positive,rfl⟩
    rw [items,TextFault.gated,if_neg]
    intro writable
    exact absurd (List.all_eq_true.mp writable _ listed) (by simp [unwritable])
  summed := by
    refine ⟨bag.tokens.toFinset,?_,?_,?_⟩
    · intro token
      rw [List.mem_toFinset,mem_tokens_iff]
    · rw [List.toFinset_card_of_nodup nodup_tokens,tokens,Table.keys,List.length_map]
      rfl
    · rw [total_eq_sum,List.sum_toFinset _ nodup_tokens]

theorem eq_iff_count : left = right ↔ left.count = right.count := by
  constructor
  · intro same
    rw [same]
  · intro same
    exact ext_count (congrFun same)

-- What is put in can be taken out again, and leaves the bag as it was.
theorem remove?_add : (bag.add token copies).remove? token copies = some bag := by
  rw [remove?_eq_some (by simp)]
  refine congrArg some (ext_count fun probe => ?_)
  rw [count_setCount,count_add,count_add]
  by_cases hit : token = probe
  · subst hit; simp
  · simp [hit]

theorem isSome_remove? : (bag.remove? token copies).isSome = bag.contains token copies := by
  unfold remove? contains
  split <;> simp_all

-- A value that is no count.
def refusal? (value : Json) : Option BadCount :=
  match readCount value with
  | .ok _ => none
  | .error bad => some bad

-- The token that is named first among those whose last value is no count.
def refused? (assignments : List (Token × Json)) : Option BadCount :=
  assignments.findSome? fun entry => (assignments.reverse.lookup entry.1).bind refusal?

-- The last value of a token is its count, and what has no value counts nothing.
def assigned (assignments : List (Token × Json)) (token : Token) : Nat :=
  ((assignments.reverse.lookup token).bind Json.natural?).getD 0

def Distinct (counts : List (Token × Json)) : Prop :=
  counts.Pairwise fun former latter => former.1 ≠ latter.1

theorem mem_assign {entry : Token × Json} (member : entry ∈ assign token value counts) :
    entry.1 = token ∨ entry ∈ counts := by
  induction counts with
  | nil =>
    rw [assign,List.mem_singleton] at member
    exact .inl (congrArg Prod.fst member)
  | cons head rest ih =>
    rw [assign] at member
    split at member
    · rename_i hit
      rcases List.mem_cons.mp member with rfl | later
      · exact .inl hit
      · exact .inr (List.mem_cons_of_mem _ later)
    · rcases List.mem_cons.mp member with rfl | later
      · exact .inr List.mem_cons_self
      · exact (ih later).imp_right (List.mem_cons_of_mem _)

theorem distinct_assign (distinct : Distinct counts) : Distinct (assign token value counts) := by
  induction distinct with
  | nil => exact List.pairwise_singleton _ _
  | @cons head rest apart distinct ih =>
    rw [assign]
    split
    · rename_i hit
      exact .cons (fun entry member => hit ▸ apart entry member) distinct
    · rename_i missed
      refine .cons (fun entry member => ?_) ih
      rcases mem_assign member with rfl | later
      · exact missed
      · exact apart entry later

theorem lookup_assign : (assign token value counts).lookup probe =
    if token = probe then some value else counts.lookup probe := by
  induction counts with
  | nil => rw [assign,lookup_entry]
  | cons head rest ih =>
    rw [assign]
    split
    · rename_i same
      by_cases hit : token = probe
      · simp [lookup_entry,hit,same]
      · simp [lookup_entry,hit,same]
    · rename_i apart
      by_cases hit : head.1 = probe
      · have missed : token ≠ probe := fun same => apart (hit.trans same.symm)
        simp [lookup_entry,hit,missed]
      · simp [lookup_entry,hit,ih]

-- A token that is named again is not looked at again, for it still answers the same.
theorem findSome?_assign {β : Type} (answer : Token → Option β) :
    (assign token value counts).findSome? (fun entry => answer entry.1) =
      (counts.findSome? fun entry => answer entry.1).or (answer token) := by
  induction counts with
  | nil => rw [assign,List.findSome?_cons]; cases answer token <;> rfl
  | cons head rest ih =>
    rw [assign,List.findSome?_cons]
    split
    · rename_i same
      rw [List.findSome?_cons,← same]
      cases answer head.1 <;> simp
    · rw [List.findSome?_cons,ih]
      cases answer head.1 <;> rfl

def dictionary (assignments : List (Token × Json)) : List (Token × Json) :=
  assignments.foldl (fun counts entry => assign entry.1 entry.2 counts) []

theorem dictionary_concat {entry : Token × Json} : dictionary (assignments ++ [entry]) =
    assign entry.1 entry.2 (dictionary assignments) := List.foldl_concat ..

theorem distinct_dictionary : Distinct (dictionary assignments) := by
  induction assignments using List.reverseRecOn with
  | nil => exact .nil
  | append_singleton former entry ih => rw [dictionary_concat]; exact distinct_assign ih

theorem lookup_dictionary :
    (dictionary assignments).lookup probe = assignments.reverse.lookup probe := by
  induction assignments using List.reverseRecOn with
  | nil => rfl
  | append_singleton former entry ih =>
    rw [dictionary_concat,lookup_assign,lookup_reverse_concat,ih]

theorem findSome?_dictionary {β : Type} (answer : Token → Option β) :
    (dictionary assignments).findSome? (fun entry => answer entry.1) =
      assignments.findSome? fun entry => answer entry.1 := by
  induction assignments using List.reverseRecOn with
  | nil => rfl
  | append_singleton former entry ih =>
    rw [dictionary_concat,findSome?_assign,ih,List.findSome?_append,List.findSome?_singleton]

theorem lookup_of_distinct (distinct : Distinct counts) (member : (token,value) ∈ counts) :
    counts.lookup token = some value := by
  induction distinct with
  | nil => cases member
  | @cons head rest apart distinct ih =>
    rw [lookup_entry]
    rcases List.mem_cons.mp member with rfl | later
    · rw [if_pos rfl]
    · rw [if_neg (apart _ later),ih later]

-- The values are read one after the other, up to the first that is no count.
def gather (bag : Bag) (counts : List (Token × Json)) : Except BadCount Bag :=
  counts.foldlM (fun bag entry => (readCount entry.2).map (bag.add entry.1)) bag

theorem gather_refused {bad : BadCount}
    (found : counts.findSome? (fun entry => refusal? entry.2) = some bad) :
    bag.gather counts = .error bad := by
  induction counts generalizing bag with
  | nil => cases found
  | cons head rest ih =>
    rw [List.findSome?_cons] at found
    rw [gather,List.foldlM_cons]
    cases read : readCount head.2 with
    | error bad' =>
      simp only [refusal?,read] at found
      cases found
      rfl
    | ok n =>
      simp only [refusal?,read] at found
      exact ih found

theorem readCount_ok {n : Nat} (read : readCount value = .ok n) : value.natural? = some n := by
  unfold readCount at read
  split at read
  · rename_i found
    cases read
    exact found
  · cases read

theorem gather_counted (bag : Bag) (distinct : Distinct counts)
    (none : counts.findSome? (fun entry => refusal? entry.2) = none) :
    ∃ result, bag.gather counts = .ok result ∧ ∀ probe, result.count probe =
      bag.count probe + ((counts.lookup probe).bind Json.natural?).getD 0 := by
  induction distinct generalizing bag with
  | nil => exact ⟨bag,rfl,fun probe => rfl⟩
  | @cons head rest apart distinct ih =>
    rw [List.findSome?_cons] at none
    rw [gather,List.foldlM_cons]
    cases read : readCount head.2 with
    | error bad => simp [refusal?,read] at none
    | ok n =>
      simp only [refusal?,read] at none
      obtain ⟨result,gathered,counted⟩ := ih (bag.add head.1 n) none
      refine ⟨result,gathered,fun probe => ?_⟩
      rw [counted,count_add,lookup_entry]
      by_cases hit : head.1 = probe
      · have once : rest.lookup probe = Option.none := by
          refine List.lookup_eq_none_iff.mpr fun entry member => ?_
          exact bne_iff_ne.mpr fun same => apart entry member (hit.trans same)
        simp [hit,once,readCount_ok read]
      · simp [hit]

theorem refused?_eq : refused? assignments =
    (dictionary assignments).findSome? fun entry => refusal? entry.2 := by
  rw [refused?,← findSome?_dictionary fun token => (assignments.reverse.lookup token).bind refusal?]
  rw [← List.head?_filterMap,← List.head?_filterMap]
  refine congrArg List.head? (List.filterMap_congr fun entry member => ?_)
  rw [← lookup_dictionary,lookup_of_distinct distinct_dictionary member,Option.bind_some]

theorem ofAssignments_refused {bad : BadCount} (found : refused? assignments = some bad) :
    ofAssignments assignments = .error bad := by
  rw [refused?_eq] at found
  exact gather_refused found

theorem ofAssignments_assigned (none : refused? assignments = none) :
    ∃ bag, ofAssignments assignments = .ok bag ∧ bag.count = assigned assignments := by
  rw [refused?_eq] at none
  obtain ⟨bag,gathered,counted⟩ := gather_counted empty distinct_dictionary none
  refine ⟨bag,gathered,funext fun probe => ?_⟩
  rw [counted,lookup_dictionary,count_empty,Nat.zero_add,assigned]

end Bag

end ProtocolNet
