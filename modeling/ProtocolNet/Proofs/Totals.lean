import ProtocolNet.Proofs.Footprint
import ProtocolNet.Proofs.Tallies

namespace ProtocolNet

-- What a list with one entry for each key comes to where only one key counts.
theorem Table.sum_lookup {κ υ : Type} [Named κ] {entries : List (κ × υ)} (key : κ) (weight : υ → Nat)
    (ordered : entries.Pairwise fun former latter => name former.1 < name latter.1) :
    (entries.map fun entry => if name entry.1 = name key then weight entry.2 else 0).sum =
      ((lookup key entries).map weight).getD 0 := by
  induction ordered with
  | nil => rfl
  | @cons head rest before ordered ih =>
    rw [List.map_cons,List.sum_cons,ih,lookup]
    by_cases hit : name head.1 = name key
    · have once : lookup key rest = none := lookup_eq_none fun entry member same =>
        List.lt_irrefl _ (same ▸ hit ▸ before entry member)
      simp [hit,once]
    · simp [hit]

namespace Bag

variable {bag : Bag} {token : Token}

-- The tokens of a bag, each as often as it is there.
def roster (bag : Bag) : List Token := bag.entries.flatMap fun item => List.replicate item.2 item.1

theorem count_roster : bag.roster.count token = bag.count token := by
  have under := Table.sum_lookup token id bag.table.ordered
  rw [Option.map_id,id] at under
  rw [roster,List.count_flatMap,count,Table.get?,← under]
  refine congrArg List.sum (List.map_congr_left fun item _ => ?_)
  simp [List.count_replicate,name_eq_iff]

theorem length_roster : bag.roster.length = bag.total := by
  rw [roster,List.length_flatMap,total,List.sum,List.foldr_map]
  simp

end Bag

namespace Marking

variable {marking before after : Marking} {place : Str} {token : Token} {binding : Binding}
  {transition : Transition}

-- How many tokens there are in all places together.
def total (marking : Marking) : Nat := (marking.table.entries.map fun entry => entry.2.total).sum

-- The tokens of a marking with their places, each as often as it is there.
def roster (marking : Marking) : List (Str × Token) :=
  marking.table.entries.flatMap fun entry => entry.2.roster.map fun token => (entry.1,token)

theorem count_roster : marking.roster.count (place,token) = marking.count place token := by
  have under := Table.sum_lookup place (Bag.count · token) marking.table.ordered
  have stored : marking.count place token =
      ((marking.table.get? place).map (Bag.count · token)).getD 0 := by
    rw [count,bag]
    cases marking.table.get? place <;> rfl
  rw [roster,List.count_flatMap,stored,Table.get?,← under]
  refine congrArg List.sum (List.map_congr_left fun entry _ => ?_)
  by_cases hit : entry.1 = place
  · subst hit
    simp [List.count_map_of_injective _ _ (Prod.mk_right_injective entry.1),Bag.count_roster]
  · have absent : (place,token) ∉ entry.2.roster.map fun token => (entry.1,token) := by
      simp [hit]
    simp [List.count_eq_zero_of_not_mem absent,name_eq_iff,hit]

theorem length_roster : marking.roster.length = marking.total := by
  simp only [roster,List.length_flatMap,List.length_map,Bag.length_roster,total]

-- What balances for every place and token balances in sum.
theorem total_balance (taken given : List (Str × Token))
    (balance : ∀ place token, after.count place token + taken.count (place,token) =
      before.count place token + given.count (place,token)) :
    after.total + taken.length = before.total + given.length := by
  have same : (after.roster ++ taken).Perm (before.roster ++ given) := by
    refine List.perm_iff_count.mpr fun pair => ?_
    rw [List.count_append,List.count_append,count_roster,count_roster,balance]
  have lengths := same.length_eq
  rwa [List.length_append,List.length_append,length_roster,length_roster] at lengths

theorem total_congr (same : ∀ place token, after.count place token = before.count place token) :
    after.total = before.total :=
  total_balance [] [] same

theorem givenCount_eq_count {arcs : List Arc} :
    givenCount binding arcs place token = (arcTargets binding arcs).count (place,token) := by
  rw [givenCount,arcTargets,List.count,List.countP_map]
  refine List.countP_congr fun arc _ => ?_
  simp

-- A firing takes one token for each arc into its transition and puts one for each arc out of it.
theorem total_after (drawable : Drawable marking.count binding transition.pre) :
    (marking.after binding transition).total + transition.pre.length =
      marking.total + transition.post.length := by
  have balance : ∀ place token, (marking.after binding transition).count place token +
      (arcTargets binding transition.pre).count (place,token) =
        marking.count place token + (arcTargets binding transition.post).count (place,token) := by
    intro place token
    rw [← givenCount_eq_count,← givenCount_eq_count,← drawnCount_eq_givenCount drawable.bound]
    exact count_after drawable place token
  have lengths := total_balance _ _ balance
  rwa [arcTargets,arcTargets,List.length_map,List.length_map] at lengths

end Marking

-- Seeding puts in as many tokens as it tells of.
theorem Monitor.total_seed {logger : Logger} {binding : Binding} {engine : Engine}
    {rules : List SeedRule} : (seed logger binding engine rules).engine.marking.total =
      engine.marking.total + (seed logger binding engine rules).seeded.length :=
  Marking.total_balance [] _ count_seed_told

end ProtocolNet
