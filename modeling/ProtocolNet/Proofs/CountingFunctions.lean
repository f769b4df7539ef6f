import Mathlib.Logic.Function.Basic
import ProtocolNet.Proofs.Tallies

namespace ProtocolNet

namespace Stock

-- How a caller gets at a bag: as one that stands alone, or as the one in a place of a marking,
-- which the marking and the caller then share.
inductive Handle
  | alone (index : Nat)
  | placed (marking : Nat) (place : Str)
deriving DecidableEq

-- What a caller can do with bags and markings. Numbers of copies are values of any kind.
inductive Call
  | newBag (assignments : List (Token × Json))
  | copyBag (handle : Handle)
  | add (handle : Handle) (token : Token) (copies : Json)
  | remove (handle : Handle) (token : Token) (copies : Json)
  | contains (handle : Handle) (token : Token) (copies : Json)
  | count (handle : Handle) (token : Token)
  | newMarking (places : List (Str × Handle))
  | copyMarking (marking : Nat)
  | addToken (marking : Nat) (place : Str) (token : Token) (copies : Json)
  | get (marking : Nat) (place : Str)
  | getOrInsert (marking : Nat) (place : Str)

inductive Answer
  | done
  | truth (held : Bool)
  | number (n : Nat)
  | bag (handle : Handle)
  | marking (index : Nat)
  | refused (bad : Bag.BadCount)

-- A count that is no count, or fewer copies than were asked for.
def Answer.Fails : Answer → Prop
  | .refused _ | .truth false => True
  | _ => False

-- A number of copies is read before it is used.
def withCount {σ : Type} (state : σ) (copies : Json) (use : Nat → σ × Answer) : σ × Answer :=
  match Bag.readCount copies with
  | .ok n => use n
  | .error bad => (state,.refused bad)

end Stock

-- The bags and markings that callers have made, by the order in which they were made.
structure Stock where
  bag : Nat → Bag
  marking : Nat → Marking
  bags : Nat
  markings : Nat

-- The same as functions: how many copies there are of each token, and which places are stored.
@[ext]
structure Books where
  bag : Nat → Token → Nat
  marking : Nat → Ledger
  bags : Nat
  markings : Nat

open Stock (Handle Call Answer withCount)

namespace Stock

def books (stock : Stock) : Books where
  bag := Bag.count ∘ stock.bag
  marking := Marking.ledger ∘ stock.marking
  bags := stock.bags
  markings := stock.markings

def look (stock : Stock) : Handle → Bag
  | .alone index => stock.bag index
  | .placed marking place => (stock.marking marking).bag place

-- The place of a handle that is not stored in its marking is no bag of the stock.
def Has (stock : Stock) : Handle → Prop
  | .alone _ => True
  | .placed marking place => (stock.marking marking).stored place = true

def setBag (stock : Stock) (index : Nat) (bag : Bag) : Stock :=
  { stock with bag := Function.update stock.bag index bag }

def setMarking (stock : Stock) (index : Nat) (marking : Marking) : Stock :=
  { stock with marking := Function.update stock.marking index marking }

def alter (stock : Stock) (handle : Handle) (f : Bag → Bag) : Stock :=
  match handle with
  | .alone index => stock.setBag index (f (stock.bag index))
  | .placed marking place =>
    stock.setMarking marking ((stock.marking marking).changeStored place f)

def makeBag (stock : Stock) (bag : Bag) : Stock × Answer :=
  ({ stock.setBag stock.bags bag with bags := stock.bags + 1 },.bag (.alone stock.bags))

def makeMarking (stock : Stock) (marking : Marking) : Stock × Answer :=
  ({ stock.setMarking stock.markings marking with markings := stock.markings + 1 },
    .marking stock.markings)

def step (stock : Stock) : Call → Stock × Answer
  | .newBag assignments =>
    match Bag.ofAssignments assignments with
    | .ok bag => stock.makeBag bag
    | .error bad => (stock,.refused bad)
  | .copyBag handle => stock.makeBag (stock.look handle)
  | .add handle token copies => withCount stock copies fun n =>
    (stock.alter handle (·.add token n),.done)
  | .remove handle token copies => withCount stock copies fun n =>
    (stock.alter handle (·.remove token n),.truth ((stock.look handle).remove? token n).isSome)
  | .contains handle token copies => withCount stock copies fun n =>
    (stock,.truth ((stock.look handle).contains token n))
  | .count handle token => (stock,.number ((stock.look handle).count token))
  | .newMarking places =>
    stock.makeMarking (.ofBags (places.map fun entry => (entry.1,stock.look entry.2)))
  | .copyMarking marking => stock.makeMarking (stock.marking marking)
  | .addToken marking place token copies =>
    match (stock.marking marking).addRead place token copies with
    | (changed,.ok _) => (stock.setMarking marking changed,.done)
    | (changed,.error bad) => (stock.setMarking marking changed,.refused bad)
  | .get marking place =>
    if (stock.marking marking).stored place then (stock,.bag (.placed marking place))
    else stock.makeBag .empty
  | .getOrInsert marking place =>
    (stock.setMarking marking ((stock.marking marking).insert place),.bag (.placed marking place))

def run (stock : Stock) : List Call → Stock × List Answer
  | [] => (stock,[])
  | call :: rest =>
    let (next,answer) := stock.step call
    let (last,answers) := next.run rest
    (last,answer :: answers)

end Stock

namespace Books

def tally (books : Books) : Handle → Token → Nat
  | .alone index => books.bag index
  | .placed marking place => (books.marking marking).counts place

def setBag (books : Books) (index : Nat) (tally : Token → Nat) : Books :=
  { books with bag := Function.update books.bag index tally }

def enter (books : Books) (marking : Nat) (edit : Edit) : Books :=
  { books with
    marking := Function.update books.marking marking ((books.marking marking).enter edit) }

def credit (books : Books) (handle : Handle) (token : Token) (copies : Nat) : Books :=
  match handle with
  | .alone index => books.setBag index fun other =>
    books.bag index other + if token = other then copies else 0
  | .placed marking place => books.enter marking (.addStored place token copies)

-- All or nothing, as in a ledger.
def debit (books : Books) (handle : Handle) (token : Token) (copies : Nat) : Books :=
  match handle with
  | .alone index => books.setBag index fun other =>
    if token = other ∧ copies ≤ books.bag index token then books.bag index other - copies
    else books.bag index other
  | .placed marking place => books.enter marking (.withdraw place token copies)

def openBag (books : Books) (tally : Token → Nat) : Books × Answer :=
  ({ books.setBag books.bags tally with bags := books.bags + 1 },.bag (.alone books.bags))

def openMarking (books : Books) (ledger : Ledger) : Books × Answer :=
  ({ books with
    marking := Function.update books.marking books.markings ledger
    markings := books.markings + 1 },.marking books.markings)

-- The places that are named, each with what its last handle counts.
def ledgerOf (books : Books) (places : List (Str × Handle)) : Ledger where
  stored place := (places.reverse.lookup place).isSome
  counts place token :=
    match places.reverse.lookup place with
    | some handle => books.tally handle token
    | none => 0

def step (books : Books) : Call → Books × Answer
  | .newBag assignments =>
    match Bag.refused? assignments with
    | some bad => (books,.refused bad)
    | none => books.openBag (Bag.assigned assignments)
  | .copyBag handle => books.openBag (books.tally handle)
  | .add handle token copies => withCount books copies fun n =>
    (books.credit handle token n,.done)
  | .remove handle token copies => withCount books copies fun n =>
    (books.debit handle token n,.truth (n ≤ books.tally handle token))
  | .contains handle token copies => withCount books copies fun n =>
    (books,.truth (n ≤ books.tally handle token))
  | .count handle token => (books,.number (books.tally handle token))
  | .newMarking places => books.openMarking (books.ledgerOf places)
  | .copyMarking marking => books.openMarking (books.marking marking)
  | .addToken marking place token copies =>
    withCount (books.enter marking (.insert place)) copies fun n =>
      (books.enter marking (.add place token n),.done)
  | .get marking place =>
    if (books.marking marking).stored place then (books,.bag (.placed marking place))
    else books.openBag fun _ => 0
  | .getOrInsert marking place =>
    (books.enter marking (.insert place),.bag (.placed marking place))

def run (books : Books) : List Call → Books × List Answer
  | [] => (books,[])
  | call :: rest =>
    let (next,answer) := books.step call
    let (last,answers) := next.run rest
    (last,answer :: answers)

end Books

variable {stock : Stock} {handle other : Handle} {token probe : Token} {copies : Json} {n : Nat}
  {marking : Nat} {place : Str}

namespace Stock

theorem tally_books : stock.books.tally handle = (stock.look handle).count := by
  cases handle <;> rfl

theorem books_setBag {index : Nat} {bag : Bag} :
    (stock.setBag index bag).books = stock.books.setBag index bag.count := by
  simp only [books,setBag,Books.setBag,Function.comp_update]

theorem books_setMarking {changed : Marking} : (stock.setMarking marking changed).books =
    { stock.books with marking := Function.update stock.books.marking marking changed.ledger } := by
  simp only [books,setMarking,Function.comp_update]

theorem books_edit (edit : Edit) :
    (stock.setMarking marking ((stock.marking marking).edit edit)).books =
      stock.books.enter marking edit := by
  rw [books_setMarking,Marking.ledger_edit]
  rfl

theorem books_add : (stock.alter handle (·.add token n)).books = stock.books.credit handle token n := by
  cases handle with
  | alone index =>
    refine books_setBag.trans (congrArg (stock.books.setBag index) (funext fun probe => ?_))
    exact Bag.count_add
  | placed marking place => exact books_edit (.addStored place token n)

theorem books_remove :
    (stock.alter handle (·.remove token n)).books = stock.books.debit handle token n := by
  cases handle with
  | alone index =>
    refine books_setBag.trans (congrArg (stock.books.setBag index) (funext fun probe => ?_))
    exact Bag.count_remove
  | placed marking place => exact books_edit (.withdraw place token n)

theorem books_makeBag (bag : Bag) : stock.books.openBag bag.count =
    ((stock.makeBag bag).1.books,(stock.makeBag bag).2) := by
  rw [Books.openBag,makeBag]
  refine congrArg (·,_) ?_
  exact congrArg (fun made : Books => { made with bags := stock.bags + 1 }) books_setBag.symm

theorem books_makeMarking {made : Marking} : stock.books.openMarking made.ledger =
    ((stock.makeMarking made).1.books,(stock.makeMarking made).2) := by
  rw [Books.openMarking,makeMarking]
  refine congrArg (·,_) ?_
  exact congrArg (fun kept : Books => { kept with markings := stock.markings + 1 })
    books_setMarking.symm

end Stock

theorem Table.get?_ofList {κ υ : Type} [Named κ] [BEq κ] [LawfulBEq κ] [DecidableEq κ]
    {entries : List (κ × υ)} {key : κ} :
    (Table.ofList entries).get? key = entries.reverse.lookup key := by
  induction entries using List.reverseRecOn with
  | nil => rfl
  | append_singleton former entry ih =>
    rw [lookup_reverse_concat,← ih,Table.ofList,List.foldl_concat,Table.get?_put]
    simp only [name_eq_iff]
    rfl

theorem lookup_map {κ υ ω : Type} [BEq κ] [LawfulBEq κ] [DecidableEq κ] {entries : List (κ × υ)}
    {f : υ → ω} {key : κ} :
    (entries.map fun entry => (entry.1,f entry.2)).lookup key = (entries.lookup key).map f := by
  induction entries with
  | nil => rfl
  | cons entry rest ih =>
    rw [List.map_cons,lookup_entry,lookup_entry,ih]
    split <;> rfl

theorem Stock.ledger_ofBags {places : List (Str × Handle)} :
    (Marking.ofBags (places.map fun entry => (entry.1,stock.look entry.2))).ledger =
      stock.books.ledgerOf places := by
  have found (place : Str) :
      (Marking.ofBags (places.map fun entry => (entry.1,stock.look entry.2))).table.get? place =
        (places.reverse.lookup place).map stock.look := by
    rw [Marking.ofBags,Table.get?_ofList,← List.map_reverse,lookup_map]
  refine Ledger.ext (funext fun place => ?_) (funext fun place => funext fun token => ?_)
  · change Option.isSome _ = Option.isSome _
    rw [found,Option.isSome_map]
  · change (Marking.bag _ place).count token = _
    rw [Marking.bag,found]
    simp only [Books.ledgerOf]
    cases places.reverse.lookup place with
    | none => rfl
    | some handle => exact (congrFun tally_books token).symm

-- Whatever is done to the stock is done to the books, and is answered from the books alone.
theorem Stock.books_step (stock : Stock) (call : Call) :
    stock.books.step call = ((stock.step call).1.books,(stock.step call).2) := by
  cases call with
  | newBag assignments =>
    simp only [Books.step,step]
    cases refused : Bag.refused? assignments with
    | some bad => rw [Bag.ofAssignments_refused refused]
    | none =>
      obtain ⟨bag,made,counted⟩ := Bag.ofAssignments_assigned refused
      rw [made,← counted]
      exact books_makeBag _
  | copyBag handle =>
    simp only [Books.step,step,tally_books]
    exact books_makeBag _
  | add handle token copies =>
    simp only [Books.step,step,withCount,← books_add]
    cases Bag.readCount copies <;> rfl
  | remove handle token copies =>
    simp only [Books.step,step,withCount,← books_remove,tally_books,Bag.isSome_remove?]
    cases Bag.readCount copies <;> rfl
  | contains handle token copies =>
    simp only [Books.step,step,withCount,tally_books]
    cases Bag.readCount copies <;> rfl
  | count handle token =>
    simp only [Books.step,step,tally_books]
  | newMarking places =>
    simp only [Books.step,step,← ledger_ofBags]
    exact books_makeMarking
  | copyMarking marking => exact books_makeMarking
  | addToken marking place token copies =>
    simp only [Books.step,step,withCount,Marking.addRead]
    cases Bag.readCount copies with
    | error bad => exact congrArg (·,_) (books_edit (.insert place)).symm
    | ok n => exact congrArg (·,_) (books_edit (.add place token n)).symm
  | get marking place =>
    simp only [Books.step,step]
    change (if (stock.marking marking).stored place = true then _ else _) = _
    split
    · rfl
    · exact books_makeBag .empty
  | getOrInsert marking place =>
    exact congrArg (·,_) (books_edit (.insert place)).symm

theorem Stock.books_run (stock : Stock) (calls : List Call) :
    stock.books.run calls = ((stock.run calls).1.books,(stock.run calls).2) := by
  induction calls generalizing stock with
  | nil => rfl
  | cons call rest ih =>
    rw [Books.run,books_step]
    simp only [ih]
    rfl

namespace Stock

theorem look_alter {f : Bag → Bag} (reaches : stock.Has handle ∨ f .empty = .empty) :
    (stock.alter handle f).look other =
      if handle = other then f (stock.look handle) else stock.look other := by
  cases handle with
  | alone index =>
    cases other with
    | alone index' => simp [alter,setBag,look,Function.update_apply,eq_comm]
    | placed marking place => rfl
  | placed marking place =>
    have changed (probe : Str) : ((stock.marking marking).changeStored place f).bag probe =
        if place = probe then f ((stock.marking marking).bag place)
        else (stock.marking marking).bag probe := by
      rcases reaches with stored | stays
      · have there : (stock.marking marking).stored place = true := stored
        rw [Marking.changeStored_eq,if_pos there,Marking.bag_change]
      · exact Marking.bag_changeStored stays
    cases other with
    | alone index => rfl
    | placed marking' place' =>
      by_cases hit : marking = marking'
      · subst hit
        simp [alter,setMarking,look,changed]
      · simp [alter,setMarking,look,hit,Ne.symm hit]

theorem look_add (there : stock.Has handle) : (stock.alter handle (·.add token n)).look other =
    if handle = other then (stock.look handle).add token n else stock.look other :=
  look_alter (.inl there)

theorem look_remove : (stock.alter handle (·.remove token n)).look other =
    if handle = other then (stock.look handle).remove token n else stock.look other :=
  look_alter (.inr Bag.remove_empty)

-- A call that fails leaves every bag as it was.
theorem look_of_fails {call : Call} (fails : (stock.step call).2.Fails) :
    (stock.step call).1.look handle = stock.look handle := by
  cases call with
  | newBag assignments =>
    simp only [step] at fails ⊢
    cases made : Bag.ofAssignments assignments with
    | ok bag => rw [made] at fails; exact fails.elim
    | error bad => rfl
  | copyBag | count | newMarking | copyMarking | getOrInsert => exact fails.elim
  | add changed token copies =>
    simp only [step,withCount] at fails ⊢
    cases read : Bag.readCount copies with
    | ok n => rw [read] at fails; exact fails.elim
    | error bad => rfl
  | remove changed token copies =>
    simp only [step,withCount] at fails ⊢
    cases read : Bag.readCount copies with
    | error bad => rfl
    | ok n =>
      simp only [read] at fails ⊢
      cases taken : (stock.look changed).remove? token n with
      | some rest => rw [taken] at fails; exact fails.elim
      | none =>
        rw [look_remove,Bag.remove,taken]
        split
        · rename_i same
          rw [same,Option.getD_none]
        · rfl
  | contains probe token copies =>
    simp only [step,withCount]
    cases Bag.readCount copies <;> rfl
  | addToken marking place token copies =>
    simp only [step,Marking.addRead] at fails ⊢
    cases read : Bag.readCount copies with
    | ok n => rw [read] at fails; exact fails.elim
    | error bad =>
      cases handle with
      | alone index => rfl
      | placed marking' place' =>
        by_cases hit : marking = marking'
        · subst hit
          simp [setMarking,look,Marking.bag_insert]
        · simp [setMarking,look,Ne.symm hit]
  | get marking place =>
    simp only [step] at fails ⊢
    split
    · rfl
    · rename_i absent
      rw [if_neg absent] at fails
      exact fails.elim

-- What is put into a bag and taken out again is as if it had never been there.
theorem run_add_remove (there : stock.Has handle) (read : Bag.readCount copies = .ok n) :
    (stock.run [.add handle token copies,.remove handle token copies]).2 = [.done,.truth true] ∧
      ∀ other, (stock.run [.add handle token copies,.remove handle token copies]).1.look other =
        stock.look other := by
  have filled : (stock.alter handle (·.add token n)).look handle =
      (stock.look handle).add token n := by
    rw [look_add there,if_pos rfl]
  simp only [run,step,withCount,read,filled,Bag.remove?_add]
  refine ⟨rfl,fun other => ?_⟩
  rw [look_remove,filled,Bag.remove,Bag.remove?_add,look_add there]
  split
  · rename_i same
    rw [same,Option.getD_some]
  · rfl

-- Bags and markings are functions from tokens to numbers, one for each place in a marking: their
-- books are kept without knowing how they are stored, and everything is answered from the books.
theorem refines_counting (stock : Stock) (calls : List Call) :
    let reached := (stock.run calls).1
    let books := (stock.books.run calls).1
    reached.books = books ∧ (stock.run calls).2 = (stock.books.run calls).2 ∧
    (∀ handle, (reached.look handle).Tells (books.tally handle)) ∧
    (∀ handle other, reached.look handle = reached.look other ↔
      books.tally handle = books.tally other) ∧
    (∀ left right, (reached.marking left).sameContents (reached.marking right) = true ↔
      (books.marking left).counts = (books.marking right).counts) ∧
    (∀ call, (reached.step call).2.Fails →
      ∀ handle, (reached.step call).1.look handle = reached.look handle) ∧
    ∀ handle token copies n, reached.Has handle → Bag.readCount copies = .ok n →
      let returned := reached.run [.add handle token copies,.remove handle token copies]
      returned.2 = [.done,.truth true] ∧ ∀ other, returned.1.look other = reached.look other := by
  intro reached books
  have kept : books = reached.books := congrArg Prod.fst (books_run stock calls)
  refine ⟨kept.symm,?_,?_,?_,?_,?_,?_⟩
  · rw [books_run]
  · intro handle
    rw [kept,tally_books]
    exact Bag.tells _
  · intro handle other
    rw [kept,tally_books,tally_books]
    exact Bag.eq_iff_count
  · intro left right
    rw [kept,Marking.sameContents_iff]
    constructor
    · intro same
      exact funext fun place => funext (same place)
    · intro same place token
      exact congrFun (congrFun same place) token
  · intro call fails handle
    exact look_of_fails fails
  · intro handle token copies n there read
    exact run_add_remove there read

-- A lock whose number is too long for a text is in a bag and is counted, and the bag is not listed.
theorem overlong_token_unlisted :
    let stock : Stock := ⟨fun _ => .empty,fun _ => .empty,0,0⟩
    let filled := stock.run [.newBag [(.ident .lock (10 ^ 4300),.int 1)]]
    filled.2 = [.bag (.alone 0)] ∧
      (filled.1.look (.alone 0)).count (.ident .lock (10 ^ 4300)) = 1 ∧
      (filled.1.look (.alone 0)).items = .error .unwritable := by
  intro stock filled
  have held : filled.1.look (.alone 0) = Bag.empty.add (.ident .lock (10 ^ 4300)) 1 := rfl
  refine ⟨rfl,?_,?_⟩
  · rw [held,Bag.count_add,if_pos rfl,Bag.count_empty]
  · rw [held]
    decide +kernel

-- A place that nothing was put into gives a bag of its own, until it is asked for with insertion.
example : ((⟨fun _ => .empty,fun _ => .empty,0,0⟩ : Stock).run
    [.newMarking [],.get 0 "held",.add (.alone 0) .unit (.int 2),.count (.placed 0 "held") .unit,
      .getOrInsert 0 "held",.add (.placed 0 "held") .unit (.int 2),
      .remove (.placed 0 "held") .unit (.int 3),.count (.placed 0 "held") .unit]).2 =
    [.marking 0,.bag (.alone 0),.done,.number 0,.bag (.placed 0 "held"),.done,.truth false,
      .number 2] := rfl

end Stock

end ProtocolNet
