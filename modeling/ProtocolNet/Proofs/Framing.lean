import ProtocolNet.Proofs.Counting

namespace ProtocolNet

-- What is needed of a code to be read back without terminators: what follows
-- the code of a value cannot be taken for a part of it.
def SelfDelimiting {α : Type} (fits : α → Prop) (code : α → List UInt8) : Prop :=
  ∀ x y front back, fits x → fits y → code x ++ front = code y ++ back → x = y ∧ front = back

namespace SelfDelimiting

variable {α β : Type} {fits : α → Prop} {code : α → List UInt8} {xs ys : List α}
  {front back : List UInt8}

theorem comap (delimiting : SelfDelimiting fits code) {view : β → α}
    (injective : ∀ x y, view x = view y → x = y) :
    SelfDelimiting (fun x => fits (view x)) (fun x => code (view x)) := by
  intro x y front back fitsX fitsY same
  obtain ⟨views,rests⟩ := delimiting _ _ _ _ fitsX fitsY same
  exact ⟨injective x y views,rests⟩

-- Lists whose lengths are known to be the same need no terminator.
theorem lists (delimiting : SelfDelimiting fits code) (lengths : xs.length = ys.length)
    (fitsX : ∀ x ∈ xs, fits x) (fitsY : ∀ y ∈ ys, fits y)
    (same : xs.flatMap code ++ front = ys.flatMap code ++ back) : xs = ys ∧ front = back := by
  induction xs generalizing ys with
  | nil =>
    cases ys with
    | nil => exact ⟨rfl,same⟩
    | cons y ys => cases lengths
  | cons x xs ih =>
    cases ys with
    | nil => cases lengths
    | cons y ys =>
      obtain ⟨fitX,fitXs⟩ := List.forall_mem_cons.mp fitsX
      obtain ⟨fitY,fitYs⟩ := List.forall_mem_cons.mp fitsY
      rw [List.flatMap_cons,List.flatMap_cons,List.append_assoc,List.append_assoc] at same
      obtain ⟨heads,tails⟩ := delimiting _ _ _ _ fitX fitY same
      obtain ⟨rests,ends⟩ := ih (Nat.succ.inj lengths) fitXs fitYs tails
      exact ⟨by rw [heads,rests],ends⟩

-- A list that fills its stream is ended by the end of the stream, as long as no
-- value is written as nothing.
theorem whole (delimiting : SelfDelimiting fits code) (written : ∀ x, code x ≠ [])
    (fitsX : ∀ x ∈ xs, fits x) (fitsY : ∀ y ∈ ys, fits y)
    (same : xs.flatMap code = ys.flatMap code) : xs = ys := by
  induction xs generalizing ys with
  | nil =>
    cases ys with
    | nil => rfl
    | cons y ys =>
      rw [List.flatMap_cons] at same
      exact absurd (List.append_eq_nil_iff.mp same.symm).1 (written y)
  | cons x xs ih =>
    cases ys with
    | nil =>
      rw [List.flatMap_cons] at same
      exact absurd (List.append_eq_nil_iff.mp same).1 (written x)
    | cons y ys =>
      obtain ⟨fitX,fitXs⟩ := List.forall_mem_cons.mp fitsX
      obtain ⟨fitY,fitYs⟩ := List.forall_mem_cons.mp fitsY
      rw [List.flatMap_cons,List.flatMap_cons] at same
      obtain ⟨heads,tails⟩ := delimiting _ _ _ _ fitX fitY same
      rw [heads,ih fitXs fitYs tails]

end SelfDelimiting

theorem Text.Utf8.encode_inj {s t : String} (same : Text.Utf8.encode s = Text.Utf8.encode t) :
    s = t := by
  have bytes : s.toUTF8 = t.toUTF8 := ByteArray.ext (Array.toList_inj.mp same)
  exact String.toByteArray_inj.mp bytes

theorem Bag.ext_entries {left right : Bag} (same : left.entries = right.entries) :
    left = right := by
  rcases left with ⟨⟨entries,_⟩,_⟩
  rcases right with ⟨⟨entries',_⟩,_⟩
  cases (same : entries = entries')
  rfl

theorem numeral_inj {n m : Nat} (same : Nat.repr n = Nat.repr m) : n = m :=
  Token.digits_inj (String.ofList_inj.mp same)

namespace Marking

-- A text whose length can be written in four bytes.
def Short (s : String) : Prop := (Text.Utf8.encode s).length < 0x100000000

def ItemFits (item : Token × Nat) : Prop := Short item.1.text ∧ Short (Nat.repr item.2)

def PlaceFits (place : String × Bag) : Prop :=
  Short place.1 ∧ Short (Nat.repr place.2.size) ∧ ∀ item ∈ place.2.entries, ItemFits item

-- Every field of the stream can be written, and is short enough for its length to be.
def Encodable (marking : Marking) : Prop := ∀ place ∈ marking.contents,
  place.2.isWritable = true ∧ ∃ name : String, place.1 = ↑name ∧ PlaceFits (name,place.2)

-- The part of the stream for a place that has a name of characters.
def namedStream (place : String × Bag) : List UInt8 :=
  field place.1 ++ field (Nat.repr place.2.size) ++ place.2.entries.flatMap entryStream

theorem fourBytes_inj {n m : Nat} (below : n < 0x100000000) (below' : m < 0x100000000)
    (same : fourBytes n = fourBytes m) : n = m := by
  simp only [fourBytes,List.cons.injEq,and_true] at same
  obtain ⟨first,second,third,fourth⟩ := same
  have first := congrArg UInt8.toNat first
  have second := congrArg UInt8.toNat second
  have third := congrArg UInt8.toNat third
  have fourth := congrArg UInt8.toNat fourth
  simp only [UInt8.toNat_ofNat'] at first second third fourth
  omega

theorem field_selfDelimiting : SelfDelimiting Short field := by
  intro s t front back shortS shortT same
  simp only [field,List.append_assoc] at same
  obtain ⟨lengths,bodies⟩ := List.append_inj same rfl
  obtain ⟨bytes,rests⟩ := List.append_inj bodies (fourBytes_inj shortS shortT lengths)
  exact ⟨Text.Utf8.encode_inj bytes,rests⟩

theorem numeral_selfDelimiting :
    SelfDelimiting (fun n => Short (Nat.repr n)) (fun n => field (Nat.repr n)) :=
  field_selfDelimiting.comap fun _ _ => numeral_inj

theorem item_selfDelimiting : SelfDelimiting ItemFits entryStream := by
  intro item other front back fits fits' same
  simp only [entryStream,List.append_assoc] at same
  obtain ⟨texts,counts⟩ := field_selfDelimiting _ _ _ _ fits.1 fits'.1 same
  obtain ⟨copies,rests⟩ := numeral_selfDelimiting _ _ _ _ fits.2 fits'.2 counts
  exact ⟨Prod.ext (Token.text_inj texts) copies,rests⟩

-- The number of items that is written ahead of them says where they end.
theorem place_selfDelimiting : SelfDelimiting PlaceFits namedStream := by
  intro place other front back fits fits' same
  simp only [namedStream,List.append_assoc] at same
  obtain ⟨names,bags⟩ := field_selfDelimiting _ _ _ _ fits.1 fits'.1 same
  obtain ⟨sizes,items⟩ := numeral_selfDelimiting _ _ _ _ fits.2.1 fits'.2.1 bags
  obtain ⟨items,rests⟩ := item_selfDelimiting.lists sizes fits.2.2 fits'.2.2 items
  exact ⟨Prod.ext names (Bag.ext_entries items),rests⟩

theorem namedStream_ne_nil (place : String × Bag) : namedStream place ≠ [] := by
  simp [namedStream,field,fourBytes]

-- Places that all have names of characters.
theorem exists_named {fits : String × Bag → Prop} {contents : List (Str × Bag)}
    (all : ∀ place ∈ contents, ∃ name : String, place.1 = ↑name ∧ fits (name,place.2)) :
    ∃ places : List (String × Bag), contents = places.map (fun place => (↑place.1,place.2)) ∧
      ∀ place ∈ places, fits place := by
  induction contents with
  | nil => exact ⟨[],rfl,List.forall_mem_nil _⟩
  | cons place rest ih =>
    obtain ⟨⟨name,called,here⟩,later⟩ := List.forall_mem_cons.mp all
    obtain ⟨places,rfl,others⟩ := ih later
    exact ⟨(name,place.2) :: places,by rw [List.map_cons,← called],
      List.forall_mem_cons.mpr ⟨here,others⟩⟩

theorem placeStream_eq_ok_iff {place : Str × Bag} {bytes : List UInt8} :
    placeStream place = .ok bytes ↔ place.2.isWritable = true ∧
      ∃ name : String, place.1 = ↑name ∧ namedStream (name,place.2) = bytes := by
  unfold placeStream
  cases encoded : place.1.encode with
  | error fault =>
    refine iff_of_false (fun failed => by cases failed) ?_
    rintro ⟨-,name,called,-⟩
    rw [called,Str.encode_ofString] at encoded
    cases encoded
  | ok name =>
    have called := Str.encode_eq_ok_iff.mp encoded
    rw [TextFault.gated_eq_ok,called]
    constructor
    · rintro ⟨writable,made⟩
      exact ⟨writable,name,rfl,made⟩
    · rintro ⟨writable,other,same,made⟩
      rw [Str.ofString_inj.mp same]
      exact ⟨writable,made⟩

-- A stream that is made is made of the parts for the places that are not empty.
theorem placeStreams_ok_iff {contents : List (Str × Bag)} {parts : List (List UInt8)} :
    contents.mapM placeStream = .ok parts ↔ (∀ place ∈ contents, place.2.isWritable = true) ∧
      ∃ places : List (String × Bag), contents = places.map (fun place => (↑place.1,place.2)) ∧
        parts = places.map namedStream := by
  induction contents generalizing parts with
  | nil =>
    rw [List.mapM_nil]
    constructor
    · rintro ⟨⟩
      exact ⟨List.forall_mem_nil _,[],rfl,rfl⟩
    · rintro ⟨-,places,none,rfl⟩
      rw [List.map_eq_nil_iff.mp none.symm]
      rfl
  | cons place rest ih =>
    rw [List.mapM_cons]
    constructor
    · intro made
      cases first : placeStream place with
      | error fault => rw [first] at made; cases made
      | ok part =>
        cases others : rest.mapM placeStream with
        | error fault => rw [first,others] at made; cases made
        | ok more =>
          rw [first,others] at made
          cases made
          obtain ⟨writable,name,called,rfl⟩ := placeStream_eq_ok_iff.mp first
          obtain ⟨writables,places,rfl,rfl⟩ := ih.mp others
          exact ⟨List.forall_mem_cons.mpr ⟨writable,writables⟩,(name,place.2) :: places,
            by rw [List.map_cons,← called],rfl⟩
    · rintro ⟨writable,places,divided,rfl⟩
      obtain ⟨here,later⟩ := List.forall_mem_cons.mp writable
      cases places with
      | nil => cases divided
      | cons named places =>
        rw [List.map_cons,List.cons.injEq] at divided
        obtain ⟨rfl,rfl⟩ := divided
        have first : placeStream (↑named.1,named.2) = .ok (namedStream named) :=
          placeStream_eq_ok_iff.mpr ⟨here,named.1,rfl,rfl⟩
        rw [first,ih.mpr ⟨later,places,rfl,rfl⟩]
        rfl

theorem stream_ok_iff {marking : Marking} : (∃ bytes, marking.stream = .ok bytes) ↔
    ∀ place ∈ marking.contents, place.2.isWritable = true ∧ ∃ name : String, place.1 = ↑name := by
  have made : (∃ bytes, marking.stream = .ok bytes) ↔
      ∃ parts, marking.contents.mapM placeStream = .ok parts := by
    unfold stream
    cases marking.contents.mapM placeStream with
    | error fault => simp [Except.map]
    | ok parts => simp [Except.map]
  rw [made]
  constructor
  · rintro ⟨parts,made⟩ place member
    obtain ⟨writable,places,listed,-⟩ := placeStreams_ok_iff.mp made
    obtain ⟨named,-,rfl⟩ := List.mem_map.mp (listed ▸ member)
    exact ⟨writable _ member,named.1,rfl⟩
  · intro all
    obtain ⟨places,listed,-⟩ := @exists_named (fun _ => True) marking.contents fun place member =>
      (all place member).2.imp fun _ called => ⟨called,trivial⟩
    exact ⟨_,placeStreams_ok_iff.mpr ⟨fun place member => (all place member).1,places,listed,rfl⟩⟩

theorem Encodable.stream {marking : Marking} (short : marking.Encodable) :
    ∃ places : List (String × Bag), marking.contents = places.map (fun place => (↑place.1,place.2)) ∧
      (∀ place ∈ places, PlaceFits place) ∧
      marking.stream = .ok (places.flatMap namedStream) := by
  obtain ⟨places,listed,fits⟩ := exists_named fun place member => (short place member).2
  have made : marking.contents.mapM placeStream = .ok (places.map namedStream) :=
    placeStreams_ok_iff.mpr ⟨fun place member => (short place member).1,places,listed,rfl⟩
  refine ⟨places,listed,fits,?_⟩
  rw [Marking.stream,made,List.flatMap_def]
  rfl

theorem contents_eq_of_stream_eq {left right : Marking} (short : left.Encodable)
    (short' : right.Encodable) (same : left.stream = right.stream) :
    left.contents = right.contents := by
  obtain ⟨places,listed,fits,made⟩ := short.stream
  obtain ⟨places',listed',fits',made'⟩ := short'.stream
  rw [made,made',Except.ok.injEq] at same
  rw [listed,listed',place_selfDelimiting.whole namedStream_ne_nil fits fits' same]

end Marking

end ProtocolNet
