import ProtocolNet.Proofs.EventFlaws

namespace ProtocolNet

theorem isUpper_of_isDigit {c : Char} (digit : c.isDigit = true) : c.isUpper = false := by
  simp only [Char.isDigit,Bool.and_eq_true,decide_eq_true_eq] at digit
  have bound : c.toNat ≤ 57 := digit.2
  rw [← Bool.not_eq_true]
  intro upper
  have least : 65 ≤ c.toNat := (of_decide_eq_true upper).1
  omega

-- Texts without capital letters.
def Lowered (s : List Char) : Prop := ∀ c ∈ s, c.isUpper = false

theorem lowered_toDigits {n : Nat} : Lowered (Nat.toDigits 10 n) :=
  fun _ member => isUpper_of_isDigit (Text.ascii_toDigits _ member)

theorem Lowered.append {s t : List Char} (front : Lowered s) (back : Lowered t) : Lowered (s ++ t) := by
  intro c member
  rcases List.mem_append.mp member with here | there
  · exact front c here
  · exact back c there

theorem Lowered.cons {c : Char} {s : List Char} (first : c.isUpper = false) (rest : Lowered s) :
    Lowered (c :: s) := List.forall_mem_cons.mpr ⟨first,rest⟩

theorem lowered_of_all {s : List Char} (each : s.all (!·.isUpper) = true) : Lowered s := by
  intro c member
  rw [← Bool.not_eq_true']
  exact List.all_eq_true.mp each c member

namespace Double

theorem lowered_zeros {n : Nat} : Lowered (zeros n) := by
  intro c member
  rw [List.eq_of_mem_replicate member]
  rfl

theorem lowered_exponentText {power : Int} : Lowered (exponentText power) := by
  apply Lowered.cons
  · split <;> rfl
  · exact lowered_zeros.append lowered_toDigits

theorem lowered_decimalText {digits : List Char} {top : Int} (lowered : Lowered digits) :
    Lowered (decimalText digits top) := by
  unfold decimalText
  split
  · split
    · exact .cons rfl (.cons rfl (lowered_zeros.append lowered))
    · split
      · refine (lowered.append lowered_zeros).append ?_
        exact .cons rfl (.cons rfl (List.forall_mem_nil _))
      · refine Lowered.append (fun c member => ?_) (.cons rfl fun c member => ?_)
        · exact lowered c (List.mem_of_mem_take member)
        · exact lowered c (List.mem_of_mem_drop member)
  · split
    · exact List.forall_mem_nil _
    · obtain ⟨first,_⟩ := List.forall_mem_cons.mp lowered
      exact .cons first (.cons rfl lowered_exponentText)
    · obtain ⟨first,rest⟩ := List.forall_mem_cons.mp lowered
      exact Lowered.append (.cons first (.cons rfl rest)) (.cons rfl lowered_exponentText)

theorem lowered_text (x : Double) : Lowered x.text.toList := by
  cases x with
  | nan => exact lowered_of_all (by decide)
  | infinite negative => cases negative <;> exact lowered_of_all (by decide)
  | finite negative mantissa exponent =>
    have digits : ∀ d, Lowered (dropTrailingZeros (Nat.toDigits 10 d)) := by
      intro d c member
      have kept := (List.dropWhile_sublist _).subset (List.mem_reverse.mp member)
      exact lowered_toDigits c (List.mem_reverse.mp kept)
    have zero : Lowered ['0','.','0'] := lowered_of_all (by decide)
    rw [text,String.toList_ofList]
    -- Which digits are the shortest ones plays no part.
    generalize shortest mantissa exponent = scaled
    obtain ⟨d,power⟩ := scaled
    dsimp only
    split <;> split
    · exact .cons rfl zero
    · exact .cons rfl (lowered_decimalText (digits d))
    · exact zero
    · exact lowered_decimalText (digits d)

end Double

namespace Json

theorem lowered_integerText (n : Int) : Lowered (Text.integerText n).toList := by
  cases n with
  | ofNat n =>
    rw [Text.integerText,Nat.toList_repr]
    exact lowered_toDigits
  | negSucc n =>
    rw [Text.integerText,String.toList_append,Nat.toList_repr]
    exact .cons rfl lowered_toDigits

end Json

namespace Event

variable {event : Event} {kind : Kind} {fields : List (Str × Json)} {key : Str} {value : Json}

-- Only the text that is the name of a type is taken for it: no other value looks like one.
theorem eq_str_of_plain (same : value.plain = ↑kind.text) : value = .str kind.text := by
  have capital : ∃ c rest, kind.text.toList = c :: rest ∧ c.isUpper = true := by
    cases kind <;> exact ⟨_,_,rfl,rfl⟩
  obtain ⟨c,rest,starts,upper⟩ := capital
  have other : ∀ s : List Char, Lowered s → kind.text.toList ≠ s := by
    intro s lowered equal
    have low := lowered c (equal ▸ starts ▸ List.mem_cons_self)
    rw [low] at upper
    cases upper
  have word : ∀ s : String, value.plain = ↑s → s = kind.text := fun s shown =>
    Str.ofString_inj.mp (shown.symm.trans same)
  cases value with
  | str s => exact congrArg Json.str same
  | null =>
    have word : "None" = kind.text := word _ rfl
    cases kind <;> exact absurd word (by decide)
  | bool b =>
    have word : (if b then "True" else "False") = kind.text := word _ rfl
    cases kind <;> cases b <;> exact absurd word (by decide)
  | int n => exact absurd (congrArg String.toList (word _ rfl).symm) (other _ (Json.lowered_integerText n))
  | float x => exact absurd (congrArg String.toList (word _ rfl).symm) (other _ x.lowered_text)
  | arr items =>
    have chars := congrArg String.toList (word _ rfl)
    simp only [Json.shown,String.toList_append,starts] at chars
    obtain ⟨rfl,_⟩ := List.cons.inj chars
    cases upper
  | obj fields =>
    have chars := congrArg String.toList (word _ rfl)
    simp only [Json.shown,String.toList_append,starts] at chars
    obtain ⟨rfl,_⟩ := List.cons.inj chars
    cases upper

theorem perm_lookup (distinct : (fields.map (·.1)).Nodup) (found : fields.lookup key = some value) :
    fields.Perm ((key,value) :: fields.filter (·.1 ≠ key)) := by
  obtain ⟨front,back,rfl,before⟩ := List.lookup_eq_some_iff.mp found
  rw [List.map_append,List.map_cons,List.nodup_append] at distinct
  obtain ⟨_,behind,_⟩ := distinct
  have absent : key ∉ front.map (·.1) := by
    intro member
    obtain ⟨field,there,same⟩ := List.mem_map.mp member
    have apart := before field there
    simp [same] at apart
  rw [List.filter_append,Json.filter_absent absent,List.filter_cons_of_neg (by simp),
    Json.filter_absent (List.nodup_cons.mp behind).1]
  exact List.perm_middle

-- The objects of events are read, and no others: an object has a type and the fields of the type,
-- each with a value of its own kind, and nothing else.
theorem ofJson_ok_iff (distinct : (fields.map (·.1)).Nodup) :
    ofJson (.obj fields) = .ok event ↔ fields.Perm event.record := by
  constructor
  · intro read
    rw [ofJson] at read
    cases type : fields.lookup ↑"type" with
    | none => rw [type] at read; cases read
    | some typeName =>
      simp only [type] at read
      split at read
      · have others : ((fields.filter (·.1 ≠ Str.ofString "type")).map (·.1)).Nodup :=
          distinct.sublist (List.filter_sublist.map _)
        obtain ⟨named,perm⟩ := (make_ok_iff others).mp read
        rw [eq_str_of_plain named] at type
        exact (perm_lookup distinct type).trans (perm.cons _)
      · cases read
  · exact ofJson_perm

-- What every object that is read looks like: it names a type, has the fields of that type and no
-- others, natural numbers where there are numbers, and texts where there are texts.
structure Formed (kind : Kind) (fields : List (Str × Json)) : Prop where
  type : fields.lookup ↑"type" = some (.str kind.text)
  names : (fields.map (·.1)).Perm (("type" :: kind.fieldNames).map Str.ofString)
  number : ∀ name ∈ kind.fieldNames, isTextField name = false →
    ∃ n : Nat, fields.lookup ↑name = some (.int n)
  text : ∀ name ∈ kind.fieldNames, isTextField name = true →
    ∃ s, fields.lookup ↑name = some (.str s)

theorem lookup_record {field : String × FieldValue} (own : field ∈ event.fields) :
    event.record.lookup ↑field.1 = some field.2.toJson := by
  have distinct := event.record_distinct
  have member : (↑field.1,field.2.toJson) ∈ event.record :=
    List.mem_cons_of_mem _ (List.mem_map_of_mem own)
  obtain ⟨front,back,split⟩ := List.append_of_mem member
  rw [split,List.map_append,List.nodup_append] at distinct
  have absent : ↑field.1 ∉ front.map (·.1) := fun before =>
    distinct.2.2 _ before _ List.mem_cons_self rfl
  rw [split,List.lookup_append,Json.lookup_absent absent,List.lookup_cons_self]
  rfl

theorem formed_of_perm (perm : fields.Perm event.record) : Formed event.kind fields := by
  have distinct : (fields.map (·.1)).Nodup := (perm.map _).nodup_iff.mpr event.record_distinct
  have same := Json.lookup_perm perm distinct
  have field : ∀ name ∈ event.kind.fieldNames, ∃ value, (name,value) ∈ event.fields ∧
      fields.lookup ↑name = some value.toJson := by
    intro name member
    rw [fieldNames_kind] at member
    obtain ⟨⟨_,value⟩,own,rfl⟩ := List.mem_map.mp member
    exact ⟨value,own,(same _).trans (lookup_record own)⟩
  constructor
  · exact same "type"
  · rw [← record_names]
    exact perm.map _
  · intro name member numeric
    obtain ⟨value,own,found⟩ := field name member
    rcases event.fields_typed _ own with ⟨textual,_⟩ | ⟨_,n,rfl⟩
    · rw [numeric] at textual
      cases textual
    · exact ⟨n,found⟩
  · intro name member textual
    obtain ⟨value,own,found⟩ := field name member
    rcases event.fields_typed _ own with ⟨_,s,rfl⟩ | ⟨numeric,_⟩
    · exact ⟨s,found⟩
    · rw [textual] at numeric
      cases numeric

end Event

namespace Trace

-- The structured form is read back, also with a place beside the fields and inside another record,
-- and what is read as an event is its structured form: an object that is not that of any event is
-- refused, and so is every value that is no object.
theorem events_are_their_objects :
    (∀ event : Event, Event.ofJson event.toJson = .ok event) ∧
    (∀ (event : Event) (location : Option SourceLocation) (fields placing : List (Str × Json)),
      fields.Perm (event.record ++ placing) →
      (placing = [] ∧ location = none ∨ ∃ value, placing = [(↑"location",value)] ∧
        SourceLocation.ofJson value = .ok location) →
      readRecord (.obj fields) = .ok (event,location) ∧
        ∀ outer, outer.lookup ↑"event" = some (.obj fields) →
          readRecord (.obj outer) = .ok (event,location)) ∧
    (∀ fields : List (Str × Json), (fields.map (·.1)).Nodup →
      (∀ event, Event.ofJson (.obj fields) = .ok event ↔ fields.Perm event.record) ∧
      ((∀ kind, ¬Event.Formed kind fields) → ∃ fault, Event.ofJson (.obj fields) = .error fault)) ∧
    ∀ value : Json, (∀ fields, value ≠ .obj fields) → Event.ofJson value = .error (.untyped value) := by
  refine ⟨Event.ofJson_toJson,?_,?_,?_⟩
  · intro event location fields placing perm placed
    rcases placed with ⟨rfl,rfl⟩ | ⟨value,rfl,read⟩
    · exact readRecord_of_placed (.inl rfl) perm rfl
    · exact readRecord_of_placed (.inr ⟨value,rfl⟩) perm read
  · intro fields distinct
    refine ⟨fun event => Event.ofJson_ok_iff distinct,fun unformed => ?_⟩
    cases read : Event.ofJson (.obj fields) with
    | error fault => exact ⟨fault,rfl⟩
    | ok event =>
      exact absurd (Event.formed_of_perm ((Event.ofJson_ok_iff distinct).mp read)) (unformed event.kind)
  · intro value other
    cases value with
    | obj fields => exact absurd rfl (other fields)
    | null | bool | int | float | str | arr => rfl

theorem events_are_their_objects_block :
    let event : Event := .block 3 "waits"
    let fields : List (Str × Json) := [(↑"location",.str "a.c:1:2"),(↑"reason",.str "waits"),
      (↑"tid",.int 3),(↑"type",.str "Block")]
    readRecord (.obj fields) = .ok (event,some ⟨"a.c",1,2⟩) ∧
      readRecord (.obj [("marking_hash",.int 7),("event",.obj fields)]) =
        .ok (event,some ⟨"a.c",1,2⟩) ∧
      Event.ofJson (.obj [("tid",.int 3),("type",.str "Block"),("reason",.str "waits")]) = .ok event ∧
      (∃ fault, Event.ofJson (.obj [("type",.str "Yield"),("tid",.bool true)]) = .error fault) ∧
      Event.ofJson (.str "Yield") = .error (.untyped (.str "Yield")) := by
  intro event fields
  obtain ⟨-,placed,objects,others⟩ := events_are_their_objects
  let placing : List (Str × Json) := [(↑"location",.str "a.c:1:2")]
  have turned : fields = (event.record ++ placing).reverse := rfl
  have perm : fields.Perm (event.record ++ placing) := turned ▸ List.reverse_perm _
  have place : SourceLocation.ofStr? "a.c:1:2" = some ⟨"a.c",1,2⟩ := by decide +kernel
  have located : SourceLocation.ofJson (.str "a.c:1:2") = .ok (some ⟨"a.c",1,2⟩) := by
    simp only [SourceLocation.ofJson,SourceLocation.ofText,place]
    rfl
  obtain ⟨bare,wrapped⟩ := placed event (some ⟨"a.c",1,2⟩) fields placing perm (.inr ⟨_,rfl,located⟩)
  refine ⟨bare,wrapped _ rfl,?_,?_,others _ (fun _ same => by cases same)⟩
  · exact ((objects _ (by decide +kernel)).1 event).mpr (.swap ..)
  · apply (objects _ (by decide +kernel)).2
    intro kind formed
    obtain rfl : .yield = kind := by
      have type := formed.type
      simp only [List.lookup_cons_self,Option.some.injEq,Json.str.injEq,Str.ofString_inj] at type
      exact Event.Kind.text_inj type
    obtain ⟨n,found⟩ := formed.number "tid" List.mem_cons_self rfl
    cases found

end Trace

end ProtocolNet
