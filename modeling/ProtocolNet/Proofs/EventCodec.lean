import Mathlib.Data.List.Nodup
import ProtocolNet.Monitor.Journal
import ProtocolNet.Proofs.JsonRoundTrip
import ProtocolNet.Trace

namespace ProtocolNet

theorem bind_ok_iff {ε α β : Type} {first : Except ε α} {next : α → Except ε β} {result : β} :
    (first >>= next) = .ok result ↔ ∃ value, first = .ok value ∧ next value = .ok result := by
  cases first with
  | error fault => simp [bind,Except.bind]
  | ok value => simp [bind,Except.bind]

theorem lookup_ofString {α β : Type} (g : α → β) (name : String) (entries : List (String × α)) :
    (entries.map fun entry => (Str.ofString entry.1,g entry.2)).lookup ↑name =
      (entries.lookup name).map g := by
  induction entries with
  | nil => rfl
  | cons entry rest ih =>
    rw [List.map_cons,List.lookup_cons,List.lookup_cons,ih,Str.beq_ofString]
    split <;> rfl

-- Texts without halves of one pair side by side.
def FieldValue.Apart : FieldValue → Prop
  | .number _ => True
  | .text s => s.Apart

namespace Event

def Apart (event : Event) : Prop := ∀ field ∈ event.fields, field.2.Apart

-- The fields of an event as an object has them.
def fieldValues (event : Event) : List (Str × Json) :=
  event.fields.map fun field => (↑field.1,field.2.toJson)

theorem isWritable_iff {event : Event} :
    event.isWritable = true ↔ ∀ field ∈ event.fields, field.2.isWritable = true := by
  rw [isWritable,List.all_eq_true]

theorem lookup_fieldValues (event : Event) (name : String) :
    event.fieldValues.lookup ↑name = (event.fields.lookup name).map FieldValue.toJson :=
  lookup_ofString FieldValue.toJson name event.fields

theorem keys_fieldValues (event : Event) :
    event.fieldValues.map (·.1) = event.kind.fieldNames.map Str.ofString := by
  rw [fieldValues,fieldNames_kind,List.map_map,List.map_map]
  rfl

theorem nodup_fieldNames (kind : Kind) : ("type" :: kind.fieldNames).Nodup := by
  cases kind <;> decide

theorem location_not_field (kind : Kind) : "location" ∉ "type" :: kind.fieldNames := by
  cases kind <;> decide

theorem readNumber_of_lookup {kind : Kind} {values : List (Str × Json)} {name : String} {n : Nat}
    (found : values.lookup ↑name = some (.int n)) : readNumber kind values name = .ok n := by
  rw [readNumber,found]
  rfl

theorem readText_of_lookup {kind : Kind} {values : List (Str × Json)} {name : String} {s : Str}
    (found : values.lookup ↑name = some (.str s)) : readText kind values name = .ok s := by
  rw [readText,found]
  rfl

theorem readFields_fieldValues (event : Event) :
    readFields event.kind event.fieldValues = .ok event := by
  have number {kind : Kind} (name : String) (n : Nat)
      (found : event.fields.lookup name = some (.number n)) :
      readNumber kind event.fieldValues name = .ok n :=
    readNumber_of_lookup (by rw [lookup_fieldValues,found]; rfl)
  have text {kind : Kind} (name : String) (s : Str)
      (found : event.fields.lookup name = some (.text s)) :
      readText kind event.fieldValues name = .ok s :=
    readText_of_lookup (by rw [lookup_fieldValues,found]; rfl)
  cases event with
  | threadSpawn parent child =>
    simp only [readFields,kind,number "parent" parent rfl,number "child" child rfl]; rfl
  | threadJoin joiner joinee =>
    simp only [readFields,kind,number "joiner" joiner rfl,number "joinee" joinee rfl]; rfl
  | yield tid | wake tid => simp only [readFields,kind,number "tid" tid rfl]; rfl
  | block tid reason =>
    simp only [readFields,kind,number "tid" tid rfl,text "reason" reason rfl]; rfl
  | lockAcquire tid lock | lockRelease tid lock =>
    simp only [readFields,kind,number "tid" tid rfl,number "lock_id" lock rfl]; rfl
  | atomicLoad tid loc ordering | atomicStore tid loc ordering =>
    simp only [readFields,kind,number "tid" tid rfl,number "loc_id" loc rfl,
      text "ordering" ordering rfl]
    rfl
  | unsafeRead tid region size | unsafeWrite tid region size =>
    simp only [readFields,kind,number "tid" tid rfl,number "region_id" region rfl,
      number "size" size rfl]
    rfl

-- The fields of an event, with the name of its type, make that event again.
theorem make_fields (event : Event) : make event.typeName event.fieldValues = .ok event := by
  have known : Kind.ofText? event.typeName = some event.kind := Kind.ofText?_text event.kind
  have none (names : List Str) : names.filter (· ∉ names) = [] := by simp
  simp only [make,known,keys_fieldValues,none,List.isEmpty_nil,Bool.not_true,Bool.false_eq_true,
    if_false]
  exact readFields_fieldValues event

theorem toJson_eq (event : Event) :
    event.toJson = .obj ((↑"type",.str event.typeName) :: event.fieldValues) := rfl

-- An entry of another name among the fields, and what is left when it is taken away.
theorem lookup_fieldValues_none {event : Event} {name : String} (other : name ∉ event.kind.fieldNames) :
    event.fieldValues.lookup ↑name = none := by
  rw [lookup_fieldValues,Option.map_eq_none_iff,List.lookup_eq_none_iff]
  intro field member
  refine (bne_iff_ne (a := name)).mpr fun same => other ?_
  rw [fieldNames_kind,same]
  exact List.mem_map_of_mem member

theorem filter_fieldValues {event : Event} {name : String} (other : name ∉ event.kind.fieldNames) :
    event.fieldValues.filter (fun entry => entry.1 ≠ ↑name) = event.fieldValues := by
  refine List.filter_eq_self.mpr fun entry member => decide_eq_true fun same => ?_
  have key : entry.1 ∈ event.fieldValues.map (·.1) := List.mem_map_of_mem member
  rw [same,keys_fieldValues,List.mem_map] at key
  obtain ⟨field,listed,called⟩ := key
  exact other (Str.ofString_inj.mp called ▸ listed)

theorem ofJson_toJson (event : Event) : ofJson event.toJson = .ok event := by
  have untyped := (List.nodup_cons.mp (nodup_fieldNames event.kind)).1
  have others : ((↑"type",.str event.typeName) :: event.fieldValues).filter
      (fun entry => entry.1 ≠ ↑"type") = event.fieldValues := by
    rw [List.filter_cons_of_neg (by simp),filter_fieldValues untyped]
  rw [toJson_eq,ofJson,List.lookup_cons,beq_self_eq_true]
  show (if true then make event.typeName _ else _) = _
  rw [others,if_pos rfl,make_fields]

theorem soundFields (fields : List (String × FieldValue)) (apart : ∀ field ∈ fields, field.2.Apart)
    (writable : ∀ field ∈ fields, field.2.isWritable = true) :
    Json.SoundFields (fields.map fun field => (Str.ofString field.1,field.2.toJson)) := by
  induction fields with
  | nil => trivial
  | cons field fields ih =>
    obtain ⟨here,later⟩ := List.forall_mem_cons.mp writable
    obtain ⟨here',later'⟩ := List.forall_mem_cons.mp apart
    obtain ⟨name,value⟩ := field
    refine ⟨Json.apart_ofString name,?_,ih later' later⟩
    cases value with
    | number n => exact here
    | text s => exact here'

theorem sound_toJson (event : Event) (apart : event.Apart) (writable : event.isWritable = true) :
    event.toJson.Sound := by
  refine ⟨?_,Json.apart_ofString "type",Json.apart_ofString _,
    soundFields event.fields apart (isWritable_iff.mp writable)⟩
  have names : ((↑"type" : Str) :: event.fieldValues.map (·.1)) =
      ("type" :: event.kind.fieldNames).map Str.ofString := by
    rw [keys_fieldValues,List.map_cons]
  rw [List.map_cons]
  show ((↑"type" : Str) :: event.fieldValues.map (·.1)).Nodup
  rw [names]
  exact List.Nodup.map (fun _ _ same => Str.ofString_inj.mp same) (nodup_fieldNames event.kind)

variable {kind : Kind} {values : List (Str × Json)} {name : String} {text typeName : Str} {n : Nat}
  {event : Event}

theorem lookup_of_readNumber (read : readNumber kind values name = .ok n) :
    values.lookup ↑name = some (.int n) := by
  rw [readNumber] at read
  cases found : values.lookup ↑name with
  | none => rw [found] at read; cases read
  | some value =>
    rw [found] at read
    dsimp only [Json.orNull,Option.getD_some] at read
    split at read
    · rename_i natural
      cases read
      unfold Json.natural? at natural
      split at natural <;> cases natural
      rfl
    · cases read

theorem lookup_of_readText (read : readText kind values name = .ok text) :
    values.lookup ↑name = some (.str text) := by
  rw [readText] at read
  cases found : values.lookup ↑name with
  | none => rw [found] at read; cases read
  | some value =>
    rw [found] at read
    dsimp only [Json.orNull,Option.getD_some] at read
    split at read
    · rename_i written
      cases read
      unfold Json.text? at written
      split at written <;> cases written
      rfl
    · cases read

theorem bind_ok {ε α β : Type} {first : Except ε α} {next : α → Except ε β} {result : β}
    (done : (first >>= next) = .ok result) : ∃ value, first = .ok value ∧ next value = .ok result :=
  bind_ok_iff.mp done

-- An event is made of nothing but what was given.
theorem lookup_of_readFields (read : readFields kind values = .ok event) :
    ∀ field ∈ event.fields, values.lookup ↑field.1 = some field.2.toJson := by
  cases kind with
  | yield | wake =>
    obtain ⟨tid,first,read⟩ := bind_ok read
    cases read
    exact List.forall_mem_singleton.mpr (lookup_of_readNumber first)
  | threadSpawn | threadJoin | lockAcquire | lockRelease =>
    obtain ⟨former,first,read⟩ := bind_ok read
    obtain ⟨latter,second,read⟩ := bind_ok read
    cases read
    exact List.forall_mem_cons.mpr ⟨lookup_of_readNumber first,
      List.forall_mem_singleton.mpr (lookup_of_readNumber second)⟩
  | block =>
    obtain ⟨tid,first,read⟩ := bind_ok read
    obtain ⟨reason,second,read⟩ := bind_ok read
    cases read
    exact List.forall_mem_cons.mpr ⟨lookup_of_readNumber first,
      List.forall_mem_singleton.mpr (lookup_of_readText second)⟩
  | atomicLoad | atomicStore =>
    obtain ⟨tid,first,read⟩ := bind_ok read
    obtain ⟨loc,second,read⟩ := bind_ok read
    obtain ⟨ordering,third,read⟩ := bind_ok read
    cases read
    exact List.forall_mem_cons.mpr ⟨lookup_of_readNumber first,List.forall_mem_cons.mpr
      ⟨lookup_of_readNumber second,List.forall_mem_singleton.mpr (lookup_of_readText third)⟩⟩
  | unsafeRead | unsafeWrite =>
    obtain ⟨tid,first,read⟩ := bind_ok read
    obtain ⟨region,second,read⟩ := bind_ok read
    obtain ⟨size,third,read⟩ := bind_ok read
    cases read
    exact List.forall_mem_cons.mpr ⟨lookup_of_readNumber first,List.forall_mem_cons.mpr
      ⟨lookup_of_readNumber second,List.forall_mem_singleton.mpr (lookup_of_readNumber third)⟩⟩

theorem mem_of_make (made : make typeName values = .ok event) :
    ∀ field ∈ event.fields, (↑field.1,field.2.toJson) ∈ values := by
  unfold make at made
  split at made
  · cases made
  · dsimp only at made
    split at made
    · cases made
    · split at made
      · cases made
      · intro field member
        obtain ⟨before,after,rfl,_⟩ :=
          List.lookup_eq_some_iff.mp (lookup_of_readFields made field member)
        exact List.mem_append_right _ List.mem_cons_self

end Event

-- What a log record says, before it is written.
def Journal.recordValue (event : Event) (digest : Nat) : Json :=
  .obj [(↑"event",event.toJson),(↑"marking_hash",.int digest)]

-- A log record is an event record without a location; the digest plays no part.
theorem Trace.readRecord_recordValue (event : Event) (digest : Nat) :
    readRecord (Journal.recordValue event digest) = .ok (event,none) := by
  have unplaced := List.not_mem_of_not_mem_cons (Event.location_not_field event.kind)
  have typed : (↑"type" : Str) ≠ ↑"location" := by decide
  have kept : ((↑"type",Json.str event.typeName) :: event.fieldValues).filter
      (fun entry => entry.1 ≠ ↑"location") = (↑"type",.str event.typeName) :: event.fieldValues := by
    rw [List.filter_cons_of_pos (by simp),Event.filter_fieldValues unplaced]
  have nowhere : ((↑"type",Json.str event.typeName) :: event.fieldValues).lookup ↑"location" =
      none := by
    rw [List.lookup_cons,beq_eq_false_iff_ne.mpr typed.symm]
    exact Event.lookup_fieldValues_none unplaced
  have inner : eventObject (Journal.recordValue event digest) =
      .obj ((↑"type",.str event.typeName) :: event.fieldValues) := by
    rw [eventObject,Journal.recordValue,Json.field?,List.lookup_cons,beq_self_eq_true]
    rfl
  rw [readRecord,inner]
  dsimp only
  rw [nowhere,kept,← Event.toJson_eq,Event.ofJson_toJson]
  rfl

theorem Journal.sound_recordValue {event : Event} {digest : Nat} (apart : event.Apart)
    (writable : event.isWritable = true) (short : Text.isWritable digest = true) :
    (recordValue event digest).Sound := by
  have keys : [(↑"event" : Str),↑"marking_hash"].Nodup := by decide
  exact ⟨keys,Json.apart_ofString _,event.sound_toJson apart writable,Json.apart_ofString _,short,
    trivial⟩

-- The same for the line that is written.
theorem Trace.readLine_recordText (event : Event) (digest : Nat) (apart : event.Apart)
    (writable : event.isWritable = true) (short : Text.isWritable digest = true) :
    readLine false (Journal.recordText event digest).toList = .ok (event,none) := by
  have decoded : Json.decode (Journal.recordText event digest).toList =
      .ok (Journal.recordValue event digest) :=
    Json.decode_encode _ (Journal.sound_recordValue apart writable short)
  rw [readLine,if_neg Bool.false_ne_true,decoded]
  dsimp only
  rw [readRecord_recordValue]

end ProtocolNet
