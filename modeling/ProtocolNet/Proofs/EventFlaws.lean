import ProtocolNet.Proofs.EventText

namespace ProtocolNet

namespace Transcript

-- What is wrong with a text that is no event.
inductive Cause where
  | badCharacter | badSyntax | tokenLiteral | repeatedField
  | unknownType | unexpectedField | missingField | mistypedField

-- What keeps a name and fields from being an event. A value is of the wrong type if no event of
-- the named type has it in its field.
inductive Flaw (name : String) (fields : Fields) : Cause → Prop
  | repeatedField (again : ¬(fields.map (·.1)).Nodup) : Flaw name fields .repeatedField
  | unknownType (distinct : (fields.map (·.1)).Nodup)
      (unknown : ∀ kind : Event.Kind, kind.text ≠ name) : Flaw name fields .unknownType
  | unexpectedField {kind : Event.Kind} {field : String} (known : kind.text = name)
      (distinct : (fields.map (·.1)).Nodup) (given : field ∈ fields.map (·.1))
      (foreign : field ∉ kind.fieldNames) : Flaw name fields .unexpectedField
  | missingField {kind : Event.Kind} {field : String} (known : kind.text = name)
      (distinct : (fields.map (·.1)).Nodup) (own : fields.map (·.1) ⊆ kind.fieldNames)
      (due : field ∈ kind.fieldNames) (missing : field ∉ fields.map (·.1)) :
      Flaw name fields .missingField
  | mistypedField {kind : Event.Kind} {field : String × FieldValue} (known : kind.text = name)
      (complete : (fields.map (·.1)).Perm kind.fieldNames) (given : field ∈ fields)
      (alien : ∀ event : Event, event.kind = kind → field ∉ event.fields) :
      Flaw name fields .mistypedField

end Transcript

namespace Event

open Transcript (Cause Flaw)

def Fault.cause? : Fault → Option Cause
  | .unknownType _ => some .unknownType
  | .unexpectedFields .. => some .unexpectedField
  | .missingFields .. => some .missingField
  | .notNatural .. | .notText .. => some .mistypedField
  | .untyped _ => none

-- A result whose fault, if it is one, is that a field has a value of the wrong type.
def FailsByType {α : Type} (result : Except Fault α) : Prop :=
  ∀ fault, result = .error fault → fault.cause? = some .mistypedField

-- The fields of texts; all others are numbers.
def isTextField (name : String) : Bool := name = "reason" || name = "ordering"

-- Fields each of which some event of the type has.
def WellTyped (kind : Kind) (fields : Transcript.Fields) : Prop :=
  ∀ field ∈ fields, ∃ event : Event, event.kind = kind ∧ field ∈ event.fields

variable {α β : Type} {first : Except Fault α} {next : α → Except Fault β} {kind : Kind}
  {values : List (Str × Json)} {fields : Transcript.Fields} {name : String} {fault : Fault}

theorem FailsByType.ok (value : α) : FailsByType (.ok value) := fun _ failed => by cases failed

theorem FailsByType.bind (here : FailsByType first) (later : ∀ value, FailsByType (next value)) :
    FailsByType (first >>= next) := by
  cases first with
  | ok value => exact later value
  | error fault =>
    intro other failed
    cases failed
    exact here fault rfl

theorem failsByType_readNumber (name : String) : FailsByType (readNumber kind values name) := by
  intro fault failed
  rw [readNumber] at failed
  split at failed <;> cases failed
  rfl

theorem failsByType_readText (name : String) : FailsByType (readText kind values name) := by
  intro fault failed
  rw [readText] at failed
  split at failed <;> cases failed
  rfl

theorem failsByType_readFields : FailsByType (readFields kind values) := by
  have number := @failsByType_readNumber kind values
  have text := @failsByType_readText kind values
  cases kind with
  | yield | wake => exact (number _).bind fun _ => .ok _
  | threadSpawn | threadJoin | lockAcquire | lockRelease =>
    exact (number _).bind fun _ => (number _).bind fun _ => .ok _
  | block => exact (number _).bind fun _ => (text _).bind fun _ => .ok _
  | atomicLoad | atomicStore =>
    exact (number _).bind fun _ => (number _).bind fun _ => (text _).bind fun _ => .ok _
  | unsafeRead | unsafeWrite =>
    exact (number _).bind fun _ => (number _).bind fun _ => (number _).bind fun _ => .ok _

theorem fields_typed (event : Event) : ∀ field ∈ event.fields,
    (isTextField field.1 = true ∧ ∃ text, field.2 = .text text) ∨
      (isTextField field.1 = false ∧ ∃ n, field.2 = .number n) := by
  cases event <;> simp [Event.fields,isTextField]

theorem lookup_of_named (named : name ∈ fields.map (·.1)) : ∃ value, (name,value) ∈ fields ∧
    (fields.map fun field => (Str.ofString field.1,field.2.toJson)).lookup ↑name =
      some value.toJson := by
  induction fields with
  | nil => cases named
  | cons field fields ih =>
    obtain ⟨key,value⟩ := field
    by_cases same : name = key
    · subst same
      exact ⟨value,List.mem_cons_self,by simp⟩
    · obtain ⟨value',member,found⟩ := ih (List.mem_of_ne_of_mem same named)
      refine ⟨value',List.mem_cons_of_mem _ member,?_⟩
      rw [List.map_cons,List.lookup_cons,Str.beq_ofString,beq_eq_false_iff_ne.mpr same]
      exact found

theorem readNumber_typed (typed : WellTyped kind fields) (named : name ∈ fields.map (·.1))
    (numeric : isTextField name = false) :
    ∃ n, readNumber kind (fields.map fun field => (↑field.1,field.2.toJson)) name = .ok n := by
  obtain ⟨value,member,found⟩ := lookup_of_named named
  obtain ⟨event,_,own⟩ := typed _ member
  rcases event.fields_typed _ own with ⟨textual,_⟩ | ⟨_,n,same⟩
  · rw [numeric] at textual
    cases textual
  · cases same
    exact ⟨n,by rw [readNumber,found]; rfl⟩

theorem readText_typed (typed : WellTyped kind fields) (named : name ∈ fields.map (·.1))
    (textual : isTextField name = true) :
    ∃ text, readText kind (fields.map fun field => (↑field.1,field.2.toJson)) name = .ok text := by
  obtain ⟨value,member,found⟩ := lookup_of_named named
  obtain ⟨event,_,own⟩ := typed _ member
  rcases event.fields_typed _ own with ⟨_,text,same⟩ | ⟨numeric,_⟩
  · cases same
    exact ⟨text,by rw [readText,found]; rfl⟩
  · rw [textual] at numeric
    cases numeric

theorem succeeds_bind (here : ∃ value, first = .ok value)
    (later : ∀ value, ∃ result, next value = .ok result) :
    ∃ result, (first >>= next) = .ok result := by
  obtain ⟨value,rfl⟩ := here
  exact later value

theorem readFields_typed (typed : WellTyped kind fields)
    (complete : kind.fieldNames ⊆ fields.map (·.1)) :
    ∃ event, readFields kind (fields.map fun field => (↑field.1,field.2.toJson)) = .ok event := by
  have number : ∀ name ∈ kind.fieldNames, isTextField name = false →
      ∃ n, readNumber kind (fields.map fun field => (↑field.1,field.2.toJson)) name = .ok n :=
    fun name due numeric => readNumber_typed typed (complete due) numeric
  have text : ∀ name ∈ kind.fieldNames, isTextField name = true →
      ∃ text, readText kind (fields.map fun field => (↑field.1,field.2.toJson)) name = .ok text :=
    fun name due textual => readText_typed typed (complete due) textual
  cases kind with
  | yield | wake => exact succeeds_bind (number _ (by decide) (by decide)) fun _ => ⟨_,rfl⟩
  | threadSpawn | threadJoin | lockAcquire | lockRelease =>
    exact succeeds_bind (number _ (by decide) (by decide)) fun _ =>
      succeeds_bind (number _ (by decide) (by decide)) fun _ => ⟨_,rfl⟩
  | block =>
    exact succeeds_bind (number _ (by decide) (by decide)) fun _ =>
      succeeds_bind (text _ (by decide) (by decide)) fun _ => ⟨_,rfl⟩
  | atomicLoad | atomicStore =>
    exact succeeds_bind (number _ (by decide) (by decide)) fun _ =>
      succeeds_bind (number _ (by decide) (by decide)) fun _ =>
        succeeds_bind (text _ (by decide) (by decide)) fun _ => ⟨_,rfl⟩
  | unsafeRead | unsafeWrite =>
    exact succeeds_bind (number _ (by decide) (by decide)) fun _ =>
      succeeds_bind (number _ (by decide) (by decide)) fun _ =>
        succeeds_bind (number _ (by decide) (by decide)) fun _ => ⟨_,rfl⟩

theorem mem_of_isEmpty {names : List Str} {p : Str → Bool}
    (some : (!(names.filter p).isEmpty) = true) : ∃ name ∈ names, p name = true := by
  rw [Bool.not_eq_true',List.isEmpty_eq_false_iff_exists_mem] at some
  obtain ⟨name,member⟩ := some
  exact ⟨name,List.mem_filter.mp member⟩

theorem forall_of_isEmpty {names : List Str} {p : Str → Bool}
    (none : ¬(!(names.filter p).isEmpty) = true) : ∀ name ∈ names, p name = false := by
  rw [Bool.not_eq_true,Bool.not_eq_false',List.isEmpty_iff,List.filter_eq_nil_iff] at none
  exact fun name member => Bool.eq_false_iff.mpr (none name member)

theorem mem_names {names : List String} : ↑name ∈ names.map Str.ofString ↔ name ∈ names := by
  simp

-- The fault of fields of distinct names says which flaw they have.
theorem flaw_of_make (distinct : (fields.map (·.1)).Nodup)
    (failed : make name (fields.map fun field => (↑field.1,field.2.toJson)) = .error fault) :
    ∃ cause, fault.cause? = some cause ∧ Flaw name fields cause := by
  have names : (fields.map fun field => (Str.ofString field.1,field.2.toJson)).map (·.1) =
      (fields.map (·.1)).map Str.ofString := by
    rw [List.map_map,List.map_map]
    rfl
  unfold make at failed
  split at failed
  · rename_i unknown
    cases failed
    refine ⟨_,rfl,.unknownType distinct fun kind same => ?_⟩
    rw [← same,Kind.ofText?_text] at unknown
    cases unknown
  · rename_i kind found
    have known := Str.ofString_inj.mp (text_of_ofText? found)
    dsimp only at failed
    rw [names] at failed
    split at failed
    · rename_i some
      obtain ⟨_,member,foreign⟩ := mem_of_isEmpty some
      obtain ⟨field,given,rfl⟩ := List.mem_map.mp member
      cases failed
      exact ⟨_,rfl,.unexpectedField known distinct given fun own =>
        of_decide_eq_true foreign (mem_names.mpr own)⟩
    · rename_i none
      have own : fields.map (·.1) ⊆ kind.fieldNames := fun field given =>
        mem_names.mp (not_not.mp (of_decide_eq_false
          (forall_of_isEmpty none field (mem_names.mpr given))))
      split at failed
      · rename_i some
        obtain ⟨_,member,missing⟩ := mem_of_isEmpty some
        obtain ⟨field,due,rfl⟩ := List.mem_map.mp member
        cases failed
        exact ⟨_,rfl,.missingField known distinct own due fun given =>
          of_decide_eq_true missing (mem_names.mpr given)⟩
      · rename_i none
        have whole : kind.fieldNames ⊆ fields.map (·.1) := fun field due =>
          mem_names.mp (not_not.mp (of_decide_eq_false
            (forall_of_isEmpty none field (mem_names.mpr due))))
        have complete : (fields.map (·.1)).Perm kind.fieldNames :=
          (List.perm_ext_iff_of_nodup distinct (fieldNames_nodup kind)).mpr
            fun field => ⟨fun given => own given,fun due => whole due⟩
        have untyped : ¬WellTyped kind fields := by
          intro typed
          obtain ⟨event,read⟩ := readFields_typed typed whole
          rw [read] at failed
          cases failed
        unfold WellTyped at untyped
        push Not at untyped
        obtain ⟨field,given,alien⟩ := untyped
        exact ⟨_,failsByType_readFields fault failed,.mistypedField known complete given alien⟩

end Event

namespace Transcript

def Fault.cause? : Fault → Option Cause
  | .invalidCharacter .. => some .badCharacter
  | .empty | .sentence _ => some .badSyntax
  | .noEvent _ => some .tokenLiteral
  | .repeatedField .. => some .repeatedField
  | .badEvent fault => fault.cause?
  | .longNumber _ | .noToken _ | .badToken .. | .badLocation _ => none

variable {fields : Fields} {place : Option String} {name written : String} {fault : Fault}

-- The fault of an event whose location can be read is a flaw of its name and fields.
theorem flaw_of_eventOf (located : ∃ location, locationOf place = .ok location)
    (failed : eventOf written (.event name fields place) = .error fault) :
    ∃ cause, fault.cause? = some cause ∧ Flaw name fields cause := by
  obtain ⟨location,read⟩ := located
  rw [eventOf] at failed
  split at failed
  · rename_i field repeated
    cases failed
    refine ⟨_,rfl,.repeatedField fun distinct => ?_⟩
    rw [repeatedField?_eq_none_iff.mpr distinct] at repeated
    cases repeated
  · rename_i unrepeated
    split at failed
    · rename_i refused
      cases failed
      exact Event.flaw_of_make (repeatedField?_eq_none_iff.mp unrepeated) refused
    · rw [read] at failed
      cases failed

end Transcript

end ProtocolNet
