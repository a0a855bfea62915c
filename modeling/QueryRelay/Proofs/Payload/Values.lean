import QueryRelay.Payload.Message
import QueryRelay.Proofs.Payload.Binary
import QueryRelay.Proofs.Value.Detachment

/-!
# Values and descriptors as data of a shape

The datum of a descriptor is of the shape that the schema lists and stands for the descriptor; so
does that of a value whose records name each field once and whose timestamps are read back from
their texts. Such values stay such when elements are made self-contained.
-/

namespace QueryRelay

open Payload (OfShape OfFields)

/-! ## Values -/

/-- A value that can be sent: no record has two fields of one name, and every timestamp is read back
from its text. -/
inductive Value.IsPortable : Value → Prop
  /-- The absent value. -/
  | null : IsPortable .null
  /-- A truth value. -/
  | bool (b : Bool) : IsPortable (.bool b)
  /-- An integer. -/
  | int (n : Int64) : IsPortable (.int n)
  /-- A floating-point number. -/
  | float (x : Binary64) : IsPortable (.float x)
  /-- A text. -/
  | text (s : String) : IsPortable (.text s)
  /-- A timestamp that is read back from its text. -/
  | timestamp {t : Timestamp} (h : Timestamp.readLenient t.payloadText = .ok t) :
      IsPortable (.timestamp t)
  /-- A list of such values. -/
  | list {items : List Value} (h : ∀ v ∈ items, IsPortable v) : IsPortable (.list items)
  /-- A record of such values with distinct names. -/
  | record {id : Option ObjectId} {fields : List (String × Value)}
      (hnodup : (fields.map Prod.fst).Nodup) (h : ∀ f ∈ fields, IsPortable f.2) :
      IsPortable (.record id fields)
  /-- A reference. -/
  | ref (id : ObjectId) : IsPortable (.ref id)

namespace Value

/-- The items of a list have their data one by one. -/
theorem itemsToData_eq_map (items : List Value) : itemsToData items = items.map toDatum := by
  induction items with
  | nil => rfl
  | cons v rest ih => rw [itemsToData, ih, List.map_cons]

/-- The fields of a record have their data one by one, under their names. -/
theorem fieldsToData_eq_map (fields : List (String × Value)) :
    fieldsToData fields = fields.map fun f => (f.1, f.2.toDatum) := by
  induction fields with
  | nil => rfl
  | cons f rest ih =>
    obtain ⟨name, v⟩ := f
    rw [fieldsToData, ih, List.map_cons]

/-- Items that stand for values one by one stand for their list. -/
theorem itemsOfData?_map {items : List Value} (h : ∀ v ∈ items, ofDatum? v.toDatum = some v) :
    itemsOfData? (items.map toDatum) = some items := by
  induction items with
  | nil => rfl
  | cons v rest ih =>
    obtain ⟨hv, hrest⟩ := List.forall_mem_cons.mp h
    rw [List.map_cons, itemsOfData?, hv, ih hrest]
    rfl

/-- Fields that stand for values one by one stand for their list. -/
theorem fieldsOfData?_map {fields : List (String × Value)}
    (h : ∀ f ∈ fields, ofDatum? f.2.toDatum = some f.2) :
    fieldsOfData? (fields.map fun f => (f.1, f.2.toDatum)) = some fields := by
  induction fields with
  | nil => rfl
  | cons f rest ih =>
    obtain ⟨name, v⟩ := f
    obtain ⟨hv, hrest⟩ := List.forall_mem_cons.mp h
    rw [List.map_cons, fieldsOfData?, hv, ih hrest]
    rfl

/-- The datum of a value that can be sent is of the shape of values. -/
theorem IsPortable.ofShape {v : Value} (h : v.IsPortable) : OfShape (.sort .value) v.toDatum := by
  induction h with
  | null => exact .variant rfl rfl
  | bool b => exact .wrapped rfl rfl (.bool b)
  | int n => exact .wrapped rfl rfl (.int n)
  | float x => exact .wrapped rfl rfl (.float x)
  | text s => exact .wrapped rfl rfl (.text s)
  | timestamp h => exact .wrapped rfl rfl (.text _)
  | list h ih =>
    rw [toDatum, itemsToData_eq_map]
    exact .wrapped rfl rfl (.list (List.forall_mem_map.mpr ih))
  | @record id fields hnodup h ih =>
    rw [toDatum, fieldsToData_eq_map]
    have htable : OfShape (.table (.sort .value))
        (.table (fields.map fun f => (f.1, f.2.toDatum))) := by
      refine .table ?_ (List.forall_mem_map.mpr ih)
      rw [List.map_map]
      exact hnodup
    refine .wrapped rfl rfl (.product rfl ?_)
    cases id with
    | none => exact .absent rfl (.required rfl htable .nil)
    | some id => exact .present rfl (.natural id.number) (.required rfl htable .nil)
  | ref id => exact .wrapped rfl rfl (.natural id.number)

/-- The datum of a value that can be sent stands for the value. -/
theorem IsPortable.ofDatum?_toDatum {v : Value} (h : v.IsPortable) :
    ofDatum? v.toDatum = some v := by
  induction h with
  | null | bool | int | float | text => rfl
  | timestamp h =>
    rw [toDatum, ofDatum?, h]
    rfl
  | list h ih =>
    rw [toDatum, ofDatum?, itemsToData_eq_map, itemsOfData?_map ih]
    rfl
  | @record id fields hnodup h ih =>
    rw [toDatum, ofDatum?, fieldsToData_eq_map, fieldsOfData?_map ih]
    cases id <;> rfl
  | ref id => rfl

/-! ## Self-contained elements -/

/-- What a step puts in the place of references can be sent. -/
def SendsRefs (step : RefStep) : Prop := ∀ id held, (step id held).1.IsPortable

mutual

/-- A walk keeps a value such that it can be sent. -/
theorem isPortable_walkRefs {step : RefStep} (hstep : SendsRefs step) (copied : Bool)
    (held : List ObjectId) :
    ∀ v : Value, v.IsPortable → (walkRefs step copied held v).1.IsPortable
  | .ref id, _ => hstep id held
  | .list items, .list h => .list (isPortable_walkItems hstep copied held items h)
  | .record none fields, .record hnodup h => by
    rw [walkRefs]
    exact .record (walkFields_names step copied held fields ▸ hnodup)
      (isPortable_walkFields hstep copied held fields h)
  | .record (some id) fields, .record hnodup h => by
    rw [walkRefs]
    split
    · exact .ref id
    · exact .record (walkFields_names step copied _ fields ▸ hnodup)
        (isPortable_walkFields hstep copied _ fields h)
  | .null, h | .bool _, h | .int _, h | .float _, h | .text _, h | .timestamp _, h => h

/-- A walk keeps items such that they can be sent. -/
theorem isPortable_walkItems {step : RefStep} (hstep : SendsRefs step) (copied : Bool)
    (held : List ObjectId) :
    ∀ items : List Value, (∀ v ∈ items, v.IsPortable) →
      ∀ v ∈ (walkItems step copied held items).1, v.IsPortable
  | [], _ => List.forall_mem_nil _
  | v :: rest, h => by
    obtain ⟨hv, hrest⟩ := List.forall_mem_cons.mp h
    exact List.forall_mem_cons.mpr ⟨isPortable_walkRefs hstep copied held v hv,
      isPortable_walkItems hstep copied _ rest hrest⟩

/-- A walk keeps fields such that they can be sent. -/
theorem isPortable_walkFields {step : RefStep} (hstep : SendsRefs step) (copied : Bool)
    (held : List ObjectId) :
    ∀ fields : List (String × Value), (∀ f ∈ fields, f.2.IsPortable) →
      ∀ f ∈ (walkFields step copied held fields).1, f.2.IsPortable
  | [], _ => List.forall_mem_nil _
  | (_, v) :: rest, h => by
    obtain ⟨hv, hrest⟩ := List.forall_mem_cons.mp h
    exact List.forall_mem_cons.mpr ⟨isPortable_walkRefs hstep copied held v hv,
      isPortable_walkFields hstep copied _ rest hrest⟩

end

/-- The records with an identity in a value that can be sent can be sent. -/
def SendsRecords (records : List Identified) : Prop :=
  ∀ r ∈ records, (r.fields.map Prod.fst).Nodup ∧ ∀ f ∈ r.fields, f.2.IsPortable

/-- A copy of a record that can be sent can be sent. -/
theorem sendsRefs_copyRecord {records : List Identified} (h : SendsRecords records) (depth : Nat) :
    SendsRefs (copyRecord records depth) := by
  induction depth with
  | zero => exact fun id held => .ref id
  | succ depth ih =>
    intro id held
    rw [copyRecord]
    split
    · exact .ref id
    · split
      · exact .ref id
      · next r hfind =>
        obtain ⟨hnodup, hfields⟩ := h r (List.mem_of_find?_eq_some hfind)
        exact .record (walkFields_names _ _ _ r.fields ▸ hnodup)
          (isPortable_walkFields ih true _ r.fields hfields)

mutual

/-- The records inside a value that can be sent can be sent. -/
theorem sendsRecords_identified :
    ∀ v : Value, v.IsPortable → SendsRecords v.identified
  | .list items, .list h => sendsRecords_identifiedItems items h
  | .record none fields, .record _ h => sendsRecords_identifiedFields fields h
  | .record (some _) fields, .record hnodup h =>
    List.forall_mem_cons.mpr ⟨⟨hnodup, h⟩, sendsRecords_identifiedFields fields h⟩
  | .null, _ | .bool _, _ | .int _, _ | .float _, _ | .text _, _ | .timestamp _, _ | .ref _, _ =>
    List.forall_mem_nil _

/-- The records inside items that can be sent can be sent. -/
theorem sendsRecords_identifiedItems :
    ∀ items : List Value, (∀ v ∈ items, v.IsPortable) → SendsRecords (identifiedItems items)
  | [], _ => List.forall_mem_nil _
  | v :: rest, h => by
    obtain ⟨hv, hrest⟩ := List.forall_mem_cons.mp h
    exact List.forall_mem_append.mpr
      ⟨sendsRecords_identified v hv, sendsRecords_identifiedItems rest hrest⟩

/-- The records inside fields that can be sent can be sent. -/
theorem sendsRecords_identifiedFields :
    ∀ fields : List (String × Value), (∀ f ∈ fields, f.2.IsPortable) →
      SendsRecords (identifiedFields fields)
  | [], _ => List.forall_mem_nil _
  | (_, v) :: rest, h => by
    obtain ⟨hv, hrest⟩ := List.forall_mem_cons.mp h
    exact List.forall_mem_append.mpr
      ⟨sendsRecords_identified v hv, sendsRecords_identifiedFields rest hrest⟩

end

/-- Elements that can be sent can be sent once they are self-contained. -/
theorem isPortable_of_mem_detach {items : List Value} (h : ∀ v ∈ items, v.IsPortable) {v : Value}
    (hv : v ∈ detach items) : v.IsPortable := by
  obtain ⟨w, hw, rfl⟩ := List.mem_map.mp hv
  have hcopy := sendsRefs_copyRecord (sendsRecords_identifiedItems items h)
    (identifiedItems items).length
  exact isPortable_walkRefs hcopy false w.ids w (h w hw)

end Value

/-! ## Descriptors -/

namespace Descriptor

mutual

/-- The datum of a descriptor is of the shape of descriptors. -/
theorem ofShape : ∀ d : Descriptor, OfShape (.sort .descriptor) d.toDatum
  | ⟨name, space, args, isCollection, isEnum, isNullable, members⟩ => by
    have hargs := argsOfShape args
    have hmembers := membersOfShape members
    refine .product rfl (.required rfl (.text name) ?_)
    cases space with
    | none =>
      exact .absent rfl (.required rfl (.list hargs) (.required rfl (.bool isCollection)
        (.required rfl (.bool isEnum) (.required rfl (.bool isNullable)
          (.required rfl (.list hmembers) .nil)))))
    | some s =>
      exact .present rfl (.text s) (.required rfl (.list hargs) (.required rfl (.bool isCollection)
        (.required rfl (.bool isEnum) (.required rfl (.bool isNullable)
          (.required rfl (.list hmembers) .nil)))))

/-- The data of type arguments are of the shape of descriptors. -/
theorem argsOfShape : ∀ args : List Descriptor, ∀ d ∈ argsToData args, OfShape (.sort .descriptor) d
  | [] => List.forall_mem_nil _
  | d :: rest => List.forall_mem_cons.mpr ⟨ofShape d, argsOfShape rest⟩

/-- The data of members are of the shape of members. -/
theorem membersOfShape :
    ∀ members : List (String × Descriptor), ∀ d ∈ membersToData members, OfShape (.sort .member) d
  | [] => List.forall_mem_nil _
  | (name, d) :: rest => List.forall_mem_cons.mpr
    ⟨.product rfl (.required rfl (.text name) (.required rfl (ofShape d) .nil)),
      membersOfShape rest⟩

end

mutual

/-- The datum of a descriptor stands for the descriptor. -/
theorem ofDatum?_toDatum : ∀ d : Descriptor, ofDatum? d.toDatum = some d
  | ⟨name, space, args, isCollection, isEnum, isNullable, members⟩ => by
    have hspace : spaceOfDatum? (.ofOption (space.map .text)) = some space := by
      cases space <;> rfl
    rw [toDatum, ofDatum?, hspace, argsOfData?_argsToData args,
      membersOfData?_membersToData members]
    rfl

/-- The data of type arguments stand for them. -/
theorem argsOfData?_argsToData : ∀ args : List Descriptor, argsOfData? (argsToData args) = some args
  | [] => rfl
  | d :: rest => by
    rw [argsToData, argsOfData?, ofDatum?_toDatum d, argsOfData?_argsToData rest]
    rfl

/-- The data of members stand for them. -/
theorem membersOfData?_membersToData :
    ∀ members : List (String × Descriptor), membersOfData? (membersToData members) = some members
  | [] => rfl
  | (name, d) :: rest => by
    rw [membersToData, membersOfData?, ofDatum?_toDatum d, membersOfData?_membersToData rest]
    rfl

end

end Descriptor
end QueryRelay
