import QueryRelay.Payload.Plan
import QueryRelay.Proofs.Payload.Text
import QueryRelay.Proofs.Plan.Nodes

/-!
# Floating-point numbers in messages

The floating-point numbers of a datum that is sent are those of the values in it: descriptors have
none, and those of a plan are all in its constants.
-/

namespace QueryRelay

namespace Datum

/-- A number in a list of data is in one of them. -/
theorem mem_floatsOfItems {x : Binary64} {items : List Datum} :
    x ∈ floatsOfItems items ↔ ∃ d ∈ items, x ∈ d.floats := by
  induction items with
  | nil => simp [floatsOfItems]
  | cons d rest ih => rw [floatsOfItems, List.mem_append, ih, List.exists_mem_cons_iff]

/-- A number in named data is in one of them. -/
theorem mem_floatsOfFields {x : Binary64} {fields : List (String × Datum)} :
    x ∈ floatsOfFields fields ↔ ∃ f ∈ fields, x ∈ f.2.floats := by
  induction fields with
  | nil => simp [floatsOfFields]
  | cons f rest ih =>
    obtain ⟨name, d⟩ := f
    rw [floatsOfFields, List.mem_append, ih, List.exists_mem_cons_iff]

/-- Without numbers all numbers are carried. -/
theorem carried_of_eq_nil {xs : List Binary64} (h : xs = []) : Carried xs :=
  h ▸ List.forall_mem_nil _

end Datum

open Datum (Carried mem_floatsOfItems mem_floatsOfFields)

/-! ## Values -/

namespace Value

mutual

/-- The floating-point numbers of a value, from left to right. -/
def floats : Value → List Binary64
  | .float x => [x]
  | .list items => floatsOfItems items
  | .record _ fields => floatsOfFields fields
  | _ => []
termination_by structural v => v

/-- The floating-point numbers of the items of a list. -/
def floatsOfItems : List Value → List Binary64
  | [] => []
  | v :: rest => floats v ++ floatsOfItems rest
termination_by structural items => items

/-- The floating-point numbers of the fields of a record. -/
def floatsOfFields : List (String × Value) → List Binary64
  | [] => []
  | (_, v) :: rest => floats v ++ floatsOfFields rest
termination_by structural fields => fields

end

mutual

/-- The numbers of the datum of a value are those of the value. -/
theorem floats_toDatum : ∀ v : Value, v.toDatum.floats = v.floats
  | .null | .bool _ | .int _ | .float _ | .text _ | .timestamp _ | .ref _ => rfl
  | .list items => floats_itemsToData items
  | .record id fields => by
    have hfields : Datum.floatsOfFields (fieldsToData fields) ++ [] = floatsOfFields fields := by
      rw [List.append_nil, floats_fieldsToData fields]
    cases id <;> exact hfields

/-- The numbers of the data of items are those of the items. -/
theorem floats_itemsToData : ∀ items : List Value,
    Datum.floatsOfItems (itemsToData items) = floatsOfItems items
  | [] => rfl
  | v :: rest => by
    rw [itemsToData, Datum.floatsOfItems, floats_toDatum v, floats_itemsToData rest, floatsOfItems]

/-- The numbers of the data of fields are those of the fields. -/
theorem floats_fieldsToData : ∀ fields : List (String × Value),
    Datum.floatsOfFields (fieldsToData fields) = floatsOfFields fields
  | [] => rfl
  | (_, v) :: rest => by
    rw [fieldsToData, Datum.floatsOfFields, floats_toDatum v, floats_fieldsToData rest,
      floatsOfFields]

end

end Value

/-! ## Descriptors -/

namespace Descriptor

mutual

/-- A descriptor has no numbers. -/
theorem floats_toDatum : ∀ d : Descriptor, d.toDatum.floats = []
  | ⟨name, space, args, isCollection, isEnum, isNullable, members⟩ => by
    have hparts : Datum.floatsOfItems (argsToData args) ++
        (Datum.floatsOfItems (membersToData members) ++ []) = [] := by
      rw [floats_argsToData args, floats_membersToData members]
      rfl
    cases space <;> exact hparts

/-- Type arguments have no numbers. -/
theorem floats_argsToData : ∀ ds : List Descriptor, Datum.floatsOfItems (argsToData ds) = []
  | [] => rfl
  | d :: rest => by
    rw [argsToData, Datum.floatsOfItems, floats_toDatum d, floats_argsToData rest, List.append_nil]

/-- Members have no numbers. -/
theorem floats_membersToData : ∀ ms : List (String × Descriptor),
    Datum.floatsOfItems (membersToData ms) = []
  | [] => rfl
  | (name, d) :: rest => by
    have hd : d.toDatum.floats ++ [] ++ Datum.floatsOfItems (membersToData rest) = [] := by
      rw [floats_toDatum d, floats_membersToData rest]
      rfl
    exact hd

end

/-- No number is in a descriptor. -/
theorem not_mem_floats {d : Descriptor} {x : Binary64} : x ∉ d.toDatum.floats := by
  rw [floats_toDatum]
  exact List.not_mem_nil

end Descriptor

/-! ## Plans -/

namespace Plan

/-- A number in the data of several plans is in one of them. -/
theorem mem_floats_allToData {x : Binary64} {ps : List Plan} :
    x ∈ Datum.floatsOfItems (allToData ps) ↔ ∃ p ∈ ps, x ∈ p.toDatum.floats := by
  induction ps with
  | nil => simp [allToData, Datum.floatsOfItems]
  | cons p rest ih =>
    rw [allToData, Datum.floatsOfItems, List.mem_append, ih, List.exists_mem_cons_iff]

/-- A number in the data of member bindings is in one of the values. -/
theorem mem_floats_bindingsToData {x : Binary64} {bs : List (String × Plan)} :
    x ∈ Datum.floatsOfItems (bindingsToData bs) ↔ ∃ p ∈ bs.map Prod.snd, x ∈ p.toDatum.floats := by
  induction bs with
  | nil => simp [bindingsToData, Datum.floatsOfItems]
  | cons b rest ih =>
    obtain ⟨name, p⟩ := b
    rw [bindingsToData, Datum.floatsOfItems, List.mem_append, ih, List.map_cons,
      List.exists_mem_cons_iff]
    simp only [Datum.floats, Datum.floatsOfFields, List.nil_append, List.append_nil]

/-- A parameter has no numbers. -/
theorem floats_parameterToDatum (p : Parameter) : (parameterToDatum p).floats = [] := by
  rw [parameterToDatum, Datum.floats, Datum.floatsOfFields, Datum.floatsOfFields,
    Descriptor.floats_toDatum]
  rfl

/-- No number is in a list of parameters. -/
theorem not_mem_floats_parameters {x : Binary64} {params : List Parameter} :
    x ∉ Datum.floatsOfItems (params.map parameterToDatum) := by
  rw [mem_floatsOfItems]
  rintro ⟨d, hd, hx⟩
  obtain ⟨p, -, rfl⟩ := List.mem_map.mp hd
  rw [floats_parameterToDatum] at hx
  cases hx

/-- No number is in a list of names. -/
theorem not_mem_floats_names {x : Binary64} {names : List String} :
    x ∉ Datum.floatsOfItems (names.map .text) := by
  rw [mem_floatsOfItems]
  rintro ⟨d, hd, hx⟩
  obtain ⟨s, -, rfl⟩ := List.mem_map.mp hd
  cases hx

/-- A number in a stage is in one of its sub-plans. -/
theorem exists_child_of_mem_floats_op {x : Binary64} {op : QueryOp Plan}
    (h : x ∈ (opToDatum op).floats) : ∃ q ∈ op.children, x ∈ q.toDatum.floats := by
  cases op with
  | groupBy s k e =>
    cases e <;> simpa [opToDatum, QueryOp.children, Datum.floats, Datum.floatsOfFields] using h
  | aggregate s func a =>
    cases a <;> simpa [opToDatum, QueryOp.children, Datum.floats, Datum.floatsOfFields,
      aggregateToDatum, Datum.ofChoice] using h
  | source element =>
    simp [opToDatum, Datum.floats, Datum.floatsOfFields, Descriptor.not_mem_floats] at h
  | _ =>
    simpa [opToDatum, QueryOp.children, Datum.floats, Datum.floatsOfFields,
      mem_floats_allToData] using h

/-- A number in a plan is in its constant, if it is one, or in a direct sub-plan. -/
theorem mem_floats_cases {x : Binary64} {p : Plan} (h : x ∈ p.toDatum.floats) :
    (∃ v t, p = .constant v t ∧ x ∈ v.floats) ∨ ∃ q ∈ p.children, x ∈ q.toDatum.floats := by
  cases p with
  | constant v t =>
    refine .inl ⟨v, t, rfl, ?_⟩
    simpa [toDatum, Datum.floats, Datum.floatsOfFields, Descriptor.not_mem_floats,
      Value.floats_toDatum] using h
  | parameter p => simp [toDatum, Datum.floats, floats_parameterToDatum] at h
  | query op t =>
    refine .inr (exists_child_of_mem_floats_op ?_)
    simpa [toDatum, Datum.floats, Datum.floatsOfFields, Descriptor.not_mem_floats] using h
  | _ =>
    refine .inr ?_
    simpa [toDatum, children, Datum.floats, Datum.floatsOfFields, Descriptor.not_mem_floats,
      unaryToDatum, binaryToDatum, directionToDatum, Datum.ofChoice, mem_floats_allToData,
      mem_floats_bindingsToData, not_mem_floats_parameters, not_mem_floats_names] using h

/-- Every number in a plan is in a constant of the plan. -/
theorem exists_constant_of_mem_floats {x : Binary64} {p : Plan} (h : x ∈ p.toDatum.floats) :
    ∃ v t, .constant v t ∈ p.nodes ∧ x ∈ v.floats := by
  induction p using induct with
  | node p ih =>
    rcases mem_floats_cases h with ⟨v, t, rfl, hx⟩ | ⟨q, hq, hx⟩
    · exact ⟨v, t, mem_nodes_self _, hx⟩
    · obtain ⟨v, t, hnode, hx⟩ := ih q hq hx
      exact ⟨v, t, mem_nodes.mpr (.inr ⟨q, hq, hnode⟩), hx⟩

/-- The numbers in a plan are carried when those in its constants are. -/
theorem carried_toDatum {p : Plan} (h : ∀ v t, .constant v t ∈ p.nodes → Carried v.floats) :
    Carried p.toDatum.floats := by
  intro x hx
  obtain ⟨v, t, hnode, hx⟩ := exists_constant_of_mem_floats hx
  exact h v t hnode x hx

end Plan
end QueryRelay
