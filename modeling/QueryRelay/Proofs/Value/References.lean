import QueryRelay.Value.Detach

/-!
# References and records inside a value

Induction over values with one hypothesis for the direct parts, the identities that references
anywhere in a value name, and the records with an identity anywhere in it. Both are found among the
direct parts, save for a value that is itself a reference or such a record.
-/

namespace QueryRelay.Value

/-- The direct parts: the items of a list, the values of the fields of a record. -/
def children : Value → List Value
  | .list items => items
  | .record _ fields => fields.map Prod.snd
  | _ => []

/-- Induction over values: a property holds of every value when it passes from the direct parts of
each value to the value. -/
theorem induct {motive : Value → Prop} (node : ∀ v, (∀ w ∈ v.children, motive w) → motive v)
    (v : Value) : motive v := by
  refine @Value.rec motive (fun items => ∀ w ∈ items, motive w)
    (fun fields => ∀ f ∈ fields, motive f.2) (fun f => motive f.2) ?_ ?_ ?_ ?_ ?_ ?_
    (fun items h => node _ h) (fun id fields h => node _ (List.forall_mem_map.mpr h)) ?_
    (List.forall_mem_nil _) (fun _ _ hhead htail => List.forall_mem_cons.mpr ⟨hhead, htail⟩)
    (List.forall_mem_nil _) (fun _ _ hhead htail => List.forall_mem_cons.mpr ⟨hhead, htail⟩)
    (fun _ _ h => h) v
  all_goals
    intros
    exact node _ (List.forall_mem_nil _)

mutual

/-- The identities that references anywhere in a value name. -/
def refs : Value → List ObjectId
  | .ref id => [id]
  | .list items => refsOfItems items
  | .record _ fields => refsOfFields fields
  | _ => []
termination_by structural v => v

/-- The identities that references in the items of a list name. -/
def refsOfItems : List Value → List ObjectId
  | [] => []
  | v :: rest => refs v ++ refsOfItems rest
termination_by structural items => items

/-- The identities that references in the fields of a record name. -/
def refsOfFields : List (String × Value) → List ObjectId
  | [] => []
  | (_, v) :: rest => refs v ++ refsOfFields rest
termination_by structural fields => fields

end

attribute [local simp] refs refsOfItems refsOfFields identified identifiedItems identifiedFields

variable {v w : Value} {id : ObjectId} {r : Identified}

/-! ## References -/

/-- A reference in items is one in one of them. -/
theorem mem_refsOfItems {items : List Value} :
    id ∈ refsOfItems items ↔ ∃ w ∈ items, id ∈ w.refs := by
  induction items with
  | nil => simp
  | cons v rest ih => simp [ih]

/-- A reference in fields is one in the value of one of them. -/
theorem mem_refsOfFields {fields : List (String × Value)} :
    id ∈ refsOfFields fields ↔ ∃ w ∈ fields.map Prod.snd, id ∈ w.refs := by
  induction fields with
  | nil => simp
  | cons f rest ih =>
    obtain ⟨name, v⟩ := f
    rw [refsOfFields, List.mem_append, ih, List.map_cons]
    simp only [List.mem_cons, exists_eq_or_imp]

/-- The references in a value are those in its direct parts, unless it is one itself. -/
theorem mem_refs : id ∈ v.refs ↔ v = .ref id ∨ ∃ w ∈ v.children, id ∈ w.refs := by
  cases v with
  | list items => simp [children, mem_refsOfItems]
  | record own fields =>
    rw [refs, children, mem_refsOfFields]
    simp only [reduceCtorEq, false_or]
  | ref own => simp [children, eq_comm]
  | _ => simp [children]

/-- A reference in a direct part is one in the value. -/
theorem mem_refs_of_mem_children (hw : w ∈ v.children) (h : id ∈ w.refs) : id ∈ v.refs :=
  mem_refs.mpr (.inr ⟨w, hw, h⟩)

/-! ## Records with an identity -/

/-- A record in items is one in one of them. -/
theorem mem_identifiedItems {items : List Value} :
    r ∈ identifiedItems items ↔ ∃ w ∈ items, r ∈ w.identified := by
  induction items with
  | nil => simp
  | cons v rest ih => simp [ih]

/-- A record in fields is one in the value of one of them. -/
theorem mem_identifiedFields {fields : List (String × Value)} :
    r ∈ identifiedFields fields ↔ ∃ w ∈ fields.map Prod.snd, r ∈ w.identified := by
  induction fields with
  | nil => simp
  | cons f rest ih =>
    obtain ⟨name, v⟩ := f
    rw [identifiedFields, List.mem_append, ih, List.map_cons]
    simp only [List.mem_cons, exists_eq_or_imp]

/-- The records in a value are those in its direct parts, and the value itself if it is one. -/
theorem mem_identified :
    r ∈ v.identified ↔ v = .record (some r.id) r.fields ∨ ∃ w ∈ v.children, r ∈ w.identified := by
  cases v with
  | list items => simp [children, mem_identifiedItems]
  | record own fields =>
    obtain ⟨id, fs⟩ := r
    cases own <;> simp [children, mem_identifiedFields, eq_comm]
  | _ => simp [children]

/-- A record with an identity is one of the records in it. -/
theorem mem_identified_self (id : ObjectId) (fields : List (String × Value)) :
    ⟨id, fields⟩ ∈ (record (some id) fields).identified :=
  mem_identified.mpr (.inl rfl)

/-- A record in a direct part is one in the value. -/
theorem mem_identified_of_mem_children (hw : w ∈ v.children) (h : r ∈ w.identified) :
    r ∈ v.identified :=
  mem_identified.mpr (.inr ⟨w, hw, h⟩)

/-- The records inside a record in a value are in the value. -/
theorem mem_identified_trans {s : Identified} (hr : r ∈ v.identified)
    (hs : s ∈ (record (some r.id) r.fields).identified) : s ∈ v.identified := by
  induction v using induct with
  | node v ih =>
    rcases mem_identified.mp hr with rfl | ⟨w, hw, hr⟩
    · exact hs
    · exact mem_identified_of_mem_children hw (ih w hw hr)

/-- The references inside a record in a value are in the value. -/
theorem mem_refs_trans (hr : r ∈ v.identified) (h : id ∈ (record (some r.id) r.fields).refs) :
    id ∈ v.refs := by
  induction v using induct with
  | node v ih =>
    rcases mem_identified.mp hr with rfl | ⟨w, hw, hr⟩
    · exact h
    · exact mem_refs_of_mem_children hw (ih w hw hr)

/-! ## Values inside a graph -/

/-- A value inside a graph: its records and its references are among those of the graph. -/
structure Within (graph v : Value) : Prop where
  /-- Its records are in the graph. -/
  identified : ∀ r ∈ v.identified, r ∈ graph.identified
  /-- Its references are in the graph. -/
  refs : ∀ id ∈ v.refs, id ∈ graph.refs

/-- A direct part of a graph is inside the graph. -/
theorem within_of_mem_children (hw : w ∈ v.children) : Within v w :=
  ⟨fun _ hr => mem_identified_of_mem_children hw hr, fun _ hid => mem_refs_of_mem_children hw hid⟩

/-- A record in a graph is inside the graph. -/
theorem within_of_mem_identified (hr : r ∈ v.identified) :
    Within v (record (some r.id) r.fields) :=
  ⟨fun _ hs => mem_identified_trans hr hs, fun _ hid => mem_refs_trans hr hid⟩

/-- A direct part of a value inside a graph is inside the graph. -/
theorem Within.part {graph : Value} (h : Within graph v) (hw : w ∈ v.children) : Within graph w :=
  ⟨fun s hs => h.identified s (mem_identified_of_mem_children hw hs),
    fun i hi => h.refs i (mem_refs_of_mem_children hw hi)⟩

/-! ## Identities -/

/-- An identity is carried by one of the records. -/
theorem mem_ids : id ∈ v.ids ↔ ∃ r ∈ v.identified, r.id = id := by
  rw [ids, List.mem_map]

/-- A record that is found is one of those that are searched, and has the identity. -/
theorem findRecord_eq_some {records : List Identified} (h : findRecord records id = some r) :
    r ∈ records ∧ r.id = id :=
  ⟨List.mem_of_find?_eq_some h, by simpa using List.find?_some h⟩

/-- No record is found exactly when none has the identity. -/
theorem findRecord_eq_none {records : List Identified} :
    findRecord records id = none ↔ ∀ r ∈ records, r.id ≠ id := by
  simp [findRecord]

/-- No record of a value is found exactly when the value does not have the identity. -/
theorem findRecord_identified_eq_none : findRecord v.identified id = none ↔ id ∉ v.ids := by
  rw [findRecord_eq_none, mem_ids]
  simp

/-- Of an identity that a record has, some record is found. -/
theorem exists_findRecord {records : List Identified} (hr : r ∈ records) :
    ∃ s, findRecord records r.id = some s := by
  cases h : findRecord records r.id with
  | none => exact absurd rfl (findRecord_eq_none.mp h r hr)
  | some s => exact ⟨s, rfl⟩

end QueryRelay.Value
