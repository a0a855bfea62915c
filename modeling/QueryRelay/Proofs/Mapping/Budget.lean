import Mathlib.Tactic.Ring
import Mathlib.Tactic.Linarith
import QueryRelay.Proofs.Mapping.Places
import QueryRelay.Proofs.Value.Detachment

/-!
# How much fuel mapping needs

Each step of mapping goes into a part of the value or of the type, or follows a reference to a
record that is not being read yet. The cost of a place weighs these three: the records that are not
being read, the size of the value up to the next such record, and the weight of the type. Main
statement: the fuel that mapping starts with covers the cost of the place where it starts.
-/

namespace QueryRelay.Mapping

open Value (Identified openCount)

variable {types : RecordTargets} {records : List Identified} {v w : Value} {t : Target}
  {limit unread : Nat}

/-! ## Sizes -/

/-- A field is smaller than the fields. -/
theorem size_lt_sizeOfFields {fields : List (String × Value)} {f : String × Value}
    (h : f ∈ fields) : size f.2 < sizeOfFields fields := by
  induction fields with
  | nil => cases h
  | cons f' rest ih =>
    obtain ⟨name, v⟩ := f'
    rw [sizeOfFields]
    rcases List.mem_cons.mp h with rfl | hrest
    · dsimp only
      omega
    · have := ih hrest
      omega

/-- An item is smaller than the items. -/
theorem size_lt_sizeOfItems {items : List Value} (h : v ∈ items) : size v < sizeOfItems items := by
  induction items with
  | nil => cases h
  | cons v' rest ih =>
    rw [sizeOfItems]
    rcases List.mem_cons.mp h with rfl | hrest
    · omega
    · have := ih hrest
      omega

/-- A part is smaller than the value. -/
theorem size_lt_of_mem_children (h : w ∈ v.children) : size w < size v := by
  cases v with
  | list items =>
    have hitem : size w < sizeOfItems items := size_lt_sizeOfItems h
    rw [size]
    omega
  | record id fields =>
    obtain ⟨f, hf, rfl⟩ := List.mem_map.mp h
    have := size_lt_sizeOfFields hf
    rw [size]
    omega
  | _ => cases h

/-- The fields of a record in a value are smaller than the value. -/
theorem sizeOfFields_lt_of_mem_identified {r : Identified} (h : r ∈ v.identified) :
    sizeOfFields r.fields < size v := by
  induction v using Value.induct with
  | node v ih =>
    rcases Value.mem_identified.mp h with rfl | ⟨w, hw, h⟩
    · rw [size]
      omega
    · exact Nat.lt_trans (ih w hw h) (size_lt_of_mem_children hw)

mutual

/-- A value has at most as many records as nodes. -/
theorem length_identified_le : ∀ v : Value, v.identified.length ≤ size v
  | .list items => by
    have := length_identifiedItems_le items
    rw [Value.identified, size]
    omega
  | .record none fields => by
    have := length_identifiedFields_le fields
    rw [Value.identified, size, List.nil_append]
    omega
  | .record (some id) fields => by
    have := length_identifiedFields_le fields
    rw [Value.identified, size, List.singleton_append, List.length_cons]
    omega
  | .ref _ | .null | .bool _ | .int _ | .float _ | .text _ | .timestamp _ => Nat.zero_le _

/-- Items have at most as many records as nodes. -/
theorem length_identifiedItems_le :
    ∀ items : List Value, (Value.identifiedItems items).length ≤ sizeOfItems items
  | [] => Nat.le_refl 0
  | v :: rest => by
    have := length_identified_le v
    have := length_identifiedItems_le rest
    rw [Value.identifiedItems, sizeOfItems, List.length_append]
    omega

/-- Fields have at most as many records as nodes. -/
theorem length_identifiedFields_le :
    ∀ fields : List (String × Value), (Value.identifiedFields fields).length ≤ sizeOfFields fields
  | [] => Nat.le_refl 0
  | (_, v) :: rest => by
    have := length_identified_le v
    have := length_identifiedFields_le rest
    rw [Value.identifiedFields, sizeOfFields, List.length_append]
    omega

end

/-! ## Weights -/

/-- The number of nodes of the types of fields. -/
def fieldsWeight : List (String × Target) → Nat
  | [] => 0
  | f :: rest => weight f.2 + 1 + fieldsWeight rest

/-- The weight of a record type is that of its fields, and one. -/
theorem readingWeight_fields (fields : List (String × Target)) :
    readingWeight (.fields fields) = fieldsWeight fields + 1 := by
  have hfold (n : Nat) : fields.foldl (fun n f => n + (weight f.2 + 1)) n =
      n + fieldsWeight fields := by
    induction fields generalizing n with
    | nil => rfl
    | cons f rest ih =>
      rw [List.foldl_cons, ih, fieldsWeight]
      omega
  rw [readingWeight, hfold, Nat.add_comm]

/-- A record type weighs no more than all of them. -/
theorem fieldsWeight_lt_totalWeight {name : String} {fields : List (String × Target)}
    (h : types.get? name = some (.fields fields)) : fieldsWeight fields < totalWeight types := by
  have hfold (types : RecordTargets) (n : Nat) :
      types.foldl (fun n entry => n + readingWeight entry.2) n =
        n + types.foldl (fun n entry => n + readingWeight entry.2) 0 := by
    induction types generalizing n with
    | nil => rfl
    | cons entry rest ih =>
      rw [List.foldl_cons, List.foldl_cons, ih, ih (0 + readingWeight entry.2)]
      omega
  have hmem := Fields.mem_of_get?_eq_some h
  have hweight := readingWeight_fields fields
  clear h
  induction types with
  | nil => cases hmem
  | cons entry rest ih =>
    rw [totalWeight, List.foldl_cons, hfold]
    rcases List.mem_cons.mp hmem with rfl | hrest
    · dsimp only
      omega
    · have := ih hrest
      rw [totalWeight] at this
      omega

/-! ## Costs -/

/-- What one node of a value can cost: the weights of the fields of a record. -/
def nodeCost (types : RecordTargets) : Nat := 3 * totalWeight types + 1

/-- What the value at a place can cost before a record is followed, in nodes. -/
def extent : Value → Nat
  | .record (some _) _ => 1
  | v => size v

/-- What mapping can cost, given how many records are not being read, a limit to the size of
records, the nodes of the value, and the weight of the type. -/
def cost (types : RecordTargets) (limit unread nodes typeWeight : Nat) : Nat :=
  unread * (limit * nodeCost types) + nodes * nodeCost types + 2 * typeWeight + 1

/-- A value costs at most as many nodes as it has. -/
theorem extent_le_size (v : Value) : extent v ≤ size v := by
  cases v with
  | record id fields =>
    cases id with
    | none => exact Nat.le_refl _
    | some id =>
      rw [size]
      exact Nat.le_add_left 1 _
  | _ => exact Nat.le_refl _

/-- What a value stands for costs as many nodes. -/
theorem extent_resolve (h : Value.resolve records v = some w) : extent w = extent v := by
  cases v with
  | ref id =>
    obtain ⟨r, -, rfl⟩ := Option.map_eq_some_iff.mp h
    rfl
  | _ =>
    cases h
    rfl

/-- A list costs its items and one node more. -/
theorem extent_list (items : List Value) : extent (.list items) = sizeOfItems items + 1 := rfl

/-- A record without identity costs its fields and one node more. -/
theorem extent_record_none (fields : List (String × Value)) :
    extent (.record none fields) = sizeOfFields fields + 1 := rfl

/-- A record with an identity costs one node. -/
theorem extent_record_some (id : ObjectId) (fields : List (String × Value)) :
    extent (.record (some id) fields) = 1 := rfl

/-- More nodes cost more. -/
theorem cost_mono {nodes nodes' typeWeight typeWeight' : Nat} (hnodes : nodes ≤ nodes')
    (hweight : typeWeight ≤ typeWeight') :
    cost types limit unread nodes typeWeight ≤ cost types limit unread nodes' typeWeight' := by
  have := Nat.mul_le_mul_right (nodeCost types) hnodes
  rw [cost, cost]
  omega

/-- A node less costs at least one less. -/
theorem cost_lt {nodes nodes' : Nat} (h : nodes < nodes') (typeWeight : Nat) :
    cost types limit unread nodes typeWeight < cost types limit unread nodes' typeWeight := by
  have := Nat.mul_le_mul_right (nodeCost types) h
  rw [Nat.succ_mul] at this
  rw [cost, cost]
  have : nodeCost types = 3 * totalWeight types + 1 := rfl
  omega

/-- Three numbers fit the fourth power of a number that exceeds their sum by four. -/
theorem le_pow_four (a b c : Nat) :
    (a * a + a) * (3 * b + 1) + 2 * c + 1 ≤ (a + b + c + 4) ^ 4 := by
  generalize hx : a + b + c + 4 = x
  have hsquare : a * a + a ≤ x * x := by
    have := Nat.mul_le_mul (show a ≤ x by omega) (show a + 1 ≤ x by omega)
    rwa [Nat.mul_succ] at this
  have hproduct : (a * a + a) * (3 * b + 1) ≤ x * x * (3 * x) :=
    Nat.mul_le_mul hsquare (by omega)
  have hlinear : 2 * c + 1 ≤ x * x * x := by
    have := Nat.mul_le_mul (show 4 ≤ x by omega) (show 4 ≤ x by omega)
    have := Nat.mul_le_mul_right x this
    omega
  calc (a * a + a) * (3 * b + 1) + 2 * c + 1
      ≤ x * x * (3 * x) + x * x * x := by omega
    _ = 4 * (x * x * x) := by ring
    _ ≤ x * (x * x * x) := Nat.mul_le_mul_right _ (by omega)
    _ = x ^ 4 := by ring

/-- The fuel of mapping covers the cost of the place where it starts. -/
theorem cost_le_fuelFor (types : RecordTargets) (t : Target) (v : Value) :
    cost types (size v) (openCount v.identified []) (extent v) (weight t) ≤
      fuelFor types t v := by
  have hunread : openCount v.identified [] ≤ size v :=
    Nat.le_trans List.countP_le_length (length_identified_le v)
  calc cost types (size v) (openCount v.identified []) (extent v) (weight t)
      ≤ size v * (size v * nodeCost types) + size v * nodeCost types + 2 * weight t + 1 := by
        have := Nat.mul_le_mul_right (size v * nodeCost types) hunread
        have := Nat.mul_le_mul_right (nodeCost types) (extent_le_size v)
        rw [cost]
        omega
    _ = (size v * size v + size v) * (3 * totalWeight types + 1) + 2 * weight t + 1 := by
        rw [nodeCost]
        ring
    _ ≤ (size v + totalWeight types + weight t + 4) ^ 4 := le_pow_four ..

end QueryRelay.Mapping
