import QueryRelay.Proofs.Value.References

/-!
# References that detaching leaves

Making an element self-contained copies records in for references and turns copied records back into
references. A walk over an element holds the identities that it carries and those that it copies in,
and leaves a reference only where its identity is held or no record has it. Main statement: the
references of a detached element are answered inside it, or by no record of the list.
-/

namespace QueryRelay.Value

variable {records : List Identified} {held held' : List ObjectId}

/-! ## Identities that are held -/

/-- How many records have an identity that is not held. -/
def openCount (records : List Identified) (held : List ObjectId) : Nat :=
  records.countP fun r => !held.contains r.id

/-- The more identities are held, the fewer records are open. -/
theorem openCount_le (h : held ⊆ held') : openCount records held' ≤ openCount records held := by
  refine List.countP_mono_left fun r _ hr => ?_
  simp only [Bool.not_eq_true', List.contains_eq_mem, decide_eq_false_iff_not] at hr ⊢
  exact fun hmem => hr (h hmem)

/-- Holding the identity of an open record leaves fewer of them. -/
theorem openCount_cons_lt {r : Identified} (hr : r ∈ records) (hnot : r.id ∉ held) :
    openCount records (r.id :: held) < openCount records held := by
  induction records with
  | nil => cases hr
  | cons s rest ih =>
    have hle : openCount rest (r.id :: held) ≤ openCount rest held :=
      openCount_le (List.subset_cons_self ..)
    rw [openCount, openCount, List.countP_cons, List.countP_cons]
    rw [openCount, openCount] at hle
    rcases List.mem_cons.mp hr with rfl | hrest
    · have hself : (r.id :: held).contains r.id = true := by simp
      have hopen : held.contains r.id = false := by simpa using hnot
      rw [hself, hopen]
      simp only [Bool.not_true, Bool.not_false, Bool.false_eq_true, if_false, if_true]
      omega
    · have hlt := ih hrest
      rw [openCount, openCount] at hlt
      cases hs : held.contains s.id with
      | true =>
        have hmore : (r.id :: held).contains s.id = true := by
          simp only [List.contains_eq_mem, decide_eq_true_eq] at hs ⊢
          exact List.mem_cons_of_mem _ hs
        rw [hmore]
        simpa using hlt
      | false =>
        simp only [Bool.not_false, if_true]
        split <;> omega

/-- What a walk may do from the identities that are held: it holds them and those that the values it
gives carry, and leaves a reference to an identity that is not held only when no record has it. -/
structure Settles (records : List Identified) (held : List ObjectId) (outcome : List Value)
    (held' : List ObjectId) : Prop where
  /-- What was held is held. -/
  grows : held ⊆ held'
  /-- What else is held is carried. -/
  carried : ∀ id ∈ held', id ∈ held ∨ ∃ w ∈ outcome, id ∈ w.ids
  /-- References are answered by what is held, or by no record. -/
  answered : ∀ w ∈ outcome, ∀ id ∈ w.refs, id ∈ held' ∨ findRecord records id = none

namespace Settles

/-- A walk over nothing. -/
theorem nil (records : List Identified) (held : List ObjectId) : Settles records held [] held :=
  ⟨List.Subset.refl _, fun _ h => .inl h, List.forall_mem_nil _⟩

/-- A walk over a value and then over others. -/
theorem cons {held'' : List ObjectId} {w : Value} {rest : List Value}
    (h : Settles records held [w] held') (hrest : Settles records held' rest held'') :
    Settles records held (w :: rest) held'' where
  grows := List.Subset.trans h.grows hrest.grows
  carried id hid := by
    rcases hrest.carried id hid with hid | ⟨v, hv, hid⟩
    · rcases h.carried id hid with hid | ⟨v, hv, hid⟩
      · exact .inl hid
      · exact .inr ⟨v, List.mem_cons.mpr (.inl (List.mem_singleton.mp hv)), hid⟩
    · exact .inr ⟨v, List.mem_cons_of_mem w hv, hid⟩
  answered := by
    refine List.forall_mem_cons.mpr ⟨fun id hid => ?_, hrest.answered⟩
    exact (h.answered w (List.mem_singleton_self w) id hid).imp_left (hrest.grows ·)

/-- A walk over the parts of a value that is no reference. -/
theorem whole {w : Value} (h : Settles records held w.children held') (hw : ∀ id, w ≠ .ref id) :
    Settles records held [w] held' where
  grows := h.grows
  carried id hid := by
    refine (h.carried id hid).imp_right fun ⟨v, hv, hid⟩ => ⟨w, List.mem_singleton_self w, ?_⟩
    obtain ⟨r, hr, rfl⟩ := mem_ids.mp hid
    exact mem_ids.mpr ⟨r, mem_identified_of_mem_children hv hr, rfl⟩
  answered := by
    refine List.forall_mem_singleton.mpr fun id hid => ?_
    rcases mem_refs.mp hid with rfl | ⟨v, hv, hid⟩
    · exact absurd rfl (hw id)
    · exact h.answered v hv id hid

/-- A walk over a value without parts. -/
theorem atom {v : Value} (hchildren : v.children = []) (hv : ∀ id, v ≠ .ref id) :
    Settles records held [v] held :=
  .whole (hchildren ▸ .nil records held) hv

/-- A reference that is answered or that nothing answers stays. -/
theorem ref {id : ObjectId} (h : id ∈ held ∨ findRecord records id = none) :
    Settles records held [.ref id] held where
  grows := List.Subset.refl _
  carried _ hid := .inl hid
  answered := by
    refine List.forall_mem_singleton.mpr fun i hi => ?_
    rwa [List.mem_singleton.mp hi]

/-- Holding the identity of a record before the walk over its fields. -/
theorem record {id : ObjectId} {fields : List (String × Value)}
    (h : Settles records (id :: held) (fields.map Prod.snd) held') :
    Settles records held [.record (some id) fields] held' := by
  have hwhole : Settles records (id :: held) [.record (some id) fields] held' :=
    .whole h fun _ => Value.noConfusion
  refine ⟨fun i hi => hwhole.grows (List.mem_cons_of_mem id hi), fun i hi => ?_, hwhole.answered⟩
  rcases hwhole.carried i hi with hi | hi
  · rcases List.mem_cons.mp hi with rfl | hi
    · exact .inr ⟨_, List.mem_singleton_self _, mem_ids.mpr ⟨_, mem_identified_self i fields, rfl⟩⟩
    · exact .inl hi
  · exact .inr hi

end Settles

/-- A walk keeps the names of fields. -/
theorem walkFields_names (step : RefStep) (copied : Bool) (held : List ObjectId)
    (fields : List (String × Value)) :
    (walkFields step copied held fields).1.map Prod.fst = fields.map Prod.fst := by
  induction fields generalizing held with
  | nil => rfl
  | cons f rest ih =>
    obtain ⟨name, v⟩ := f
    rw [walkFields, List.map_cons, List.map_cons, ih]

mutual

/-- A walk settles when its step does, as long as not too many records are open. -/
theorem settles_walkRefs {step : RefStep} {bound : Nat}
    (hstep : ∀ id held, openCount records held ≤ bound →
      Settles records held [(step id held).1] (step id held).2) (copied : Bool)
    (held : List ObjectId) (hbound : openCount records held ≤ bound) :
    ∀ v : Value, Settles records held [(walkRefs step copied held v).1]
      (walkRefs step copied held v).2
  | .ref id => hstep id held hbound
  | .list items => .whole (settles_walkItems hstep copied held hbound items) fun _ =>
      Value.noConfusion
  | .record none fields => .whole (settles_walkFields hstep copied held hbound fields) fun _ =>
      Value.noConfusion
  | .record (some id) fields => by
    rw [walkRefs]
    split
    · next hheld =>
      have hmem : id ∈ held := by simpa using (Bool.and_eq_true_iff.mp hheld).2
      exact .ref (.inl hmem)
    · cases copied with
      | false =>
        exact .whole (settles_walkFields hstep false held hbound fields) fun _ =>
          Value.noConfusion
      | true =>
        have hbound' : openCount records (id :: held) ≤ bound :=
          Nat.le_trans (openCount_le (List.subset_cons_self ..)) hbound
        exact .record (settles_walkFields hstep true (id :: held) hbound' fields)
  | .null | .bool _ | .int _ | .float _ | .text _ | .timestamp _ =>
    .atom rfl fun _ => Value.noConfusion

/-- A walk over items settles when its step does. -/
theorem settles_walkItems {step : RefStep} {bound : Nat}
    (hstep : ∀ id held, openCount records held ≤ bound →
      Settles records held [(step id held).1] (step id held).2) (copied : Bool)
    (held : List ObjectId) (hbound : openCount records held ≤ bound) :
    ∀ items : List Value, Settles records held (walkItems step copied held items).1
      (walkItems step copied held items).2
  | [] => .nil records held
  | v :: rest =>
    have hv := settles_walkRefs hstep copied held hbound v
    hv.cons (settles_walkItems hstep copied _ (Nat.le_trans (openCount_le hv.grows) hbound) rest)

/-- A walk over fields settles when its step does. -/
theorem settles_walkFields {step : RefStep} {bound : Nat}
    (hstep : ∀ id held, openCount records held ≤ bound →
      Settles records held [(step id held).1] (step id held).2) (copied : Bool)
    (held : List ObjectId) (hbound : openCount records held ≤ bound) :
    ∀ fields : List (String × Value),
      Settles records held ((walkFields step copied held fields).1.map Prod.snd)
        (walkFields step copied held fields).2
  | [] => .nil records held
  | (_, v) :: rest =>
    have hv := settles_walkRefs hstep copied held hbound v
    hv.cons (settles_walkFields hstep copied _ (Nat.le_trans (openCount_le hv.grows) hbound) rest)

end

/-- Copying settles when it may nest as deep as there are open records. -/
theorem settles_copyRecord (depth : Nat) (id : ObjectId) (held : List ObjectId)
    (h : openCount records held ≤ depth) :
    Settles records held [(copyRecord records depth id held).1]
      (copyRecord records depth id held).2 := by
  induction depth generalizing id held with
  | zero =>
    refine .ref ?_
    cases hfind : findRecord records id with
    | none => exact .inr rfl
    | some r =>
      obtain ⟨hr, rfl⟩ := findRecord_eq_some hfind
      by_cases hheld : r.id ∈ held
      · exact .inl hheld
      · exact absurd (openCount_cons_lt hr hheld) (by omega)
  | succ depth ih =>
    rw [copyRecord]
    split
    · next hheld => exact .ref (.inl (by simpa using hheld))
    · next hheld =>
      split
      · next hfind => exact .ref (.inr hfind)
      · next r hfind =>
        obtain ⟨hr, rfl⟩ := findRecord_eq_some hfind
        -- The identity is held before the fields are copied, so one record less is open inside.
        have hlt := openCount_cons_lt hr (by simpa using hheld)
        exact .record (settles_walkFields ih true (r.id :: held) (by omega) r.fields)

mutual

/-- A walk over what is not copied keeps the identities that it carries. -/
theorem ids_subset_walkRefs (step : RefStep) (held : List ObjectId) (id : ObjectId) :
    ∀ v : Value, id ∈ v.ids → id ∈ (walkRefs step false held v).1.ids
  | .list items, h => ids_subset_walkItems step held id items h
  | .record none fields, h => ids_subset_walkFields step held id fields h
  | .record (some own) fields, h => by
    rcases List.mem_cons.mp h with rfl | h
    · exact List.mem_cons_self ..
    · exact List.mem_cons_of_mem _ (ids_subset_walkFields step held id fields h)
  | .ref _, h | .null, h | .bool _, h | .int _, h | .float _, h | .text _, h | .timestamp _, h =>
    nomatch h

/-- A walk over items that are not copied keeps the identities that they carry. -/
theorem ids_subset_walkItems (step : RefStep) (held : List ObjectId) (id : ObjectId) :
    ∀ items : List Value, id ∈ (identifiedItems items).map Identified.id →
      id ∈ (identifiedItems (walkItems step false held items).1).map Identified.id
  | [], h => h
  | v :: rest, h => by
    rw [identifiedItems, List.map_append, List.mem_append] at h
    rw [walkItems, identifiedItems, List.map_append, List.mem_append]
    exact h.imp (ids_subset_walkRefs step held id v) (ids_subset_walkItems step _ id rest)

/-- A walk over fields that are not copied keeps the identities that they carry. -/
theorem ids_subset_walkFields (step : RefStep) (held : List ObjectId) (id : ObjectId) :
    ∀ fields : List (String × Value), id ∈ (identifiedFields fields).map Identified.id →
      id ∈ (identifiedFields (walkFields step false held fields).1).map Identified.id
  | [], h => h
  | (_, v) :: rest, h => by
    rw [identifiedFields, List.map_append, List.mem_append] at h
    rw [walkFields, identifiedFields, List.map_append, List.mem_append]
    exact h.imp (ids_subset_walkRefs step held id v) (ids_subset_walkFields step _ id rest)

end

/-- A reference in a self-contained element is answered by a record inside the element, or by none
that was there to copy. -/
theorem refs_detachElement (records : List Identified) (v : Value) {id : ObjectId}
    (h : id ∈ (detachElement records v).refs) :
    id ∈ (detachElement records v).ids ∨ findRecord records id = none := by
  have hopen : openCount records v.ids ≤ records.length := List.countP_le_length
  have hsettles := settles_walkRefs (settles_copyRecord records.length) false v.ids hopen v
  rcases hsettles.answered _ (List.mem_singleton_self _) id h with hheld | hnone
  · rcases hsettles.carried id hheld with hown | ⟨w, hw, hid⟩
    · exact .inl (ids_subset_walkRefs _ _ id v hown)
    · rw [List.mem_singleton.mp hw] at hid
      exact .inl hid
  · exact .inr hnone

end QueryRelay.Value
