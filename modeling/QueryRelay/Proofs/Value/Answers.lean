import QueryRelay.Proofs.Value.Unfolding

/-!
# Lists that answer their references

A list answers a reference when one of its records has the identity. Detaching makes up no identity
and loses none that an element mentions, as a reference or of a record. Main statement: all detached
elements answer their own references exactly when the list answers all of its references.
-/

namespace QueryRelay.Value

/-- Every reference in the value names the identity of a record in the value. -/
def Answered (v : Value) : Prop := ∀ id ∈ v.refs, id ∈ v.ids

/-- An identity that a reference in the value names or a record in the value has. -/
def Mentions (v : Value) (id : ObjectId) : Prop := id ∈ v.refs ∨ id ∈ v.ids

variable {graph v w : Value} {id : ObjectId}

/-- What a direct part mentions the value mentions. -/
theorem Mentions.of_mem_children (hw : w ∈ v.children) (h : w.Mentions id) : v.Mentions id := by
  refine h.imp (mem_refs_of_mem_children hw) fun hid => ?_
  obtain ⟨r, hr, hrid⟩ := mem_ids.mp hid
  exact mem_ids.mpr ⟨r, mem_identified_of_mem_children hw hr, hrid⟩

/-- A record with an identity mentions it. -/
theorem mentions_record (id : ObjectId) (fields : List (String × Value)) :
    (record (some id) fields).Mentions id :=
  .inr (mem_ids.mpr ⟨_, mem_identified_self id fields, rfl⟩)

/-! ## What detaching mentions -/

/-- What resembles a value inside a graph refers to what the graph mentions. -/
theorem Resembles.mentions (h : Resembles graph.identified v w) (hw : Within graph w) :
    ∀ id ∈ v.refs, graph.Mentions id := by
  induction v using induct generalizing w with
  | node v ih =>
    intro id hid
    rcases mem_refs.mp hid with rfl | ⟨u, hu, hid⟩
    · cases h with
      | atom => exact .inl (hw.refs id (List.mem_singleton_self id))
      | referred _ fields =>
        exact .inr (mem_ids.mpr ⟨_, hw.identified _ (mem_identified_self id fields), rfl⟩)
    · obtain ⟨u', hresembles, hwithin⟩ := h.part hw hu
      exact ih u hu hresembles hwithin id hid

mutual

/-- A walk over what is not copied mentions every reference, when its step does. -/
theorem mentions_walkRefs {step : RefStep} (hstep : ∀ id held, (step id held).1.Mentions id)
    (held : List ObjectId) (id : ObjectId) :
    ∀ v : Value, id ∈ v.refs → (walkRefs step false held v).1.Mentions id
  | .ref own, h => by
    rw [List.mem_singleton.mp h]
    exact hstep own held
  | .list items, h => by
    obtain ⟨w, hw, hmentions⟩ := mentions_walkItems hstep held id items h
    exact .of_mem_children (v := .list _) hw hmentions
  | .record none fields, h => by
    obtain ⟨w, hw, hmentions⟩ := mentions_walkFields hstep held id fields h
    exact .of_mem_children (v := .record none _) hw hmentions
  | .record (some own) fields, h => by
    obtain ⟨w, hw, hmentions⟩ := mentions_walkFields hstep held id fields h
    exact .of_mem_children (v := .record (some own) _) hw hmentions
  | .null, h | .bool _, h | .int _, h | .float _, h | .text _, h | .timestamp _, h => nomatch h

/-- A walk over items that are not copied mentions every reference in them. -/
theorem mentions_walkItems {step : RefStep} (hstep : ∀ id held, (step id held).1.Mentions id)
    (held : List ObjectId) (id : ObjectId) :
    ∀ items : List Value, id ∈ refsOfItems items →
      ∃ w ∈ (walkItems step false held items).1, w.Mentions id
  | [], h => nomatch h
  | v :: rest, h => by
    rcases List.mem_append.mp h with h | h
    · exact ⟨_, List.mem_cons_self .., mentions_walkRefs hstep held id v h⟩
    · obtain ⟨w, hw, hmentions⟩ := mentions_walkItems hstep _ id rest h
      exact ⟨w, List.mem_cons_of_mem _ hw, hmentions⟩

/-- A walk over fields that are not copied mentions every reference in them. -/
theorem mentions_walkFields {step : RefStep} (hstep : ∀ id held, (step id held).1.Mentions id)
    (held : List ObjectId) (id : ObjectId) :
    ∀ fields : List (String × Value), id ∈ refsOfFields fields →
      ∃ w ∈ (walkFields step false held fields).1.map Prod.snd, w.Mentions id
  | [], h => nomatch h
  | (_, v) :: rest, h => by
    rcases List.mem_append.mp h with h | h
    · exact ⟨_, List.mem_cons_self .., mentions_walkRefs hstep held id v h⟩
    · obtain ⟨w, hw, hmentions⟩ := mentions_walkFields hstep _ id rest h
      exact ⟨w, List.mem_cons_of_mem _ hw, hmentions⟩

end

/-- What stands in the place of a reference mentions its identity. -/
theorem mentions_copyRecord (records : List Identified) (depth : Nat) (id : ObjectId)
    (held : List ObjectId) : (copyRecord records depth id held).1.Mentions id := by
  have hself : (Value.ref id).Mentions id := .inl (List.mem_singleton_self id)
  cases depth with
  | zero => exact hself
  | succ depth =>
    rw [copyRecord]
    split
    · exact hself
    · split
      · exact hself
      · exact mentions_record id _

/-! ## Detached elements -/

/-- What a detached element refers to the list mentions. -/
theorem mentions_of_detachElement {items : List Value} (hv : v ∈ items)
    (hid : id ∈ (detachElement (identifiedItems items) v).refs) :
    (Value.list items).Mentions id := by
  have hresembles : Resembles (Value.list items).identified _ v :=
    resembles_detachElement (identifiedItems items) v
  exact hresembles.mentions (within_of_mem_children hv) id hid

/-- All elements that detaching gives answer their references exactly when the list does. -/
theorem detach_answered_iff (items : List Value) :
    (∀ y ∈ detach items, y.Answered) ↔ (Value.list items).Answered := by
  constructor
  · intro h id hid
    obtain ⟨v, hv, hid⟩ := mem_refsOfItems.mp hid
    -- The reference stays or gives way to a copy of its record; the element answers it either way.
    have hmentions : (detachElement (identifiedItems items) v).Mentions id :=
      mentions_walkRefs (mentions_copyRecord _ _) v.ids id v hid
    have hids := hmentions.elim (h _ (List.mem_map_of_mem hv) id) fun hids => hids
    exact (drawnFrom_detachElement hv).ids_subset hids
  · intro h
    refine List.forall_mem_map.mpr fun v hv id hid => ?_
    have hids := (mentions_of_detachElement hv hid).elim (h id) fun hids => hids
    exact ((drawnFrom_detachElement hv).answered id hid).resolve_right fun hout => hout hids

end QueryRelay.Value
