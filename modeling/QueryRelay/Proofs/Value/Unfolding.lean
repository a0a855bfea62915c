import QueryRelay.Proofs.Value.Detachment

/-!
# Self-contained elements mean what they meant

The meaning of a value within a graph is its unfolding: each reference gives way to the first record
of its identity, to any depth. A detached element resembles the element that it was made of, and
what resembles a value unfolds alike, as long as the records with one identity are equal. Main
statement: a detached element answers every reference that the list answers, and unfolds in itself
as the element unfolds in the list.
-/

namespace QueryRelay.Value

/-! ## Unfolding -/

/-- So many levels of a value, where a reference gives way to the first record of its identity. What
lies deeper is left out; a reference that no record answers stays. -/
def unfold (records : List Identified) : Nat → Value → Value
  | 0, _ => .null
  | n + 1, v =>
    match v with
    | .list items => .list (items.map (unfold records n))
    | .record id fields => .record id (Fields.mapValues (unfold records n) fields)
    | .ref id =>
      match findRecord records id with
      | some r => .record (some r.id) (Fields.mapValues (unfold records n) r.fields)
      | none => .ref id
    | v => v

/-- A reference that a record answers unfolds as the record. -/
theorem unfold_ref_of_some {records : List Identified} {id : ObjectId} {r : Identified}
    (h : findRecord records id = some r) (n : Nat) :
    unfold records n (.ref id) = unfold records n (.record (some r.id) r.fields) := by
  cases n with
  | zero => rfl
  | succ n => simp only [unfold, h]

/-- A reference that no record answers stays. -/
theorem unfold_ref_of_none {records : List Identified} {id : ObjectId}
    (h : findRecord records id = none) (n : Nat) : unfold records (n + 1) (.ref id) = .ref id := by
  rw [unfold, h]

/-- Records with one identity are equal. -/
def SameRecords (v : Value) : Prop :=
  ∀ r ∈ v.identified, ∀ s ∈ v.identified, r.id = s.id → r.fields = s.fields

/-! ## Resemblance -/

/-- A value without parts. -/
def IsAtom : Value → Prop
  | .list _ | .record _ _ => False
  | _ => True

/-- What detaching may put in the place of a value: the value with other parts in the place of its
parts, a copy of a record in the place of a reference, or a reference in the place of a record. -/
inductive Resembles (records : List Identified) : Value → Value → Prop
  /-- A value without parts stays. -/
  | atom {v : Value} (h : v.IsAtom) : Resembles records v v
  /-- A list resembles a list item by item. -/
  | list {pairs : List (Value × Value)} (h : ∀ p ∈ pairs, Resembles records p.1 p.2) :
      Resembles records (.list (pairs.map Prod.fst)) (.list (pairs.map Prod.snd))
  /-- A record resembles a record of the same identity field by field. -/
  | record (id : Option ObjectId) {pairs : List (String × Value × Value)}
      (h : ∀ p ∈ pairs, Resembles records p.2.1 p.2.2) :
      Resembles records (.record id (pairs.map fun p => (p.1, p.2.1)))
        (.record id (pairs.map fun p => (p.1, p.2.2)))
  /-- A record resembles a reference to one that it resembles field by field. -/
  | copied {r : Identified} {pairs : List (String × Value × Value)}
      (hr : findRecord records r.id = some r)
      (hfields : pairs.map (fun p => (p.1, p.2.2)) = r.fields)
      (h : ∀ p ∈ pairs, Resembles records p.2.1 p.2.2) :
      Resembles records (.record (some r.id) (pairs.map fun p => (p.1, p.2.1))) (.ref r.id)
  /-- A reference resembles a record of its identity. -/
  | referred (id : ObjectId) (fields : List (String × Value)) :
      Resembles records (.ref id) (.record (some id) fields)

/-- Fields resemble fields one by one, under the same names. -/
def FieldsResemble (records : List Identified) (fields fields' : List (String × Value)) : Prop :=
  ∃ pairs : List (String × Value × Value), pairs.map (fun p => (p.1, p.2.1)) = fields ∧
    pairs.map (fun p => (p.1, p.2.2)) = fields' ∧ ∀ p ∈ pairs, Resembles records p.2.1 p.2.2

variable {records : List Identified} {graph element v w : Value}

mutual

/-- A walk gives what resembles the value, when its step does so for references. -/
theorem resembles_walkRefs {step : RefStep}
    (hstep : ∀ id held, Resembles records (step id held).1 (.ref id)) (copied : Bool)
    (held : List ObjectId) : ∀ v : Value, Resembles records (walkRefs step copied held v).1 v
  | .ref id => hstep id held
  | .list items => by
    obtain ⟨pairs, hfst, hsnd, h⟩ := resembles_walkItems hstep copied held items
    have hlist := Resembles.list h
    rwa [hfst, hsnd] at hlist
  | .record none fields => by
    obtain ⟨pairs, hfst, hsnd, h⟩ := resembles_walkFields hstep copied held fields
    have hrecord := Resembles.record none h
    rwa [hfst, hsnd] at hrecord
  | .record (some id) fields => by
    rw [walkRefs]
    split
    · exact .referred id fields
    · obtain ⟨pairs, hfst, hsnd, h⟩ := resembles_walkFields hstep copied
        (if copied then id :: held else held) fields
      have hrecord := Resembles.record (some id) h
      rwa [hfst, hsnd] at hrecord
  | .null | .bool _ | .int _ | .float _ | .text _ | .timestamp _ => .atom trivial

/-- A walk gives items that resemble the items one by one. -/
theorem resembles_walkItems {step : RefStep}
    (hstep : ∀ id held, Resembles records (step id held).1 (.ref id)) (copied : Bool)
    (held : List ObjectId) :
    ∀ items : List Value, ∃ pairs : List (Value × Value),
      pairs.map Prod.fst = (walkItems step copied held items).1 ∧ pairs.map Prod.snd = items ∧
        ∀ p ∈ pairs, Resembles records p.1 p.2
  | [] => ⟨[], rfl, rfl, List.forall_mem_nil _⟩
  | v :: rest => by
    obtain ⟨pairs, hfst, hsnd, h⟩ := resembles_walkItems hstep copied
      (walkRefs step copied held v).2 rest
    refine ⟨((walkRefs step copied held v).1, v) :: pairs, ?_, ?_,
      List.forall_mem_cons.mpr ⟨resembles_walkRefs hstep copied held v, h⟩⟩
    · rw [List.map_cons, hfst, walkItems]
    · rw [List.map_cons, hsnd]

/-- A walk gives fields that resemble the fields. -/
theorem resembles_walkFields {step : RefStep}
    (hstep : ∀ id held, Resembles records (step id held).1 (.ref id)) (copied : Bool)
    (held : List ObjectId) :
    ∀ fields : List (String × Value),
      FieldsResemble records (walkFields step copied held fields).1 fields
  | [] => ⟨[], rfl, rfl, List.forall_mem_nil _⟩
  | (name, v) :: rest => by
    obtain ⟨pairs, hfst, hsnd, h⟩ := resembles_walkFields hstep copied
      (walkRefs step copied held v).2 rest
    refine ⟨(name, (walkRefs step copied held v).1, v) :: pairs, ?_, ?_,
      List.forall_mem_cons.mpr ⟨resembles_walkRefs hstep copied held v, h⟩⟩
    · rw [List.map_cons, hfst, walkFields]
    · rw [List.map_cons, hsnd]

end

/-- A copy resembles the reference in whose place it stands. -/
theorem resembles_copyRecord (depth : Nat) (id : ObjectId) (held : List ObjectId) :
    Resembles records (copyRecord records depth id held).1 (.ref id) := by
  induction depth generalizing id held with
  | zero => exact .atom trivial
  | succ depth ih =>
    rw [copyRecord]
    split
    · exact .atom trivial
    · split
      · exact .atom trivial
      · next r hfind =>
        obtain ⟨-, rfl⟩ := findRecord_eq_some hfind
        obtain ⟨pairs, hfst, hsnd, h⟩ := resembles_walkFields ih true (r.id :: held) r.fields
        have hcopied := Resembles.copied hfind hsnd h
        rw [hfst] at hcopied
        exact hcopied

/-- A detached element resembles the element. -/
theorem resembles_detachElement (records : List Identified) (v : Value) :
    Resembles records (detachElement records v) v :=
  resembles_walkRefs (resembles_copyRecord records.length) false v.ids v

/-! ## Records in what resembles a value -/

/-- The value of a field is a part of the record. -/
theorem mem_children_of_mem_pairs {pairs : List (String × Value × Value)}
    {p : String × Value × Value} (id : Option ObjectId) (pick : Value × Value → Value)
    (hp : p ∈ pairs) :
    pick p.2 ∈ (Value.record id (pairs.map fun p => (p.1, pick p.2))).children := by
  rw [children, List.map_map]
  exact List.mem_map_of_mem hp

/-- A part of what resembles a value inside a graph resembles a value inside the graph in turn. -/
theorem Resembles.part (h : Resembles graph.identified v w) (hw : Within graph w) {u : Value}
    (hu : u ∈ v.children) : ∃ u', Resembles graph.identified u u' ∧ Within graph u' := by
  cases h with
  | atom hatom =>
    cases v with
    | list | record => exact hatom.elim
    | _ => cases hu
  | list h =>
    obtain ⟨p, hp, rfl⟩ := List.mem_map.mp hu
    exact ⟨p.2, h p hp, hw.part (List.mem_map_of_mem hp)⟩
  | record id h =>
    rw [children, List.map_map] at hu
    obtain ⟨p, hp, rfl⟩ := List.mem_map.mp hu
    exact ⟨p.2.2, h p hp, hw.part (mem_children_of_mem_pairs id Prod.snd hp)⟩
  | copied hr hfields h =>
    rw [children, List.map_map] at hu
    obtain ⟨p, hp, rfl⟩ := List.mem_map.mp hu
    refine ⟨p.2.2, h p hp, (within_of_mem_identified (findRecord_eq_some hr).1).part ?_⟩
    rw [← hfields]
    exact mem_children_of_mem_pairs _ Prod.snd hp
  | referred id fields => cases hu

/-- A record in what resembles a value inside a graph resembles a record of the graph. -/
theorem Resembles.identified (h : Resembles graph.identified v w) (hw : Within graph w) :
    ∀ r ∈ v.identified, ∃ s ∈ graph.identified, s.id = r.id ∧
      FieldsResemble graph.identified r.fields s.fields := by
  induction v using induct generalizing w with
  | node v ih =>
    intro r hr
    rcases mem_identified.mp hr with rfl | ⟨u, hu, hr⟩
    · obtain ⟨own, fields⟩ := r
      cases h with
      | atom hatom => exact hatom.elim
      | @record _ pairs h =>
        exact ⟨_, hw.identified _ (mem_identified_self own _), rfl, pairs, rfl, rfl, h⟩
      | @copied t pairs ht hfields h =>
        exact ⟨t, (findRecord_eq_some ht).1, rfl, pairs, rfl, hfields, h⟩
    · obtain ⟨u', hresembles, hwithin⟩ := h.part hw hu
      exact ih u hu hresembles hwithin r hr

/-! ## Resembling values unfold alike -/

/-- An element that was drawn from a graph: its records resemble records of the graph, and its
references are answered inside it or not at all. -/
structure DrawnFrom (graph element : Value) : Prop where
  /-- Its records resemble records of the graph. -/
  records : ∀ r ∈ element.identified, ∃ s ∈ graph.identified, s.id = r.id ∧
    FieldsResemble graph.identified r.fields s.fields
  /-- Its references are answered inside it or not at all. -/
  answered : ∀ id ∈ element.refs, id ∈ element.ids ∨ id ∉ graph.ids

/-- An element that was drawn from a graph has no identity of its own. -/
theorem DrawnFrom.ids_subset (h : DrawnFrom graph element) : element.ids ⊆ graph.ids := by
  intro id hid
  obtain ⟨r, hr, rfl⟩ := mem_ids.mp hid
  obtain ⟨s, hs, hsid, -⟩ := h.records r hr
  exact mem_ids.mpr ⟨s, hs, hsid⟩

/-- In a graph in which records with one identity are equal, a record is the one that is found. -/
theorem SameRecords.findRecord_eq (h : graph.SameRecords) {r : Identified}
    (hr : r ∈ graph.identified) : findRecord graph.identified r.id = some r := by
  obtain ⟨s, hs⟩ := exists_findRecord hr
  obtain ⟨hmem, hid⟩ := findRecord_eq_some hs
  obtain ⟨rid, rfields⟩ := r
  obtain ⟨sid, sfields⟩ := s
  cases hid
  have hfields := h _ hmem _ hr rfl
  cases hfields
  exact hs

/-- Fields of which the values unfold alike unfold alike. -/
theorem mapValues_pairs_congr {α β : Type} {f g : α → β} {pairs : List (String × α × α)}
    (h : ∀ p ∈ pairs, f p.2.1 = g p.2.2) :
    Fields.mapValues f (pairs.map fun p => (p.1, p.2.1)) =
      Fields.mapValues g (pairs.map fun p => (p.1, p.2.2)) := by
  rw [Fields.mapValues, Fields.mapValues, List.map_map, List.map_map]
  refine List.map_congr_left fun p hp => ?_
  rw [Function.comp_apply, Function.comp_apply, h p hp]

/-- To so many levels, what resembles a value inside a graph unfolds in an element as the value does
in the graph, provided that its references are answered in the element or not at all. -/
def UnfoldAlike (graph element : Value) (n : Nat) : Prop :=
  ∀ {v w : Value}, Resembles graph.identified v w →
    (∀ id ∈ v.refs, id ∈ element.ids ∨ id ∉ graph.ids) → Within graph w →
      unfold element.identified n v = unfold graph.identified n w

/-- Parts that unfold alike make a reference that the element answers unfold as the record of the
graph. -/
theorem UnfoldAlike.ref {n : Nat} (h : UnfoldAlike graph element n) (hsame : graph.SameRecords)
    (hdrawn : DrawnFrom graph element) {s : Identified} (hs : s ∈ graph.identified)
    (hids : s.id ∈ element.ids) :
    unfold element.identified (n + 1) (.ref s.id) =
      .record (some s.id) (Fields.mapValues (unfold graph.identified n) s.fields) := by
  obtain ⟨t, ht, htid⟩ := mem_ids.mp hids
  obtain ⟨r, hr⟩ := exists_findRecord ht
  obtain ⟨hmem, hid⟩ := findRecord_eq_some hr
  rw [htid] at hr hid
  -- The element need not hold the record of the graph itself, but it holds one that resembles it.
  obtain ⟨s', hs', hsid, pairs, hfst, hsnd, hpairs⟩ := hdrawn.records r hmem
  have hfields : s'.fields = s.fields := hsame s' hs' s hs (hsid.trans hid)
  rw [unfold_ref_of_some hr, unfold, hid, ← hfields, ← hfst, ← hsnd]
  refine congrArg _ (mapValues_pairs_congr fun p hp => ?_)
  refine h (hpairs p hp) (fun i hi => hdrawn.answered i (mem_refs_trans hmem ?_))
    ((within_of_mem_identified hs').part ?_)
  · rw [← hfst]
    exact mem_refs_of_mem_children (mem_children_of_mem_pairs _ Prod.fst hp) hi
  · rw [← hsnd]
    exact mem_children_of_mem_pairs _ Prod.snd hp

/-- Parts that unfold alike make values that unfold alike one level deeper. -/
theorem UnfoldAlike.succ {n : Nat} (h : UnfoldAlike graph element n) (hsame : graph.SameRecords)
    (hdrawn : DrawnFrom graph element) : UnfoldAlike graph element (n + 1) := by
  intro v w hresembles hv hw
  have hpart {u : Value} (hu : u ∈ v.children) : ∀ id ∈ u.refs, id ∈ element.ids ∨ id ∉ graph.ids :=
    fun i hi => hv i (mem_refs_of_mem_children hu hi)
  cases hresembles with
  | atom hatom =>
    cases v with
    | list | record => exact hatom.elim
    | ref id =>
      have hown := hv id (List.mem_singleton_self id)
      cases hfind : findRecord graph.identified id with
      | some s =>
        obtain ⟨hs, rfl⟩ := findRecord_eq_some hfind
        have hids := hown.resolve_right fun hnone => hnone (mem_ids.mpr ⟨s, hs, rfl⟩)
        rw [h.ref hsame hdrawn hs hids, unfold_ref_of_some hfind, unfold]
      | none =>
        have hout := findRecord_identified_eq_none.mp hfind
        have hnone : findRecord element.identified id = none :=
          findRecord_identified_eq_none.mpr fun hids => hout (hdrawn.ids_subset hids)
        rw [unfold_ref_of_none hfind, unfold_ref_of_none hnone]
    | _ => rfl
  | list hpairs =>
    rw [unfold, unfold, List.map_map, List.map_map]
    refine congrArg _ (List.map_congr_left fun p hp => ?_)
    exact h (hpairs p hp) (hpart (List.mem_map_of_mem hp)) (hw.part (List.mem_map_of_mem hp))
  | record id hpairs =>
    rw [unfold, unfold]
    refine congrArg _ (mapValues_pairs_congr fun p hp => ?_)
    exact h (hpairs p hp) (hpart (mem_children_of_mem_pairs id Prod.fst hp))
      (hw.part (mem_children_of_mem_pairs id Prod.snd hp))
  | copied ht hfields hpairs =>
    rw [unfold_ref_of_some ht, unfold, unfold, ← hfields]
    refine congrArg _ (mapValues_pairs_congr fun p hp => ?_)
    refine h (hpairs p hp) (hpart (mem_children_of_mem_pairs _ Prod.fst hp))
      ((within_of_mem_identified (findRecord_eq_some ht).1).part ?_)
    rw [← hfields]
    exact mem_children_of_mem_pairs _ Prod.snd hp
  | referred id fields =>
    have hs : ⟨id, fields⟩ ∈ graph.identified := hw.identified _ (mem_identified_self id fields)
    have hids := (hv id (List.mem_singleton_self id)).resolve_right fun hnone =>
      hnone (mem_ids.mpr ⟨_, hs, rfl⟩)
    rw [h.ref hsame hdrawn hs hids, unfold]

/-- In a graph in which records with one identity are equal, what resembles a value inside the graph
unfolds, in an element drawn from the graph, as the value does in the graph. -/
theorem DrawnFrom.unfoldAlike (hdrawn : DrawnFrom graph element) (hsame : graph.SameRecords)
    (n : Nat) : UnfoldAlike graph element n := by
  induction n with
  | zero =>
    intro v w _ _ _
    rfl
  | succ n ih => exact ih.succ hsame hdrawn

/-! ## Detached elements -/

/-- A detached element of a list was drawn from the list. -/
theorem drawnFrom_detachElement {items : List Value} (hv : v ∈ items) :
    DrawnFrom (.list items) (detachElement (identifiedItems items) v) where
  records := by
    have h : Resembles (Value.list items).identified _ v :=
      resembles_detachElement (identifiedItems items) v
    exact h.identified (within_of_mem_children hv)
  answered _ hid := (refs_detachElement (identifiedItems items) v hid).imp_right
    (findRecord_identified_eq_none (v := .list items)).mp

/-- A detached element unfolds in itself as the element does in the list. -/
theorem unfold_detachElement {items : List Value} (hsame : (Value.list items).SameRecords)
    (hv : v ∈ items) (n : Nat) :
    unfold (detachElement (identifiedItems items) v).identified n
      (detachElement (identifiedItems items) v) = unfold (identifiedItems items) n v := by
  have h : Resembles (Value.list items).identified _ v :=
    resembles_detachElement (identifiedItems items) v
  have hdrawn := drawnFrom_detachElement hv
  exact hdrawn.unfoldAlike hsame n h hdrawn.answered (within_of_mem_children hv)

/-- The elements that detaching gives are the elements of the list, each made self-contained. -/
theorem detach_getElem? {items : List Value} {i : Nat} {x y : Value} (hx : items[i]? = some x)
    (hy : (detach items)[i]? = some y) : y = detachElement (identifiedItems items) x := by
  rw [detach, List.getElem?_map, hx, Option.map_some, Option.some.injEq] at hy
  exact hy.symm

/-- Detaching gives as many elements as there were. Every reference in one of them is answered
inside it, unless no record of the list has the identity. When records of one identity are equal,
each element unfolds in itself as the original element does in the list, to any depth. -/
theorem detach_selfContained (items : List Value) :
    (detach items).length = items.length ∧
      (∀ y ∈ detach items, ∀ id ∈ y.refs, id ∉ (Value.list items).ids ∨ id ∈ y.ids) ∧
      ((Value.list items).SameRecords → ∀ (i : Nat) (x y : Value), items[i]? = some x →
        (detach items)[i]? = some y →
          ∀ n, unfold y.identified n y = unfold (Value.list items).identified n x) := by
  refine ⟨List.length_map _, ?_, ?_⟩
  · refine List.forall_mem_map.mpr fun v hv id hid => ?_
    exact ((drawnFrom_detachElement hv).answered id hid).symm
  · intro hsame i x y hx hy n
    rw [detach_getElem? hx hy]
    exact unfold_detachElement hsame (List.mem_of_getElem? hx) n

/-- Somebody, and the boss of both, who is also the boss of the boss. -/
def bossedItems : List Value :=
  [.record none [("Boss", .ref ⟨1⟩), ("Peer", .ref ⟨9⟩)], .record (some ⟨1⟩) [("Boss", .ref ⟨1⟩)]]

/-- Somebody with a copy of the boss means what it means in the list. -/
theorem bossedItems_detach_selfContained :
    (Value.list bossedItems).SameRecords ∧
      ∀ n, unfold [⟨⟨1⟩, [("Boss", .ref ⟨1⟩)]⟩] n
        (.record none [("Boss", .record (some ⟨1⟩) [("Boss", .ref ⟨1⟩)]), ("Peer", .ref ⟨9⟩)]) =
          unfold (Value.list bossedItems).identified n
            (.record none [("Boss", .ref ⟨1⟩), ("Peer", .ref ⟨9⟩)]) := by
  have hsame : (Value.list bossedItems).SameRecords := by
    intro r hr s hs _
    rw [List.mem_singleton.mp hr, List.mem_singleton.mp hs]
  exact ⟨hsame, (detach_selfContained bossedItems).2.2 hsame 0 _ _ rfl rfl⟩

end QueryRelay.Value
