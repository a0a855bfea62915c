import QueryRelay.Eval.Sequence
import QueryRelay.Proofs.Outcome

/-!
# Where the elements of a sequence come from

Selection and sorting answer elements of their input, a sort all of them. A condition on the images
of the elements passes to what is put together, grouped or joined from them, and one on the elements
to the extremes.
-/

namespace QueryRelay.Sequence

variable {P Q : Value → Prop} {items vs : List Value}

/-- What passes a test stands in the input, in the same order. -/
theorem keep_sublist {test : Selector} (h : keep test items = .ok vs) : vs.Sublist items := by
  induction items generalizing vs with
  | nil =>
    cases h
    exact .refl _
  | cons v rest ih =>
    obtain ⟨passes, -, hpass⟩ := Outcome.bind_eq_ok.mp h
    obtain ⟨b, -, hb⟩ := Outcome.bind_eq_ok.mp hpass
    obtain ⟨kept, hkept, hdone⟩ := Outcome.bind_eq_ok.mp hb
    cases b with
    | true =>
      cases hdone
      exact (ih hkept).cons_cons v
    | false =>
      cases hdone
      exact (ih hkept).cons v

/-- Whether a test is true of an element. -/
def passes (test : Selector) (v : Value) : Bool := (test v >>= Value.truth) matches .ok true

/-- A test with an outcome passes when the outcome is true. -/
theorem passes_of_eq_ok {test : Selector} {v : Value} {b : Bool}
    (h : (test v >>= Value.truth) = .ok b) : passes test v = b := by
  rw [passes, h]
  cases b <;> rfl

/-- When a test has an outcome for every element, exactly those that pass are kept. -/
theorem keep_eq_ok {test : Selector} (h : ∀ v ∈ items, ∃ b, (test v >>= Value.truth) = .ok b) :
    keep test items = .ok (items.filter (passes test)) := by
  induction items with
  | nil => rfl
  | cons v rest ih =>
    obtain ⟨⟨b, hb⟩, hrest⟩ := List.forall_mem_cons.mp h
    obtain ⟨w, hw, htruth⟩ := Outcome.bind_eq_ok.mp hb
    rw [keep, hw, List.filter_cons, passes_of_eq_ok hb]
    refine Outcome.bind_eq_ok.mpr ⟨w, rfl, Outcome.bind_eq_ok.mpr ⟨b, htruth, ?_⟩⟩
    rw [ih hrest]
    cases b <;> rfl

/-- When the images of all elements are known, so are the elements of all images. -/
theorem flatMap_eq_ok {τ : Type} {f : Selector} {xs : List τ} {input : τ → Value}
    {output : τ → List Value}
    (h : ∀ x ∈ xs, ∃ w, f (input x) = .ok w ∧ w.elements = .ok (output x)) :
    flatMap f (xs.map input) = .ok (xs.flatMap output) := by
  induction xs with
  | nil => rfl
  | cons x rest ih =>
    obtain ⟨⟨w, hw, helements⟩, hrest⟩ := List.forall_mem_cons.mp h
    rw [List.map_cons, flatMap, ih hrest, List.flatMap_cons]
    exact Outcome.bind_eq_ok.mpr ⟨w, hw, Outcome.bind_eq_ok.mpr ⟨_, helements, rfl⟩⟩

/-- A condition on the elements of all images holds of what is put together from them. -/
theorem flatMap_forall {f : Selector}
    (hf : ∀ v ∈ items, ∀ w, f v = .ok w → ∀ ws, w.elements = .ok ws → ∀ x ∈ ws, P x)
    (h : flatMap f items = .ok vs) : ∀ x ∈ vs, P x := by
  induction items generalizing vs with
  | nil =>
    cases h
    exact List.forall_mem_nil _
  | cons v rest ih =>
    obtain ⟨w, hw, himage⟩ := Outcome.bind_eq_ok.mp h
    obtain ⟨ws, hws, hrest⟩ := Outcome.bind_eq_ok.mp himage
    obtain ⟨others, hothers, hdone⟩ := Outcome.bind_eq_ok.mp hrest
    cases hdone
    refine List.forall_mem_append.mpr ⟨?_, ?_⟩
    · exact hf v (List.mem_cons_self ..) w hw ws hws
    · exact ih (fun v' hv' => hf v' (List.mem_cons_of_mem v hv')) hothers

/-! ## Sorting -/

/-- Insertion adds one element. -/
theorem insertKeyed_perm (directions : List SortDirection) (x : Keyed) (sorted : List Keyed) :
    (insertKeyed directions x sorted).Perm (x :: sorted) := by
  induction sorted with
  | nil => exact .refl _
  | cons y rest ih =>
    rw [insertKeyed]
    split
    · exact (ih.cons y).trans (.swap x y rest)
    · exact .refl _

/-- Sorting rearranges. -/
theorem sortKeyed_perm (directions : List SortDirection) (items : List Keyed) :
    (sortKeyed directions items).Perm items := by
  have hfold (sorted : List Keyed) :
      (items.foldl (fun sorted x => insertKeyed directions x sorted) sorted).Perm
        (items.reverse ++ sorted) := by
    induction items generalizing sorted with
    | nil => exact .refl _
    | cons x rest ih =>
      rw [List.foldl_cons, List.reverse_cons, List.append_assoc]
      exact (ih _).trans ((insertKeyed_perm directions x sorted).append_left rest.reverse)
  have hreverse := hfold []
  rw [List.append_nil] at hreverse
  exact (List.reverse_perm _).trans (hreverse.trans (List.reverse_perm items))

/-- A sorted sequence has the elements of the input. -/
theorem sort_perm {keys : List (Selector × SortDirection)} (h : sort keys items = .ok vs) :
    vs.Perm items := by
  obtain ⟨keyedItems, hkeyed, hdone⟩ := Outcome.bind_eq_ok.mp h
  cases hdone
  have helements : keyedItems.map Keyed.element = items := by
    rw [Outcome.mapM_eq_ok] at hkeyed
    clear h
    induction hkeyed with
    | nil => rfl
    | cons hstep _ ih =>
      obtain ⟨ks, -, hks⟩ := Outcome.bind_eq_ok.mp hstep
      cases hks
      rw [List.map_cons, ih]
  rw [← helements]
  exact (sortKeyed_perm _ keyedItems).map Keyed.element

/-! ## Grouping and joining -/

/-- A condition on every key and one on every element of groups. -/
def GroupsOf (P Q : Value → Prop) (groups : Groups) : Prop :=
  ∀ g ∈ groups, P g.1 ∧ ∀ x ∈ g.2, Q x

/-- An element and its key fulfil the conditions of the groups that they are put into. -/
theorem GroupsOf.addToGroups {groups : Groups} {key element : Value} (h : GroupsOf P Q groups)
    (hkey : P key) (helement : Q element) : GroupsOf P Q (addToGroups key element groups) := by
  induction groups with
  | nil => exact List.forall_mem_singleton.mpr ⟨hkey, List.forall_mem_singleton.mpr helement⟩
  | cons g rest ih =>
    obtain ⟨k, elements⟩ := g
    obtain ⟨hg, hrest⟩ := List.forall_mem_cons.mp h
    rw [Sequence.addToGroups]
    split
    · refine List.forall_mem_cons.mpr ⟨⟨hg.1, ?_⟩, hrest⟩
      exact List.forall_mem_append.mpr ⟨hg.2, List.forall_mem_singleton.mpr helement⟩
    · exact List.forall_mem_cons.mpr ⟨hg, ih hrest⟩

/-- Grouping reads off every element its key, and its image or itself, before it puts these one by
one into groups. -/
theorem exists_entries {key : Selector} {image : Option Selector}
    (h : groupBy key image items = .ok vs) :
    ∃ pairs : List (Value × Value × Value), pairs.map Prod.fst = items ∧
      (∀ z ∈ pairs, key z.1 = .ok z.2.1 ∧ image.getD .ok z.1 = .ok z.2.2) ∧
      vs = ((pairs.map Prod.snd).foldl (fun groups e => addToGroups e.1 e.2 groups) []).map
        fun g => .group g.1 g.2 := by
  obtain ⟨entries, hentries, hdone⟩ := Outcome.bind_eq_ok.mp h
  cases hdone
  obtain ⟨pairs, rfl, rfl, hpairs⟩ := Outcome.mapM_eq_ok_iff_pairs.mp hentries
  refine ⟨pairs, rfl, fun z hz => ?_, rfl⟩
  obtain ⟨k, hk, hrest⟩ := Outcome.bind_eq_ok.mp (hpairs z hz)
  cases image with
  | none | some =>
    obtain ⟨w, hw, hentry⟩ := Outcome.bind_eq_ok.mp hrest
    rw [← Outcome.pure_eq_ok.mp hentry]
    exact ⟨hk, hw⟩

/-- Groups are made of the keys of the elements, and of the elements or their images. -/
theorem groupBy_eq_ok {key : Selector} {image : Option Selector}
    (hkey : ∀ v ∈ items, ∀ k, key v = .ok k → P k)
    (himage : ∀ v ∈ items, ∀ w, image.getD .ok v = .ok w → Q w)
    (h : groupBy key image items = .ok vs) :
    ∃ groups, GroupsOf P Q groups ∧ vs = groups.map fun g => .group g.1 g.2 := by
  obtain ⟨pairs, rfl, hpairs, rfl⟩ := exists_entries h
  refine ⟨_, ?_, rfl⟩
  have hboth : ∀ entry ∈ pairs.map Prod.snd, P entry.1 ∧ Q entry.2 := by
    refine List.forall_mem_map.mpr fun z hz => ?_
    have hmem : z.1 ∈ pairs.map Prod.fst := List.mem_map_of_mem hz
    exact ⟨hkey _ hmem _ (hpairs z hz).1, himage _ hmem _ (hpairs z hz).2⟩
  have hfold (groups : Groups) (hgroups : GroupsOf P Q groups) : GroupsOf P Q
      ((pairs.map Prod.snd).foldl (fun groups e => addToGroups e.1 e.2 groups) groups) := by
    generalize pairs.map Prod.snd = entries at hboth
    induction entries generalizing groups with
    | nil => exact hgroups
    | cons e rest ih =>
      obtain ⟨he, hrest⟩ := List.forall_mem_cons.mp hboth
      exact ih _ (hgroups.addToGroups he.1 he.2) hrest
  exact hfold [] (List.forall_mem_nil _)

/-- A partner is one of the inner elements. -/
theorem mem_of_mem_partners {key x : Value} {inner : List (Value × Value)}
    (h : x ∈ partners key inner) : x ∈ inner.map Prod.snd := by
  rw [partners] at h
  split at h
  · cases h
  · exact (List.filter_sublist.map Prod.snd).subset h

/-- A join reads off every inner element its key, and then makes for every outer element the results
with the partners of its key. -/
theorem join_eq_ok {outerKey innerKey : Selector} {result : Value → Value → Except Error Value}
    {outer inner : List Value} (h : join outerKey innerKey result outer inner = .ok vs) :
    ∃ (keyed : List (Value × Value)) (rows : List (Value × List Value)),
      keyed.map Prod.snd = inner ∧ (∀ z ∈ keyed, innerKey z.2 = .ok z.1) ∧
      rows.map Prod.fst = outer ∧
      (∀ r ∈ rows, ∃ k, outerKey r.1 = .ok k ∧ (partners k keyed).mapM (result r.1) = .ok r.2) ∧
      vs = rows.flatMap Prod.snd := by
  obtain ⟨keyed, hkeyed, houter⟩ := Outcome.bind_eq_ok.mp h
  obtain ⟨results, hresults, hdone⟩ := Outcome.bind_eq_ok.mp houter
  cases hdone
  obtain ⟨rows, hfst, rfl, hrows⟩ := Outcome.mapM_eq_ok_iff_pairs.mp hresults
  refine ⟨keyed, rows, ?_, ?_, hfst, fun r hr => Outcome.bind_eq_ok.mp (hrows r hr), rfl⟩
  all_goals obtain ⟨pairs, rfl, rfl, hpairs⟩ := Outcome.mapM_eq_ok_iff_pairs.mp hkeyed
  · rw [List.map_map]
    refine List.map_congr_left fun z hz => ?_
    obtain ⟨k, -, hk⟩ := Outcome.bind_eq_ok.mp (hpairs z hz)
    rw [Function.comp_apply, ← Outcome.pure_eq_ok.mp hk]
  · refine List.forall_mem_map.mpr fun z hz => ?_
    obtain ⟨k, hkey, hk⟩ := Outcome.bind_eq_ok.mp (hpairs z hz)
    rw [← Outcome.pure_eq_ok.mp hk]
    exact hkey

/-- A condition on the results for all pairs of elements holds of a join. -/
theorem join_forall {outerKey innerKey : Selector} {result : Value → Value → Except Error Value}
    {outer inner : List Value}
    (hresult : ∀ o ∈ outer, ∀ i ∈ inner, ∀ w, result o i = .ok w → P w)
    (h : join outerKey innerKey result outer inner = .ok vs) : ∀ x ∈ vs, P x := by
  obtain ⟨keyed, rows, rfl, -, rfl, hrows, rfl⟩ := join_eq_ok h
  intro x hx
  obtain ⟨r, hr, hx⟩ := List.mem_flatMap.mp hx
  obtain ⟨k, -, himages⟩ := hrows r hr
  obtain ⟨images, hfst, hsnd, himage⟩ := Outcome.mapM_eq_ok_iff_pairs.mp himages
  rw [← hsnd] at hx
  obtain ⟨im, him, rfl⟩ := List.mem_map.mp hx
  have hpartner : im.1 ∈ keyed.map Prod.snd :=
    mem_of_mem_partners (hfst ▸ List.mem_map_of_mem him)
  exact hresult _ (List.mem_map_of_mem hr) _ hpartner _ (himage im him)

/-! ## Aggregation -/

/-- What qualifies stands in the input. -/
theorem qualifying_sublist {argument : Option Selector} (h : qualifying argument items = .ok vs) :
    vs.Sublist items := by
  cases argument with
  | none =>
    cases h
    exact .refl _
  | some test => exact keep_sublist h

/-- What is present is the image of an element, and not null. -/
theorem present_forall {argument : Option Selector}
    (himage : ∀ v ∈ items, ∀ w, argument.getD .ok v = .ok w → P w)
    (h : present argument items = .ok vs) : ∀ w ∈ vs, P w ∧ w.isNull = false := by
  have hfilter {images : List Value} (hall : ∀ w ∈ images, P w) :
      ∀ w ∈ images.filter (fun v => !v.isNull), P w ∧ w.isNull = false := by
    intro w hw
    obtain ⟨hmem, hnull⟩ := List.mem_filter.mp hw
    exact ⟨hall w hmem, by simpa using hnull⟩
  cases argument with
  | none =>
    cases h
    exact hfilter fun v hv => himage v hv v rfl
  | some f =>
    obtain ⟨images, himages, hdone⟩ := Outcome.bind_eq_ok.mp h
    cases hdone
    obtain ⟨pairs, rfl, rfl, hpairs⟩ := Outcome.mapM_eq_ok_iff_pairs.mp himages
    refine hfilter (List.forall_mem_map.mpr fun pair hpair => ?_)
    exact himage _ (List.mem_map_of_mem hpair) _ (hpairs pair hpair)

/-- A choice among two at a time ends in the start or in one of the elements. -/
theorem foldl_choice_mem {choose : Value → Value → Value}
    (hchoose : ∀ m w, choose m w = m ∨ choose m w = w) (v : Value) (rest : List Value) :
    rest.foldl choose v ∈ v :: rest := by
  induction rest generalizing v with
  | nil => exact List.mem_singleton_self v
  | cons w rest ih =>
    rw [List.foldl_cons]
    rcases List.mem_cons.mp (ih (choose v w)) with h | h
    · rw [h]
      rcases hchoose v w with h' | h' <;> simp [h']
    · exact List.mem_cons_of_mem v (List.mem_cons_of_mem w h)

/-- The least element is an element. -/
theorem least_mem {v : Value} (h : least vs = some v) : v ∈ vs := by
  cases vs with
  | nil => cases h
  | cons w rest =>
    cases h
    refine foldl_choice_mem (fun m w => ?_) w rest
    split
    · exact .inr rfl
    · exact .inl rfl

/-- The greatest element is an element. -/
theorem greatest_mem {v : Value} (h : greatest vs = some v) : v ∈ vs := by
  cases vs with
  | nil => cases h
  | cons w rest =>
    cases h
    refine foldl_choice_mem (fun m w => ?_) w rest
    split
    · exact .inl rfl
    · exact .inr rfl

/-- What is not a fault is there. -/
theorem orFault_eq_ok {fault : ExecutionFault} {found : Option Value} {v : Value}
    (h : orFault fault found = .ok v) : found = some v := by
  cases found with
  | none => cases h
  | some w =>
    cases h
    rfl

/-- The only element is an element, unless the fallback answers. -/
theorem only_eq_ok {fallback : Except Error Value} {v : Value} (h : only fallback vs = .ok v) :
    v ∈ vs ∨ fallback = .ok v := by
  cases vs with
  | nil => exact .inr h
  | cons w rest =>
    cases rest with
    | nil =>
      cases h
      exact .inl (List.mem_singleton_self _)
    | cons _ _ => cases h

end QueryRelay.Sequence
