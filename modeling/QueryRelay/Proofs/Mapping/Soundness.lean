import QueryRelay.Proofs.Mapping.Places
import QueryRelay.Proofs.Mapping.Steps

/-!
# Mapped results show what is read

Whatever mapping has built so far, what it builds next shows the tree that the type reads off the
value. The invariant is that finished shared results show what their type reads off their record;
cells are only added. Main statement: a mapped graph shows the tree that its plain type reads off
the value.
-/

namespace QueryRelay.Mapping

open Mapped (Shows Kept)
open Value (Identified SameMeaning Consistent resolve)

/-- Every finished shared result shows what its type reads off the record. -/
def Explained (types : RecordTargets) (records : List Identified) (s : State) : Prop :=
  ∀ e ∈ s.finished, Renders types records s.heap (.shared e.1.2) (.ref e.1.1) (.shared e.2)

/-- From one state to a later one cells are added, and finished results show what they should. -/
structure Advances (types : RecordTargets) (records : List Identified) (s s' : State) : Prop where
  /-- Cells are added. -/
  heap : s.heap <+: s'.heap
  /-- Finished results show what they should. -/
  explained : Explained types records s'

/-- What mapping does with so much fuel: each step that gives a result advances, and the result
shows what is read. -/
structure Sound (types : RecordTargets) (records : List Identified) (fuel : Nat) : Prop where
  /-- A result of a type. -/
  build : ∀ {pending visiting t v s m s'}, Proper types records (t, v) →
    Explained types records s →
    build ⟨types, records, pending, visiting⟩ fuel t v s = .ok (m, s') →
    Advances types records s s' ∧ Renders types records s'.heap t v m
  /-- The cell of a shared result. -/
  shared : ∀ {pending visiting t v s cell s'}, Proper types records (.shared t, v) →
    Explained types records s →
    buildShared ⟨types, records, pending, visiting⟩ fuel t v s = .ok (cell, s') →
    Advances types records s s' ∧ Renders types records s'.heap (.shared t) v (.shared cell)
  /-- The items of a list. -/
  items : ∀ {pending visiting t index vs s ms s'}, (∀ v ∈ vs, Proper types records (t, v)) →
    Explained types records s →
    buildItems ⟨types, records, pending, visiting⟩ fuel t index vs s = .ok (ms, s') →
    Advances types records s s' ∧ List.Forall₂ (Renders types records s'.heap t) vs ms
  /-- A record. -/
  record : ∀ {pending visiting name v id source s m s'}, Proper types records (.record name, v) →
    resolve records v = some (.record id source) → Explained types records s →
    buildRecord ⟨types, records, pending, visiting⟩ fuel name id source s = .ok (m, s') →
    Advances types records s s' ∧ Renders types records s'.heap (.record name) v m
  /-- The fields of a record. -/
  fields : ∀ {pending visiting source targets s entries s'},
    (∀ f ∈ targets, ∀ w, Fields.lookup? source f.1 = some w → Proper types records (f.2, w)) →
    Explained types records s →
    buildFields ⟨types, records, pending, visiting⟩ fuel source targets s = .ok (entries, s') →
    Advances types records s s' ∧
      List.Forall₂ (RendersField types records s'.heap source) targets entries

variable {types : RecordTargets} {records : List Identified} {fuel : Nat} {s s' s'' : State}
  {pending : List (SharedKey × Nat)} {visiting : List ObjectId} {t : Target} {v : Value}
  {m : Mapped}

/-! ## States -/

namespace Advances

/-- A state in which finished results show what they should advances to itself. -/
theorem refl (h : Explained types records s) : Advances types records s s :=
  ⟨List.prefix_refl _, h⟩

/-- A state advances in steps. -/
theorem trans (h : Advances types records s s') (h' : Advances types records s' s'') :
    Advances types records s s'' :=
  ⟨h.heap.trans h'.heap, h'.explained⟩

/-- The contents of cells are kept. -/
theorem kept (h : Advances types records s s') : Kept s.heap s'.heap := Mapped.kept_of_prefix h.heap

end Advances

/-- Finished results show what they should when the contents of cells are kept. -/
theorem Explained.mono (h : Explained types records s) (hfinished : s'.finished = s.finished)
    (hkept : Kept s.heap s'.heap) : Explained types records s' := by
  intro e he
  rw [hfinished] at he
  exact (h e he).mono hkept

/-- Adding cells advances. -/
theorem Explained.advances (h : Explained types records s) (added : Heap) :
    Advances types records s { s with heap := s.heap ++ added } :=
  ⟨⟨added, rfl⟩, h.mono rfl (Mapped.kept_of_prefix ⟨added, rfl⟩)⟩

/-- Off values that mean the same the same is read. -/
theorem Renders.congr {heap : Heap} {w : Value} (hsame : SameMeaning records v records w)
    (h : Renders types records heap t v m) : Renders types records heap t w m := by
  obtain ⟨tree, ⟨n, hn⟩, hshows⟩ := h
  exact ⟨tree, ⟨n, read_congr hsame n t ▸ hn⟩, hshows⟩

/-! ## Steps -/

/-- Without fuel nothing is built. -/
theorem sound_zero (types : RecordTargets) (records : List Identified) : Sound types records 0 where
  build _ _ h := nomatch h
  shared _ _ h := nomatch h
  items {_ _ _ _ vs _ _ _} _ hs h := by
    cases vs with
    | nil =>
      cases h
      exact ⟨.refl hs, .nil⟩
    | cons v rest => nomatch h
  record _ _ _ h := nomatch h
  fields {_ _ _ targets _ _ _} _ hs h := by
    cases targets with
    | nil =>
      cases h
      exact ⟨.refl hs, .nil⟩
    | cons f rest => nomatch h

/-- Building a result. -/
theorem build_sound (hclosed : Closed records) (ih : Sound types records fuel)
    (hproper : Proper types records (t, v)) (hs : Explained types records s)
    (h : build ⟨types, records, pending, visiting⟩ (fuel + 1) t v s = .ok (m, s')) :
    Advances types records s s' ∧ Renders types records s'.heap t v m := by
  cases t with
  | integer | single | double | bool | text | timestamp | enum =>
    obtain ⟨hm, rfl⟩ := convert_eq_ok.mp h
    exact ⟨.refl hs, .scalar hm⟩
  | value | rawRecord | weak => exact absurd trivial hproper.plain.not_isRaw
  | option t =>
    rw [build] at h
    split at h
    · cases h
      exact ⟨.refl hs, .absent ‹_›⟩
    · have hnull : v.isNull = false := by simpa using ‹¬ v.isNull = true›
      obtain ⟨content, s₁, hcontent, hdone⟩ := bind_eq_ok.mp h
      cases hdone
      obtain ⟨hadvances, hrenders⟩ :=
        ih.build ((Leads.option hnull).proper hclosed hproper) hs hcontent
      exact ⟨hadvances, hrenders.present hnull⟩
  | boxed t =>
    obtain ⟨hadvances, hrenders⟩ := ih.build ((Leads.boxed t v).proper hclosed hproper) hs h
    exact ⟨hadvances, hrenders.boxed⟩
  | list t =>
    obtain ⟨w, s₁, hfollow, hlist⟩ := bind_eq_ok.mp h
    obtain ⟨hw, rfl⟩ := follow_eq_ok.mp hfollow
    cases w with
    | null =>
      cases hlist
      exact ⟨.refl hs, .none hw⟩
    | list vs =>
      obtain ⟨ms, s₂, hms, hdone⟩ := bind_eq_ok.mp hlist
      cases hdone
      obtain ⟨hadvances, hrenders⟩ :=
        ih.items (fun x hx => (Leads.list hw hx).proper hclosed hproper) hs hms
      exact ⟨hadvances, .items hw hrenders⟩
    | _ => nomatch hlist
  | shared t =>
    obtain ⟨cell, s₁, hcell, hdone⟩ := bind_eq_ok.mp h
    cases hdone
    exact ih.shared hproper hs hcell
  | record name =>
    obtain ⟨w, s₁, hfollow, hrecord⟩ := bind_eq_ok.mp h
    obtain ⟨hw, rfl⟩ := follow_eq_ok.mp hfollow
    cases w with
    | record id source =>
      cases id with
      | none => exact ih.record hproper hw hs hrecord
      | some id =>
        dsimp only at hrecord
        split at hrecord
        · nomatch hrecord
        · exact ih.record hproper hw hs hrecord
    | _ => nomatch hrecord

/-- Filling the cell that was taken before a content was built in further cells. -/
theorem Advances.fill (h : Advances types records { s with heap := s.heap ++ [none] } s')
    (content : Mapped) : Advances types records s
      { s' with heap := s'.heap.set s.heap.length (some content) } ∧
    Kept s'.heap (s'.heap.set s.heap.length (some content)) ∧
    (s'.heap.set s.heap.length (some content))[s.heap.length]? = some (some content) := by
  obtain ⟨added, hadded⟩ := h.heap
  have hheap : s'.heap = s.heap ++ none :: added := by
    rw [← hadded, List.append_assoc, List.singleton_append]
  have hcell : s'.heap[s.heap.length]? = some none := by
    rw [hheap, List.getElem?_append_right (Nat.le_refl _), Nat.sub_self, List.getElem?_cons_zero]
  have hkept := Mapped.kept_set hcell content
  refine ⟨⟨?_, h.explained.mono rfl hkept⟩, hkept, ?_⟩
  · dsimp only
    rw [hheap, set_append_none]
    exact ⟨_, rfl⟩
  · rw [List.getElem?_set_self]
    exact (List.getElem?_eq_some_iff.mp hcell).1

/-- Building a shared result. -/
theorem shared_sound (hclosed : Closed records) (hconsistent : Consistent records)
    (ih : Sound types records fuel) {cell : Nat} (hproper : Proper types records (.shared t, v))
    (hs : Explained types records s)
    (h : buildShared ⟨types, records, pending, visiting⟩ (fuel + 1) t v s = .ok (cell, s')) :
    Advances types records s s' ∧ Renders types records s'.heap (.shared t) v (.shared cell) := by
  rw [buildShared] at h
  cases hid : objectId? v with
  | none =>
    rw [hid] at h
    have hv : resolve records v = some v := by
      cases v with
      | ref id => cases hid
      | _ => rfl
    obtain ⟨content, s₁, hcontent, hdone⟩ := bind_eq_ok.mp h
    obtain ⟨hadvances, hrenders⟩ :=
      ih.build ((Leads.shared hv).proper hclosed hproper) hs hcontent
    obtain ⟨hfilled, -, hcell⟩ :=
      Advances.fill (.refl (hadvances.explained.advances [none]).explained) content
    cases hdone
    exact ⟨hadvances.trans hfilled, .shared hv (hrenders.mono hfilled.kept) hcell⟩
  | some id =>
    rw [hid] at h
    have hmeaning := sameMeaning_of_objectId? hconsistent hproper.within hid
    obtain ⟨x, s₁, hget, hrest⟩ := bind_eq_ok.mp h
    cases hget
    cases hfinished : s.finished.lookup (id, t) with
    | some found =>
      rw [hfinished] at hrest
      cases hrest
      exact ⟨.refl hs, (hs _ (mem_of_lookup_eq_some hfinished)).congr fun n => (hmeaning n).symm⟩
    | none =>
      rw [hfinished] at hrest
      dsimp only at hrest
      split at hrest
      · nomatch hrest
      · obtain ⟨w, s₁, hfollow, hcell⟩ := bind_eq_ok.mp hrest
        obtain ⟨hw, rfl⟩ := follow_eq_ok.mp hfollow
        obtain ⟨own, s₂, hreserve, hcontent⟩ := bind_eq_ok.mp hcell
        cases hreserve
        obtain ⟨content, s₃, hcontent, hdone⟩ := bind_eq_ok.mp hcontent
        have hadded := hs.advances [none]
        obtain ⟨hadvances, hrenders⟩ :=
          ih.build ((Leads.shared hw).proper hclosed hproper) hadded.explained hcontent
        -- The cell was empty while the content was built, so filling it changes nothing built there.
        obtain ⟨hfilled, hkept, hown⟩ := hadvances.fill content
        have hshared := Renders.shared hw (hrenders.mono hkept) hown
        cases hdone
        refine ⟨⟨hfilled.heap, ?_⟩, hshared⟩
        exact List.forall_mem_cons.mpr ⟨hshared.congr hmeaning, hfilled.explained⟩

/-- Building the items of a list. -/
theorem items_sound (ih : Sound types records fuel) {index : Nat} {vs : List Value}
    {ms : List Mapped} (hproper : ∀ v ∈ vs, Proper types records (t, v))
    (hs : Explained types records s)
    (h : buildItems ⟨types, records, pending, visiting⟩ (fuel + 1) t index vs s = .ok (ms, s')) :
    Advances types records s s' ∧ List.Forall₂ (Renders types records s'.heap t) vs ms := by
  cases vs with
  | nil =>
    cases h
    exact ⟨.refl hs, .nil⟩
  | cons v rest =>
    obtain ⟨hv, hrest⟩ := List.forall_mem_cons.mp hproper
    obtain ⟨m, s₁, hm, hothers⟩ := bind_eq_ok.mp h
    obtain ⟨others, s₂, hothers, hdone⟩ := bind_eq_ok.mp hothers
    cases hdone
    obtain ⟨hfirst, hrenders⟩ := ih.build hv hs (inside_eq_ok.mp hm)
    obtain ⟨hsecond, hrendersRest⟩ := ih.items hrest hfirst.explained hothers
    exact ⟨hfirst.trans hsecond, .cons (hrenders.mono hsecond.kept) hrendersRest⟩

/-- Building a record. -/
theorem record_sound (hclosed : Closed records) (ih : Sound types records fuel) {name : String}
    {id : Option ObjectId} {source : List (String × Value)}
    (hproper : Proper types records (.record name, v))
    (hv : resolve records v = some (.record id source)) (hs : Explained types records s)
    (h : buildRecord ⟨types, records, pending, visiting⟩ (fuel + 1) name id source s =
      .ok (m, s')) :
    Advances types records s s' ∧ Renders types records s'.heap (.record name) v m := by
  rw [buildRecord] at h
  cases htype : types.get? name with
  | none =>
    rw [htype] at h
    cases h
    exact ⟨.refl hs, .outline hv fun targets htargets => by rw [htype] at htargets; cases htargets⟩
  | some reading =>
    rw [htype] at h
    cases reading with
    | outline =>
      cases h
      refine ⟨.refl hs, .outline hv fun targets htargets => ?_⟩
      rw [htype] at htargets
      cases htargets
    | fields targets =>
      obtain ⟨entries, s₁, hentries, hdone⟩ := bind_eq_ok.mp h
      cases hdone
      obtain ⟨hadvances, hrenders⟩ := ih.fields
        (fun f hf w hw => (Leads.field hv htype hf hw).proper hclosed hproper) hs hentries
      exact ⟨hadvances, .fields hv htype hrenders⟩

/-- Building a field of a record. -/
theorem field_sound (ih : Sound types records fuel) {source : List (String × Value)}
    {f : String × Target} (hproper : ∀ w, Fields.lookup? source f.1 = some w →
      Proper types records (f.2, w)) (hs : Explained types records s)
    (h : buildField ⟨types, records, pending, visiting⟩ fuel source f s = .ok (m, s')) :
    Advances types records s s' ∧ RendersField types records s'.heap source f (f.1, m) := by
  rw [buildField] at h
  cases hsource : Fields.lookup? source f.1 with
  | some w =>
    rw [hsource] at h
    obtain ⟨hadvances, hrenders⟩ := ih.build (hproper w hsource) hs (inside_eq_ok.mp h)
    exact ⟨hadvances, .found hsource hrenders⟩
  | none =>
    rw [hsource] at h
    cases hmissing : missing types f.2 with
    | none =>
      rw [hmissing] at h
      cases h
    | some action =>
      rw [hmissing] at h
      obtain ⟨m', tree, added, htree, hm, hshows⟩ := missing_eq hmissing s
      cases h.symm.trans hm
      exact ⟨hs.advances added, .missing hsource htree hshows⟩

/-- Building the fields of a record. -/
theorem fields_sound (ih : Sound types records fuel) {source : List (String × Value)}
    {targets : List (String × Target)} {entries : List (String × Mapped)}
    (hproper : ∀ f ∈ targets, ∀ w, Fields.lookup? source f.1 = some w →
      Proper types records (f.2, w)) (hs : Explained types records s)
    (h : buildFields ⟨types, records, pending, visiting⟩ (fuel + 1) source targets s =
      .ok (entries, s')) :
    Advances types records s s' ∧
      List.Forall₂ (RendersField types records s'.heap source) targets entries := by
  cases targets with
  | nil =>
    cases h
    exact ⟨.refl hs, .nil⟩
  | cons f rest =>
    obtain ⟨hf, hrest⟩ := List.forall_mem_cons.mp hproper
    rw [buildFields_cons] at h
    obtain ⟨m, s₁, hm, hothers⟩ := bind_eq_ok.mp h
    obtain ⟨others, s₂, hothers, hdone⟩ := bind_eq_ok.mp hothers
    cases hdone
    obtain ⟨hfirst, hrenders⟩ := field_sound ih hf hs hm
    obtain ⟨hsecond, hrendersRest⟩ := ih.fields hrest hfirst.explained hothers
    exact ⟨hfirst.trans hsecond, .cons (hrenders.mono hsecond.kept) hrendersRest⟩

/-- Whatever the fuel, mapping shows what is read. -/
theorem sound (types : RecordTargets) (hclosed : Closed records)
    (hconsistent : Consistent records) (fuel : Nat) : Sound types records fuel := by
  induction fuel with
  | zero => exact sound_zero types records
  | succ fuel ih =>
    exact ⟨build_sound hclosed ih, shared_sound hclosed hconsistent ih, items_sound ih,
      record_sound hclosed ih, fields_sound ih⟩

/-! ## Graphs -/

/-- A mapped graph shows the tree that its type reads off the value, when the type is plain and the
value is consistent. -/
theorem map_shows {g : MappedGraph} (hplain : t.IsPlain types)
    (hconsistent : Consistent v.identified) (h : t.map types v = .ok g) :
    Renders types v.identified g.heap t v g.root := by
  rw [Target.map] at h
  split at h
  · rename_i root s' hbuild
    cases h
    have hsound := sound types (closed_identified v) hconsistent (fuelFor types t v)
    have hempty : Explained types v.identified ⟨[], []⟩ := List.forall_mem_nil _
    exact (hsound.build ⟨hplain, fun _ hr => hr⟩ hempty hbuild).2
  · cases h

/-- A list is mapped to a list, and the items of the result show what the type reads off the items
of the list. -/
theorem map_list_shows {g : MappedGraph} {vs : List Value} (hplain : t.IsPlain types)
    (hconsistent : Consistent (Value.list vs).identified)
    (h : (Target.list t).map types (.list vs) = .ok g) :
    ∃ ms, g.root = .list ms ∧
      List.Forall₂ (Renders types (Value.list vs).identified g.heap t) vs ms := by
  rw [Target.map] at h
  generalize fuelFor types (.list t) (.list vs) = fuel at h
  split at h
  · rename_i root s' hbuild
    cases h
    cases fuel with
    | zero => nomatch hbuild
    | succ fuel =>
      obtain ⟨w, s, hfollow, hlist⟩ := bind_eq_ok.mp hbuild
      cases hfollow
      obtain ⟨ms, s₁, hms, hdone⟩ := bind_eq_ok.mp hlist
      cases hdone
      have hsound := sound types (closed_identified _) hconsistent fuel
      have hempty : Explained types (Value.list vs).identified ⟨[], []⟩ := List.forall_mem_nil _
      have hproper : ∀ v ∈ vs, Proper types (Value.list vs).identified (t, v) := fun v hv =>
        ⟨hplain, fun _ hr => Value.mem_identified_of_mem_children (v := .list vs) hv hr⟩
      exact ⟨ms, rfl, (hsound.items hproper hempty hms).2⟩
  · cases h

end QueryRelay.Mapping
