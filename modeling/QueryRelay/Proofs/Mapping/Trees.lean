import QueryRelay.Proofs.Mapping.Reading
import QueryRelay.Proofs.Pointwise

/-!
# The trees of mapped results

A mapped result shows a tree: the result with the content of a cell in the place of each owner of
the cell. It shows one tree only, and keeps showing it when the heap grows. Main statement: the
rules by which a mapped result shows the tree that a type reads off a value, one for each kind of
type.
-/

namespace QueryRelay

/-! ## Lists place by place -/

section Places

variable {α β γ : Type}

/-- Lists of which the images under one function are equal have equal images under another that
depends on the first. -/
theorem map_eq_map_of_imp {f : α → β} {g : α → γ} {as bs : List α}
    (h : ∀ a ∈ as, ∀ b ∈ bs, f a = f b → g a = g b) (heq : as.map f = bs.map f) :
    as.map g = bs.map g := by
  induction as generalizing bs with
  | nil =>
    rw [List.map_nil, eq_comm, List.map_eq_nil_iff] at heq
    rw [heq]
  | cons a as ih =>
    cases bs with
    | nil => cases heq
    | cons b bs =>
      obtain ⟨hab, hrest⟩ := List.cons.inj heq
      rw [List.map_cons, List.map_cons, h a (List.mem_cons_self ..) b (List.mem_cons_self ..) hab]
      rw [ih (fun a' ha' b' hb' => h a' (List.mem_cons_of_mem a ha') b'
        (List.mem_cons_of_mem b hb')) hrest]

/-- What is related place by place through a third thing is so through a list of such things. -/
theorem exists_list_of_forall₂ {P : α → γ → Prop} {Q : β → γ → Prop} {as : List α} {bs : List β}
    (h : List.Forall₂ (fun a b => ∃ c, P a c ∧ Q b c) as bs) :
    ∃ cs, List.Forall₂ P as cs ∧ List.Forall₂ Q bs cs := by
  induction h with
  | nil => exact ⟨[], .nil, .nil⟩
  | cons hab _ ih =>
    obtain ⟨c, ha, hb⟩ := hab
    obtain ⟨cs, has, hbs⟩ := ih
    exact ⟨c :: cs, .cons ha has, .cons hb hbs⟩

/-- When each thing in a list is related to something, the list is so place by place. -/
theorem exists_forall₂_of_forall_mem {R : α → β → Prop} {as : List α}
    (h : ∀ a ∈ as, ∃ b, R a b) : ∃ bs, List.Forall₂ R as bs := by
  induction as with
  | nil => exact ⟨[], .nil⟩
  | cons a as ih =>
    obtain ⟨⟨b, hab⟩, hrest⟩ := List.forall_mem_cons.mp h
    obtain ⟨bs, hbs⟩ := ih hrest
    exact ⟨b :: bs, .cons hab hbs⟩

/-- What holds place by place from some depth on holds of all places from one depth on. -/
theorem exists_depth_of_forall₂ {P : Nat → α → β → Prop}
    (hmono : ∀ {m n a b}, m ≤ n → P m a b → P n a b) {as : List α} {bs : List β}
    (h : List.Forall₂ (fun a b => ∃ n, P n a b) as bs) : ∃ n, List.Forall₂ (P n) as bs := by
  induction h with
  | nil => exact ⟨0, .nil⟩
  | cons hab _ ih =>
    obtain ⟨m, hm⟩ := hab
    obtain ⟨n, hn⟩ := ih
    refine ⟨max m n, .cons (hmono (Nat.le_max_left m n) hm) (hn.imp fun _ _ hplace => ?_)⟩
    exact hmono (Nat.le_max_right m n) hplace

end Places

/-! ## Results and their trees -/

namespace Mapped

/-- A result without parts and without a cell. -/
def IsLeaf : Mapped → Prop
  | .present _ | .list _ | .record _ | .shared _ | .weak (some _) => False
  | _ => True

/-- A result shows a tree when the tree is the result with the contents of cells in the place of
their owners. -/
inductive Shows (heap : Heap) : Mapped → Mapped → Prop
  /-- What has no parts shows itself. -/
  | leaf {m : Mapped} (h : m.IsLeaf) : Shows heap m m
  /-- Something where nothing could be shows what it is made of. -/
  | present {m tree : Mapped} (h : Shows heap m tree) : Shows heap (.present m) (.present tree)
  /-- A list shows the trees of its items. -/
  | list {pairs : List (Mapped × Mapped)} (h : ∀ p ∈ pairs, Shows heap p.1 p.2) :
      Shows heap (.list (pairs.map Prod.fst)) (.list (pairs.map Prod.snd))
  /-- A record shows the trees of its fields. -/
  | record {pairs : List (String × Mapped × Mapped)} (h : ∀ p ∈ pairs, Shows heap p.2.1 p.2.2) :
      Shows heap (.record (pairs.map fun p => (p.1, p.2.1)))
        (.record (pairs.map fun p => (p.1, p.2.2)))
  /-- An owner of a cell shows the tree of the content. -/
  | shared {cell : Nat} {content tree : Mapped} (hcell : heap[cell]? = some (some content))
      (h : Shows heap content tree) : Shows heap (.shared cell) tree

/-- Every cell that has a content in a heap has it in another. -/
def Kept (heap heap' : Heap) : Prop :=
  ∀ (cell : Nat) (content : Mapped), heap[cell]? = some (some content) →
    heap'[cell]? = some (some content)

variable {heap heap' : Heap} {m tree tree' : Mapped}

/-- What is added to a heap leaves the cells as they are. -/
theorem kept_of_prefix (h : heap <+: heap') : Kept heap heap' := by
  obtain ⟨added, rfl⟩ := h
  intro cell content hcell
  obtain ⟨hlength, -⟩ := List.getElem?_eq_some_iff.mp hcell
  rw [List.getElem?_append_left hlength, hcell]

/-- Filling an empty cell leaves the contents of the others. -/
theorem kept_set {cell : Nat} (hcell : heap[cell]? = some none) (content : Mapped) :
    Kept heap (heap.set cell (some content)) := by
  intro cell' content' hcell'
  have hne : cell ≠ cell' := by
    rintro rfl
    rw [hcell] at hcell'
    cases hcell'
  rw [List.getElem?_set_ne hne, hcell']

/-- A result keeps showing a tree when the contents of cells are kept. -/
theorem Shows.mono (hkept : Kept heap heap') (h : Shows heap m tree) : Shows heap' m tree := by
  induction h with
  | leaf h => exact .leaf h
  | present _ ih => exact .present ih
  | list _ ih => exact .list ih
  | record _ ih => exact .record ih
  | shared hcell _ ih => exact .shared (hkept _ _ hcell) ih

/-- A result shows one tree. -/
theorem Shows.unique (h : Shows heap m tree) (h' : Shows heap m tree') : tree = tree' := by
  induction h generalizing tree' with
  | leaf hleaf =>
    cases h' with
    | leaf => rfl
    | _ => exact hleaf.elim
  | present _ ih =>
    cases h' with
    | leaf hleaf => exact hleaf.elim
    | present h' => rw [ih h']
  | @list pairs _ ih =>
    generalize hitems : Mapped.list (pairs.map Prod.fst) = m at h'
    cases h' with
    | leaf hleaf =>
      subst hitems
      exact hleaf.elim
    | @list pairs' h' =>
      rw [map_eq_map_of_imp (fun p hp p' hp' hfst => ?_) (Mapped.list.inj hitems)]
      exact ih p hp (hfst ▸ h' p' hp')
    | _ => cases hitems
  | @record pairs _ ih =>
    generalize hfields : Mapped.record (pairs.map fun p => (p.1, p.2.1)) = m at h'
    cases h' with
    | leaf hleaf =>
      subst hfields
      exact hleaf.elim
    | @record pairs' h' =>
      rw [map_eq_map_of_imp (fun p hp p' hp' hfst => ?_) (Mapped.record.inj hfields)]
      obtain ⟨hname, hvalue⟩ := Prod.mk.inj hfst
      rw [hname, ih p hp (hvalue ▸ h' p' hp')]
    | _ => cases hfields
  | shared hcell _ ih =>
    cases h' with
    | leaf hleaf => exact hleaf.elim
    | shared hcell' h' =>
      rw [hcell] at hcell'
      cases hcell'
      exact ih h'

/-- Items that show trees one by one are a list that shows them. -/
theorem Shows.items {ms trees : List Mapped} (h : List.Forall₂ (Shows heap) ms trees) :
    Shows heap (.list ms) (.list trees) := by
  obtain ⟨pairs, rfl, rfl, hpairs⟩ := exists_pairs_of_forall₂ h
  exact .list hpairs

/-- Fields that show trees one by one, under the same names, are a record that shows them. -/
theorem Shows.fields {ms trees : List (String × Mapped)}
    (h : List.Forall₂ (fun x y => x.1 = y.1 ∧ Shows heap x.2 y.2) ms trees) :
    Shows heap (.record ms) (.record trees) := by
  obtain ⟨pairs, rfl, rfl, hpairs⟩ := exists_pairs_of_forall₂ h
  have htriples : ∀ p ∈ pairs.map fun p => (p.2.1, p.1.2, p.2.2), Shows heap p.2.1 p.2.2 :=
    List.forall_mem_map.mpr fun p hp => (hpairs p hp).2
  have hshows := Shows.record htriples
  rw [List.map_map, List.map_map] at hshows
  have hfst : pairs.map Prod.fst = pairs.map fun p => (p.2.1, p.1.2) :=
    List.map_congr_left fun p hp => by rw [← (hpairs p hp).1]
  rw [hfst]
  exact hshows

end Mapped

/-! ## Results that show what is read -/

namespace Mapping

open Mapped (Shows Kept)
open Value (Identified resolve)

/-- A type reads an entry off a field of the source, or has something that stands for its
absence. -/
def ReadsField (types : RecordTargets) (records : List Identified) (source : List (String × Value))
    (f : String × Target) (entry : String × Mapped) : Prop :=
  ∃ n, readField types (read types records n) source f = some entry

/-- A result shows the tree that a type reads off a value. -/
def Renders (types : RecordTargets) (records : List Identified) (heap : Heap) (t : Target)
    (v : Value) (m : Mapped) : Prop :=
  ∃ tree, Reads types records t v tree ∧ Shows heap m tree

/-- A named result shows the entry that a type reads off a field of the source. -/
def RendersField (types : RecordTargets) (records : List Identified) (heap : Heap)
    (source : List (String × Value)) (f : String × Target) (entry : String × Mapped) : Prop :=
  ∃ shown, ReadsField types records source f shown ∧ entry.1 = shown.1 ∧ Shows heap entry.2 shown.2

/-- A list type reads the items one by one. -/
theorem Reads.items {types : RecordTargets} {records : List Identified} {t : Target} {v : Value}
    {vs : List Value} {trees : List Mapped} (hv : resolve records v = some (.list vs))
    (h : List.Forall₂ (Reads types records t) vs trees) :
    Reads types records (.list t) v (.list trees) := by
  obtain ⟨n, hn⟩ := exists_depth_of_forall₂
    (P := fun n v tree => read types records n t v = some tree) read_mono h
  refine ⟨n + 1, ?_⟩
  rw [read, hv]
  dsimp only
  rw [mapM_eq_some.mpr hn, Option.map_some]

namespace Renders

variable {types : RecordTargets} {records : List Identified} {heap heap' : Heap} {t : Target}
  {v w : Value} {m : Mapped}

/-- A result keeps showing what is read when the contents of cells are kept. -/
theorem mono (hkept : Kept heap heap') (h : Renders types records heap t v m) :
    Renders types records heap' t v m := by
  obtain ⟨tree, hreads, hshows⟩ := h
  exact ⟨tree, hreads, hshows.mono hkept⟩

/-- What a type without parts reads. -/
theorem scalar (h : readScalar v t = some m) : Renders types records heap t v m := by
  refine ⟨m, ⟨1, ?_⟩, .leaf ?_⟩
  · cases t with
    | option | boxed | shared | list | record => cases h
    | _ => exact h
  · cases t with
    | integer | single | double | bool | text | timestamp | enum =>
      obtain ⟨x, -, rfl⟩ := Option.map_eq_some_iff.mp h
      trivial
    | _ => cases h

/-- Nothing, where nothing could be. -/
theorem absent (h : v.isNull = true) : Renders types records heap (.option t) v .absent := by
  refine ⟨.absent, ⟨1, ?_⟩, .leaf trivial⟩
  rw [read, if_pos h]

/-- Something, where nothing could be. -/
theorem present (hnull : v.isNull = false) (h : Renders types records heap t v m) :
    Renders types records heap (.option t) v (.present m) := by
  obtain ⟨tree, ⟨n, hn⟩, hshows⟩ := h
  refine ⟨.present tree, ⟨n + 1, ?_⟩, .present hshows⟩
  rw [read, if_neg (by simp [hnull]), hn, Option.map_some]

/-- A result with a place of its own. -/
theorem boxed (h : Renders types records heap t v m) :
    Renders types records heap (.boxed t) v m := by
  obtain ⟨tree, ⟨n, hn⟩, hshows⟩ := h
  exact ⟨tree, ⟨n + 1, hn⟩, hshows⟩

/-- A cell that holds a result. -/
theorem shared (hv : resolve records v = some w) (h : Renders types records heap t w m)
    {cell : Nat} (hcell : heap[cell]? = some (some m)) :
    Renders types records heap (.shared t) v (.shared cell) := by
  obtain ⟨tree, ⟨n, hn⟩, hshows⟩ := h
  refine ⟨tree, ⟨n + 1, ?_⟩, .shared hcell hshows⟩
  rw [read, hv, Option.bind_some, hn]

/-- The empty list, for null. -/
theorem none (hv : resolve records v = some .null) :
    Renders types records heap (.list t) v (.list []) := by
  refine ⟨.list [], ⟨1, ?_⟩, .items .nil⟩
  rw [read, hv]

/-- A list of results. -/
theorem items {vs : List Value} {ms : List Mapped} (hv : resolve records v = some (.list vs))
    (h : List.Forall₂ (Renders types records heap t) vs ms) :
    Renders types records heap (.list t) v (.list ms) := by
  obtain ⟨trees, hreads, hshows⟩ := exists_list_of_forall₂ h
  exact ⟨.list trees, .items hv hreads, .items hshows⟩

/-- A record of results. -/
theorem fields {name : String} {id : Option ObjectId} {source : List (String × Value)}
    {targets : List (String × Target)} {entries : List (String × Mapped)}
    (hv : resolve records v = some (.record id source))
    (htype : types.get? name = some (.fields targets))
    (h : List.Forall₂ (RendersField types records heap source) targets entries) :
    Renders types records heap (.record name) v (.record entries) := by
  obtain ⟨trees, hreads, hshows⟩ := exists_list_of_forall₂ h
  obtain ⟨n, hn⟩ := exists_depth_of_forall₂
    (P := fun n f shown => readField types (read types records n) source f = some shown)
    (fun hmn => readField_mono hmn) hreads
  refine ⟨.record trees, ⟨n + 1, ?_⟩, .fields hshows⟩
  rw [read, hv]
  dsimp only
  rw [htype]
  dsimp only
  rw [mapM_eq_some.mpr hn, Option.map_some]

/-- The outline of a record. -/
theorem outline {name : String} {id : Option ObjectId} {source : List (String × Value)}
    (hv : resolve records v = some (.record id source))
    (htype : ∀ targets, types.get? name ≠ some (.fields targets)) :
    Renders types records heap (.record name) v (.outline id source.length) := by
  refine ⟨_, ⟨1, ?_⟩, .leaf trivial⟩
  rw [read, hv]
  dsimp only
  split
  · rename_i targets htargets
    exact absurd htargets (htype targets)
  · rfl

end Renders

namespace RendersField

variable {types : RecordTargets} {records : List Identified} {heap heap' : Heap}
  {source : List (String × Value)} {f : String × Target} {m tree : Mapped}

/-- A field keeps showing what is read when the contents of cells are kept. -/
theorem mono {entry : String × Mapped} (hkept : Kept heap heap')
    (h : RendersField types records heap source f entry) :
    RendersField types records heap' source f entry := by
  obtain ⟨shown, hreads, hname, hshows⟩ := h
  exact ⟨shown, hreads, hname, hshows.mono hkept⟩

/-- A field that the source has. -/
theorem found {w : Value} (hw : Fields.lookup? source f.1 = some w)
    (h : Renders types records heap f.2 w m) :
    RendersField types records heap source f (f.1, m) := by
  obtain ⟨tree, ⟨n, hn⟩, hshows⟩ := h
  refine ⟨(f.1, tree), ⟨n, ?_⟩, rfl, hshows⟩
  rw [readField, hw]
  dsimp only
  rw [hn, Option.map_some]

/-- A field that the source lacks. -/
theorem missing (hsource : Fields.lookup? source f.1 = none)
    (htree : missingTree types f.2 = some tree) (h : Shows heap m tree) :
    RendersField types records heap source f (f.1, m) := by
  refine ⟨(f.1, tree), ⟨0, ?_⟩, rfl, h⟩
  rw [readField, hsource]
  dsimp only
  rw [htree, Option.map_some]

end RendersField

end Mapping
end QueryRelay
