import Mathlib.Data.List.Forall2
import QueryRelay.Proofs.Value.Unfolding

/-!
# Values that mean the same in two graphs

Two values mean the same, each in its own graph, when they unfold alike to any depth. What such
values stand for after references are resolved has the same shape, and its parts mean the same in
turn. In an element that was drawn from a graph a record means what a reference to it means.
-/

namespace QueryRelay.Value

/-- The value that a value stands for: of a reference the first record of its identity. -/
def resolve (records : List Identified) : Value → Option Value
  | .ref id => (findRecord records id).map fun r => .record (some r.id) r.fields
  | v => some v

/-- Values that unfold alike, each in its graph. -/
def SameMeaning (records : List Identified) (v : Value) (records' : List Identified)
    (v' : Value) : Prop :=
  ∀ n, unfold records n v = unfold records' n v'

/-- Values without references at the root of which the parts mean the same. -/
inductive Matches (records records' : List Identified) : Value → Value → Prop
  /-- The same value without parts. -/
  | atom {v : Value} (h : v.IsAtom) : Matches records records' v v
  /-- Lists of items that mean the same one by one. -/
  | list {items items' : List Value}
      (h : List.Forall₂ (fun v v' => SameMeaning records v records' v') items items') :
      Matches records records' (.list items) (.list items')
  /-- Records of one identity with fields of the same names that mean the same. -/
  | record (id : Option ObjectId) {fields fields' : List (String × Value)}
      (h : List.Forall₂ (fun f f' => f.1 = f'.1 ∧ SameMeaning records f.2 records' f'.2)
        fields fields') : Matches records records' (.record id fields) (.record id fields')

variable {records records' : List Identified} {v v' w : Value}

/-! ## Resolution -/

/-- A value unfolds as what it stands for. -/
theorem unfold_resolve (h : resolve records v = some w) (n : Nat) :
    unfold records n v = unfold records n w := by
  cases v with
  | ref id =>
    obtain ⟨r, hr, rfl⟩ := Option.map_eq_some_iff.mp h
    exact unfold_ref_of_some hr n
  | _ =>
    cases h
    rfl

/-- A value without parts that is no reference is its own unfolding. -/
theorem unfold_atom (h : v.IsAtom) (hv : ∀ id, v ≠ .ref id) (n : Nat) :
    unfold records (n + 1) v = v := by
  cases v with
  | ref id => exact absurd rfl (hv id)
  | list | record => exact h.elim
  | _ => rfl

/-- What is no reference does not unfold as one. -/
theorem unfold_ne_ref (hv : ∀ id, v ≠ .ref id) (n : Nat) (id : ObjectId) :
    unfold records (n + 1) v ≠ .ref id := by
  cases v with
  | ref own => exact absurd rfl (hv own)
  | _ => exact Value.noConfusion

/-- What a value stands for is no reference. -/
theorem resolve_ne_ref (h : resolve records v = some w) (id : ObjectId) : w ≠ .ref id := by
  rintro rfl
  cases v with
  | ref id =>
    obtain ⟨r, -, hr⟩ := Option.map_eq_some_iff.mp h
    cases hr
  | _ => cases h

/-- Only a reference that no record answers stands for nothing. -/
theorem resolve_eq_none (h : resolve records v = none) :
    ∃ id, v = .ref id ∧ findRecord records id = none := by
  cases v with
  | ref id => exact ⟨id, rfl, Option.map_eq_none_iff.mp h⟩
  | _ => cases h

/-- What a value in a graph stands for is in the graph. -/
theorem identified_resolve {r : Identified} (hv : ∀ r ∈ v.identified, r ∈ records)
    (hclosed : ∀ s ∈ records, ∀ r ∈ (record (some s.id) s.fields).identified, r ∈ records)
    (h : resolve records v = some w) (hr : r ∈ w.identified) : r ∈ records := by
  cases v with
  | ref id =>
    obtain ⟨s, hs, rfl⟩ := Option.map_eq_some_iff.mp h
    exact hclosed s (findRecord_eq_some hs).1 r hr
  | _ =>
    cases h
    exact hv r hr

/-! ## The shape of values that mean the same -/

/-- Lists with equal images, whatever the depth, are alike item by item. -/
theorem forall₂_of_map_eq {α β : Type} {f g : Nat → α → β} :
    ∀ {as bs : List α}, (∀ n, as.map (f n) = bs.map (g n)) →
      List.Forall₂ (fun a b => ∀ n, f n a = g n b) as bs
  | [], [], _ => .nil
  | [], _ :: _, h => nomatch h 0
  | _ :: _, [], h => nomatch h 0
  | _ :: _, _ :: _, h =>
    .cons (fun n => (List.cons.inj (h n)).1) (forall₂_of_map_eq fun n => (List.cons.inj (h n)).2)

/-- Values that mean the same and are no references match. -/
theorem SameMeaning.matches (h : SameMeaning records v records' v') (hv : ∀ id, v ≠ .ref id)
    (hv' : ∀ id, v' ≠ .ref id) : Matches records records' v v' := by
  cases v with
  | ref id => exact absurd rfl (hv id)
  | list items =>
    cases v' with
    | ref id => exact absurd rfl (hv' id)
    | list items' => exact .list (forall₂_of_map_eq fun n => Value.list.inj (h (n + 1)))
    | _ => nomatch h 1
  | record id fields =>
    cases v' with
    | ref id => exact absurd rfl (hv' id)
    | record id' fields' =>
      have hid : id = id' := (Value.record.inj (h 1)).1
      subst hid
      refine .record id ((forall₂_of_map_eq fun n => (Value.record.inj (h (n + 1))).2).imp ?_)
      exact fun _ _ hfields =>
        ⟨(Prod.mk.inj (hfields 0)).1, fun n => (Prod.mk.inj (hfields n)).2⟩
    | _ => nomatch h 1
  | _ =>
    cases v' with
    | ref id => exact absurd rfl (hv' id)
    | list | record => nomatch h 1
    | _ =>
      have hsame := h 1
      rw [unfold_atom (by trivial) hv, unfold_atom (by trivial) hv'] at hsame
      rw [hsame]
      exact .atom trivial

/-- Values that mean the same stand for matching values, or are the same reference that neither
graph answers. -/
theorem SameMeaning.resolve (h : SameMeaning records v records' v') :
    (∃ id, v = .ref id ∧ v' = .ref id ∧ resolve records v = none ∧ resolve records' v' = none) ∨
      ∃ w w', resolve records v = some w ∧ resolve records' v' = some w' ∧
        SameMeaning records w records' w' ∧ Matches records records' w w' := by
  cases hw : Value.resolve records v with
  | none =>
    obtain ⟨id, rfl, hfind⟩ := resolve_eq_none hw
    have hv : unfold records 1 (.ref id) = .ref id := unfold_ref_of_none hfind 0
    cases hw' : Value.resolve records' v' with
    | none =>
      obtain ⟨id', rfl, hfind'⟩ := resolve_eq_none hw'
      have hids := h 1
      rw [hv, unfold_ref_of_none hfind'] at hids
      cases hids
      exact .inl ⟨id, rfl, rfl, rfl, rfl⟩
    | some w' =>
      have hw1 : unfold records' 1 w' = .ref id := by rw [← unfold_resolve hw', ← h 1, hv]
      exact absurd hw1 (unfold_ne_ref (resolve_ne_ref hw') 0 id)
  | some w =>
    cases hw' : Value.resolve records' v' with
    | none =>
      obtain ⟨id', rfl, hfind'⟩ := resolve_eq_none hw'
      have hv' : unfold records' 1 (.ref id') = .ref id' := unfold_ref_of_none hfind' 0
      have hw1 : unfold records 1 w = .ref id' := by rw [← unfold_resolve hw, h 1, hv']
      exact absurd hw1 (unfold_ne_ref (resolve_ne_ref hw) 0 id')
    | some w' =>
      have hresolved : SameMeaning records w records' w' := by
        intro n
        rw [← unfold_resolve hw, ← unfold_resolve hw', h n]
      exact .inr ⟨w, w', rfl, rfl, hresolved,
        hresolved.matches (resolve_ne_ref hw) (resolve_ne_ref hw')⟩

/-! ## Records and references to them -/

/-- In a consistent graph a record means what a reference to it means. -/
def Consistent (records : List Identified) : Prop :=
  ∀ r ∈ records, SameMeaning records (.record (some r.id) r.fields) records (.ref r.id)

/-- A graph in which records with one identity are equal is consistent. -/
theorem SameRecords.consistent {graph : Value} (h : graph.SameRecords) :
    Consistent graph.identified := by
  intro r hr n
  rw [unfold_ref_of_some (h.findRecord_eq hr)]

/-- An element that was drawn from such a graph is consistent. -/
theorem DrawnFrom.consistent {graph element : Value} (hsame : graph.SameRecords)
    (h : DrawnFrom graph element) : Consistent element.identified := by
  intro r hr n
  obtain ⟨s, hs, hid, pairs, hfst, hsnd, hpairs⟩ := h.records r hr
  have hwithin := within_of_mem_identified hs
  have hrecord : Resembles graph.identified (.record (some r.id) r.fields)
      (.record (some s.id) s.fields) := by
    rw [← hfst, ← hsnd, hid]
    exact .record (some r.id) hpairs
  have href : Resembles graph.identified (.ref r.id) (.record (some s.id) s.fields) := by
    rw [hid]
    exact .referred r.id s.fields
  have halike : UnfoldAlike graph element n := h.unfoldAlike hsame n
  rw [halike hrecord (fun i hi => h.answered i (mem_refs_trans hr hi)) hwithin]
  refine (halike href (fun i hi => .inl ?_) hwithin).symm
  rw [List.mem_singleton.mp hi]
  exact mem_ids.mpr ⟨r, hr, rfl⟩

end QueryRelay.Value
