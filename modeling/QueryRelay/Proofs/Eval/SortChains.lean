import QueryRelay.Proofs.Eval.StableSort
import QueryRelay.Proofs.Expr.Rewriting
import QueryRelay.Proofs.Typing.Queries

/-!
# Chains of sort operators

A primary sort and the sorts that refine it are evaluated as one: the keys are collected along the
chain, and the elements of its source are arranged once, by all keys together. Main statement: the
value of a chain has the elements in the order of their tuples of key values, those with tying keys
in the order of the source, and sorting by one key after the other, the last one first, comes to the
same.
-/

namespace QueryRelay

namespace Expr

open Sequence (Keyed FitsDirections StableOrder IsStableSort sortKeyed)

/-- A chain of sort operators over a source, with its keys, the primary one first. Arguments after
the key are not read. -/
inductive SortsBy (source : Expr) : Expr → List (Expr × SortDirection) → Prop
  /-- A primary key starts a chain. -/
  | primary (key : Expr) (d : SortDirection) (unread : List Expr) :
    SortsBy source (.query (Plan.sortVerb true d) (source :: key :: unread)) [(key, d)]
  /-- A further key refines a chain. -/
  | further {e : Expr} {keys : List (Expr × SortDirection)} (h : SortsBy source e keys)
    (key : Expr) (d : SortDirection) (unread : List Expr) :
    SortsBy source (.query (Plan.sortVerb false d) (e :: key :: unread)) (keys ++ [(key, d)])

/-- Sort by each key separately, by the last one first. -/
def sortEach (source : Expr) : List (Expr × SortDirection) → Expr
  | [] => source
  | (key, d) :: rest => (sortEach source rest).applyVerb (Plan.sortVerb true d) [key]

/-- A row holds the values of the sort keys for its element. -/
def EvaluatesKeys (data : DataSource) (scope : Scope) (keys : List (Expr × SortDirection))
    (r : Keyed) : Prop :=
  (keys.mapM fun k => (k.1.meaning data).apply scope [r.element]) = .ok r.keys

variable {data : DataSource} {scope : Scope} {source e : Expr} {keys : List (Expr × SortDirection)}
  {items : List Value} {rows : List Keyed}

/-! ## The value of a chain -/

/-- A chain ends with its keys, over its source. -/
theorem SortsBy.chain_eq (h : SortsBy source e keys) (data : DataSource) :
    (e.meaning data).chain =
      .ok ⟨(source.meaning data).value, keys.map fun k => ((k.1.meaning data).apply, k.2)⟩ := by
  induction h with
  | primary key d unread => cases d <;> rfl
  | further _ key d unread ih =>
    cases d <;>
      simp only [Plan.sortVerb, meaning, meanings, Meaning.sortChain, ih, Except.map, List.map_append,
        List.map_cons, List.map_nil]

/-- The value of a chain is its source, sorted by its keys. -/
theorem SortsBy.value_eq (h : SortsBy source e keys) : (e.meaning data).value scope =
    Meaning.sorted
      ⟨(source.meaning data).value, keys.map fun k => ((k.1.meaning data).apply, k.2)⟩ scope := by
  have hchain := h.chain_eq data
  cases h with
  | primary key d unread | further _ key d unread =>
    rw [meaning] at hchain ⊢
    dsimp only [plainMeaning] at hchain ⊢
    rw [Meaning.query_sortVerb, hchain]
    rfl

/-- Rows with their key values are sorted as the elements are by the keys. -/
theorem sort_eq_ok (h : ∀ r ∈ rows, EvaluatesKeys data scope keys r) :
    Sequence.sort (keys.map fun k => (fun v => (k.1.meaning data).apply scope [v], k.2))
        (rows.map Keyed.element) =
      .ok ((sortKeyed (keys.map Prod.snd) rows).map Keyed.element) := by
  have hkeyed : ((rows.map Keyed.element).mapM (Sequence.keyed ((keys.map fun k =>
      ((fun v => (k.1.meaning data).apply scope [v] : Selector), k.2)).map Prod.fst))) =
        .ok rows := by
    rw [List.mapM_map, Outcome.mapM_eq_ok, List.forall₂_same]
    intro r hr
    refine Outcome.bind_eq_ok.mpr ⟨r.keys, ?_, rfl⟩
    rw [List.mapM_map, List.mapM_map]
    exact h r hr
  rw [Sequence.sort, hkeyed, List.map_map]
  rfl

/-- The value of a chain over rows with their key values is the list of the sorted rows. -/
theorem SortsBy.value_eq_ok (h : SortsBy source e keys)
    (hitems : (source.meaning data).elements scope = .ok (rows.map Keyed.element))
    (hkeys : ∀ r ∈ rows, EvaluatesKeys data scope keys r) : (e.meaning data).value scope =
      .ok (.list ((sortKeyed (keys.map Prod.snd) rows).map Keyed.element)) := by
  obtain ⟨v, hv, helements⟩ := Outcome.bind_eq_ok.mp hitems
  rw [h.value_eq, Meaning.sorted]
  refine Outcome.bind_eq_ok.mpr ⟨v, hv, Outcome.bind_eq_ok.mpr ⟨_, helements, ?_⟩⟩
  rw [List.map_map]
  exact Outcome.bind_eq_ok.mpr ⟨_, sort_eq_ok hkeys, rfl⟩

/-- Elements whose sort keys all have a value without floats have rows. -/
theorem exists_rows (h : ∀ v ∈ items, ∀ k ∈ keys,
      ∃ w, (k.1.meaning data).apply scope [v] = .ok w ∧ w.FloatFree) :
    ∃ rows : List Keyed, rows.map Keyed.element = items ∧
      (∀ r ∈ rows, EvaluatesKeys data scope keys r) ∧
      ∀ r ∈ rows, FitsDirections (keys.map Prod.snd) r.keys := by
  induction items with
  | nil => exact ⟨[], rfl, List.forall_mem_nil _, List.forall_mem_nil _⟩
  | cons v rest ih =>
    obtain ⟨hv, hrest⟩ := List.forall_mem_cons.mp h
    obtain ⟨rows, rfl, hkeys, hfits⟩ := ih hrest
    obtain ⟨ks, hks⟩ := Outcome.exists_mapM_eq_ok fun k hk => (hv k hk).imp fun _ hw => hw.1
    have hplaces := Outcome.mapM_eq_ok.mp hks
    have hfree : ∀ w ∈ ks, w.FloatFree := by
      intro w hw
      obtain ⟨k, hk, hkw⟩ := exists_of_forall₂_of_mem hplaces hw
      obtain ⟨w', hw', hfree⟩ := hv k hk
      rwa [Except.ok.inj (hkw.symm.trans hw')]
    refine ⟨⟨ks, v⟩ :: rows, rfl, List.forall_mem_cons.mpr ⟨hks, hkeys⟩,
      List.forall_mem_cons.mpr ⟨⟨?_, hfree⟩, hfits⟩⟩
    rw [List.length_map]
    exact hplaces.length_eq.symm

/-! ## One key after the other -/

/-- A row holds the value of the first key and those of the further keys. -/
theorem EvaluatesKeys.split {key : Expr} {d : SortDirection} {r : Keyed}
    (h : EvaluatesKeys data scope ((key, d) :: keys) r) :
    EvaluatesKeys data scope [(key, d)] r.first ∧ EvaluatesKeys data scope keys r.further := by
  rw [EvaluatesKeys, List.mapM_cons] at h
  obtain ⟨k, hk, hrest⟩ := Outcome.bind_eq_ok.mp h
  obtain ⟨ks, hks, hdone⟩ := Outcome.bind_eq_ok.mp hrest
  have hkeys : r.keys = k :: ks := (Outcome.pure_eq_ok.mp hdone).symm
  rw [EvaluatesKeys, EvaluatesKeys, Keyed.first, Keyed.further, hkeys]
  refine ⟨?_, hks⟩
  exact Outcome.mapM_eq_ok.mpr (.cons hk .nil)

/-- A sort by one key, of an expression whose elements are known, has the value of the sorted
rows. -/
theorem value_orderBy {key : Expr} {d : SortDirection}
    (hitems : (e.meaning data).elements scope = .ok (rows.map Keyed.element))
    (hkeys : ∀ r ∈ rows, EvaluatesKeys data scope [(key, d)] r) :
    ((e.applyVerb (Plan.sortVerb true d) [key]).meaning data).value scope =
      .ok (.list ((sortKeyed [d] rows).map Keyed.element)) :=
  (SortsBy.primary key d []).value_eq_ok hitems hkeys

/-- Sorting by each key separately leaves a stable order by all of them; there is a last sort, unless
there are no keys. -/
theorem exists_sortEach {τ : Type} (row : τ → Keyed) {earlier : τ → τ → Prop} {xs : List τ}
    (hsource : (source.meaning data).elements scope = .ok (xs.map fun x => (row x).element))
    (hkeys : ∀ x ∈ xs, EvaluatesKeys data scope keys (row x))
    (hfits : ∀ x ∈ xs, FitsDirections (keys.map Prod.snd) (row x).keys)
    (hearlier : xs.Pairwise earlier) :
    ∃ ys : List τ, ys.Perm xs ∧ ys.Pairwise (StableOrder (keys.map Prod.snd) row earlier) ∧
      ((sortEach source keys).meaning data).elements scope =
        .ok (ys.map fun x => (row x).element) ∧
      (keys ≠ [] → ((sortEach source keys).meaning data).value scope =
        .ok (.list (ys.map fun x => (row x).element))) := by
  induction keys generalizing row with
  | nil =>
    refine ⟨xs, .refl _, ?_, hsource, fun h => absurd rfl h⟩
    refine hearlier.imp_of_mem fun {x y} hx hy hxy => .inr ⟨?_, hxy⟩
    rw [List.eq_nil_of_length_eq_zero (hfits x hx).length_eq,
      List.eq_nil_of_length_eq_zero (hfits y hy).length_eq]
    exact .nil
  | cons k rest ih =>
    obtain ⟨key, d⟩ := k
    obtain ⟨ys, hpermY, hsortedY, helements, -⟩ := ih (fun x => (row x).further) hsource
      (fun x hx => (hkeys x hx).split.2) (fun x hx => (hfits x hx).further)
    have hmem {y : τ} (hy : y ∈ ys) : y ∈ xs := hpermY.mem_iff.mp hy
    obtain ⟨zs, hzs, hpermZ, hsortedZ⟩ := Sequence.exists_sortKeyed
      (fun x => (row x).first) (fun y hy => (hfits y (hmem hy)).first) hsortedY
    have hrows : ((sortEach source rest).meaning data).elements scope =
        .ok ((ys.map fun x => (row x).first).map Keyed.element) := by
      rw [helements, List.map_map]
      rfl
    have hvalue : ((sortEach source ((key, d) :: rest)).meaning data).value scope =
        .ok (.list (zs.map fun x => (row x).element)) := by
      rw [sortEach, value_orderBy hrows, ← hzs, List.map_map]
      · rfl
      · exact List.forall_mem_map.mpr fun y hy => (hkeys y (hmem hy)).split.1
    refine ⟨zs, hpermZ.trans hpermY, ?_, ?_, fun _ => hvalue⟩
    · refine hsortedZ.imp_of_mem fun {x y} hx hy hxy => ?_
      exact Sequence.stableOrder_of_first (hfits x (hmem (hpermZ.mem_iff.mp hx)))
        (hfits y (hmem (hpermZ.mem_iff.mp hy))) hxy
    · exact Outcome.bind_eq_ok.mpr ⟨_, hvalue, rfl⟩

/-! ## Chains are stable sorts -/

/-- A chain has a key. -/
theorem SortsBy.keys_ne_nil (h : SortsBy source e keys) : keys ≠ [] := by
  cases h with
  | primary => exact List.cons_ne_nil _ _
  | further => exact List.append_ne_nil_of_right_ne_nil _ (List.cons_ne_nil _ _)

/-- Rows with their key values, sorted by one key after the other, are in a stable order by all
keys. -/
theorem isStableSort_sortEach (hkeys : keys ≠ [])
    (hitems : (source.meaning data).elements scope = .ok (rows.map Keyed.element))
    (hrows : ∀ r ∈ rows, EvaluatesKeys data scope keys r)
    (hfits : ∀ r ∈ rows, FitsDirections (keys.map Prod.snd) r.keys) :
    ∃ sorted, IsStableSort (keys.map Prod.snd) rows sorted ∧
      ((sortEach source keys).meaning data).value scope =
        .ok (.list (sorted.map Keyed.element)) := by
  have hplaced : (source.meaning data).elements scope =
      .ok (rows.zipIdx.map fun x => x.1.element) := by
    rw [hitems]
    conv_lhs => rw [← List.zipIdx_map_fst 0 rows, List.map_map]
    rfl
  obtain ⟨placed, hperm, hpairwise, -, hvalue⟩ := exists_sortEach Prod.fst hplaced
    (fun x hx => hrows x.1 (List.fst_mem_of_mem_zipIdx hx))
    (fun x hx => hfits x.1 (List.fst_mem_of_mem_zipIdx hx)) (Sequence.pairwise_zipIdx rows)
  refine ⟨placed.map Prod.fst, ⟨placed, hperm, hpairwise, rfl⟩, ?_⟩
  rw [hvalue hkeys, List.map_map]
  rfl

/-- Main statement: when the source of a chain and all its keys on the elements of the source have
values, those of the keys without floats, the value of the chain is a list of the elements of the
source in stable order: of two elements, either the first values of their keys that do not tie are
in order, in the direction of their key, or all values are loosely equal and the elements stand as
in the source. Sorting by each key separately, the last one first, has the same value. -/
theorem sortsBy_value_stable (hchain : SortsBy source e keys)
    (hitems : (source.meaning data).elements scope = .ok items)
    (hkeys : ∀ v ∈ items, ∀ k ∈ keys,
      ∃ w, (k.1.meaning data).apply scope [v] = .ok w ∧ w.FloatFree) :
    ∃ rows sorted : List Keyed, rows.map Keyed.element = items ∧
      (∀ r ∈ rows, EvaluatesKeys data scope keys r) ∧
      IsStableSort (keys.map Prod.snd) rows sorted ∧
      (e.meaning data).value scope = .ok (.list (sorted.map Keyed.element)) ∧
      ((sortEach source keys).meaning data).value scope =
        .ok (.list (sorted.map Keyed.element)) := by
  obtain ⟨rows, rfl, hrows, hfits⟩ := exists_rows hkeys
  have hsorted := Sequence.isStableSort_sortKeyed hfits
  obtain ⟨each, heach, hvalue⟩ := isStableSort_sortEach hchain.keys_ne_nil hitems hrows hfits
  refine ⟨rows, _, rfl, hrows, hsorted, hchain.value_eq_ok hitems hrows, ?_⟩
  rw [hvalue, heach.unique hfits hsorted]

/-! ## A small example -/

/-- A person with a name and an age. -/
def person (name : String) (age : Int64) : Value :=
  .record none [("Name", .text name), ("Age", .int age)]

/-- Four people. -/
def crew : Expr :=
  .constant (.list [person "Bob" 20, person "Ann" 30, person "Cleo" 30, person "Eve" 30])
    (.seq .dynamic)

/-- The function of a person that a path of member names gives. -/
def field (names : List String) : Expr :=
  .lambda [("p", .infer)] (names.foldl .member (.parameter "p" .infer))

/-- The people, the older ones first, and those of one age by the lengths of their names. -/
def elders : Expr :=
  (crew.applyVerb .orderByDescending [field ["Age"]]).applyVerb .thenBy [field ["Name", "Length"]]

/-- The sort of the people is a chain of two keys. -/
theorem sortsBy_elders :
    SortsBy crew elders [(field ["Age"], .descending), (field ["Name", "Length"], .ascending)] :=
  .further (.primary (field ["Age"]) .descending []) (field ["Name", "Length"]) .ascending []

/-- An integer holds no float. -/
theorem floatFree_int (n : Int64) : (Value.int n).FloatFree :=
  Value.numbersIn_int.mpr fun _ h => nomatch h

/-- Ann and Eve have the same keys and stay in this order, Cleo has the longer name, and Bob is the
youngest. -/
theorem elders_sortsBy_value_stable :
    ∃ rows sorted : List Keyed, IsStableSort [.descending, .ascending] rows sorted ∧
      sorted.map Keyed.element =
        [person "Ann" 30, person "Eve" 30, person "Cleo" 30, person "Bob" 20] := by
  obtain ⟨rows, sorted, -, -, hsorted, hvalue, -⟩ :=
    @sortsBy_value_stable Store.empty.elements [] _ _ _ _ sortsBy_elders rfl (by
      simp only [List.forall_mem_cons, List.not_mem_nil, false_imp_iff, implies_true, and_true]
      refine ⟨⟨?_, ?_⟩, ⟨?_, ?_⟩, ⟨?_, ?_⟩, ?_, ?_⟩ <;> exact ⟨_, rfl, floatFree_int _⟩)
  have hdone : (elders.meaning Store.empty.elements).value [] = .ok (.list
      [person "Ann" 30, person "Eve" 30, person "Cleo" 30, person "Bob" 20]) := rfl
  refine ⟨rows, sorted, hsorted, ?_⟩
  rw [hdone] at hvalue
  exact (Value.list.inj (Except.ok.inj hvalue)).symm

end Expr
end QueryRelay
