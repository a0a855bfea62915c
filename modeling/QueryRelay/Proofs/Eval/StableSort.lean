import Mathlib.Data.List.Forall2
import QueryRelay.Eval.Sequence
import QueryRelay.Proofs.Value.Comparing

/-!
# Stable sorting

Tuples of key values are compared value by value, each in its direction. Over tuples without floats
these comparisons go together, and the sort leaves its elements in the order of their keys, and
elements whose keys tie in whatever order they were in before. Such an arrangement is unique, so
that sorting and filtering can change places.
-/

namespace QueryRelay

namespace Composes

variable {x y z : Ordering}

/-- The two steps in each other's place. -/
theorem comm (h : Composes x y z) : Composes y x z where
  left := h.right
  right := h.left
  same heq := (h.same heq.symm).trans heq.symm

/-- Comparisons that go together go together in either direction. -/
theorem orient (h : Composes x y z) (d : SortDirection) :
    Composes (d.orient x) (d.orient y) (d.orient z) := by
  cases d with
  | ascending => exact h
  | descending => exact h.reverse.comm

end Composes

namespace Value

/-- A value without floating-point numbers, at any depth. -/
def FloatFree (v : Value) : Prop := NumbersIn (fun z => ∀ x, z ≠ .float x) v

/-- The comparisons of values without floats go together. -/
theorem FloatFree.composes {u v w : Value} (hu : u.FloatFree) (hv : v.FloatFree)
    (hw : w.FloatFree) : Composes (u.compareTotal v) (v.compareTotal w) (u.compareTotal w) := by
  refine compareTotal_composes (fun m n x _ _ hx => ?_) hu hv hw
  exact absurd rfl (hx x)

end Value

namespace Sequence

variable {d : SortDirection} {ds : List SortDirection} {ks ls ms : List Value}

/-! ## Tuples of key values -/

/-- The first values of two tuples that do not tie are in order, in the direction of their place. -/
inductive KeysPrecede : List SortDirection → List Value → List Value → Prop
  /-- The first values are in order. -/
  | first {d : SortDirection} {ds : List SortDirection} {v w : Value} {ks ls : List Value}
      (h : d.orient (v.compareTotal w) = .lt) : KeysPrecede (d :: ds) (v :: ks) (w :: ls)
  /-- The first values tie, and the tuples after them are in order. -/
  | tie {d : SortDirection} {ds : List SortDirection} {v w : Value} {ks ls : List Value}
      (h : v.looselyEquals w = true) (hrest : KeysPrecede ds ks ls) :
      KeysPrecede (d :: ds) (v :: ks) (w :: ls)

/-- Tuples whose values are loosely equal one by one. -/
def KeysTie (ks ls : List Value) : Prop := List.Forall₂ (fun v w => v.looselyEquals w = true) ks ls

/-- A tuple with a value for each direction, none of which holds a float. -/
structure FitsDirections (ds : List SortDirection) (ks : List Value) : Prop where
  /-- There is a value for each direction. -/
  length_eq : ks.length = ds.length
  /-- No value holds a float. -/
  floatFree : ∀ k ∈ ks, k.FloatFree

/-- A comparison ties in either direction or in none. -/
theorem orient_eq_eq {o : Ordering} : d.orient o = .eq ↔ o = .eq := by
  cases d <;> cases o <;> decide

/-- The comparison of tuples starts with the first values. -/
theorem compareKeys_cons (v w : Value) :
    compareKeys (d :: ds) (v :: ks) (w :: ls) =
      (d.orient (v.compareTotal w)).then (compareKeys ds ks ls) := rfl

/-- One tuple compares as less than another when the first values that do not tie are in order. -/
theorem compareKeys_eq_lt : compareKeys ds ks ls = .lt ↔ KeysPrecede ds ks ls := by
  constructor
  · intro h
    induction ds generalizing ks ls with
    | nil => cases h
    | cons d ds ih =>
      rcases ks with _ | ⟨v, ks⟩
      · cases h
      · rcases ls with _ | ⟨w, ls⟩
        · cases h
        · rw [compareKeys_cons, Ordering.then_eq_lt, orient_eq_eq] at h
          rcases h with hfirst | ⟨htie, hrest⟩
          · exact .first hfirst
          · exact .tie (Value.looselyEquals_iff.mpr htie) (ih hrest)
  · intro h
    induction h with
    | first h => rw [compareKeys_cons, h, Ordering.lt_then]
    | tie h _ ih =>
      rw [compareKeys_cons, orient_eq_eq.mpr (Value.looselyEquals_iff.mp h), Ordering.eq_then, ih]

/-- Tuples compare as equal when their values tie one by one. -/
theorem compareKeys_eq_eq (hks : ks.length = ds.length) (hls : ls.length = ds.length) :
    compareKeys ds ks ls = .eq ↔ KeysTie ks ls := by
  induction ds generalizing ks ls with
  | nil =>
    rw [List.eq_nil_of_length_eq_zero hks, List.eq_nil_of_length_eq_zero hls]
    exact ⟨fun _ => .nil, fun _ => rfl⟩
  | cons d ds ih =>
    obtain ⟨v, ks, rfl⟩ := List.exists_cons_of_length_eq_add_one hks
    obtain ⟨w, ls, rfl⟩ := List.exists_cons_of_length_eq_add_one hls
    have hrest := ih (Nat.succ.inj hks) (Nat.succ.inj hls)
    rw [compareKeys_cons, Ordering.then_eq_eq, orient_eq_eq, hrest, KeysTie, KeysTie,
      List.forall₂_cons, Value.looselyEquals_iff]

/-- Changing sides reverses the comparison of tuples. -/
theorem compareKeys_swap (ds : List SortDirection) (ks ls : List Value) :
    compareKeys ds ls ks = (compareKeys ds ks ls).swap := by
  induction ds generalizing ks ls with
  | nil => rfl
  | cons d ds ih =>
    rcases ks with _ | ⟨v, ks⟩
    · cases ls <;> rfl
    · rcases ls with _ | ⟨w, ls⟩
      · rfl
      · have hfirst : d.orient (w.compareTotal v) = (d.orient (v.compareTotal w)).swap := by
          rw [Value.compareTotal_swap v w]
          cases d <;> rfl
        rw [compareKeys_cons, compareKeys_cons, hfirst, ih ks ls, Ordering.swap_then]

/-- The comparisons of tuples without floats go together. -/
theorem FitsDirections.composes (hks : FitsDirections ds ks) (hls : FitsDirections ds ls)
    (hms : FitsDirections ds ms) :
    Composes (compareKeys ds ks ls) (compareKeys ds ls ms) (compareKeys ds ks ms) := by
  induction ds generalizing ks ls ms with
  | nil => exact ⟨fun _ => rfl, fun _ => rfl, fun _ => rfl⟩
  | cons d ds ih =>
    obtain ⟨u, ks, rfl⟩ := List.exists_cons_of_length_eq_add_one hks.length_eq
    obtain ⟨v, ls, rfl⟩ := List.exists_cons_of_length_eq_add_one hls.length_eq
    obtain ⟨w, ms, rfl⟩ := List.exists_cons_of_length_eq_add_one hms.length_eq
    obtain ⟨hlengthK, hk⟩ := hks
    obtain ⟨hlengthL, hl⟩ := hls
    obtain ⟨hlengthM, hm⟩ := hms
    rw [List.forall_mem_cons] at hk hl hm
    have hfirst := (hk.1.composes hl.1 hm.1).orient d
    refine hfirst.thenBy fun _ _ => ih ?_ ?_ ?_
    · exact ⟨Nat.succ.inj hlengthK, hk.2⟩
    · exact ⟨Nat.succ.inj hlengthL, hl.2⟩
    · exact ⟨Nat.succ.inj hlengthM, hm.2⟩

/-! ## The order that sorting leaves -/

variable {τ : Type} {row : τ → Keyed} {earlier : τ → τ → Prop} {x y : τ} {xs ys : List τ}

/-- The order of a stable sort: by the keys of the rows, and as before where these tie. -/
def StableOrder (ds : List SortDirection) (row : τ → Keyed) (earlier : τ → τ → Prop) (x y : τ) :
    Prop :=
  KeysPrecede ds (row x).keys (row y).keys ∨ KeysTie (row x).keys (row y).keys ∧ earlier x y

/-- The keys of what comes earlier in a stable order do not compare as greater. -/
theorem StableOrder.ne_gt (h : StableOrder ds row earlier x y)
    (hx : FitsDirections ds (row x).keys) (hy : FitsDirections ds (row y).keys) :
    compareKeys ds (row x).keys (row y).keys ≠ .gt := by
  rcases h with hprecede | ⟨htie, -⟩
  · rw [compareKeys_eq_lt.mpr hprecede]
    exact nofun
  · rw [(compareKeys_eq_eq hx.length_eq hy.length_eq).mpr htie]
    exact nofun

/-- What came earlier and has keys that do not compare as greater comes earlier in a stable order. -/
theorem stableOrder_of_ne_gt (hx : FitsDirections ds (row x).keys)
    (hy : FitsDirections ds (row y).keys) (hearlier : earlier x y)
    (h : compareKeys ds (row x).keys (row y).keys ≠ .gt) : StableOrder ds row earlier x y := by
  cases hcompare : compareKeys ds (row x).keys (row y).keys with
  | lt => exact .inl (compareKeys_eq_lt.mp hcompare)
  | eq => exact .inr ⟨(compareKeys_eq_eq hx.length_eq hy.length_eq).mp hcompare, hearlier⟩
  | gt => exact absurd hcompare h

/-- A row with its first key only. -/
def Keyed.first (r : Keyed) : Keyed := ⟨r.keys.take 1, r.element⟩

/-- A row without its first key. -/
def Keyed.further (r : Keyed) : Keyed := ⟨r.keys.tail, r.element⟩

/-- The first key fits the first direction. -/
theorem FitsDirections.first {r : Keyed} (h : FitsDirections (d :: ds) r.keys) :
    FitsDirections [d] r.first.keys where
  length_eq := by
    have hlength := h.length_eq
    rw [List.length_cons] at hlength
    rw [Keyed.first, List.length_take, List.length_singleton]
    omega
  floatFree k hk := h.floatFree k (List.mem_of_mem_take hk)

/-- The further keys fit the further directions. -/
theorem FitsDirections.further {r : Keyed} (h : FitsDirections (d :: ds) r.keys) :
    FitsDirections ds r.further.keys where
  length_eq := by
    have hlength := h.length_eq
    rw [List.length_cons] at hlength
    rw [Keyed.further, List.length_tail]
    omega
  floatFree k hk := h.floatFree k (List.mem_of_mem_tail hk)

/-- A stable order by the first key, before which there was one by the further keys, is a stable
order by all keys. -/
theorem stableOrder_of_first (hx : FitsDirections (d :: ds) (row x).keys)
    (hy : FitsDirections (d :: ds) (row y).keys)
    (h : StableOrder [d] (fun x => (row x).first)
      (StableOrder ds (fun x => (row x).further) earlier) x y) :
    StableOrder (d :: ds) row earlier x y := by
  obtain ⟨v, ks, hks⟩ := List.exists_cons_of_length_eq_add_one hx.length_eq
  obtain ⟨w, ls, hls⟩ := List.exists_cons_of_length_eq_add_one hy.length_eq
  simp only [StableOrder, Keyed.first, Keyed.further, hks, hls, List.take_succ_cons, List.take_zero,
    List.tail_cons] at h ⊢
  rcases h with hprecede | ⟨htie, hbefore⟩
  · cases hprecede with
    | first hfirst => exact .inl (.first hfirst)
    | tie _ hrest => cases hrest
  · obtain ⟨hfirst, -⟩ := List.forall₂_cons.mp htie
    rcases hbefore with hprecede | ⟨hties, hearlier⟩
    · exact .inl (.tie hfirst hprecede)
    · exact .inr ⟨.cons hfirst hties, hearlier⟩

/-- A list in stable order is the only one with its elements. -/
theorem eq_of_perm_of_stableOrder (hperm : xs.Perm ys)
    (hfits : ∀ x ∈ xs, FitsDirections ds (row x).keys)
    (hasymm : ∀ x ∈ xs, ∀ y ∈ xs, earlier x y → ¬ earlier y x)
    (hxs : xs.Pairwise (StableOrder ds row earlier))
    (hys : ys.Pairwise (StableOrder ds row earlier)) : xs = ys := by
  refine hperm.eq_of_pairwise (fun x y hx hy hxy hyx => ?_) hxs hys
  have hy := hperm.mem_iff.mpr hy
  have hle := hxy.ne_gt (hfits x hx) (hfits y hy)
  have hge := hyx.ne_gt (hfits y hy) (hfits x hx)
  have hswap := compareKeys_swap ds (row x).keys (row y).keys
  -- Neither tuple precedes the other, so both arrangements go by the order before.
  have hprecede {a b : τ} (h : KeysPrecede ds (row a).keys (row b).keys)
      (h' : compareKeys ds (row b).keys (row a).keys ≠ .gt) : False := by
    rw [compareKeys_swap, compareKeys_eq_lt.mpr h] at h'
    exact h' rfl
  rcases hxy with hxy | ⟨-, hxy⟩
  · exact (hprecede hxy hge).elim
  · rcases hyx with hyx | ⟨-, hyx⟩
    · exact (hprecede hyx hle).elim
    · exact absurd hyx (hasymm x hx y hy hxy)

/-! ## Sorting by insertion -/

/-- Inserting what is latest keeps a list in the reverse of a stable order. -/
theorem exists_insertKeyed (hfits : ∀ y ∈ x :: xs, FitsDirections ds (row y).keys)
    (hxs : xs.Pairwise fun a b => StableOrder ds row earlier b a) (hlast : ∀ y ∈ xs, earlier y x) :
    ∃ ys : List τ, ys.map row = insertKeyed ds (row x) (xs.map row) ∧ ys.Perm (x :: xs) ∧
      ys.Pairwise fun a b => StableOrder ds row earlier b a := by
  induction xs with
  | nil => exact ⟨[x], rfl, .refl _, List.pairwise_singleton ..⟩
  | cons y rest ih =>
    obtain ⟨hfitsX, hfitsY, hfitsRest⟩ := by simpa only [List.forall_mem_cons] using hfits
    obtain ⟨hlastY, hlastRest⟩ := List.forall_mem_cons.mp hlast
    obtain ⟨hy, hrest⟩ := List.pairwise_cons.mp hxs
    rw [List.map_cons, insertKeyed]
    cases hcompare : compareKeys ds (row x).keys (row y).keys == .lt with
    | true =>
      obtain ⟨ys, hmap, hperm, hys⟩ :=
        ih (List.forall_mem_cons.mpr ⟨hfitsX, hfitsRest⟩) hrest hlastRest
      refine ⟨y :: ys, by rw [List.map_cons, hmap, if_pos rfl], ?_, ?_⟩
      · exact (hperm.cons y).trans (.swap x y rest)
      · refine List.pairwise_cons.mpr ⟨fun z hz => ?_, hys⟩
        rcases List.mem_cons.mp (hperm.mem_iff.mp hz) with rfl | hz
        · exact .inl (compareKeys_eq_lt.mp (beq_iff_eq.mp hcompare))
        · exact hy z hz
    | false =>
      have hyx : compareKeys ds (row y).keys (row x).keys ≠ .gt := by
        rw [compareKeys_swap ds (row x).keys, Ne, Ordering.swap_eq_gt]
        exact beq_eq_false_iff_ne.mp hcompare
      refine ⟨x :: y :: rest, by rw [if_neg Bool.false_ne_true]; rfl, .refl _, ?_⟩
      refine List.pairwise_cons.mpr ⟨List.forall_mem_cons.mpr ⟨?_, fun z hz => ?_⟩, hxs⟩
      · exact stableOrder_of_ne_gt hfitsY hfitsX hlastY hyx
      · have hfitsZ := hfitsRest z hz
        have hzy := (hy z hz).ne_gt hfitsZ hfitsY
        have hzx := (hfitsZ.composes hfitsY hfitsX).ne_gt hzy hyx
        exact stableOrder_of_ne_gt hfitsZ hfitsX (hlastRest z hz) hzx

/-- Inserting one after the other keeps a list in the reverse of a stable order. -/
theorem exists_foldl_insertKeyed {done : List τ}
    (hfits : ∀ x ∈ xs ++ done, FitsDirections ds (row x).keys) (hxs : xs.Pairwise earlier)
    (hdone : done.Pairwise fun a b => StableOrder ds row earlier b a)
    (hlast : ∀ y ∈ done, ∀ x ∈ xs, earlier y x) :
    ∃ ys : List τ, ys.map row = (xs.map row).foldl (fun sorted x => insertKeyed ds x sorted)
        (done.map row) ∧ ys.Perm (xs ++ done) ∧
      ys.Pairwise fun a b => StableOrder ds row earlier b a := by
  induction xs generalizing done with
  | nil => exact ⟨done, rfl, .refl _, hdone⟩
  | cons x rest ih =>
    obtain ⟨hx, hrest⟩ := List.pairwise_cons.mp hxs
    obtain ⟨next, hnext, hpermNext, hsorted⟩ := exists_insertKeyed
      (fun y hy => hfits y (List.perm_middle.mem_iff.mp (List.mem_append_right rest hy)))
      hdone (fun y hy => hlast y hy x (List.mem_cons_self ..))
    have hmiddle : (rest ++ next).Perm (x :: rest ++ done) :=
      (hpermNext.append_left rest).trans List.perm_middle
    have hlastNext : ∀ y ∈ next, ∀ z ∈ rest, earlier y z := by
      intro y hy z hz
      rcases List.mem_cons.mp (hpermNext.mem_iff.mp hy) with rfl | hy
      · exact hx z hz
      · exact hlast y hy z (List.mem_cons_of_mem x hz)
    obtain ⟨ys, hys, hperm, hpairwise⟩ :=
      ih (fun z hz => hfits z (hmiddle.mem_iff.mp hz)) hrest hsorted hlastNext
    rw [List.map_cons, List.foldl_cons, ← hnext]
    exact ⟨ys, hys, hperm.trans hmiddle, hpairwise⟩

/-- Sorting leaves a stable order, whatever the order of the elements before may be. -/
theorem exists_sortKeyed (row : τ → Keyed) (hfits : ∀ x ∈ xs, FitsDirections ds (row x).keys)
    (hxs : xs.Pairwise earlier) :
    ∃ ys : List τ, ys.map row = sortKeyed ds (xs.map row) ∧ ys.Perm xs ∧
      ys.Pairwise (StableOrder ds row earlier) := by
  obtain ⟨ys, hys, hperm, hpairwise⟩ := exists_foldl_insertKeyed
    (by rwa [List.append_nil]) hxs .nil (List.forall_mem_nil _)
  rw [List.append_nil] at hperm
  refine ⟨ys.reverse, ?_, (List.reverse_perm ys).trans hperm, List.pairwise_reverse.mpr hpairwise⟩
  rw [List.map_reverse, hys]
  rfl

/-! ## Stable sorts of rows -/

/-- The positions in a list increase. -/
theorem pairwise_zipIdx {α : Type} (l : List α) : l.zipIdx.Pairwise fun x y => x.2 < y.2 := by
  rw [← List.pairwise_map (f := Prod.snd) (R := (· < ·)), List.zipIdx_map_snd]
  exact List.pairwise_lt_range'

/-- Rows arranged as a stable sort by their keys arranges them: of two rows, either the keys of the
first precede those of the second, or their keys tie and the first had the lower position. -/
def IsStableSort (ds : List SortDirection) (rows sorted : List Keyed) : Prop :=
  ∃ placed : List (Keyed × Nat), placed.Perm rows.zipIdx ∧
    placed.Pairwise (StableOrder ds Prod.fst fun x y => x.2 < y.2) ∧ placed.map Prod.fst = sorted

variable {rows sorted sorted' : List Keyed}

/-- The sort of rows is stable. -/
theorem isStableSort_sortKeyed (hfits : ∀ r ∈ rows, FitsDirections ds r.keys) :
    IsStableSort ds rows (sortKeyed ds rows) := by
  obtain ⟨placed, hplaced, hperm, hpairwise⟩ := exists_sortKeyed Prod.fst
    (fun x hx => hfits x.1 (List.fst_mem_of_mem_zipIdx hx)) (pairwise_zipIdx rows)
  rw [List.zipIdx_map_fst] at hplaced
  exact ⟨placed, hperm, hpairwise, hplaced⟩

/-- Rows have one stable sort only. -/
theorem IsStableSort.unique (hfits : ∀ r ∈ rows, FitsDirections ds r.keys)
    (h : IsStableSort ds rows sorted) (h' : IsStableSort ds rows sorted') : sorted = sorted' := by
  obtain ⟨placed, hperm, hpairwise, rfl⟩ := h
  obtain ⟨placed', hperm', hpairwise', rfl⟩ := h'
  have heq : placed = placed' :=
    eq_of_perm_of_stableOrder (hperm.trans hperm'.symm)
      (fun x hx => hfits x.1 (List.fst_mem_of_mem_zipIdx (hperm.mem_iff.mp hx)))
      (fun _ _ _ _ => Nat.lt_asymm) hpairwise hpairwise'
  rw [heq]

/-- Sorting what passes a test gives what passes it of the sorted rows. -/
theorem sortKeyed_filter (hfits : ∀ r ∈ rows, FitsDirections ds r.keys) (p : Keyed → Bool) :
    sortKeyed ds (rows.filter p) = (sortKeyed ds rows).filter p := by
  obtain ⟨all, hpermAll, hpairwiseAll, hall⟩ := isStableSort_sortKeyed hfits
  have hmem : ∀ x ∈ rows.zipIdx.filter (p ∘ Prod.fst), FitsDirections ds x.1.keys :=
    fun x hx => hfits x.1 (List.fst_mem_of_mem_zipIdx (List.mem_filter.mp hx).1)
  have hkept : (rows.zipIdx.filter (p ∘ Prod.fst)).map Prod.fst = rows.filter p := by
    rw [← List.filter_map, List.zipIdx_map_fst]
  obtain ⟨some, hsome, hpermSome, hpairwiseSome⟩ := exists_sortKeyed Prod.fst hmem
    ((pairwise_zipIdx rows).filter _)
  -- Both arrangements hold the rows that pass, with the positions among all rows.
  have heq : some = all.filter (p ∘ Prod.fst) :=
    eq_of_perm_of_stableOrder (hpermSome.trans (hpermAll.filter _).symm)
      (fun x hx => hmem x (hpermSome.mem_iff.mp hx)) (fun _ _ _ _ => Nat.lt_asymm)
      hpairwiseSome (hpairwiseAll.filter _)
  rw [← hkept, ← hsome, heq, ← List.filter_map, hall]

end Sequence
end QueryRelay
