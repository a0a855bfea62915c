import QueryRelay.Proofs.Number.Rounding
import QueryRelay.Proofs.Value.References
import QueryRelay.Value.Order

/-!
# Laws of the order on values

The order compares integers with each other exactly, and with a float after rounding. It is
reflexive, and changing sides reverses it. Whether it is transitive depends on the numbers that
meet: it fails exactly where a float stands for two integers, which both tie with it and not with
each other. Main statement: over values whose numbers are among given ones the order is transitive,
and loose equality is, exactly when no given float stands for two given integers.
-/

namespace QueryRelay

/-! ## Comparisons that go together -/

/-- Comparisons of a first thing with a second, of the second with a third and of the first with the
third, as an order with ties gives them. -/
structure Composes (first second both : Ordering) : Prop where
  /-- What ties with the first compares like the first. -/
  left : first = .eq → both = second
  /-- What ties with the third compares like the third. -/
  right : second = .eq → both = first
  /-- Two steps in one direction lead in that direction. -/
  same : first = second → both = first

namespace Composes

variable {x y z x' y' z' : Ordering}

/-- A lawful comparison gives comparisons that go together. -/
theorem ofTransCmp {α : Type} (cmp : α → α → Ordering) [Std.TransCmp cmp] (a b c : α) :
    Composes (cmp a b) (cmp b c) (cmp a c) where
  left h := Std.TransCmp.congr_left h
  right h := (Std.TransCmp.congr_right h).symm
  same h := by
    cases hab : cmp a b with
    | lt => exact Std.TransCmp.lt_trans hab (h.symm.trans hab)
    | eq => exact (Std.TransCmp.congr_left hab).trans (h.symm.trans hab)
    | gt => exact Std.TransCmp.gt_trans hab (h.symm.trans hab)

/-- The first thing last and the last first. -/
theorem reverse (h : Composes x y z) : Composes y.swap x.swap z.swap where
  left hy := congrArg Ordering.swap (h.right (Ordering.swap_eq_eq.mp hy))
  right hx := congrArg Ordering.swap (h.left (Ordering.swap_eq_eq.mp hx))
  same heq := by
    have hsame := Ordering.swap_inj.mp heq
    rw [h.same hsame.symm, hsame]

/-- The second and the third thing in each other's place. -/
theorem exchange (h : Composes x y z) : Composes z y.swap x := by
  obtain ⟨hleft, hright, hsame⟩ := h
  cases x <;> cases y <;> constructor <;> simp_all

/-- A comparison that decides is not broken further. -/
theorem then_of_ne_eq (h : x ≠ .eq) : x.then x' = x := by
  cases x with
  | eq => exact absurd rfl h
  | lt | gt => rfl

/-- Comparisons that go together, with ties broken by comparisons that go together. -/
theorem thenBy (h : Composes x y z) (h' : x = .eq → y = .eq → Composes x' y' z') :
    Composes (x.then x') (y.then y') (z.then z') := by
  by_cases hx : x = .eq
  · by_cases hy : y = .eq
    · rw [h.left hx, hy, hx]
      exact h' hx hy
    · rw [h.left hx, hx, then_of_ne_eq hy, then_of_ne_eq hy]
      exact ⟨fun _ => rfl, fun htie => absurd htie hy, fun htie => htie.symm⟩
  · rw [then_of_ne_eq hx]
    by_cases hy : y = .eq
    · rw [h.right hy, then_of_ne_eq hx]
      exact ⟨fun htie => absurd htie hx, fun _ => rfl, fun _ => rfl⟩
    · rw [then_of_ne_eq hy]
      refine ⟨fun htie => absurd htie hx, fun htie => absurd htie hy, fun heq => ?_⟩
      rw [h.same heq, then_of_ne_eq hx]

/-- What does not come after what does not come after does not come after. -/
theorem ne_gt (h : Composes x y z) (hx : x ≠ .gt) (hy : y ≠ .gt) : z ≠ .gt := by
  obtain ⟨hleft, hright, hsame⟩ := h
  cases x <;> cases y <;> simp_all

/-- What ties with what ties ties. -/
theorem tie (h : Composes x y z) (hx : x = .eq) (hy : y = .eq) : z = .eq :=
  (h.left hx).trans hy

/-- The lexicographic comparisons of lists go together if those of the elements do. -/
theorem compareLex {α : Type} {cmp : α → α → Ordering} {as bs cs : List α}
    (h : ∀ a ∈ as, ∀ b ∈ bs, ∀ c ∈ cs, Composes (cmp a b) (cmp b c) (cmp a c)) :
    Composes (as.compareLex cmp bs) (bs.compareLex cmp cs) (as.compareLex cmp cs) := by
  induction as generalizing bs cs with
  | nil =>
    cases bs with
    | nil => exact ⟨fun _ => rfl, fun htie => htie, fun heq => heq.symm⟩
    | cons b bs =>
      cases cs with
      | nil => exact ⟨nofun, nofun, nofun⟩
      | cons c cs => exact ⟨nofun, fun _ => rfl, fun _ => rfl⟩
  | cons a as ih =>
    cases bs with
    | nil =>
      cases cs with
      | nil => exact ⟨nofun, fun _ => rfl, fun _ => rfl⟩
      | cons c cs => exact ⟨nofun, nofun, nofun⟩
    | cons b bs =>
      cases cs with
      | nil => exact ⟨fun _ => rfl, nofun, fun heq => heq.symm⟩
      | cons c cs =>
        simp only [List.forall_mem_cons] at h
        simp only [List.compareLex_cons_cons]
        refine h.1.1.1.thenBy fun _ _ => ih fun a ha b hb c hc => ?_
        exact ((h.2 a ha).2 b hb).2 c hc

end Composes

/-- Changing sides reverses the lexicographic comparison if it does so for the elements. -/
theorem compareLex_swap {α : Type} {cmp : α → α → Ordering} {as : List α}
    (h : ∀ a ∈ as, ∀ b, cmp b a = (cmp a b).swap) (bs : List α) :
    bs.compareLex cmp as = (as.compareLex cmp bs).swap := by
  induction as generalizing bs with
  | nil => cases bs <;> rfl
  | cons a as ih =>
    rw [List.forall_mem_cons] at h
    cases bs with
    | nil => rfl
    | cons b bs =>
      rw [List.compareLex_cons_cons, List.compareLex_cons_cons, h.1 b, ih h.2 bs,
        Ordering.swap_then]

/-! ## Numbers -/

/-- Two integers and a float go together if the float does not stand for both, unless they are the
same. -/
theorem Binary64.composes_ofInt {m n : Int} {x : Binary64}
    (h : ofInt m = x → ofInt n = x → m = n) :
    Composes (compare m n) ((ofInt n).compareTotal x) ((ofInt m).compareTotal x) := by
  -- If both fall on the float they are equal; otherwise rounding keeps them on their sides of it.
  have hboth : (ofInt m).totalKey = x.totalKey → (ofInt n).totalKey = x.totalKey → m = n :=
    fun hm hn => h (totalKey_injective hm) (totalKey_injective hn)
  rw [compareTotal, compareTotal]
  rcases Int.lt_trichotomy m n with hlt | rfl | hgt
  · have hmono := totalKey_ofInt_mono (Int.le_of_lt hlt)
    rw [Int.compare_eq_lt.mpr hlt]
    refine ⟨fun htie => (by cases htie), fun htie => ?_, fun hsame => ?_⟩
    · have hn := Int.compare_eq_eq.mp htie
      exact Int.compare_eq_lt.mpr (by omega)
    · have hn := Int.compare_eq_lt.mp hsame.symm
      exact Int.compare_eq_lt.mpr (by omega)
  · rw [Int.compare_eq_eq.mpr rfl]
    exact ⟨fun _ => rfl, fun htie => htie, fun hsame => hsame.symm⟩
  · have hmono := totalKey_ofInt_mono (Int.le_of_lt hgt)
    rw [Int.compare_eq_gt.mpr hgt]
    refine ⟨fun htie => (by cases htie), fun htie => ?_, fun hsame => ?_⟩
    · have hn := Int.compare_eq_eq.mp htie
      exact Int.compare_eq_gt.mpr (by omega)
    · have hn := Int.compare_eq_gt.mp hsame.symm
      exact Int.compare_eq_gt.mpr (by omega)

/-- Changing sides reverses the comparison of numbers. -/
theorem Binary64.compareTotal_swap (x y : Binary64) :
    y.compareTotal x = (x.compareTotal y).swap := (Int.compare_swap _ _).symm

/-- The comparisons of numbers go together. -/
theorem Binary64.composes (x y z : Binary64) :
    Composes (x.compareTotal y) (y.compareTotal z) (x.compareTotal z) :=
  .ofTransCmp _ x.totalKey y.totalKey z.totalKey

/-- Changing sides reverses the comparison of points in time. -/
theorem Timestamp.compare_swap (s t : Timestamp) : t.compare s = (s.compare t).swap := by
  rw [Timestamp.compare, Timestamp.compare, Ordering.swap_then, Int.compare_swap,
    Nat.compare_swap]

/-- The comparisons of points in time go together. -/
theorem Timestamp.composes (s t u : Timestamp) :
    Composes (s.compare t) (t.compare u) (s.compare u) :=
  (Composes.ofTransCmp _ s.seconds t.seconds u.seconds).thenBy fun _ _ =>
    .ofTransCmp _ s.nanos t.nanos u.nanos

namespace Value

mutual

/-- The numbers in a value, from left to right. -/
def numbers : Value → List Value
  | .int n => [.int n]
  | .float x => [.float x]
  | .list items => numbersOfItems items
  | .record _ fields => numbersOfFields fields
  | _ => []
termination_by structural v => v

/-- The numbers in the items of a list. -/
def numbersOfItems : List Value → List Value
  | [] => []
  | v :: rest => numbers v ++ numbersOfItems rest
termination_by structural items => items

/-- The numbers in the fields of a record. -/
def numbersOfFields : List (String × Value) → List Value
  | [] => []
  | (_, v) :: rest => numbers v ++ numbersOfFields rest
termination_by structural fields => fields

end

/-- A value whose numbers are among given ones. -/
def NumbersIn (S : Value → Prop) (v : Value) : Prop := ∀ z ∈ v.numbers, S z

/-- Among given numbers no float stands for two integers. -/
def TellsApart (S : Value → Prop) : Prop :=
  ∀ (m n : Int64) (x : Binary64), S (.int m) → S (.int n) → S (.float x) →
    .ofInt m.toInt = x → .ofInt n.toInt = x → m = n

variable {S : Value → Prop} {u v w : Value}

/-- The numbers in the items of a list are those in each of them. -/
theorem numbersIn_items {items : List Value} :
    (∀ z ∈ numbersOfItems items, S z) ↔ ∀ v ∈ items, NumbersIn S v := by
  induction items with
  | nil => simp [numbersOfItems]
  | cons v rest ih =>
    rw [numbersOfItems, List.forall_mem_append, ih, List.forall_mem_cons]
    exact Iff.rfl

/-- The numbers in the fields of a record are those in the value of each of them. -/
theorem numbersIn_fields {fields : List (String × Value)} :
    (∀ z ∈ numbersOfFields fields, S z) ↔ ∀ f ∈ fields, NumbersIn S f.2 := by
  induction fields with
  | nil => simp [numbersOfFields]
  | cons f rest ih =>
    obtain ⟨name, v⟩ := f
    rw [numbersOfFields, List.forall_mem_append, ih, List.forall_mem_cons]
    exact Iff.rfl

/-! ## Every two values -/

/-- Values of kinds of different ranks compare like the ranks. -/
theorem compareTotal_of_rank_ne (h : v.rank ≠ w.rank) :
    v.compareTotal w = compare v.rank w.rank := by
  cases v <;> cases w <;> first | rfl | exact absurd rfl h

/-- Values compare by the ranks of their kinds first. -/
theorem compareTotal_eq_then (v w : Value) :
    v.compareTotal w = (compare v.rank w.rank).then (v.compareTotal w) := by
  by_cases h : v.rank = w.rank
  · rw [Nat.compare_eq_eq.mpr h]
    rfl
  · rw [compareTotal_of_rank_ne h, Composes.then_of_ne_eq (mt Nat.compare_eq_eq.mp h)]

/-- Lists compare lexicographically. -/
theorem compareItems_eq_compareLex (vs ws : List Value) :
    compareItems vs ws = vs.compareLex compareTotal ws := by
  induction vs generalizing ws with
  | nil => cases ws <;> rfl
  | cons v vs ih =>
    cases ws with
    | nil => rfl
    | cons w ws => rw [compareItems, List.compareLex_cons_cons, ih]

/-- Fields compare by their names and then by their values. -/
def compareField (f g : String × Value) : Ordering := (compare f.1 g.1).then (f.2.compareTotal g.2)

/-- Fields of records compare lexicographically. -/
theorem compareFields_eq_compareLex (fs gs : List (String × Value)) :
    compareFields fs gs = fs.compareLex compareField gs := by
  induction fs generalizing gs with
  | nil => cases gs <;> rfl
  | cons f fs ih =>
    cases gs with
    | nil => rfl
    | cons g gs => rw [compareFields, List.compareLex_cons_cons, ih, compareField]

/-- Two values whose kinds have the same rank. -/
inductive SameRank : Value → Value → Prop
  /-- Nothing and nothing. -/
  | null : SameRank .null .null
  /-- Two truth values. -/
  | bool (a b : Bool) : SameRank (.bool a) (.bool b)
  /-- Two integers. -/
  | int (m n : Int64) : SameRank (.int m) (.int n)
  /-- An integer and a float. -/
  | intFloat (m : Int64) (y : Binary64) : SameRank (.int m) (.float y)
  /-- A float and an integer. -/
  | floatInt (x : Binary64) (n : Int64) : SameRank (.float x) (.int n)
  /-- Two floats. -/
  | float (x y : Binary64) : SameRank (.float x) (.float y)
  /-- Two texts. -/
  | text (s t : String) : SameRank (.text s) (.text t)
  /-- Two points in time. -/
  | timestamp (s t : Timestamp) : SameRank (.timestamp s) (.timestamp t)
  /-- Two lists. -/
  | list (vs ws : List Value) : SameRank (.list vs) (.list ws)
  /-- Two records. -/
  | record (i j : Option ObjectId) (fs gs : List (String × Value)) :
    SameRank (.record i fs) (.record j gs)
  /-- Two references. -/
  | ref (i j : ObjectId) : SameRank (.ref i) (.ref j)

/-- Two values of the same rank are of one kind, or an integer and a float. -/
theorem sameRank_of_rank_eq (h : v.rank = w.rank) : SameRank v w := by
  cases v <;> cases w <;> first | constructor | cases h

/-- Changing sides reverses the comparison. -/
theorem compareTotal_swap (v w : Value) : w.compareTotal v = (v.compareTotal w).swap := by
  induction v using induct generalizing w with
  | node v ih =>
    by_cases hrank : v.rank = w.rank
    · cases sameRank_of_rank_eq hrank with
      | null => rfl
      | bool a b => exact Std.OrientedOrd.eq_swap
      | int m n => exact (Int.compare_swap _ _).symm
      | intFloat m y => exact Binary64.compareTotal_swap _ _
      | floatInt x n => exact Binary64.compareTotal_swap _ _
      | float x y => exact Binary64.compareTotal_swap _ _
      | text s t => exact Std.OrientedOrd.eq_swap
      | timestamp s t => exact Timestamp.compare_swap s t
      | list vs ws =>
        rw [compareTotal, compareTotal, compareItems_eq_compareLex, compareItems_eq_compareLex]
        exact compareLex_swap ih ws
      | record i j fs gs =>
        rw [compareTotal, compareTotal, compareFields_eq_compareLex, compareFields_eq_compareLex]
        refine compareLex_swap (fun f hf g => ?_) gs
        rw [compareField, compareField, ih f.2 (List.mem_map_of_mem hf) g.2, Ordering.swap_then,
          Std.OrientedOrd.eq_swap (a := g.1) (b := f.1)]
      | ref i j => exact Std.OrientedOrd.eq_swap
    · rw [compareTotal_of_rank_ne hrank, compareTotal_of_rank_ne (Ne.symm hrank)]
      exact Std.OrientedOrd.eq_swap

/-- A value ties with itself. -/
theorem compareTotal_self (v : Value) : v.compareTotal v = .eq :=
  Ordering.eq_eq_of_eq_swap (compareTotal_swap v v)

/-! ## Three values -/

/-- The only number in an integer is the integer. -/
theorem numbersIn_int {n : Int64} : NumbersIn S (.int n) ↔ S (.int n) := List.forall_mem_singleton

/-- The only number in a float is the float. -/
theorem numbersIn_float {x : Binary64} : NumbersIn S (.float x) ↔ S (.float x) :=
  List.forall_mem_singleton

/-- Two integers and a float that tells them apart go together. -/
theorem composes_int_int_float {m n : Int64} {x : Binary64} (hS : TellsApart S)
    (hm : NumbersIn S (.int m)) (hn : NumbersIn S (.int n)) (hx : NumbersIn S (.float x)) :
    Composes ((Value.int m).compareTotal (.int n)) ((Value.int n).compareTotal (.float x))
      ((Value.int m).compareTotal (.float x)) := by
  refine Binary64.composes_ofInt fun hround hround' => congrArg Int64.toInt ?_
  exact hS m n x (numbersIn_int.mp hm) (numbersIn_int.mp hn) (numbersIn_float.mp hx) hround hround'

/-- Where no float stands for two integers, the comparisons of values go together. -/
theorem compareTotal_composes (hS : TellsApart S) (hu : NumbersIn S u) (hv : NumbersIn S v)
    (hw : NumbersIn S w) :
    Composes (u.compareTotal v) (v.compareTotal w) (u.compareTotal w) := by
  induction u using induct generalizing v w with
  | node u ih =>
    rw [compareTotal_eq_then u v, compareTotal_eq_then v w, compareTotal_eq_then u w]
    refine (Composes.ofTransCmp compare u.rank v.rank w.rank).thenBy fun huv hvw => ?_
    have hvw' := sameRank_of_rank_eq (Nat.compare_eq_eq.mp hvw)
    cases sameRank_of_rank_eq (Nat.compare_eq_eq.mp huv) with
    | null =>
      cases hvw' with
      | null => exact ⟨fun _ => rfl, fun _ => rfl, fun _ => rfl⟩
    | bool a b =>
      cases hvw' with
      | bool _ c => exact .ofTransCmp compare a b c
    | int m n =>
      cases hvw' with
      | int _ k => exact .ofTransCmp compare m.toInt n.toInt k.toInt
      | intFloat _ z => exact composes_int_int_float hS hu hv hw
    | intFloat m y =>
      cases hvw' with
      | floatInt _ k =>
        rw [compareTotal_swap (.int k) (.float y)]
        exact (composes_int_int_float hS hu hw hv).exchange
      | float _ z => exact Binary64.composes _ y z
    | floatInt x n =>
      cases hvw' with
      | int _ k =>
        rw [compareTotal_swap (.int n) (.float x), compareTotal_swap (.int k) (.int n),
          compareTotal_swap (.int k) (.float x)]
        exact (composes_int_int_float hS hw hv hu).reverse
      | intFloat _ z => exact Binary64.composes x _ z
    | float x y =>
      cases hvw' with
      | floatInt _ k => exact Binary64.composes x y _
      | float _ z => exact Binary64.composes x y z
    | text s t =>
      cases hvw' with
      | text _ r => exact .ofTransCmp compare s t r
    | timestamp s t =>
      cases hvw' with
      | timestamp _ r => exact Timestamp.composes s t r
    | list us vs =>
      cases hvw' with
      | list _ ws =>
        simp only [compareTotal, compareItems_eq_compareLex]
        refine .compareLex fun u' hu' v' hv' w' hw' => ?_
        exact ih u' hu' (numbersIn_items.mp hu u' hu') (numbersIn_items.mp hv v' hv')
          (numbersIn_items.mp hw w' hw')
    | record i j fs gs =>
      cases hvw' with
      | record _ _ _ hs =>
        simp only [compareTotal, compareFields_eq_compareLex]
        refine .compareLex fun f hf g hg h hh => ?_
        refine (Composes.ofTransCmp compare f.1 g.1 h.1).thenBy fun _ _ => ?_
        exact ih f.2 (List.mem_map_of_mem hf) (numbersIn_fields.mp hu f hf)
          (numbersIn_fields.mp hv g hg) (numbersIn_fields.mp hw h hh)
    | ref i j =>
      cases hvw' with
      | ref _ k =>
        exact .ofTransCmp compare i.number.toNat j.number.toNat k.number.toNat

/-! ## The laws of the order -/

/-- Over values with given numbers, what does not come after something that does not come after a
third thing does not come after that either. -/
def TransitiveOver (S : Value → Prop) : Prop :=
  ∀ u v w, NumbersIn S u → NumbersIn S v → NumbersIn S w →
    u.compareTotal v ≠ .gt → v.compareTotal w ≠ .gt → u.compareTotal w ≠ .gt

/-- Over values with given numbers, what is loosely equal to something that is loosely equal to a
third thing is loosely equal to that too. -/
def LooselyTransitiveOver (S : Value → Prop) : Prop :=
  ∀ u v w, NumbersIn S u → NumbersIn S v → NumbersIn S w →
    u.looselyEquals v = true → v.looselyEquals w = true → u.looselyEquals w = true

/-- Loosely equal is what the order cannot tell apart. -/
theorem looselyEquals_iff : v.looselyEquals w = true ↔ v.compareTotal w = .eq := by
  rw [looselyEquals, beq_iff_eq]

/-- An integer ties with the float it is rounded to. -/
theorem compareTotal_of_ofInt_eq {n : Int64} {x : Binary64} (h : .ofInt n.toInt = x) :
    (Value.int n).compareTotal (.float x) = .eq := by
  rw [compareTotal, h]
  exact compareTotal_self (.float x)

/-- The same the other way round. -/
theorem compareTotal_of_eq_ofInt {n : Int64} {x : Binary64} (h : .ofInt n.toInt = x) :
    (Value.float x).compareTotal (.int n) = .eq := by
  rw [compareTotal_swap, compareTotal_of_ofInt_eq h]
  rfl

/-- Integers of which neither comes after the other are the same. -/
theorem eq_of_compareTotal_ne_gt {m n : Int64} (h : (Value.int m).compareTotal (.int n) ≠ .gt)
    (h' : (Value.int n).compareTotal (.int m) ≠ .gt) : m = n := by
  have hle := Int.compare_ne_gt.mp h
  have hge := Int.compare_ne_gt.mp h'
  exact Int64.toInt_inj.mp (Int.le_antisymm hle hge)

/-- The order is transitive over numbers exactly if no float among them stands for two integers. -/
theorem tellsApart_iff_transitiveOver : TellsApart S ↔ TransitiveOver S := by
  refine ⟨fun hS u v w hu hv hw => (compareTotal_composes hS hu hv hw).ne_gt,
    fun htrans m n x hm hn hx hround hround' => ?_⟩
  have hm' := numbersIn_int.mpr hm
  have hn' := numbersIn_int.mpr hn
  have hx' := numbersIn_float.mpr hx
  -- Each of the two integers reaches the other through the float.
  refine eq_of_compareTotal_ne_gt (htrans _ _ _ hm' hx' hn' ?_ ?_) (htrans _ _ _ hn' hx' hm' ?_ ?_)
  · rw [compareTotal_of_ofInt_eq hround]
    exact nofun
  · rw [compareTotal_of_eq_ofInt hround']
    exact nofun
  · rw [compareTotal_of_ofInt_eq hround']
    exact nofun
  · rw [compareTotal_of_eq_ofInt hround]
    exact nofun

/-- Loose equality is transitive over numbers exactly if no float among them stands for two
integers. -/
theorem tellsApart_iff_looselyTransitiveOver : TellsApart S ↔ LooselyTransitiveOver S := by
  refine ⟨fun hS u v w hu hv hw huv hvw => ?_, fun htrans m n x hm hn hx hround hround' => ?_⟩
  · rw [looselyEquals_iff] at huv hvw ⊢
    exact (compareTotal_composes hS hu hv hw).tie huv hvw
  · have htie := htrans _ _ _ (numbersIn_int.mpr hm) (numbersIn_float.mpr hx)
      (numbersIn_int.mpr hn) (looselyEquals_iff.mpr (compareTotal_of_ofInt_eq hround))
      (looselyEquals_iff.mpr (compareTotal_of_eq_ofInt hround'))
    exact Int64.toInt_inj.mp (Int.compare_eq_eq.mp (looselyEquals_iff.mp htie))

/-- Whether an integer is at most two to the fifty-third away from zero. -/
def IsExact (v : Value) : Prop := ∀ n, v = .int n → n.toInt.natAbs ≤ 2 * Binary64.hiddenBit

/-- Floats tell such integers apart. -/
theorem tellsApart_isExact : TellsApart IsExact := by
  intro m n x hm hn _ hround hround'
  have hkey := congrArg Binary64.totalKey (hround.trans hround'.symm)
  rcases Int.lt_trichotomy m.toInt n.toInt with hlt | heq | hgt
  · have hkeys := Binary64.totalKey_ofInt_lt hlt (hm m rfl) (hn n rfl)
    omega
  · exact Int64.toInt_inj.mp heq
  · have hkeys := Binary64.totalKey_ofInt_lt hgt (hn n rfl) (hm m rfl)
    omega

/-- Main statement: every value ties with itself, changing sides reverses every comparison, and over
values with given numbers, however nested, the order is transitive, and so is loose equality,
exactly if no float among the numbers is what two integers among them are rounded to. -/
theorem compareTotal_laws (S : Value → Prop) :
    (∀ v : Value, v.compareTotal v = .eq) ∧
      (∀ v w : Value, w.compareTotal v = (v.compareTotal w).swap) ∧
        (TellsApart S ↔ TransitiveOver S) ∧ (TellsApart S ↔ LooselyTransitiveOver S) :=
  ⟨compareTotal_self, compareTotal_swap, tellsApart_iff_transitiveOver,
    tellsApart_iff_looselyTransitiveOver⟩

/-- The laws at the integers up to two to the fifty-third and all floats. -/
theorem isExact_compareTotal_laws : TransitiveOver IsExact ∧ LooselyTransitiveOver IsExact :=
  have hlaws := (compareTotal_laws IsExact).2.2
  ⟨hlaws.1.mp tellsApart_isExact, hlaws.2.mp tellsApart_isExact⟩

/-- One more than two to the fifty-third ties with that float, the float ties with that integer, and
the one integer comes after the other. -/
theorem neighbours_compareTotal :
    (Value.int 9007199254740993).compareTotal (.float ⟨0x4340000000000000⟩) = .eq ∧
      (Value.float ⟨0x4340000000000000⟩).compareTotal (.int 9007199254740992) = .eq ∧
      (Value.int 9007199254740993).compareTotal (.int 9007199254740992) = .gt := by
  decide +kernel

end Value
end QueryRelay
