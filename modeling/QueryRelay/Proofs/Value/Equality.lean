import QueryRelay.Proofs.Fields
import QueryRelay.Proofs.Pointwise
import QueryRelay.Proofs.Value.Comparing

/-!
# Structural and loose equality

Structural equality looks over the order of record fields and the sign of a zero; the order on
values looks at both, and with it loose equality. Where two equal values agree in these they are the
same value, and no comparison tells them apart.
-/

namespace QueryRelay

/-- Numerically equal numbers are the same, unless they are zeros of different signs. -/
theorem Binary64.eq_of_numericEq {x y : Binary64} (h : x.numericEq y = true)
    (hsign : x.isZero = true → y.isZero = true → x.isNegative = y.isNegative) : x = y := by
  simp only [numericEq, Bool.and_eq_true, Bool.or_eq_true] at h
  rcases h.2 with hbits | ⟨hx, hy⟩
  · cases x
    cases y
    exact congrArg Binary64.mk (eq_of_beq hbits)
  · refine totalKey_injective ?_
    rw [totalKey, totalKey, eq_of_beq hx, eq_of_beq hy, hsign hx hy]

namespace Value

mutual

/-- Whether two values agree in what structural equality looks over: records list the same names in
the same order, and zeros have the same sign, where both stand in the same place. -/
def laidOutAlike : Value → Value → Bool
  | .float x, .float y => !(x.isZero && y.isZero) || x.isNegative == y.isNegative
  | .list vs, .list ws => itemsLaidOutAlike vs ws
  | .record _ fs, .record _ gs => fieldsLaidOutAlike fs gs
  | _, _ => true
termination_by structural v => v

/-- Whether the items of two lists agree so, one by one. -/
def itemsLaidOutAlike : List Value → List Value → Bool
  | v :: vs, w :: ws => laidOutAlike v w && itemsLaidOutAlike vs ws
  | _, _ => true
termination_by structural vs => vs

/-- Whether fields have the same names in the same order, and values that agree so. -/
def fieldsLaidOutAlike : List (String × Value) → List (String × Value) → Bool
  | [], [] => true
  | (m, v) :: fs, (n, w) :: gs => m == n && laidOutAlike v w && fieldsLaidOutAlike fs gs
  | _, _ => false
termination_by structural fs => fs

end

/-- A value in which no record has two fields of one name. -/
inductive WellNamed : Value → Prop
  /-- The names in the value itself are distinct, and those in its direct parts. -/
  | node {v : Value} (hnames : ∀ id fields, v = .record id fields → (fields.map Prod.fst).Nodup)
      (hchildren : ∀ w ∈ v.children, WellNamed w) : WellNamed v

variable {v w : Value}

/-- The direct parts of a value with distinct names have distinct names. -/
theorem WellNamed.children (h : v.WellNamed) : ∀ w ∈ v.children, w.WellNamed := by
  cases h with
  | node _ hchildren => exact hchildren

/-- The fields of a record have distinct names. -/
theorem WellNamed.nodup {id : Option ObjectId} {fields : Fields Value}
    (h : (Value.record id fields).WellNamed) : (fields.map Prod.fst).Nodup := by
  cases h with
  | node hnames _ => exact hnames id fields rfl

/-- Fields are included in others when each of them is found there, with an equal value. -/
theorem includedIn_iff {fs gs : Fields Value} :
    includedIn fs gs = true ↔
      ∀ f ∈ fs, ∃ w, gs.get? f.1 = some w ∧ f.2.equals w = true := by
  induction fs with
  | nil => simp [includedIn]
  | cons f fs ih =>
    obtain ⟨name, v⟩ := f
    rw [includedIn, Bool.and_eq_true, ih, List.forall_mem_cons]
    refine and_congr_left fun _ => ?_
    cases gs.get? name <;> simp

/-! ## Telling equal values apart -/

/-- A relation that sees what structural equality looks over: the sign of a zero, and the order of
the fields of a record. -/
structure Discerns (R : Value → Value → Prop) : Prop where
  /-- Zeros that are related have the same sign. -/
  zeros : ∀ {x y : Binary64}, R (.float x) (.float y) → x.isZero = true → y.isZero = true →
    x.isNegative = y.isNegative
  /-- Related lists of one length are related item by item. -/
  items : ∀ {vs ws : List Value}, R (.list vs) (.list ws) → vs.length = ws.length →
    List.Forall₂ R vs ws
  /-- Related records have the same names in the same order, and related values. -/
  fields : ∀ {i j : Option ObjectId} {fs gs : Fields Value}, R (.record i fs) (.record j gs) →
    List.Forall₂ (fun f g => f.1 = g.1 ∧ R f.2 g.2) fs gs

variable {R : Value → Value → Prop}

/-- Lists that are equal item by item are related item by item. -/
theorem equalItems_iff {vs ws : List Value} :
    equalItems vs ws = true ↔ List.Forall₂ (fun v w => v.equals w = true) vs ws := by
  induction vs generalizing ws with
  | nil => cases ws <;> simp [equalItems]
  | cons v vs ih => cases ws <;> simp [equalItems, ih]

/-- Lists whose items are equal and related are the same when such items are. -/
theorem eq_of_equalItems {vs ws : List Value} (h : ∀ v ∈ vs, ∀ w ∈ ws, v.equals w = true →
    R v w → v = w) (hequal : equalItems vs ws = true) (hrelated : List.Forall₂ R vs ws) :
    vs = ws := by
  induction hrelated with
  | nil => rfl
  | cons hhead _ ih =>
    simp only [List.forall_mem_cons] at h
    rw [equalItems, Bool.and_eq_true] at hequal
    rw [h.1.1 hequal.1 hhead, ih (fun v hv w hw => (h.2 v hv).2 w hw) hequal.2]

/-- Fields whose values are equal by name, and related in order, are the same when such values
are. -/
theorem eq_of_includedIn {fs gs : Fields Value} (hnodup : (gs.map Prod.fst).Nodup)
    (h : ∀ f ∈ fs, ∀ g ∈ gs, f.2.equals g.2 = true → R f.2 g.2 → f.2 = g.2)
    (hincluded : includedIn fs gs = true)
    (hrelated : List.Forall₂ (fun f g => f.1 = g.1 ∧ R f.2 g.2) fs gs) : fs = gs := by
  obtain ⟨pairs, rfl, rfl, hpairs⟩ := exists_pairs_of_forall₂ hrelated
  refine List.map_congr_left fun p hp => ?_
  obtain ⟨hname, hvalue⟩ := hpairs p hp
  have hf : p.1 ∈ pairs.map Prod.fst := List.mem_map_of_mem hp
  have hg : p.2 ∈ pairs.map Prod.snd := List.mem_map_of_mem hp
  -- The field of the name of the first is the second, for names are distinct.
  have hfound : Fields.get? (pairs.map Prod.snd) p.1.1 = some p.2.2 := by
    rw [Fields.get?_eq_some_iff hnodup, hname]
    exact hg
  obtain ⟨w, hw, hequal⟩ := includedIn_iff.mp hincluded p.1 hf
  rw [hfound] at hw
  cases hw
  exact Prod.ext hname (h p.1 hf p.2 hg hequal hvalue)

/-- Equal values are the same when they are related by what tells them apart. -/
theorem Discerns.eq_of_equals (hR : Discerns R) (hw : w.WellNamed) (h : v.equals w = true)
    (hrelated : R v w) : v = w := by
  induction v using induct generalizing w with
  | node v ih =>
    -- Equality leaves room for a difference at zeros and at the order of fields only.
    cases v with
    | null => cases w <;> first | rfl | cases h
    | bool b => cases w <;> first | cases h | exact congrArg Value.bool (eq_of_beq h)
    | int n => cases w <;> first | cases h | exact congrArg Value.int (eq_of_beq h)
    | float x =>
      cases w with
      | float y => exact congrArg Value.float (Binary64.eq_of_numericEq h (hR.zeros hrelated))
      | _ => cases h
    | text s => cases w <;> first | cases h | exact congrArg Value.text (eq_of_beq h)
    | timestamp t => cases w <;> first | cases h | exact congrArg Value.timestamp (eq_of_beq h)
    | list vs =>
      cases w with
      | list ws =>
        have hlength : vs.length = ws.length := (equalItems_iff.mp h).length_eq
        refine congrArg Value.list (eq_of_equalItems ?_ h (hR.items hrelated hlength))
        exact fun v hv w hw' => ih v hv (hw.children w hw')
      | _ => cases h
    | record i fs =>
      cases w with
      | record j gs =>
        rw [equals, Bool.and_eq_true, Bool.and_eq_true] at h
        obtain ⟨⟨hid, -⟩, hincluded⟩ := h
        have hfields : fs = gs := by
          refine eq_of_includedIn hw.nodup (fun f hf g hg => ?_) hincluded (hR.fields hrelated)
          exact ih f.2 (List.mem_map_of_mem hf) (hw.children g.2 (List.mem_map_of_mem hg))
        rw [eq_of_beq hid, hfields]
      | _ => cases h
    | ref i => cases w <;> first | cases h | exact congrArg Value.ref (eq_of_beq h)

/-! ## Values that are laid out alike -/

/-- Items agree when they agree one by one, as far as both lists go. -/
theorem forall₂_of_itemsLaidOutAlike {vs ws : List Value} (h : itemsLaidOutAlike vs ws = true)
    (hlength : vs.length = ws.length) :
    List.Forall₂ (fun v w => v.laidOutAlike w = true) vs ws := by
  induction vs generalizing ws with
  | nil =>
    rw [List.eq_nil_of_length_eq_zero hlength.symm]
    exact .nil
  | cons v vs ih =>
    obtain ⟨w, ws, rfl⟩ := List.exists_cons_of_length_eq_add_one hlength.symm
    rw [itemsLaidOutAlike, Bool.and_eq_true] at h
    exact .cons h.1 (ih h.2 (Nat.succ.inj hlength))

/-- Fields agree when they agree one by one. -/
theorem fieldsLaidOutAlike_iff {fs gs : Fields Value} :
    fieldsLaidOutAlike fs gs = true ↔
      List.Forall₂ (fun f g => f.1 = g.1 ∧ f.2.laidOutAlike g.2 = true) fs gs := by
  induction fs generalizing gs with
  | nil => cases gs <;> simp [fieldsLaidOutAlike]
  | cons f fs ih => cases gs <;> simp [fieldsLaidOutAlike, ih]

/-- The layout is what structural equality looks over. -/
theorem discerns_laidOutAlike : Discerns fun v w => v.laidOutAlike w = true where
  zeros h hx hy := by
    rw [laidOutAlike, hx, hy] at h
    exact eq_of_beq h
  items h hlength := forall₂_of_itemsLaidOutAlike h hlength
  fields h := fieldsLaidOutAlike_iff.mp h

/-- Items agree with themselves when each of them does. -/
theorem itemsLaidOutAlike_self {vs : List Value} (h : ∀ v ∈ vs, v.laidOutAlike v = true) :
    itemsLaidOutAlike vs vs = true := by
  induction vs with
  | nil => rfl
  | cons v vs ih =>
    obtain ⟨hv, hvs⟩ := List.forall_mem_cons.mp h
    rw [itemsLaidOutAlike, hv, ih hvs, Bool.true_and]

/-- A value is laid out like itself. -/
theorem laidOutAlike_self (v : Value) : v.laidOutAlike v = true := by
  induction v using induct with
  | node v ih =>
    cases v with
    | float x => simp [laidOutAlike]
    | list vs => exact itemsLaidOutAlike_self ih
    | record i fs =>
      refine fieldsLaidOutAlike_iff.mpr (List.forall₂_same.mpr fun f hf => ⟨rfl, ?_⟩)
      exact ih f.2 (List.mem_map_of_mem hf)
    | _ => rfl

/-! ## Loosely equal values -/

/-- Lists that tie lexicographically tie item by item. -/
theorem forall₂_of_compareLex {α : Type} {cmp : α → α → Ordering} {as bs : List α}
    (h : as.compareLex cmp bs = .eq) : List.Forall₂ (fun a b => cmp a b = .eq) as bs := by
  induction as generalizing bs with
  | nil =>
    cases bs with
    | nil => exact .nil
    | cons => cases h
  | cons a as ih =>
    cases bs with
    | nil => cases h
    | cons b bs =>
      rw [List.compareLex_cons_cons, Ordering.then_eq_eq] at h
      exact .cons h.1 (ih h.2)

/-- Loose equality sees what structural equality looks over. -/
theorem discerns_looselyEquals : Discerns fun v w => v.looselyEquals w = true where
  zeros {x y} h _ _ := by
    have hkey : x.totalKey = y.totalKey := Int.compare_eq_eq.mp (looselyEquals_iff.mp h)
    rw [Binary64.totalKey_injective hkey]
  items {vs ws} h _ := by
    rw [looselyEquals_iff, compareTotal, compareItems_eq_compareLex] at h
    exact (forall₂_of_compareLex h).imp fun v w htie => looselyEquals_iff.mpr htie
  fields {i j fs gs} h := by
    rw [looselyEquals_iff, compareTotal, compareFields_eq_compareLex] at h
    refine (forall₂_of_compareLex h).imp fun f g htie => ?_
    rw [compareField, Ordering.then_eq_eq] at htie
    exact ⟨Std.LawfulEqOrd.eq_of_compare htie.1, looselyEquals_iff.mpr htie.2⟩

/-- A value is loosely equal to itself. -/
theorem looselyEquals_self (v : Value) : v.looselyEquals v = true :=
  looselyEquals_iff.mpr v.compareTotal_self

/-- Equal values are loosely equal exactly when they are laid out alike: either makes them the same
value. -/
theorem looselyEquals_iff_laidOutAlike (hw : w.WellNamed) (h : v.equals w = true) :
    v.looselyEquals w = true ↔ v.laidOutAlike w = true := by
  constructor
  · intro hloose
    rw [discerns_looselyEquals.eq_of_equals hw h hloose]
    exact w.laidOutAlike_self
  · intro halike
    rw [discerns_laidOutAlike.eq_of_equals hw h halike]
    exact w.looselyEquals_self

end Value
end QueryRelay
