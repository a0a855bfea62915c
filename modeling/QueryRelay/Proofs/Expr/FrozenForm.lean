import QueryRelay.Proofs.Expr.Freezing
import QueryRelay.Proofs.Expr.Nodes
import QueryRelay.Proofs.Pointwise

/-!
# The form that freezing gives

Freezing with nothing held back is replacement: the closed sub-expressions nearest to the root turn
into constants, and every other node stays. Main statement: what is left has no captured value and
no closed sub-expression besides constants, differs from the original in the replaced
sub-expressions alone, and freezing leaves it as it is.
-/

namespace QueryRelay.Expr

/-- An expression in which each sub-expression that is picked, and has none around it that is
picked, is replaced; whatever stands outside them is the same. -/
inductive ReplacesNearest (picked : Expr → Prop) (replacement : Expr → Expr → Prop) :
    Expr → Expr → Prop
  /-- A picked expression is replaced as a whole. -/
  | replaced {e e' : Expr} (hpicked : picked e) (h : replacement e e') :
      ReplacesNearest picked replacement e e'
  /-- Another expression keeps its node. -/
  | kept {e e' : Expr} (pairs : List (Expr × Expr)) (hpicked : ¬picked e) (hnode : SameNode e e')
      (hchildren : e.children = pairs.map Prod.fst) (hchildren' : e'.children = pairs.map Prod.snd)
      (h : ∀ z ∈ pairs, ReplacesNearest picked replacement z.1 z.2) :
      ReplacesNearest picked replacement e e'

/-- A closed expression that is no constant. -/
def IsReducible (e : Expr) : Prop := e.isClosed = true ∧ e.isConstant = false

/-- The constant that stands for an expression: its value, over any data, with its static type. -/
def IsConstantFor (c : Catalog) (e e' : Expr) : Prop :=
  ∃ v t, e' = .constant v t ∧ (∀ data, e.evaluate data = .ok v) ∧ e.staticType c = .ok t

variable {c : Catalog} {e e' : Expr}

/-- A closed expression that is evaluated turns into the constant that stands for it. -/
theorem isConstantFor_of_toConstant (hclosed : e.isClosed = true) (h : e.toConstant c = .ok e') :
    IsConstantFor c e e' := by
  obtain ⟨t, v, ht, hv, rfl⟩ := toConstant_eq_ok.mp h
  refine ⟨v, t, rfl, fun data => ?_, ht⟩
  exact (value_of_isClosed hclosed data Store.empty.elements [] []).trans hv

/-- Freezing evaluates exactly the closed expressions that are no constants. -/
theorem freeze_cases (h : e.freeze c (fun _ => true) = .ok e') :
    e.IsReducible ∧ IsConstantFor c e e' ∨ ¬e.IsReducible ∧ SameNode e e' ∧
      List.Forall₂ (fun q q' => q.freeze c (fun _ => true) = .ok q') e.children e'.children := by
  have hpick : isFreezable (fun _ => true) e = true ↔ e.IsReducible := by
    rw [isFreezable, Bool.and_true, Bool.and_eq_true, Bool.not_eq_true', and_comm, IsReducible]
  rw [freeze] at h
  by_cases hreducible : e.IsReducible
  · rw [replaceM_of_some (if_pos (hpick.mpr hreducible))] at h
    exact .inl ⟨hreducible, isConstantFor_of_toConstant hreducible.1 h⟩
  · rw [replaceM_of_none (if_neg (mt hpick.mp hreducible))] at h
    exact .inr ⟨hreducible, mapChildrenM_eq_ok.mp h⟩

/-- Freezing replaces the closed sub-expressions nearest to the root and nothing else. -/
theorem replacesNearest_of_freeze (h : e.freeze c (fun _ => true) = .ok e') :
    ReplacesNearest IsReducible (IsConstantFor c) e e' := by
  induction e using induct_children generalizing e' with
  | h e ih =>
    rcases freeze_cases h with ⟨hreducible, hconstant⟩ | ⟨hkept, hnode, hchildren⟩
    · exact .replaced hreducible hconstant
    · obtain ⟨pairs, hfst, hsnd, hpairs⟩ := exists_pairs_of_forall₂ hchildren
      refine .kept pairs hkept hnode hfst.symm hsnd.symm fun z hz => ih z.1 ?_ (hpairs z hz)
      rw [← hfst]
      exact List.mem_map_of_mem hz

/-- A captured value is closed and no constant. -/
theorem isCaptured_eq_false (h : e.isClosed = true → e.isConstant = true) :
    e.isCaptured = false := by
  cases e with
  | captured => cases h rfl
  | _ => rfl

/-- Main statement: what freezing leaves of an expression has no captured values, its closed
sub-expressions are constants, it is the original with each outermost closed sub-expression that
was no constant replaced by a constant of its value and static type, and freezing it again changes
nothing. -/
theorem freeze_complete (h : e.freeze c (fun _ => true) = .ok e') :
    (e'.Every fun p => p.isCaptured = false) ∧
      (e'.Every fun p => p.isClosed = true → p.isConstant = true) ∧
      ReplacesNearest IsReducible (IsConstantFor c) e e' ∧
      e'.freeze c (fun _ => true) = .ok e' := by
  have hfrozen := (isFrozen_of_freeze h).1
  have hclosed : e'.Every fun p => p.isClosed = true → p.isConstant = true := by
    intro p hp hclosed
    refine (hfrozen p hp).resolve_right fun hopen => ?_
    rw [hclosed] at hopen
    cases hopen
  exact ⟨fun p hp => isCaptured_eq_false (hclosed p hp), hclosed, replacesNearest_of_freeze h,
    hfrozen.freeze_eq c _⟩

/-- A table of integers, filtered by a bound. -/
def above (bound : Expr) : Expr :=
  .query .filter [.source .int, .lambda [("x", .infer)] (.binary .gt (.parameter "x" .infer) bound)]

/-- A product with a captured factor is replaced as a whole, although its factors are closed too. -/
theorem above_product_freeze_complete :
    let bound := binary .mul (.constant (.int 2) .int) (.captured "n" .int (.int 3))
    let frozen := above (.constant (.int 6) .int)
    (above bound).freeze Catalog.standard (fun _ => true) = .ok frozen ∧
      (frozen.Every fun p => p.isCaptured = false) ∧
      (frozen.Every fun p => p.isClosed = true → p.isConstant = true) ∧
      ReplacesNearest IsReducible (IsConstantFor Catalog.standard) (above bound) frozen ∧
      frozen.freeze Catalog.standard (fun _ => true) = .ok frozen := by
  intro bound frozen
  have h : (above bound).freeze Catalog.standard (fun _ => true) = .ok frozen := rfl
  exact ⟨h, freeze_complete h⟩

end QueryRelay.Expr
