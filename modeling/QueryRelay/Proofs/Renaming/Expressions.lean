import QueryRelay.Expr.Navigation
import QueryRelay.Proofs.Expr.Freezing
import QueryRelay.Proofs.Expr.Nodes
import QueryRelay.Proofs.Pointwise

/-!
# Renaming the parameters of an expression

Two expressions are renamings of each other when they differ in the names of lambda parameters
alone: each reference to a parameter refers to the same place in the stack of parameters around it,
of which the innermost one of a name counts. Closed expressions have no parameters and are equal
when renamed; freezing and navigation paths do not depend on the names.
-/

namespace QueryRelay

/-- The parameters around two expressions, side by side, the innermost first. -/
abbrev BinderPairs := List (String × String)

/-- Two names that refer to the same parameter: the innermost parameter of the one name stands in
the same place as the innermost of the other. -/
inductive Linked : BinderPairs → String → String → Prop
  /-- The innermost parameters are linked. -/
  | here (x y : String) (outer : BinderPairs) : Linked ((x, y) :: outer) x y
  /-- Other names look past the innermost parameters. -/
  | there {x y x' y' : String} {outer : BinderPairs} (hx : x' ≠ x) (hy : y' ≠ y)
      (h : Linked outer x' y') : Linked ((x, y) :: outer) x' y'

/-- Links go both ways. -/
theorem Linked.symm {binders : BinderPairs} {x y : String} (h : Linked binders x y) :
    Linked (binders.map Prod.swap) y x := by
  induction h with
  | here x y outer => exact .here y x _
  | there hx hy _ ih => exact .there hy hx ih

/-- Two scopes in which linked names have the same entry. -/
def ScopesAlike {α : Type} (binders : BinderPairs) (scope scope' : List (String × α)) : Prop :=
  ∀ x y, Linked binders x y → List.lookup x scope = List.lookup y scope'

section Scopes

variable {α : Type} {binders : BinderPairs} {scope scope' : List (String × α)}

/-- Without parameters no names are linked. -/
theorem scopesAlike_nil (scope scope' : List (String × α)) : ScopesAlike [] scope scope' := nofun

/-- Scopes stay alike when two parameters get the same entry. -/
theorem ScopesAlike.cons (h : ScopesAlike binders scope scope') (x y : String) (a : α) :
    ScopesAlike ((x, y) :: binders) ((x, a) :: scope) ((y, a) :: scope') := by
  intro x' y' hlinked
  cases hlinked with
  | here => rw [List.lookup_cons_self, List.lookup_cons_self]
  | there hx hy hlinked =>
    rw [List.lookup_cons, List.lookup_cons, beq_false_of_ne hx, beq_false_of_ne hy]
    exact h x' y' hlinked

/-- Scopes stay alike below the parameters of two lambdas that get the same entries, the last
parameter being the innermost. -/
theorem ScopesAlike.bind (h : ScopesAlike binders scope scope')
    (rows : List ((String × String) × α)) :
    ScopesAlike ((rows.map Prod.fst).reverse ++ binders)
      ((rows.map fun r => (r.1.1, r.2)).reverse ++ scope)
      ((rows.map fun r => (r.1.2, r.2)).reverse ++ scope') := by
  rw [← List.map_reverse, ← List.map_reverse, ← List.map_reverse]
  induction rows.reverse with
  | nil => exact h
  | cons r rest ih => exact ih.cons r.1.1 r.1.2 r.2

end Scopes

namespace Expr

/-- Whether the root of an expression is a parameter or has parameters. -/
def hasNames : Expr → Bool
  | .parameter _ _ | .lambda _ _ => true
  | _ => false

/-- Expressions with the same node have names alike. -/
theorem SameNode.hasNames {e e' : Expr} (h : SameNode e e') : e'.hasNames = e.hasNames := by
  cases h <;> rfl

/-- Expressions below binders that differ in the names of parameters alone. A lambda changes the
names of its parameters by pairs of `R`. -/
inductive Renamed (R : String → String → Prop) : BinderPairs → Expr → Expr → Prop
  /-- References to the same parameter. -/
  | parameter {binders : BinderPairs} {x y : String} (t : Ty) (h : Linked binders x y) :
      Renamed R binders (.parameter x t) (.parameter y t)
  /-- Lambdas whose parameters have the same types. -/
  | lambda {binders : BinderPairs} {body body' : Expr} (params : List ((String × String) × Ty))
      (hparams : ∀ p ∈ params, R p.1.1 p.1.2)
      (hbody : Renamed R ((params.map Prod.fst).reverse ++ binders) body body') :
      Renamed R binders (.lambda (params.map fun p => (p.1.1, p.2)) body)
        (.lambda (params.map fun p => (p.1.2, p.2)) body')
  /-- Any other node is the same. -/
  | node {binders : BinderPairs} {e e' : Expr} (pairs : List (Expr × Expr))
      (hnames : e.hasNames = false) (hnode : SameNode e e')
      (hchildren : e.children = pairs.map Prod.fst) (hchildren' : e'.children = pairs.map Prod.snd)
      (h : ∀ z ∈ pairs, Renamed R binders z.1 z.2) : Renamed R binders e e'

namespace Renamed

variable {R : String → String → Prop} {binders : BinderPairs} {e e' : Expr}

/-- Expressions with the same node are renamings when their direct sub-expressions are. -/
theorem of_forall₂ (hnames : e.hasNames = false) (hnode : SameNode e e')
    (h : List.Forall₂ (Renamed R binders) e.children e'.children) : Renamed R binders e e' := by
  obtain ⟨pairs, hfst, hsnd, hpairs⟩ := exists_pairs_of_forall₂ h
  exact .node pairs hnames hnode hfst.symm hsnd.symm hpairs

/-- Renamings of an expression that is no lambda and no parameter have its node. -/
theorem sameNode (h : Renamed R binders e e') (hnames : e.hasNames = false) :
    SameNode e e' ∧ List.Forall₂ (Renamed R binders) e.children e'.children := by
  cases h with
  | parameter | lambda => cases hnames
  | node pairs _ hnode hchildren hchildren' h =>
    refine ⟨hnode, ?_⟩
    rw [hchildren, hchildren']
    exact forall₂_map_of_forall h

/-- Renaming goes both ways. -/
theorem symm (h : Renamed R binders e e') :
    Renamed (fun x y => R y x) (binders.map Prod.swap) e' e := by
  induction h with
  | parameter t h => exact .parameter t h.symm
  | @lambda binders body body' params hparams _ ih =>
    have hswap := @Renamed.lambda (fun x y => R y x) (binders.map Prod.swap) body' body
      (params.map fun p => (p.1.swap, p.2))
    simp only [List.map_map] at hswap
    refine hswap (List.forall_mem_map.mpr hparams) ?_
    rw [List.map_append, List.map_reverse, List.map_map] at ih
    exact ih
  | @node binders e e' pairs hnames hnode hchildren hchildren' _ ih =>
    refine .node (pairs.map Prod.swap) (hnode.hasNames.trans hnames) hnode.symm ?_ ?_
      (List.forall_mem_map.mpr ih)
    · rw [hchildren', List.map_map]
      rfl
    · rw [hchildren, List.map_map]
      rfl

/-- A closed expression has no parameters to rename. -/
theorem eq_of_isClosed (h : Renamed R binders e e') (hclosed : e.isClosed = true) : e = e' := by
  induction h with
  | parameter | lambda => cases hclosed
  | node pairs _ hnode hchildren hchildren' _ ih =>
    obtain ⟨-, hparts⟩ := isClosed_iff.mp hclosed
    refine hnode.eq_of_children ?_
    rw [hchildren, hchildren']
    rw [hchildren] at hparts
    exact List.map_congr_left fun z hz => ih z hz (hparts z.1 (List.mem_map_of_mem hz))

/-- What has a closed renaming is closed. -/
theorem isClosed_eq (h : Renamed R binders e e') : e'.isClosed = e.isClosed := by
  rw [Bool.eq_iff_iff]
  constructor
  · intro hclosed
    rw [← h.symm.eq_of_isClosed hclosed]
    exact hclosed
  · intro hclosed
    rw [← h.eq_of_isClosed hclosed]
    exact hclosed

/-- The same expressions are evaluated on freezing. -/
theorem isFreezable_eq (h : Renamed R binders e e') (admits : LocalTest) :
    isFreezable admits e' = isFreezable admits e := by
  cases hclosed : e.isClosed with
  | true => rw [h.eq_of_isClosed hclosed]
  | false =>
    rw [isFreezable, isFreezable, h.isClosed_eq, hclosed, Bool.and_false, Bool.and_false]
    rfl

/-- A constant is a renaming of itself. -/
theorem constant (v : Value) (t : Ty) : Renamed R binders (.constant v t) (.constant v t) :=
  .node [] rfl (.constant v t) rfl rfl (List.forall_mem_nil _)

/-- Frozen sub-expressions of renamed ones are renamed. -/
theorem exists_frozen_children {c : Catalog} {admits : LocalTest} {pairs : List (Expr × Expr)}
    {fs : List Expr}
    (ih : ∀ z ∈ pairs, ∀ f, z.1.freeze c admits = .ok f →
      ∃ f', z.2.freeze c admits = .ok f' ∧ Renamed R binders f f')
    (h : List.Forall₂ (fun q f => q.freeze c admits = .ok f) (pairs.map Prod.fst) fs) :
    ∃ fs', List.Forall₂ (fun q f => q.freeze c admits = .ok f) (pairs.map Prod.snd) fs' ∧
      List.Forall₂ (Renamed R binders) fs fs' := by
  rw [List.forall₂_map_left_iff] at h
  induction h with
  | nil => exact ⟨[], .nil, .nil⟩
  | cons hf _ ihs =>
    obtain ⟨hz, hzs⟩ := List.forall_mem_cons.mp ih
    obtain ⟨f', hf', hrenamed⟩ := hz _ hf
    obtain ⟨fs', hfs', hrest⟩ := ihs hzs
    exact ⟨f' :: fs', .cons hf' hfs', .cons hrenamed hrest⟩

/-- Freezing renamed expressions leaves renamed expressions. -/
theorem exists_freeze {c : Catalog} {admits : LocalTest} {f : Expr}
    (h : Renamed R binders e e') (hf : e.freeze c admits = .ok f) :
    ∃ f', e'.freeze c admits = .ok f' ∧ Renamed R binders f f' := by
  induction h generalizing f with
  | parameter t hlinked =>
    rw [freeze_eq_mapChildrenM rfl] at hf
    cases hf
    exact ⟨_, freeze_eq_mapChildrenM rfl c, .parameter t hlinked⟩
  | lambda params hparams _ ih =>
    rw [freeze_eq_mapChildrenM rfl] at hf
    obtain ⟨b, hb, hf⟩ := Outcome.bind_eq_ok.mp hf
    cases hf
    obtain ⟨b', hb', hbody⟩ := ih hb
    refine ⟨_, ?_, .lambda params hparams hbody⟩
    rw [freeze_eq_mapChildrenM rfl]
    exact Outcome.bind_eq_ok.mpr ⟨b', hb', rfl⟩
  | @node binders e e' pairs hnames hnode hchildren hchildren' hpairs ih =>
    have hrenamed := Renamed.node pairs hnames hnode hchildren hchildren' hpairs
    rcases freeze_eq_ok_cases hf with ⟨hclosed, hconstant⟩ | ⟨hpick, hkept⟩
    · obtain ⟨t, v, -, -, rfl⟩ := toConstant_eq_ok.mp hconstant
      rw [← hrenamed.eq_of_isClosed hclosed]
      exact ⟨_, hf, .constant v t⟩
    · obtain ⟨hroot, hfs⟩ := mapChildrenM_eq_ok.mp hkept
      rw [hchildren] at hfs
      obtain ⟨fs', hfs', hrest⟩ := exists_frozen_children ih hfs
      rw [← hchildren'] at hfs'
      obtain ⟨f', hroot', rfl⟩ := exists_sameNode hfs'.length_eq.symm
      refine ⟨f', ?_, of_forall₂ (hroot.hasNames.trans hnames) ?_ hrest⟩
      · rw [freeze_eq_mapChildrenM ((hrenamed.isFreezable_eq admits).trans hpick)]
        exact mapChildrenM_eq_ok.mpr ⟨hroot', hfs'⟩
      · exact hroot.symm.trans (hnode.trans hroot')

/-! ## Navigation -/

/-- Walks through renamed expressions, from linked innermost parameters, and renamed navigations
name the same members. -/
theorem navigation?_eq (h : Renamed R binders e e') :
    (∀ x y outer, binders = (x, y) :: outer → walk? x e = walk? y e') ∧
      navigation? e = navigation? e' := by
  induction h with
  | @parameter binders x' y' t hlinked =>
    refine ⟨fun x y outer hbinders => ?_, rfl⟩
    subst hbinders
    cases hlinked with
    | here => simp only [walk?, if_true]
    | there hx hy _ => simp only [walk?, if_neg hx, if_neg hy]
  | lambda params _ _ ih =>
    refine ⟨fun _ _ _ _ => rfl, ?_⟩
    rcases params with _ | ⟨p, _ | ⟨q, rest⟩⟩
    · rfl
    · simp only [List.map_cons, List.map_nil, navigation?]
      rw [ih.1 p.1.1 p.1.2 _ rfl]
    · rfl
  | node pairs hnames hnode hchildren hchildren' _ ih =>
    cases hnode with
    | parameter | lambda => cases hnames
    | member e e' name =>
      rcases pairs with _ | ⟨z, _ | ⟨_, _⟩⟩
      · cases hchildren
      · cases hchildren
        cases hchildren'
        refine ⟨fun x y outer hbinders => ?_, rfl⟩
        simp only [walk?]
        rw [(ih z List.mem_cons_self).1 x y outer hbinders]
      · cases hchildren
    | query verb args args' =>
      cases hchildren
      cases hchildren'
      rcases pairs with _ | ⟨start, _ | ⟨next, _ | ⟨_, _⟩⟩⟩
      · exact ⟨fun _ _ _ _ => rfl, rfl⟩
      · exact ⟨fun _ _ _ _ => rfl, rfl⟩
      · have hstart := (ih start List.mem_cons_self).1
        have hnext := (ih next (List.mem_cons_of_mem _ List.mem_cons_self)).2
        refine ⟨fun x y outer hbinders => ?_, rfl⟩
        simp only [List.map_cons, List.map_nil, walk?]
        rw [hstart x y outer hbinders, hnext]
      · exact ⟨fun _ _ _ _ => rfl, rfl⟩
    | _ => exact ⟨fun _ _ _ _ => rfl, rfl⟩

end Renamed

end Expr
end QueryRelay
