import QueryRelay.Proofs.Expr.Parts
import QueryRelay.Proofs.Fields
import QueryRelay.Proofs.Outcome
import QueryRelay.Proofs.Traversals

/-!
# Expressions node by node

Two expressions have the same node when they differ in their direct sub-expressions at most. An
expression is its node and its direct sub-expressions, and rebuilding one keeps the node and runs
the action on each direct sub-expression.
-/

namespace QueryRelay.Expr

/-- Expressions that differ in their direct sub-expressions at most. -/
inductive SameNode : Expr → Expr → Prop
  /-- A constant has no sub-expressions. -/
  | constant (v : Value) (t : Ty) : SameNode (.constant v t) (.constant v t)
  /-- A captured value has none. -/
  | captured (name : String) (t : Ty) (v : Value) :
      SameNode (.captured name t v) (.captured name t v)
  /-- A table has none. -/
  | source (t : Ty) : SameNode (.source t) (.source t)
  /-- A reference to a parameter has none. -/
  | parameter (name : String) (t : Ty) : SameNode (.parameter name t) (.parameter name t)
  /-- The same member of two targets. -/
  | member (e e' : Expr) (name : String) : SameNode (.member e name) (.member e' name)
  /-- An operator over two operands. -/
  | unary (op : UnaryOp) (e e' : Expr) : SameNode (.unary op e) (.unary op e')
  /-- An operator over two pairs of operands. -/
  | binary (op : BinaryOp) (l l' r r' : Expr) : SameNode (.binary op l r) (.binary op l' r')
  /-- Conditionals. -/
  | conditional (t t' p p' q q' : Expr) : SameNode (.conditional t p q) (.conditional t' p' q')
  /-- Lambdas with the same parameters. -/
  | lambda (params : List (String × Ty)) (body body' : Expr) :
      SameNode (.lambda params body) (.lambda params body')
  /-- The same query operator. -/
  | query (verb : QueryVerb) (args args' : List Expr) :
      SameNode (.query verb args) (.query verb args')
  /-- Calls of the same function. -/
  | call (f : Function) (args args' : List Expr) : SameNode (.call f args) (.call f args')
  /-- Objects with the same member names. -/
  | object {members members' : List (String × Expr)}
      (hnames : members'.map Prod.fst = members.map Prod.fst) :
      SameNode (.object members) (.object members')
  /-- Arrays of the same element type. -/
  | array (t : Ty) (items items' : List Expr) : SameNode (.array t items) (.array t items')
  /-- Lists of the same element type. -/
  | list (t : Ty) (items items' : List Expr) : SameNode (.list t items) (.list t items')
  /-- Records of the same type with the same names. -/
  | construct (t : Ty) {bindings bindings' : List (String × Expr)}
      (hnames : bindings'.map Prod.fst = bindings.map Prod.fst) :
      SameNode (.construct t bindings) (.construct t bindings')

namespace SameNode

variable {e e' e'' : Expr}

/-- An expression has its own node. -/
theorem refl (e : Expr) : SameNode e e := by
  cases e with
  | object => exact .object rfl
  | construct t => exact .construct t rfl
  | _ => constructor

/-- Having the same node goes both ways. -/
theorem symm (h : SameNode e e') : SameNode e' e := by
  cases h with
  | object hnames => exact .object hnames.symm
  | construct t hnames => exact .construct t hnames.symm
  | _ => constructor

/-- Having the same node passes through a third expression. -/
theorem trans (h : SameNode e e') (h' : SameNode e' e'') : SameNode e e'' := by
  cases h with
  | object hnames =>
    cases h' with
    | object hnames' => exact .object (hnames'.trans hnames)
  | construct t hnames =>
    cases h' with
    | construct _ hnames' => exact .construct t (hnames'.trans hnames)
  | _ =>
    cases h'
    constructor

/-- An expression is its node and its direct sub-expressions. -/
theorem eq_of_children (h : SameNode e e') (hchildren : e.children = e'.children) : e = e' := by
  cases h with
  | constant | captured | source | parameter => rfl
  | member | unary | lambda =>
    cases hchildren
    rfl
  | binary | conditional =>
    cases hchildren
    rfl
  | query | call | array | list =>
    rw [children, children] at hchildren
    rw [hchildren]
  | object hnames => rw [Fields.eq_of_names hnames.symm hchildren]
  | construct t hnames => rw [Fields.eq_of_names hnames.symm hchildren]

end SameNode

/-- The same node over other direct sub-expressions, as many as it has. -/
def withChildren : Expr → List Expr → Expr
  | .member _ name, [e] => .member e name
  | .unary op _, [e] => .unary op e
  | .binary op _ _, [l, r] => .binary op l r
  | .conditional _ _ _, [t, p, q] => .conditional t p q
  | .lambda params _, [body] => .lambda params body
  | .query verb _, args => .query verb args
  | .call f _, args => .call f args
  | .object members, values => .object ((members.map Prod.fst).zip values)
  | .array t _, items => .array t items
  | .list t _, items => .list t items
  | .construct t bindings, values => .construct t ((bindings.map Prod.fst).zip values)
  | e, _ => e

/-- A node over other direct sub-expressions, as many as it has, is the same node and has these. -/
theorem withChildren_spec {e : Expr} {parts : List Expr} (h : parts.length = e.children.length) :
    SameNode e (e.withChildren parts) ∧ (e.withChildren parts).children = parts := by
  cases e with
  | constant | captured | source | parameter =>
    obtain rfl := List.eq_nil_of_length_eq_zero h
    exact ⟨by constructor, rfl⟩
  | member | unary | lambda =>
    obtain ⟨x, rfl⟩ := List.length_eq_one_iff.mp h
    exact ⟨by constructor, rfl⟩
  | binary =>
    obtain ⟨x, y, rfl⟩ := List.length_eq_two.mp h
    exact ⟨.binary _ _ _ _ _, rfl⟩
  | conditional =>
    obtain ⟨x, y, z, rfl⟩ := List.length_eq_three.mp h
    exact ⟨.conditional _ _ _ _ _ _, rfl⟩
  | query | call | array | list => exact ⟨by constructor, rfl⟩
  | object members =>
    rw [children, List.length_map, ← List.length_map (f := Prod.fst)] at h
    exact ⟨.object (List.map_fst_zip (Nat.le_of_eq h.symm)), List.map_snd_zip (Nat.le_of_eq h)⟩
  | construct t bindings =>
    rw [children, List.length_map, ← List.length_map (f := Prod.fst)] at h
    exact ⟨.construct t (List.map_fst_zip (Nat.le_of_eq h.symm)),
      List.map_snd_zip (Nat.le_of_eq h)⟩

/-- A node can be given any direct sub-expressions, as many as it has. -/
theorem exists_sameNode {e : Expr} {parts : List Expr} (h : parts.length = e.children.length) :
    ∃ e', SameNode e e' ∧ e'.children = parts :=
  ⟨_, withChildren_spec h⟩

/-- Rebuilding an expression is a traversal of its direct sub-expressions. -/
theorem mapChildrenM_eq {m : Type → Type} [Monad m] [LawfulMonad m] (f : Expr → m Expr)
    (e : Expr) : e.mapChildrenM f = e.withChildren <$> e.children.mapM f := by
  cases e with
  | object | construct =>
    rw [mapChildrenM, mapM_named_eq, bind_map_left, ← map_eq_pure_bind]
    rfl
  | query | call | array | list =>
    rw [mapChildrenM, ← map_eq_pure_bind]
    rfl
  | _ => simp [mapChildrenM, children, withChildren, List.mapM_cons]

/-- Rebuilding an expression keeps its node, and its direct sub-expressions are what the action
makes of those of the original. -/
theorem mapChildrenM_eq_ok {f : Expr → Except Error Expr} {e e' : Expr} :
    e.mapChildrenM f = .ok e' ↔
      SameNode e e' ∧ List.Forall₂ (fun q q' => f q = .ok q') e.children e'.children := by
  rw [mapChildrenM_eq, map_eq_pure_bind, Outcome.bind_eq_ok]
  constructor
  · rintro ⟨parts, hparts, h⟩
    obtain rfl := Outcome.pure_eq_ok.mp h
    rw [Outcome.mapM_eq_ok] at hparts
    obtain ⟨hnode, hchildren⟩ := withChildren_spec hparts.length_eq.symm
    exact ⟨hnode, hchildren.symm ▸ hparts⟩
  · rintro ⟨hnode, hparts⟩
    obtain ⟨hnode', hchildren⟩ := withChildren_spec hparts.length_eq.symm
    refine ⟨e'.children, Outcome.mapM_eq_ok.mpr hparts, Outcome.pure_eq_ok.mpr ?_⟩
    exact (hnode'.symm.trans hnode).eq_of_children hchildren

/-- Rebuilding an expression by an action that keeps a state and may fail calls the action on the
direct sub-expressions in order, once each, up to the first failure, which is then the outcome. -/
theorem exists_reaches_mapChildrenM {σ : Type} (f : Expr → ExceptT Error (StateM σ) Expr)
    (e : Expr) (s : σ) :
    ∃ calls s' outcome, (e.mapChildrenM f).run.run s = (outcome.map e.withChildren, s') ∧
      Answers (fun q => (f q).run) s calls s' ∧ Reaches e.children calls outcome := by
  obtain ⟨calls, s', outcome, hrun, hcalls, hreach⟩ := exists_reaches_mapM f e.children s
  refine ⟨calls, s', outcome, ?_, hcalls, hreach⟩
  rw [mapChildrenM_eq, ExceptT.run_map, StateT.run_map, hrun]
  rfl

end QueryRelay.Expr
