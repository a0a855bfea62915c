import QueryRelay.Expr.Basic

/-!
# The parts of an expression

Induction over expressions with one hypothesis for each direct sub-expression, and the list of all
sub-expressions, through which conditions on every node are stated.
-/

namespace QueryRelay.Expr

/-- Induction over expressions: a property holds of every expression when it passes from the direct
sub-expressions of each node to the node. -/
@[induction_eliminator]
theorem induct {motive : Expr → Prop}
    (constant : ∀ v t, motive (.constant v t))
    (captured : ∀ n t v, motive (.captured n t v))
    (source : ∀ t, motive (.source t))
    (parameter : ∀ n t, motive (.parameter n t))
    (member : ∀ target name, motive target → motive (.member target name))
    (unary : ∀ op operand, motive operand → motive (.unary op operand))
    (binary : ∀ op l r, motive l → motive r → motive (.binary op l r))
    (conditional : ∀ t p q, motive t → motive p → motive q → motive (.conditional t p q))
    (lambda : ∀ params body, motive body → motive (.lambda params body))
    (query : ∀ verb args, (∀ e ∈ args, motive e) → motive (.query verb args))
    (call : ∀ f args, (∀ e ∈ args, motive e) → motive (.call f args))
    (object : ∀ members, (∀ b ∈ members, motive b.2) → motive (.object members))
    (array : ∀ t items, (∀ e ∈ items, motive e) → motive (.array t items))
    (list : ∀ t items, (∀ e ∈ items, motive e) → motive (.list t items))
    (construct : ∀ t bindings, (∀ b ∈ bindings, motive b.2) → motive (.construct t bindings))
    (e : Expr) : motive e := by
  refine @Expr.rec motive (fun es => ∀ e ∈ es, motive e) (fun bs => ∀ b ∈ bs, motive b.2)
    (fun b => motive b.2) constant captured source parameter member unary binary conditional lambda
    query call object array list construct ?_ ?_ ?_ ?_ (fun _ _ h => h) e
  · intro e he
    cases he
  · intro head tail hhead htail e he
    rcases List.mem_cons.mp he with rfl | he
    · exact hhead
    · exact htail e he
  · intro b hb
    cases hb
  · intro head tail hhead htail b hb
    rcases List.mem_cons.mp hb with rfl | hb
    · exact hhead
    · exact htail b hb

mutual

/-- All sub-expressions, an expression before those inside it. -/
def parts : Expr → List Expr
  | .constant v t => [.constant v t]
  | .captured n t v => [.captured n t v]
  | .source t => [.source t]
  | .parameter n t => [.parameter n t]
  | .member target name => .member target name :: parts target
  | .unary op operand => .unary op operand :: parts operand
  | .binary op l r => .binary op l r :: (parts l ++ parts r)
  | .conditional t p q => .conditional t p q :: (parts t ++ parts p ++ parts q)
  | .lambda params body => .lambda params body :: parts body
  | .query verb args => .query verb args :: allParts args
  | .call f args => .call f args :: allParts args
  | .object members => .object members :: memberParts members
  | .array t items => .array t items :: allParts items
  | .list t items => .list t items :: allParts items
  | .construct t bindings => .construct t bindings :: memberParts bindings
termination_by structural e => e

/-- All sub-expressions of several expressions. -/
def allParts : List Expr → List Expr
  | [] => []
  | e :: rest => parts e ++ allParts rest
termination_by structural es => es

/-- All sub-expressions of named expressions. -/
def memberParts : List (String × Expr) → List Expr
  | [] => []
  | (_, e) :: rest => parts e ++ memberParts rest
termination_by structural bs => bs

end

/-- A sub-expression of several expressions is one of one of them. -/
theorem mem_allParts {p : Expr} {es : List Expr} :
    p ∈ allParts es ↔ ∃ e ∈ es, p ∈ e.parts := by
  induction es with
  | nil => simp [allParts]
  | cons e rest ih => simp [allParts, ih]

/-- A sub-expression of named expressions is one of one of them. -/
theorem mem_memberParts {p : Expr} {bs : List (String × Expr)} :
    p ∈ memberParts bs ↔ ∃ e ∈ bs.map Prod.snd, p ∈ e.parts := by
  induction bs with
  | nil => simp [memberParts]
  | cons b rest ih =>
    obtain ⟨name, e⟩ := b
    rw [memberParts, List.mem_append, ih, List.map_cons]
    simp only [List.mem_cons, exists_eq_or_imp]

/-- The sub-expressions of an expression are itself and those of its direct sub-expressions. -/
theorem mem_parts {p e : Expr} : p ∈ e.parts ↔ p = e ∨ ∃ q ∈ e.children, p ∈ q.parts := by
  cases e <;>
    simp only [parts, children, List.mem_cons, List.mem_append, List.not_mem_nil, mem_allParts,
      mem_memberParts, exists_eq_or_imp, exists_eq_left, false_and, exists_false, or_false,
      or_assoc]

/-- An expression is one of its own sub-expressions. -/
theorem mem_parts_self (e : Expr) : e ∈ e.parts := mem_parts.mpr (.inl rfl)

/-- A condition on every sub-expression. -/
def Every (P : Expr → Prop) (e : Expr) : Prop := ∀ p ∈ e.parts, P p

/-- A condition on every sub-expression is one on the expression itself and on every sub-expression
of the direct ones. -/
theorem every_iff {P : Expr → Prop} {e : Expr} :
    e.Every P ↔ P e ∧ ∀ q ∈ e.children, q.Every P := by
  constructor
  · intro h
    exact ⟨h e e.mem_parts_self, fun q hq p hp => h p (mem_parts.mpr (.inr ⟨q, hq, hp⟩))⟩
  · rintro ⟨he, hq⟩ p hp
    rcases mem_parts.mp hp with rfl | ⟨q, hmem, hp⟩
    · exact he
    · exact hq q hmem p hp

end QueryRelay.Expr
