import QueryRelay.Proofs.Expr.Freezing
import QueryRelay.Proofs.Plan.Judgment

/-!
# Conditions on the types of a plan

A hereditary condition on the types that an expression declares, on those in scope and on those that
parameters are bound to passes to every type that planning assigns.
-/

namespace QueryRelay

open Ty (Hereditary)

/-- A condition on the types that an expression depends on. -/
structure TypesIn (P : Ty → Prop) (scope : TypeScope) (bound : List Ty) (e : Expr) : Prop where
  /-- It holds of the declared types. -/
  declared : e.Declares P
  /-- It holds of the types in scope. -/
  scope : ∀ x ∈ scope, P x.2
  /-- It holds of the types that parameters are bound to. -/
  bound : ∀ u ∈ bound, P u

namespace TypesIn

variable {P : Ty → Prop} {scope : TypeScope} {bound : List Ty} {e : Expr}

/-- The condition passes to a direct sub-expression in the same scope. -/
theorem child (h : TypesIn P scope bound e) {q : Expr} (hq : q ∈ e.children) :
    TypesIn P scope [] q :=
  ⟨(Expr.every_iff.mp h.declared).2 q hq, h.scope, List.forall_mem_nil _⟩

/-- The condition holds of the types that the root declares. -/
theorem root (h : TypesIn P scope bound e) : ∀ t ∈ e.declaredTypes, P t :=
  (Expr.every_iff.mp h.declared).1

end TypesIn

/-- Parameters have declared types or those that they are bound to. -/
theorem Draft.parameters_types {P : Ty → Prop} {params : List (String × Ty)} {bound : List Ty}
    {ps : List (Parameter × Ty)} (h : parameters params bound = .ok ps)
    (hparams : ∀ x ∈ params, P x.2) (hbound : ∀ u ∈ bound, P u) : ∀ p ∈ ps, P p.2 := by
  induction params generalizing bound ps with
  | nil =>
    cases h
    exact List.forall_mem_nil _
  | cons x rest ih =>
    obtain ⟨t, ps, ht, -, hps, rfl⟩ := parameters_cons_eq_ok.mp h
    rw [List.forall_mem_cons] at hparams
    refine List.forall_mem_cons.mpr ⟨?_, ih hps hparams.2 fun u hu =>
      hbound u (List.mem_of_mem_tail hu)⟩
    have hhead : ∀ u ∈ bound.head?, P u := fun u hu => hbound u (List.mem_of_mem_head? hu)
    unfold parameterType at ht
    split at ht
    · rename_i u hu
      cases ht
      exact hhead _ hu
    · cases ht
    · cases ht
      exact hparams.1

namespace QueryVerb

variable {P : Ty → Prop} {s element t : Ty}

/-- A condition that passes from the types that parameters are bound to to an operand. -/
def Passes (P : Ty → Prop) (o : Operand) : Prop := (∀ u ∈ o.1, P u) → P o.2

/-- The condition holds of an operand without parameters. -/
theorem Passes.value (h : Passes P ([], s)) : P s := h (List.forall_mem_nil _)

/-- The condition passes to an operand whose parameter is an element. -/
theorem Passes.over (h : Passes P ([element], t)) (helement : P element) : P t :=
  h (List.forall_mem_singleton.mpr helement)

/-- What a condition that passes through operands holds of: the types that parameters are bound to,
and the result. -/
def Inherits (P : Ty → Prop) (operands : List Operand) (t : Ty) : Prop :=
  (∀ o ∈ operands, ∀ u ∈ o.1, P u) ∧ P t

/-- A source alone has no parameters. -/
theorem inherits_one (h : P t) : Inherits P [([], s)] t :=
  ⟨List.forall_mem_singleton.mpr (List.forall_mem_nil _), h⟩

/-- A source and an operand over its elements. -/
theorem inherits_two {v : Ty} (helement : P element) (h : P t) :
    Inherits P [([], s), ([element], v)] t :=
  ⟨List.forall_mem_cons.mpr ⟨List.forall_mem_nil _,
    List.forall_mem_singleton.mpr (List.forall_mem_singleton.mpr helement)⟩, h⟩

/-- A condition passes through a signature, from the source onwards. -/
theorem Signature.inherits (hP : Hereditary P) {verb : QueryVerb} {operands : List Operand}
    (h : verb.Signature operands t) (hoperands : ∀ o ∈ operands, Passes P o) :
    Inherits P operands t := by
  cases h with
  | filter helement _ | sort _ _ _ helement =>
    rw [List.forall_mem_cons] at hoperands
    have hs := hoperands.1.value
    exact inherits_two (hP.element? hs helement) hs
  | select helement =>
    rw [List.forall_mem_cons, List.forall_mem_singleton] at hoperands
    have he := hP.element? hoperands.1.value helement
    exact inherits_two he (hP.seq.mpr (hoperands.2.over he))
  | selectMany helement himage =>
    rw [List.forall_mem_cons, List.forall_mem_singleton] at hoperands
    have he := hP.element? hoperands.1.value helement
    exact inherits_two he (hP.seq.mpr (hP.element? (hoperands.2.over he) himage))
  | skip | take | «include» | thenInclude =>
    rw [List.forall_mem_singleton] at hoperands
    exact inherits_one hoperands.value
  | groupBy helement =>
    rw [List.forall_mem_cons, List.forall_mem_singleton] at hoperands
    have he := hP.element? hoperands.1.value helement
    exact inherits_two he (hP.seq.mpr (hP.group.mpr ⟨hoperands.2.over he, he⟩))
  | groupByElement helement =>
    rw [List.forall_mem_cons, List.forall_mem_cons, List.forall_mem_singleton] at hoperands
    obtain ⟨hs, hkey, himage⟩ := hoperands
    have he := hP.element? hs.value helement
    refine ⟨?_, hP.seq.mpr (hP.group.mpr ⟨hkey.over he, himage.over he⟩)⟩
    simp only [List.forall_mem_cons, List.not_mem_nil, false_imp_iff, implies_true, and_true,
      true_and]
    exact ⟨he, he⟩
  | join helement hinner =>
    simp only [List.forall_mem_cons, List.not_mem_nil, false_imp_iff, implies_true,
      and_true] at hoperands
    obtain ⟨hs, hi, -, -, hresult⟩ := hoperands
    have he := hP.element? hs.value helement
    have hie := hP.element? hi.value hinner
    refine ⟨?_, hP.seq.mpr (hresult ?_)⟩
    · simp only [List.forall_mem_cons, List.not_mem_nil, false_imp_iff, implies_true, and_true,
        true_and]
      exact ⟨he, hie, he, hie⟩
    · exact List.forall_mem_cons.mpr ⟨he, List.forall_mem_singleton.mpr hie⟩
  | aggregate helement _ _ =>
    rw [List.forall_mem_singleton] at hoperands
    exact inherits_one (hP.predicateResult (hP.element? hoperands.value helement))
  | aggregatePredicate helement _ _ =>
    rw [List.forall_mem_cons] at hoperands
    have he := hP.element? hoperands.1.value helement
    exact inherits_two he (hP.predicateResult he)
  | aggregateElements helement _ ht =>
    rw [List.forall_mem_singleton] at hoperands
    exact inherits_one (hP.selectorResult (hP.element? hoperands.value helement) ht)
  | aggregateSelector helement _ ht =>
    rw [List.forall_mem_cons, List.forall_mem_singleton] at hoperands
    have he := hP.element? hoperands.1.value helement
    exact inherits_two he (hP.selectorResult (hoperands.2.over he) ht)

end QueryVerb

variable {P : Ty → Prop} {c : Catalog} {scope : TypeScope}

/-- The operands of a query operator depend on types that fulfil the condition, when each of them
has a type that does as soon as it depends on such types. -/
theorem TypesIn.operands (hP : Hereditary P) {verb : QueryVerb} {operands : List Piece}
    {extra : List Expr} {t : Ty} (hsignature : verb.Signature (operands.map Piece.operand) t)
    (h : TypesIn P scope [] (.query verb (operands.map Piece.expr ++ extra)))
    (hoperands : ∀ x ∈ operands, TypesIn P scope x.bound x.expr → P x.type) :
    (∀ x ∈ operands, TypesIn P scope x.bound x.expr) ∧ P t := by
  have hexpr : ∀ x ∈ operands, x.expr.Declares P := fun x hx =>
    (h.child (List.mem_append_left _ (List.mem_map_of_mem hx))).declared
  obtain ⟨hbound, ht⟩ := hsignature.inherits hP (List.forall_mem_map.mpr fun x hx hbound =>
    hoperands x hx ⟨hexpr x hx, h.scope, hbound⟩)
  rw [List.forall_mem_map] at hbound
  exact ⟨fun x hx => ⟨hexpr x hx, h.scope, hbound x hx⟩, ht⟩

/-- The body of a lambda depends on types that fulfil the condition. -/
theorem TypesIn.body {bound : List Ty} {params : List (String × Ty)} {body : Expr}
    {ps : List (Parameter × Ty)} (h : TypesIn P scope bound (.lambda params body))
    (hps : Draft.parameters params bound = .ok ps) : TypesIn P (scope.extend ps) [] body where
  declared := (h.child (List.mem_singleton_self _)).declared
  scope := by
    have htypes := Draft.parameters_types hps (List.forall_mem_map.mp h.root) h.bound
    intro x hx
    rcases List.mem_append.mp hx with hx | hx
    · obtain ⟨p, hp, rfl⟩ := List.mem_map.mp (List.mem_reverse.mp hx)
      exact htypes p hp
    · exact h.scope x hx
  bound := List.forall_mem_nil _

/-- A condition on the types that an expression depends on passes to the type of its plan. -/
theorem Planned.type_inherits (hP : Hereditary P)
    (hfields : ∀ r ∈ c.records, ∀ field ∈ r.fields, P field.2) {bound : List Ty} {e : Expr}
    {p : Plan} {t : Ty} (h : Planned c scope bound e p t) (htypes : TypesIn P scope bound e) :
    P t := by
  induction h with
  | constant v ht => exact htypes.root _ (List.mem_singleton_self _)
  | source ht => exact hP.seq.mpr (htypes.root _ (List.mem_singleton_self _))
  | parameter declared hscope ht =>
    exact List.forall_mem_map.mpr htypes.scope _ (exists_mem_of_lookup_eq_some hscope)
  | member _ htype _ _ ih =>
    exact hP.typeOfMember hfields (ih (htypes.child (List.mem_singleton_self _))) htype
  | unary _ htype _ ih => exact hP.unary (ih (htypes.child (List.mem_singleton_self _))) htype
  | binary _ _ htype _ ihl ihr =>
    exact hP.binary (ihl (htypes.child (by simp [Expr.children])))
      (ihr (htypes.child (by simp [Expr.children]))) htype
  | conditional _ _ _ htype _ _ ihl ihr =>
    exact hP.unify (ihl (htypes.child (by simp [Expr.children])))
      (ihr (htypes.child (by simp [Expr.children]))) htype
  | lambda _ hparams _ _ ih => exact ih (htypes.body hparams)
  | query operands _ hsignature _ _ ih => exact (htypes.operands hP hsignature ih).2
  | call args _ _ _ _ =>
    exact htypes.root _ (List.mem_cons_of_mem _ (List.mem_singleton_self _))
  | object members _ heq _ ih =>
    subst heq
    refine hP.anonymous.mpr (List.forall_mem_map.mpr fun m hm => ih m hm (htypes.child ?_))
    rw [Expr.children, List.map_map]
    exact List.mem_map_of_mem hm
  | array items _ _ _ => exact hP.seq.mpr (htypes.root _ (List.mem_singleton_self _))
  | list items _ _ _ => exact hP.seq.mpr (htypes.root _ (List.mem_singleton_self _))
  | construct bindings _ _ _ _ => exact htypes.root _ (List.mem_singleton_self _)

end QueryRelay
