import QueryRelay.Proofs.Expr.Freezing
import QueryRelay.Proofs.Plan.Drafting

/-!
# Static types as a judgment

The static type that planning gives an expression, stated as rules on the expression itself, before
anything of it is evaluated. A rule has premises for those sub-expressions only on which the type
depends; `Typing.Visits` names these places with the types in scope there. Main statement: the type
that planning gives an expression, and the descriptor that stands for it, are the same whatever
freezing has evaluated.
-/

namespace QueryRelay

/-- How many arguments of a query operator have types that count, of those that are given; the
further ones are counts and paths. -/
def QueryVerb.operandCount (verb : QueryVerb) (given : Nat) : Nat :=
  match verb with
  | .skip | .take | .include | .thenInclude => 1
  | .groupBy => min given 3
  | .join => 5
  | .aggregate _ => min given 2
  | _ => 2

/-- In a scope, and with its parameters bound to types, an expression has a static type. -/
inductive HasType (c : Catalog) : TypeScope → List Ty → Expr → Ty → Prop
  /-- A constant has the type that it declares. -/
  | constant {scope : TypeScope} (v : Value) (t : Ty) : HasType c scope [] (.constant v t) t
  /-- A captured value has the type that it declares. -/
  | captured {scope : TypeScope} (name : String) (t : Ty) (v : Value) :
      HasType c scope [] (.captured name t v) t
  /-- A table has elements of its type. -/
  | source {scope : TypeScope} (t : Ty) : HasType c scope [] (.source t) (.seq t)
  /-- A parameter has the type that the scope gives it. -/
  | parameter {scope : TypeScope} {name : String} (declared : Ty) {t : Ty}
      (hscope : List.lookup name scope = some t) : HasType c scope [] (.parameter name declared) t
  /-- A member has the type that the catalog gives it. -/
  | member {scope : TypeScope} {e : Expr} {s t : Ty} {name : String}
      (htarget : HasType c scope [] e s) (htype : c.typeOfMember s name = .ok t) :
      HasType c scope [] (.member e name) t
  /-- An operator on one operand. -/
  | unary {scope : TypeScope} {op : UnaryOp} {e : Expr} {s t : Ty}
      (hoperand : HasType c scope [] e s) (htype : op.resultType s = .ok t) :
      HasType c scope [] (.unary op e) t
  /-- An operator on two operands. -/
  | binary {scope : TypeScope} {op : BinaryOp} {l r : Expr} {s t u : Ty}
      (hleft : HasType c scope [] l s) (hright : HasType c scope [] r t)
      (htype : op.resultType s t = .ok u) : HasType c scope [] (.binary op l r) u
  /-- A conditional has the common type of its branches. -/
  | conditional {scope : TypeScope} (test : Expr) {l r : Expr} {t u v : Ty}
      (hleft : HasType c scope [] l t) (hright : HasType c scope [] r u)
      (htype : Ty.unify t u = .ok v) : HasType c scope [] (.conditional test l r) v
  /-- A lambda has the type of its body, which sees the parameters. -/
  | lambda {scope : TypeScope} {bound : List Ty} {params : List (String × Ty)}
      {ps : List (Parameter × Ty)} {body : Expr} {t : Ty}
      (harity : bound = [] ∨ bound.length = params.length)
      (hparams : Draft.parameters params bound = .ok ps)
      (hbody : HasType c (scope.extend ps) [] body t) :
      HasType c scope bound (.lambda params body) t
  /-- A query operator has the type of its signature. -/
  | query {scope : TypeScope} {verb : QueryVerb} (operands : List (Expr × Operand))
      (extra : List Expr) {t : Ty}
      (hoperands : ∀ x ∈ operands, HasType c scope x.2.1 x.1 x.2.2)
      (hsignature : verb.Signature (operands.map Prod.snd) t)
      (hcount : operands.length = verb.operandCount (operands.length + extra.length)) :
      HasType c scope [] (.query verb (operands.map Prod.fst ++ extra)) t
  /-- A call has the type that the function declares. -/
  | call {scope : TypeScope} (f : Function) (args : List Expr) :
      HasType c scope [] (.call f args) f.returns
  /-- An anonymous object has the members that it is given. -/
  | object {scope : TypeScope} (members : List (String × Expr × Ty))
      (hmembers : ∀ m ∈ members, HasType c scope [] m.2.1 m.2.2) :
      HasType c scope [] (.object (members.map fun m => (m.1, m.2.1)))
        (.anonymous (members.map fun m => (m.1, m.2.2)))
  /-- An array has the element type that it declares. -/
  | array {scope : TypeScope} (t : Ty) (items : List Expr) :
      HasType c scope [] (.array t items) (.seq t)
  /-- A list has the element type that it declares. -/
  | list {scope : TypeScope} (t : Ty) (items : List Expr) :
      HasType c scope [] (.list t items) (.seq t)
  /-- A record has the type that it declares. -/
  | construct {scope : TypeScope} (t : Ty) (bindings : List (String × Expr)) :
      HasType c scope [] (.construct t bindings) t

/-- The sub-expressions on which the static type of an expression depends, each with the types in
scope there. -/
inductive Typing.Visits (c : Catalog) : TypeScope → List Ty → Expr → TypeScope → Expr → Prop
  /-- The expression itself. -/
  | here {scope : TypeScope} (bound : List Ty) (e : Expr) : Visits c scope bound e scope e
  /-- The target of a member. -/
  | member {scope scope' : TypeScope} {e p : Expr} (name : String)
      (h : Visits c scope [] e scope' p) : Visits c scope [] (.member e name) scope' p
  /-- The operand of an operator on one. -/
  | unary {scope scope' : TypeScope} {e p : Expr} (op : UnaryOp)
      (h : Visits c scope [] e scope' p) : Visits c scope [] (.unary op e) scope' p
  /-- The operands of an operator on two. -/
  | binary {scope scope' : TypeScope} {l r e p : Expr} (op : BinaryOp) (he : e = l ∨ e = r)
      (h : Visits c scope [] e scope' p) : Visits c scope [] (.binary op l r) scope' p
  /-- The branches of a conditional. -/
  | conditional {scope scope' : TypeScope} (test : Expr) {l r e p : Expr} (he : e = l ∨ e = r)
      (h : Visits c scope [] e scope' p) : Visits c scope [] (.conditional test l r) scope' p
  /-- The body of a lambda. -/
  | lambda {scope scope' : TypeScope} {bound : List Ty} {params : List (String × Ty)}
      {ps : List (Parameter × Ty)} {body p : Expr}
      (hparams : Draft.parameters params bound = .ok ps)
      (h : Visits c (scope.extend ps) [] body scope' p) :
      Visits c scope bound (.lambda params body) scope' p
  /-- The operands of a query operator. -/
  | query {scope scope' : TypeScope} {verb : QueryVerb} {operands : List (Expr × Operand)}
      {extra : List Expr} {t : Ty} {x : Expr × Operand} {p : Expr}
      (hoperands : ∀ x ∈ operands, HasType c scope x.2.1 x.1 x.2.2)
      (hsignature : verb.Signature (operands.map Prod.snd) t)
      (hcount : operands.length = verb.operandCount (operands.length + extra.length))
      (hx : x ∈ operands) (h : Visits c scope x.2.1 x.1 scope' p) :
      Visits c scope [] (.query verb (operands.map Prod.fst ++ extra)) scope' p
  /-- The members of an anonymous object. -/
  | object {scope scope' : TypeScope} {members : List (String × Expr)} {m : String × Expr}
      {p : Expr} (hm : m ∈ members) (h : Visits c scope [] m.2 scope' p) :
      Visits c scope [] (.object members) scope' p

/-- Only sub-expressions are visited. -/
theorem Typing.Visits.mem_parts {c : Catalog} {types types' : TypeScope} {bound : List Ty}
    {e p : Expr} (h : Typing.Visits c types bound e types' p) : p ∈ e.parts := by
  induction h with
  | here bound e => exact e.mem_parts_self
  | member name _ ih => exact Expr.mem_parts.mpr (.inr ⟨_, List.mem_singleton_self _, ih⟩)
  | unary op _ ih => exact Expr.mem_parts.mpr (.inr ⟨_, List.mem_singleton_self _, ih⟩)
  | binary op he _ ih =>
    refine Expr.mem_parts.mpr (.inr ⟨_, ?_, ih⟩)
    rcases he with rfl | rfl <;> simp [Expr.children]
  | conditional test he _ ih =>
    refine Expr.mem_parts.mpr (.inr ⟨_, ?_, ih⟩)
    rcases he with rfl | rfl <;> simp [Expr.children]
  | lambda _ _ ih => exact Expr.mem_parts.mpr (.inr ⟨_, List.mem_singleton_self _, ih⟩)
  | query _ _ _ hx _ ih =>
    exact Expr.mem_parts.mpr (.inr ⟨_, List.mem_append_left _ (List.mem_map_of_mem hx), ih⟩)
  | object hm _ ih => exact Expr.mem_parts.mpr (.inr ⟨_, List.mem_map_of_mem hm, ih⟩)

/-! ## The type of a plan -/

/-- A stage is built from the plans of those arguments that count. -/
theorem QueryVerb.Builds.length {verb : QueryVerb} {plans : List Plan} {extra : List Expr}
    {op : QueryOp Plan} (h : verb.Builds plans extra op) :
    plans.length = verb.operandCount (plans.length + extra.length) := by
  cases h with
  | orderBy direction hverb | thenBy direction hverb =>
    subst hverb
    cases direction <;> rfl
  | groupByElement | aggregateArgument =>
    simp only [List.length_cons, List.length_nil, operandCount]
    omega
  | _ => rfl

/-- Two lists with the same images can be listed beside each other. -/
theorem exists_pairs_of_map_eq {α β γ : Type} {f : α → γ} {g : β → γ} {xs : List α} {ys : List β}
    (h : xs.map f = ys.map g) :
    ∃ zs : List (α × β), zs.map Prod.fst = xs ∧ zs.map Prod.snd = ys ∧
      ∀ z ∈ zs, f z.1 = g z.2 := by
  induction xs generalizing ys with
  | nil =>
    rw [List.map_nil, eq_comm, List.map_eq_nil_iff] at h
    exact ⟨[], rfl, h.symm, List.forall_mem_nil _⟩
  | cons x xs ih =>
    cases ys with
    | nil => cases h
    | cons y ys =>
      rw [List.map_cons, List.map_cons] at h
      obtain ⟨hxy, hrest⟩ := List.cons.inj h
      obtain ⟨zs, rfl, rfl, hzs⟩ := ih hrest
      exact ⟨(x, y) :: zs, rfl, rfl, List.forall_mem_cons.mpr ⟨hxy, hzs⟩⟩

variable {c : Catalog}

/-- The static type of a closed expression is one in every scope. -/
theorem hasType_of_isClosed {e : Expr} {t : Ty} (hclosed : e.isClosed = true)
    (h : e.staticType c = .ok t) (scope : TypeScope) : HasType c scope [] e t := by
  induction e generalizing t with
  | constant v u =>
    cases h
    exact .constant v u
  | captured name u v =>
    cases h
    exact .captured name u v
  | member target name ih =>
    obtain ⟨s, hs, htype⟩ := Outcome.bind_eq_ok.mp h
    exact .member (ih hclosed hs) htype
  | unary op operand ih =>
    obtain ⟨s, hs, htype⟩ := Outcome.bind_eq_ok.mp h
    exact .unary (ih hclosed hs) htype
  | binary op l r ihl ihr =>
    obtain ⟨hl, hr⟩ := Bool.and_eq_true_iff.mp hclosed
    obtain ⟨s, hs, hrest⟩ := Outcome.bind_eq_ok.mp h
    obtain ⟨u, hu, htype⟩ := Outcome.bind_eq_ok.mp hrest
    exact .binary (ihl hl hs) (ihr hr hu) htype
  | conditional test l r _ ihl ihr =>
    obtain ⟨hbefore, hr⟩ := Bool.and_eq_true_iff.mp hclosed
    obtain ⟨-, hl⟩ := Bool.and_eq_true_iff.mp hbefore
    obtain ⟨s, hs, hrest⟩ := Outcome.bind_eq_ok.mp h
    obtain ⟨u, hu, htype⟩ := Outcome.bind_eq_ok.mp hrest
    exact .conditional test (ihl hl hs) (ihr hr hu) htype
  | call f args =>
    cases h
    exact .call f args
  | object members ih =>
    obtain ⟨types, htypes, rfl⟩ := Outcome.map_eq_ok.mp h
    rw [Expr.memberTypes_eq_mapM] at htypes
    obtain ⟨zs, rfl, rfl, hzs⟩ := Outcome.mapM_named_eq_ok_iff.mp htypes
    refine .object zs fun z hz => ?_
    have hmem : (z.1, z.2.1) ∈ zs.map fun z => (z.1, z.2.1) := List.mem_map_of_mem hz
    exact ih _ hmem (Expr.membersClosed_iff.mp hclosed _ hmem) (hzs z hz)
  | array u items =>
    cases h
    exact .array u items
  | list u items =>
    cases h
    exact .list u items
  | construct u bindings =>
    cases h
    exact .construct u bindings
  | _ => cases hclosed

/-- The type of a rebuilt expression is a static type of the original, if that is so for the direct
sub-expressions. -/
theorem hasType_of_mapChildrenM {f : Expr → Except Error Expr} {e e' : Expr}
    (hchildren : ∀ q ∈ e.children, ∀ q', f q = .ok q' → ∀ {scope : TypeScope} {bound : List Ty}
      {p : Plan} {t : Ty}, Planned c scope bound q' p t → HasType c scope bound q t)
    (h : e.mapChildrenM f = .ok e') {scope : TypeScope} {bound : List Ty} {p : Plan} {t : Ty}
    (hplanned : Planned c scope bound e' p t) : HasType c scope bound e t := by
  cases e with
  | constant v u =>
    cases h
    cases hplanned
    exact .constant v t
  | captured name u v =>
    cases h
    cases hplanned
  | source u =>
    cases h
    cases hplanned
    exact .source u
  | parameter name u =>
    cases h
    cases hplanned with
    | parameter _ hscope ht => exact .parameter u hscope
  | member target name =>
    obtain ⟨x, hx, hdone⟩ := Outcome.bind_eq_ok.mp h
    cases hdone
    cases hplanned with
    | member htarget htype hs ht =>
      exact .member (hchildren _ (List.mem_singleton_self _) x hx htarget) htype
  | unary op operand =>
    obtain ⟨x, hx, hdone⟩ := Outcome.bind_eq_ok.mp h
    cases hdone
    cases hplanned with
    | unary hoperand htype ht =>
      exact .unary (hchildren _ (List.mem_singleton_self _) x hx hoperand) htype
  | binary op l r =>
    obtain ⟨x, hx, hrest⟩ := Outcome.bind_eq_ok.mp h
    obtain ⟨y, hy, hdone⟩ := Outcome.bind_eq_ok.mp hrest
    cases hdone
    cases hplanned with
    | binary hleft hright htype hu =>
      exact .binary (hchildren l (by simp [Expr.children]) x hx hleft)
        (hchildren r (by simp [Expr.children]) y hy hright) htype
  | conditional test l r =>
    obtain ⟨x, hx, hrest⟩ := Outcome.bind_eq_ok.mp h
    obtain ⟨y, hy, hlast⟩ := Outcome.bind_eq_ok.mp hrest
    obtain ⟨z, hz, hdone⟩ := Outcome.bind_eq_ok.mp hlast
    cases hdone
    cases hplanned with
    | conditional htest hleft hright htype hv =>
      exact .conditional test (hchildren l (by simp [Expr.children]) y hy hleft)
        (hchildren r (by simp [Expr.children]) z hz hright) htype
  | lambda params body =>
    obtain ⟨x, hx, hdone⟩ := Outcome.bind_eq_ok.mp h
    cases hdone
    cases hplanned with
    | lambda harity hparams hbody ht =>
      exact .lambda harity hparams (hchildren body (List.mem_singleton_self _) x hx hbody)
  | query verb args =>
    obtain ⟨args', hargs, hdone⟩ := Outcome.bind_eq_ok.mp h
    cases hdone
    cases hplanned with
    | query operands hoperands hsignature hbuilds ht =>
      obtain ⟨zs, rfl, hsnd, hzs⟩ := Outcome.mapM_eq_ok_iff_pairs.mp hargs
      obtain ⟨xs, rest, rfl, hxs, rfl⟩ := List.map_eq_append_iff.mp hsnd
      obtain ⟨pairs, rfl, rfl, hpairs⟩ := exists_pairs_of_map_eq hxs
      have hargs' : (pairs.map fun q => (q.1.1, q.2.operand)).map Prod.fst =
          (pairs.map Prod.fst).map Prod.fst := by
        rw [List.map_map, List.map_map]
        rfl
      have hoperands' : (pairs.map fun q => (q.1.1, q.2.operand)).map Prod.snd =
          (pairs.map Prod.snd).map Piece.operand := by
        rw [List.map_map, List.map_map]
        rfl
      have hcount := hbuilds.length
      rw [List.map_append, ← hargs']
      refine .query _ _ (List.forall_mem_map.mpr fun q hq => ?_) (hoperands' ▸ hsignature) ?_
      · have hmem : q.1 ∈ pairs.map Prod.fst ++ rest :=
          List.mem_append_left _ (List.mem_map_of_mem hq)
        have hstep := hzs q.1 hmem
        rw [hpairs q hq] at hstep
        exact hchildren q.1.1 (List.mem_map_of_mem hmem) _ hstep
          (hoperands q.2 (List.mem_map_of_mem hq))
      · simpa only [List.length_map] using hcount
  | call g args =>
    obtain ⟨args', hargs, hdone⟩ := Outcome.bind_eq_ok.mp h
    cases hdone
    cases hplanned
    exact .call g args
  | object members =>
    obtain ⟨members', hmembers, hdone⟩ := Outcome.bind_eq_ok.mp h
    cases hdone
    cases hplanned with
    | object ms hms heq ht =>
      subst heq
      obtain ⟨zs, rfl, hsnd, hzs⟩ := Outcome.mapM_named_eq_ok_iff.mp hmembers
      obtain ⟨pairs, rfl, rfl, hpairs⟩ := exists_pairs_of_map_eq hsnd
      have hnames : (pairs.map Prod.snd).map (fun m => (m.1, m.2.type)) =
          (pairs.map fun q => (q.1.1, q.1.2.1, q.2.2.type)).map fun m => (m.1, m.2.2) := by
        rw [List.map_map, List.map_map]
        refine List.map_congr_left fun q hq => ?_
        exact congrArg (fun name => (name, q.2.2.type)) (Prod.ext_iff.mp (hpairs q hq)).1.symm
      have hexprs : (pairs.map Prod.fst).map (fun z => (z.1, z.2.1)) =
          (pairs.map fun q => (q.1.1, q.1.2.1, q.2.2.type)).map fun m => (m.1, m.2.1) := by
        rw [List.map_map, List.map_map]
        rfl
      rw [hnames, hexprs]
      refine .object _ (List.forall_mem_map.mpr fun q hq => ?_)
      have hstep := hzs q.1 (List.mem_map_of_mem hq)
      rw [(Prod.ext_iff.mp (hpairs q hq)).2] at hstep
      refine hchildren q.1.2.1 ?_ _ hstep (hms q.2 (List.mem_map_of_mem hq))
      rw [Expr.children, List.map_map, List.map_map]
      exact List.mem_map_of_mem hq
  | array u items =>
    obtain ⟨items', hitems, hdone⟩ := Outcome.bind_eq_ok.mp h
    cases hdone
    cases hplanned
    exact .array u items
  | list u items =>
    obtain ⟨items', hitems, hdone⟩ := Outcome.bind_eq_ok.mp h
    cases hdone
    cases hplanned
    exact .list u items
  | construct u bindings =>
    obtain ⟨bindings', hbindings, hdone⟩ := Outcome.bind_eq_ok.mp h
    cases hdone
    cases hplanned
    exact .construct t bindings

/-- The type of what freezing leaves is a static type of the original. -/
theorem hasType_of_freeze {admits : Expr.LocalTest} {e e' : Expr}
    (h : e.freeze c admits = .ok e') {scope : TypeScope} {bound : List Ty} {p : Plan} {t : Ty}
    (hplanned : Planned c scope bound e' p t) : HasType c scope bound e t := by
  induction e using Expr.induct_children generalizing e' scope bound p t with
  | h e ih =>
    rcases Expr.freeze_eq_ok_cases h with ⟨hclosed, hconstant⟩ | ⟨-, hrebuilt⟩
    · obtain ⟨u, v, hu, -, rfl⟩ := Expr.toConstant_eq_ok.mp hconstant
      cases hplanned
      exact hasType_of_isClosed hclosed hu scope
    · exact hasType_of_mapChildrenM (fun q hq q' hq' => ih q hq hq') hrebuilt hplanned

/-! ## One type at most -/

/-- Operands agree when those whose parameters are bound to the same types are of the same type. -/
def Operand.Agree (x y : Operand) : Prop := x.1 = y.1 → x.2 = y.2

/-- The four sorts. -/
theorem Plan.sortVerb_cases (isFirst : Bool) (direction : SortDirection) :
    sortVerb isFirst direction = .orderBy ∨ sortVerb isFirst direction = .orderByDescending ∨
      sortVerb isFirst direction = .thenBy ∨ sortVerb isFirst direction = .thenByDescending := by
  cases isFirst <;> cases direction <;> simp [sortVerb]

/-- A signature gives operands that agree, one after the other, one result. -/
theorem QueryVerb.Signature.unique {verb : QueryVerb} {xs ys : List Operand} {s t : Ty}
    (hs : verb.Signature xs s) (ht : verb.Signature ys t) (h : List.Forall₂ Operand.Agree xs ys) :
    s = t := by
  cases hs <;> cases ht <;>
    simp only [List.forall₂_cons, Operand.Agree, true_imp_iff, List.cons.injEq, and_true,
      List.forall₂_nil_right_iff, List.forall₂_nil_left_iff, reduceCtorEq, and_false] at h <;>
    grind [Plan.sortVerb_cases]

/-- In a scope an expression has one static type at most. -/
theorem HasType.unique {c : Catalog} {types : TypeScope} {bound : List Ty} {e : Expr}
    {s t : Ty} (hs : HasType c types bound e s) (ht : HasType c types bound e t) : s = t := by
  induction hs generalizing t with
  | constant v s =>
    cases ht
    rfl
  | captured name s v =>
    cases ht
    rfl
  | source s =>
    cases ht
    rfl
  | parameter declared hscope =>
    cases ht with
    | parameter _ hscope' => exact Option.some.inj (hscope.symm.trans hscope')
  | member _ htype ih =>
    cases ht with
    | member htarget' htype' =>
      rw [← ih htarget'] at htype'
      exact Except.ok.inj (htype.symm.trans htype')
  | unary _ htype ih =>
    cases ht with
    | unary hoperand' htype' =>
      rw [← ih hoperand'] at htype'
      exact Except.ok.inj (htype.symm.trans htype')
  | binary _ _ htype ihl ihr =>
    cases ht with
    | binary hleft' hright' htype' =>
      rw [← ihl hleft', ← ihr hright'] at htype'
      exact Except.ok.inj (htype.symm.trans htype')
  | conditional test _ _ htype ihl ihr =>
    cases ht with
    | conditional _ hleft' hright' htype' =>
      rw [← ihl hleft', ← ihr hright'] at htype'
      exact Except.ok.inj (htype.symm.trans htype')
  | lambda _ hparams _ ih =>
    cases ht with
    | lambda _ hparams' hbody' =>
      cases Except.ok.inj (hparams.symm.trans hparams')
      exact ih hbody'
  | @query types verb operands extra s hoperands hsignature hcount ih =>
    generalize hargs : operands.map Prod.fst ++ extra = args at ht
    cases ht with
    | @query _ _ operands' extra' _ hoperands' hsignature' hcount' =>
      have hlength : operands.length = operands'.length := by
        have htotal := congrArg List.length hargs
        simp only [List.length_append, List.length_map] at htotal
        rw [hcount, hcount', htotal]
      obtain ⟨hexprs, -⟩ := List.append_inj hargs (by simpa only [List.length_map] using hlength)
      obtain ⟨zs, rfl, rfl, hzs⟩ := exists_pairs_of_map_eq hexprs
      have hagree : List.Forall₂ Operand.Agree ((zs.map Prod.fst).map Prod.snd)
          ((zs.map Prod.snd).map Prod.snd) := by
        simp only [List.forall₂_map_left_iff, List.forall₂_map_right_iff, List.forall₂_same]
        intro z hz hbound
        have hother := hoperands' z.2 (List.mem_map_of_mem hz)
        rw [← hzs z hz, ← hbound] at hother
        exact ih z.1 (List.mem_map_of_mem hz) hother
      exact hsignature.unique hsignature' hagree
  | call f args =>
    cases ht
    rfl
  | @object types members hmembers ih =>
    generalize hargs : members.map (fun m => (m.1, m.2.1)) = bs at ht
    cases ht with
    | object members' hmembers' =>
      obtain ⟨zs, rfl, rfl, hzs⟩ := exists_pairs_of_map_eq hargs
      rw [List.map_map, List.map_map]
      refine congrArg Ty.anonymous (List.map_congr_left fun z hz => ?_)
      obtain ⟨hname, hexpr⟩ := Prod.ext_iff.mp (hzs z hz)
      have hother := hmembers' z.2 (List.mem_map_of_mem hz)
      dsimp only at hname hexpr
      rw [← hexpr] at hother
      exact Prod.ext hname (ih z.1 (List.mem_map_of_mem hz) hother)
  | array s items =>
    cases ht
    rfl
  | list s items =>
    cases ht
    rfl
  | construct s bindings =>
    cases ht
    rfl

/-! ## What is evaluated does not matter -/

/-- Main statement: whatever the tests admit to be evaluated here, planning gives an expression one
type, and its plan one descriptor. -/
theorem planTyped_type_eq {c : Catalog} {admits admits' : Expr.LocalTest} {e : Expr}
    {x y : TypedPlan} (hx : e.planTyped c admits = .ok x) (hy : e.planTyped c admits' = .ok y) :
    x.type = y.type ∧ x.plan.type = y.plan.type := by
  obtain ⟨e₁, hfreeze, hplanned⟩ := planTyped_eq_ok.mp hx
  obtain ⟨e₂, hfreeze', hplanned'⟩ := planTyped_eq_ok.mp hy
  have htype : HasType c [] [] e x.type := hasType_of_freeze hfreeze hplanned
  have htype' : HasType c [] [] e y.type := hasType_of_freeze hfreeze' hplanned'
  have heq : x.type = y.type := htype.unique htype'
  exact ⟨heq, hplanned.type_eq.trans ((congrArg Ty.describe heq).trans hplanned'.type_eq.symm)⟩

/-- One and two, added. -/
def Expr.three : Expr := .binary .add (.literal (.int 1)) (.literal (.int 2))

/-- The sum is planned as a constant when it may be evaluated here and as an addition when not, with
one type and one descriptor. -/
theorem three_planTyped_type_eq :
    ∃ x y, Expr.three.planTyped Catalog.standard (fun _ => true) = .ok x ∧
      Expr.three.planTyped Catalog.standard (fun _ => false) = .ok y ∧
        x.plan = .constant (.int 3) (.core "Int64") ∧
          y.plan = .binary .add (.constant (.int 1) (.core "Int64"))
            (.constant (.int 2) (.core "Int64")) (.core "Int64") ∧
              x.type = y.type ∧ x.plan.type = y.plan.type :=
  have hhere : Expr.three.planTyped Catalog.standard (fun _ => true) = .ok _ := rfl
  have hthere : Expr.three.planTyped Catalog.standard (fun _ => false) = .ok _ := rfl
  ⟨_, _, hhere, hthere, rfl, rfl, planTyped_type_eq hhere hthere⟩

end QueryRelay
