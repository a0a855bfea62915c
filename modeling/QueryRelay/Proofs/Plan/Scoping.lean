import QueryRelay.Proofs.Plan.Translation
import QueryRelay.Proofs.Plan.Validation

/-!
# What planning makes

A plan comes from planning in one piece. Its parameters are in scope, each with the descriptor of
the lambda that binds it; its stages apply lambdas to elements; and it is in shape. Planning keeps a
scope with types while it goes down, and two operators rewrite the stage before them; the properties
pass from the plans of the operands to the stage in either case.
-/

namespace QueryRelay

variable {c : Catalog} {admits : Expr.LocalTest} {e : Expr} {scope : TypeScope} {bound : List Ty}
  {p : Plan} {t : Ty}

/-! ## Parameters in scope -/

namespace Plan

/-- The parameters that a node binds in its sub-plans, the last one first. -/
def binders : Plan → List Parameter
  | .lambda params _ _ => params.reverse
  | _ => []

/-- A plan below binders, the innermost first, each of whose parameters is bound there or in the
plan, and has the descriptor of the innermost binder of its name. -/
inductive Scoped : List Parameter → Plan → Prop
  /-- The innermost binder of the name is like the parameter. -/
  | parameter {outer : List Parameter} {x : Parameter}
      (hbinder : (outer.find? fun y => y.name == x.name) = some x) : Scoped outer (.parameter x)
  /-- The sub-plans of any other node are below its binders. -/
  | node {outer : List Parameter} {p : Plan} (hroot : ∀ x, p ≠ .parameter x)
      (hchildren : ∀ q ∈ p.children, Scoped (p.binders ++ outer) q) : Scoped outer p

/-- The sub-plans of a stage see what the stage sees. -/
theorem Scoped.stage {outer : List Parameter} {op : QueryOp Plan} {d : Descriptor}
    (h : Scoped outer (.query op d)) : ∀ q ∈ op.children, Scoped outer q := by
  cases h with
  | node _ hchildren => exact hchildren

end Plan

/-- The parameters in scope with their descriptors. -/
def TypeScope.parameters (scope : TypeScope) : List Parameter :=
  scope.map fun x => ⟨x.1, x.2.describe⟩

/-- A name that is looked up in the scope is that of the innermost parameter. -/
theorem TypeScope.find?_parameters {name : String} (h : List.lookup name scope = some t) :
    (scope.parameters.find? fun y => y.name == name) = some ⟨name, t.describe⟩ := by
  induction scope with
  | nil => cases h
  | cons x rest ih =>
    obtain ⟨n, u⟩ := x
    rw [TypeScope.parameters, List.map_cons, List.find?_cons]
    rw [List.lookup_cons] at h
    by_cases hname : name = n
    · subst hname
      rw [beq_self_eq_true] at h ⊢
      cases h
      rfl
    · rw [beq_false_of_ne hname] at h
      rw [beq_false_of_ne (Ne.symm hname)]
      exact ih h

/-- Parameters have the descriptors of the types that they are given. -/
theorem Draft.describe_of_parameters {params : List (String × Ty)} {ps : List (Parameter × Ty)}
    (h : Draft.parameters params bound = .ok ps) :
    ps.length = params.length ∧ ∀ x ∈ ps, x.1.type = x.2.describe := by
  induction params generalizing bound ps with
  | nil =>
    cases h
    exact ⟨rfl, List.forall_mem_nil _⟩
  | cons x rest ih =>
    obtain ⟨t, tail, -, -, htail, rfl⟩ := Draft.parameters_cons_eq_ok.mp h
    obtain ⟨hlength, hdescribe⟩ := ih htail
    exact ⟨congrArg (· + 1) hlength, List.forall_mem_cons.mpr ⟨rfl, hdescribe⟩⟩

/-- Below the parameters of a lambda the scope starts with them, the last one first. -/
theorem TypeScope.parameters_extend {ps : List (Parameter × Ty)}
    (h : ∀ x ∈ ps, x.1.type = x.2.describe) :
    (scope.extend ps).parameters = (ps.map Prod.fst).reverse ++ scope.parameters := by
  have hps : (ps.map fun x => (⟨x.1.name, x.2.describe⟩ : Parameter)) = ps.map Prod.fst :=
    List.map_congr_left fun x hx => by rw [← h x hx]
  rw [extend, parameters, parameters, List.map_append, List.map_reverse, List.map_map, ← hps]
  rfl

/-- The parameters of a plan are in scope. -/
theorem Planned.scoped (h : Planned c scope bound e p t) : p.Scoped scope.parameters := by
  induction h with
  | parameter _ hscope => exact .parameter (TypeScope.find?_parameters hscope)
  | constant | source => exact .node nofun (List.forall_mem_nil _)
  | member _ _ _ _ ih | unary _ _ _ ih => exact .node nofun (List.forall_mem_singleton.mpr ih)
  | binary _ _ _ _ ihl ihr =>
    exact .node nofun (List.forall_mem_cons.mpr ⟨ihl, List.forall_mem_singleton.mpr ihr⟩)
  | conditional _ _ _ _ _ iht ihl ihr =>
    exact .node nofun (List.forall_mem_cons.mpr
      ⟨iht, List.forall_mem_cons.mpr ⟨ihl, List.forall_mem_singleton.mpr ihr⟩⟩)
  | lambda _ hparams _ _ ih =>
    rw [TypeScope.parameters_extend (Draft.describe_of_parameters hparams).2] at ih
    exact .node nofun (List.forall_mem_singleton.mpr ih)
  | query operands _ _ hbuilds _ ih =>
    have hplans := List.forall_mem_map.mpr ih
    refine .node nofun (hbuilds.forall_children hplans (fun _ _ => Plan.Scoped.stage) ?_)
    exact fun k hk d => .node nofun (List.forall_mem_singleton.mpr (hplans k hk))
  | call args _ _ _ ih | array args _ _ ih | list args _ _ ih =>
    exact .node nofun (List.forall_mem_map.mpr ih)
  | object members _ _ _ ih => exact .node nofun (List.forall_mem_map.mpr ih)
  | construct bindings _ _ _ ih =>
    refine .node nofun ?_
    rw [Plan.children, List.map_map]
    exact List.forall_mem_map.mpr ih

/-! ## Nodes in shape -/

/-- The plan of an operand takes as many parameters as are bound, if any are. -/
def Operand.TakenBy (x : Operand) (q : Plan) : Prop := ∀ n, x.1.length = n + 1 → q.Takes (n + 1)

/-- A plan takes the parameters that it is planned with. -/
theorem Planned.takenBy (h : Planned c scope bound e p t) : Operand.TakenBy (bound, t) p := by
  intro n hn
  cases h with
  | lambda harity hparams _ _ =>
    have hlength := (Draft.describe_of_parameters hparams).1
    have hbound := harity.resolve_left (List.ne_nil_of_length_eq_add_one hn)
    exact (List.length_map _).trans (hlength.trans (hbound.symm.trans hn))
  | _ => cases hn

namespace QueryVerb

variable {verb : QueryVerb} {plans : List Plan} {extra : List Expr} {op : QueryOp Plan}
  {x y z v w : Operand}

/-- Of two operands the second is a lambda of one parameter. -/
theorem Signature.length_two (h : verb.Signature [x, y] t) : y.1.length = 1 := by
  cases h <;> rfl

/-- Of three operands the others are lambdas of one parameter. -/
theorem Signature.length_three (h : verb.Signature [x, y, z] t) :
    y.1.length = 1 ∧ z.1.length = 1 := by
  cases h
  exact ⟨rfl, rfl⟩

/-- Of five operands the last three are lambdas, of one, one and two parameters. -/
theorem Signature.length_five (h : verb.Signature [x, y, z, v, w] t) :
    z.1.length = 1 ∧ v.1.length = 1 ∧ w.1.length = 2 := by
  cases h
  exact ⟨rfl, rfl, rfl⟩

/-- A stage has the shape of its kind if the stages that it extends have. -/
theorem Builds.shapedAt (h : verb.Builds plans extra op) (hplans : ∀ q ∈ plans, q.ShapedAt)
    (d : Descriptor) : (Plan.query op d).ShapedAt := by
  cases h with
  | @orderBy verb s k extra direction hverb =>
    exact ⟨List.cons_ne_nil _ _, List.forall_mem_singleton.mpr rfl⟩
  | @thenBy verb s k keys type extra direction hverb =>
    obtain ⟨-, hkeys⟩ := hplans _ (List.mem_cons_self ..)
    exact ⟨List.append_ne_nil_of_right_ne_nil _ (List.cons_ne_nil _ _),
      List.forall_mem_append.mpr ⟨hkeys, List.forall_mem_singleton.mpr rfl⟩⟩
  | skip hcount | take hcount =>
    obtain ⟨m, u, -, hliteral⟩ := Plan.countLiteral_eq_ok hcount
    exact Plan.exists_countLiteral.mp ⟨_, hliteral⟩
  | _ => trivial

/-- A stage applies lambdas if the stages that it extends do. -/
theorem Builds.appliesAt {operands : List Operand} (h : verb.Builds plans extra op)
    (hsignature : verb.Signature operands t)
    (htakes : List.Forall₂ Operand.TakenBy operands plans) (hplans : ∀ q ∈ plans, q.AppliesAt)
    (d : Descriptor) : (Plan.query op d).AppliesAt := by
  cases h with
  | filter | select | selectMany =>
    obtain _ | ⟨-, _ | ⟨hf, _ | _⟩⟩ := htakes
    exact hf 0 hsignature.length_two
  | @orderBy verb s k extra direction hverb =>
    obtain _ | ⟨-, _ | ⟨hk, _ | _⟩⟩ := htakes
    intro key direction' hkey
    cases List.mem_singleton.mp hkey
    exact hk 0 hsignature.length_two
  | @thenBy verb s k keys type extra direction hverb =>
    obtain _ | ⟨-, _ | ⟨hk, _ | _⟩⟩ := htakes
    have hkeys := hplans _ (List.mem_cons_self ..)
    intro key direction' hkey
    rcases List.mem_append.mp hkey with hkey | hkey
    · exact hkeys key direction' hkey
    · cases List.mem_singleton.mp hkey
      exact hk 0 hsignature.length_two
  | groupBy =>
    obtain _ | ⟨-, _ | ⟨hk, _ | _⟩⟩ := htakes
    exact ⟨hk 0 hsignature.length_two, nofun⟩
  | groupByElement =>
    obtain _ | ⟨-, _ | ⟨hk, _ | ⟨hf, _ | _⟩⟩⟩ := htakes
    obtain ⟨hkey, helement⟩ := hsignature.length_three
    refine ⟨hk 0 hkey, ?_⟩
    rintro f ⟨⟩
    exact hf 0 helement
  | join =>
    obtain _ | ⟨-, _ | ⟨-, _ | ⟨hok, _ | ⟨hik, _ | ⟨hr, _ | _⟩⟩⟩⟩⟩ := htakes
    obtain ⟨houter, hinner, hresult⟩ := hsignature.length_five
    exact ⟨hok 0 houter, hik 0 hinner, hr 1 hresult⟩
  | aggregate => exact nofun
  | aggregateArgument =>
    obtain _ | ⟨-, _ | ⟨hf, _ | _⟩⟩ := htakes
    rintro f ⟨⟩
    exact hf 0 hsignature.length_two
  | _ => trivial

/-- No sort key is an operand of a stage if none is one of the operands that it is built from or of
those of the stages that it extends. -/
theorem Builds.isSortKey_operands (h : verb.Builds plans extra op)
    (hplans : ∀ q ∈ plans, q.isSortKey = false)
    (hoperands : ∀ q ∈ plans, ∀ r ∈ q.operands, r.isSortKey = false) :
    ∀ r ∈ op.operands, r.isSortKey = false := by
  cases h with
  | orderBy direction hverb =>
    exact List.forall_mem_singleton.mpr (hplans _ (List.mem_cons_self ..))
  | thenBy direction hverb => exact hoperands _ (List.mem_cons_self ..)
  | thenInclude hpath => exact hoperands _ (List.mem_cons_self ..)
  | _ => exact hplans

end QueryVerb

namespace Plan

/-- A node as planning makes it. -/
structure FormedAt (p : Plan) : Prop where
  /-- No sort key stands where nothing is sorted. -/
  operands : ∀ q ∈ p.operands, q.isSortKey = false
  /-- The node is in shape. -/
  shaped : p.ShapedAt
  /-- It applies lambdas to elements. -/
  applies : p.AppliesAt

/-- A plan as planning makes it. -/
def Formed (p : Plan) : Prop := p.isSortKey = false ∧ ∀ q ∈ p.nodes, q.FormedAt

/-- A plan is as planning makes it if its direct sub-plans are and its root is in shape. -/
theorem Formed.of_children (hroot : p.isSortKey = false) (hshaped : p.ShapedAt)
    (happlies : p.AppliesAt) (hchildren : ∀ q ∈ p.children, q.Formed) : p.Formed := by
  refine ⟨hroot, forall_mem_nodes.mpr ⟨⟨fun q hq => ?_, hshaped, happlies⟩, fun q hq => ?_⟩⟩
  · exact (hchildren q (mem_children.mpr (.inl hq))).1
  · exact (hchildren q hq).2

end Plan

/-- A stage is as planning makes it if its operands are. -/
theorem QueryVerb.Builds.formed {verb : QueryVerb} {plans : List Plan} {extra : List Expr}
    {op : QueryOp Plan} {operands : List Operand} (h : verb.Builds plans extra op)
    (hsignature : verb.Signature operands t)
    (htakes : List.Forall₂ Operand.TakenBy operands plans) (hplans : ∀ q ∈ plans, q.Formed)
    (d : Descriptor) : (Plan.query op d).Formed := by
  have hnodes : ∀ q ∈ plans, ∀ r ∈ q.nodes, r.FormedAt := fun q hq => (hplans q hq).2
  have hroots : ∀ q ∈ plans, q.FormedAt := fun q hq => hnodes q hq q (Plan.mem_nodes_self q)
  refine ⟨rfl, Plan.forall_mem_nodes.mpr ⟨⟨?_, ?_, ?_⟩, ?_⟩⟩
  · exact h.isSortKey_operands (fun q hq => (hplans q hq).1) fun q hq => (hroots q hq).operands
  · exact h.shapedAt (fun q hq => (hroots q hq).shaped) d
  · exact h.appliesAt hsignature htakes (fun q hq => (hroots q hq).applies) d
  -- The keys of a sort are not as planning makes a plan, but their nodes are.
  · refine h.forall_children hnodes (fun op d h => (Plan.forall_mem_nodes.mp h).2) fun k hk d => ?_
    refine Plan.forall_mem_nodes.mpr ⟨⟨?_, trivial, trivial⟩, ?_⟩
    · exact List.forall_mem_singleton.mpr (hplans k hk).1
    · exact List.forall_mem_singleton.mpr (hnodes k hk)

/-- What the rules derive is a plan as planning makes it. -/
theorem Planned.formed (h : Planned c scope bound e p t) : p.Formed := by
  induction h with
  | parameter | constant | source =>
    exact .of_children rfl trivial trivial (List.forall_mem_nil _)
  | member _ _ _ _ ih | unary _ _ _ ih | lambda _ _ _ _ ih =>
    exact .of_children rfl trivial trivial (List.forall_mem_singleton.mpr ih)
  | binary _ _ _ _ ihl ihr =>
    exact .of_children rfl trivial trivial
      (List.forall_mem_cons.mpr ⟨ihl, List.forall_mem_singleton.mpr ihr⟩)
  | conditional _ _ _ _ _ iht ihl ihr =>
    exact .of_children rfl trivial trivial (List.forall_mem_cons.mpr
      ⟨iht, List.forall_mem_cons.mpr ⟨ihl, List.forall_mem_singleton.mpr ihr⟩⟩)
  | query operands hoperands hsignature hbuilds _ ih =>
    refine hbuilds.formed hsignature ?_ (List.forall_mem_map.mpr ih) _
    rw [List.forall₂_map_left_iff, List.forall₂_map_right_iff, List.forall₂_same]
    exact fun x hx => (hoperands x hx).takenBy
  | call args _ _ _ ih | array args _ _ ih | list args _ _ ih =>
    exact .of_children rfl trivial trivial (List.forall_mem_map.mpr ih)
  | object members _ _ _ ih =>
    refine .of_children rfl ?_ trivial (List.forall_mem_map.mpr ih)
    rw [Plan.ShapedAt, List.length_map, List.length_map]
  | construct bindings _ _ _ ih =>
    refine .of_children rfl trivial trivial ?_
    rw [Plan.children, List.map_map]
    exact List.forall_mem_map.mpr ih

/-- Main statement: in a plan that planning makes every parameter has the descriptor of the
innermost lambda that binds its name, every stage applies lambdas of the number of parameters that
its kind asks for, every node is in shape, and the descriptor of the whole is that of the static
type. -/
theorem planTyped_scoped_shaped {x : TypedPlan} (h : e.planTyped c admits = .ok x) :
    x.plan.Scoped [] ∧ (∀ q ∈ x.plan.nodes, q.AppliesAt) ∧ x.plan.WellShaped ∧
      x.plan.type = x.type.describe := by
  obtain ⟨e', -, hplanned⟩ := planTyped_eq_ok.mp h
  obtain ⟨hroot, hnodes⟩ := hplanned.formed
  refine ⟨hplanned.scoped, fun q hq => (hnodes q hq).applies, ?_, hplanned.type_eq⟩
  exact ⟨hroot, fun q hq => (hnodes q hq).operands, fun q hq => (hnodes q hq).shaped⟩

/-- The plan of the filtered table is such a plan. -/
theorem adults_planTyped_scoped_shaped :
    ∃ x, Expr.adults.planTyped Catalog.people (fun _ => true) = .ok x ∧ x.plan.Scoped [] ∧
      (∀ q ∈ x.plan.nodes, q.AppliesAt) ∧ x.plan.WellShaped ∧
        x.plan.type = x.type.describe :=
  have hplan : Expr.adults.planTyped Catalog.people (fun _ => true) = .ok _ := rfl
  ⟨_, hplan, planTyped_scoped_shaped hplan⟩

end QueryRelay
