import QueryRelay.Plan.Binding
import QueryRelay.Plan.Planning
import QueryRelay.Proofs.Expr.Parts
import QueryRelay.Proofs.Outcome

/-!
# Planning as a judgment

Planning as rules: which plan an expression has in a scope, and of which type. The rule of a query
operator is made of two relations without recursion, the signature of the operator, over the types
of its operands, and the stage that it builds, over their plans. Main statement: a draft gives a
plan exactly when the rules derive it.
-/

namespace QueryRelay

/-! ## Parameters -/

/-- The descriptor of a type is asked for when the type is concrete. -/
theorem Ty.toDescriptor_eq_ok {t : Ty} {d : Descriptor} :
    t.toDescriptor = .ok d ↔ t.isConcrete = true ∧ t.describe = d := by
  rw [toDescriptor]
  cases t.isConcrete <;> simp

/-- Parameters are planned one by one: each has a concrete type, which it declares or is bound to,
and the descriptor of that type. -/
theorem Draft.parameters_cons_eq_ok {name : String} {declared : Ty} {rest : List (String × Ty)}
    {bound : List Ty} {ps : List (Parameter × Ty)} :
    Draft.parameters ((name, declared) :: rest) bound = .ok ps ↔
      ∃ t tail, Draft.parameterType name declared bound.head? = .ok t ∧ t.isConcrete = true ∧
        Draft.parameters rest bound.tail = .ok tail ∧ ps = (⟨name, t.describe⟩, t) :: tail := by
  constructor
  · intro h
    obtain ⟨t, ht, h⟩ := Outcome.bind_eq_ok.mp h
    obtain ⟨d, hd, h⟩ := Outcome.bind_eq_ok.mp h
    obtain ⟨tail, htail, h⟩ := Outcome.bind_eq_ok.mp h
    cases h
    obtain ⟨hconcrete, rfl⟩ := Ty.toDescriptor_eq_ok.mp hd
    exact ⟨t, tail, ht, hconcrete, htail, rfl⟩
  · rintro ⟨t, tail, ht, hconcrete, htail, rfl⟩
    exact Outcome.bind_eq_ok.mpr ⟨t, ht, Outcome.bind_eq_ok.mpr
      ⟨_, Ty.toDescriptor_eq_ok.mpr ⟨hconcrete, rfl⟩, Outcome.bind_eq_ok.mpr ⟨tail, htail, rfl⟩⟩⟩

/-! ## Rules -/

/-- An operand: whether its parameters are bound, and to which types, and its own type. -/
abbrev Operand := List Ty × Ty

/-- The result type of a query operator over operands, its source first. An operand that is a lambda
has its parameters bound to the types of elements. -/
inductive QueryVerb.Signature : QueryVerb → List Operand → Ty → Prop
  /-- A predicate keeps the type of the source. -/
  | filter {s element test : Ty} (helement : s.element? = some element)
      (htest : Draft.isTest test = true) : Signature .filter [([], s), ([element], test)] s
  /-- A selector gives the elements of the result. -/
  | select {s element image : Ty} (helement : s.element? = some element) :
      Signature .select [([], s), ([element], image)] (.seq image)
  /-- A selector gives the sequences that are put together. -/
  | selectMany {s element image inner : Ty} (helement : s.element? = some element)
      (himage : image.element? = some inner) :
      Signature .selectMany [([], s), ([element], image)] (.seq inner)
  /-- A sort keeps the type of the source. -/
  | sort {verb : QueryVerb} {s element key : Ty} (isFirst : Bool) (direction : SortDirection)
      (hverb : verb = Plan.sortVerb isFirst direction) (helement : s.element? = some element) :
      Signature verb [([], s), ([element], key)] s
  /-- Leaving out elements keeps the type of the source. -/
  | skip {s element : Ty} (helement : s.element? = some element) : Signature .skip [([], s)] s
  /-- Keeping the first elements keeps the type of the source. -/
  | take {s element : Ty} (helement : s.element? = some element) : Signature .take [([], s)] s
  /-- Elements are grouped by a key. -/
  | groupBy {s element key : Ty} (helement : s.element? = some element) :
      Signature .groupBy [([], s), ([element], key)] (.seq (.group key element))
  /-- Images of elements are grouped by a key. -/
  | groupByElement {s element key image : Ty} (helement : s.element? = some element) :
      Signature .groupBy [([], s), ([element], key), ([element], image)]
        (.seq (.group key image))
  /-- A join has the elements that its result selector gives. -/
  | join {s element t inner outerKey innerKey image : Ty} (helement : s.element? = some element)
      (hinner : t.element? = some inner) :
      Signature .join
        [([], s), ([], t), ([element], outerKey), ([inner], innerKey), ([element, inner], image)]
        (.seq image)
  /-- Loading a navigation keeps the type of the source. -/
  | include {s element : Ty} (helement : s.element? = some element) : Signature .include [([], s)] s
  /-- Loading a further navigation keeps the type of the source. -/
  | thenInclude {s element : Ty} (helement : s.element? = some element) :
      Signature .thenInclude [([], s)] s
  /-- An aggregate without its optional predicate. -/
  | aggregate {s element : Ty} {func : Aggregate} (helement : s.element? = some element)
      (hfunc : func.takesPredicate = true) (hall : func ≠ .all) :
      Signature (.aggregate func) [([], s)] (func.predicateResult element)
  /-- An aggregate with a predicate. -/
  | aggregatePredicate {s element test : Ty} {func : Aggregate}
      (helement : s.element? = some element) (hfunc : func.takesPredicate = true)
      (htest : Draft.isTest test = true) :
      Signature (.aggregate func) [([], s), ([element], test)] (func.predicateResult element)
  /-- An aggregate without its optional selector. -/
  | aggregateElements {s element t : Ty} {func : Aggregate} (helement : s.element? = some element)
      (hfunc : func.takesPredicate = false) (ht : func.selectorResult element = .ok t) :
      Signature (.aggregate func) [([], s)] t
  /-- An aggregate with a selector. -/
  | aggregateSelector {s element image t : Ty} {func : Aggregate}
      (helement : s.element? = some element) (hfunc : func.takesPredicate = false)
      (ht : func.selectorResult image = .ok t) :
      Signature (.aggregate func) [([], s), ([element], image)] t

/-- The stage that a query operator builds from the plans of its operands and its further
arguments. Only a sort can be refined by a further key, and only an include by a further path. -/
inductive QueryVerb.Builds : QueryVerb → List Plan → List Expr → QueryOp Plan → Prop
  /-- The stage of a predicate. -/
  | filter {s p : Plan} {extra : List Expr} : Builds .filter [s, p] extra (.filter s p)
  /-- The stage of a selector. -/
  | select {s f : Plan} {extra : List Expr} : Builds .select [s, f] extra (.project s f false)
  /-- The stage of a selector of sequences. -/
  | selectMany {s f : Plan} {extra : List Expr} :
      Builds .selectMany [s, f] extra (.project s f true)
  /-- A primary key starts a sort. -/
  | orderBy {verb : QueryVerb} {s k : Plan} {extra : List Expr} (direction : SortDirection)
      (hverb : verb = Plan.sortVerb true direction) :
      Builds verb [s, k] extra (.sort s [.sortKey k direction])
  /-- A further key extends the sort before it. -/
  | thenBy {verb : QueryVerb} {s k : Plan} {keys : List Plan} {type : Descriptor}
      {extra : List Expr} (direction : SortDirection)
      (hverb : verb = Plan.sortVerb false direction) :
      Builds verb [.query (.sort s keys) type, k] extra
        (.sort s (keys ++ [.sortKey k direction]))
  /-- The stage of a constant number of elements to leave out. -/
  | skip {s : Plan} {e : Expr} {n : UInt64} {extra : List Expr}
      (hcount : Draft.constantCount .skip e = .ok n) : Builds .skip [s] (e :: extra) (.skip s n)
  /-- The stage of a constant number of elements to keep. -/
  | take {s : Plan} {e : Expr} {n : UInt64} {extra : List Expr}
      (hcount : Draft.constantCount .take e = .ok n) : Builds .take [s] (e :: extra) (.take s n)
  /-- The stage of a grouping. -/
  | groupBy {s k : Plan} : Builds .groupBy [s, k] [] (.groupBy s k none)
  /-- The stage of a grouping of images. -/
  | groupByElement {s k f : Plan} {extra : List Expr} :
      Builds .groupBy [s, k, f] extra (.groupBy s k (some f))
  /-- The stage of a join. -/
  | join {o i ok ik r : Plan} {extra : List Expr} :
      Builds .join [o, i, ok, ik, r] extra (.join o i ok ik r)
  /-- The stage of a navigation. -/
  | include {s : Plan} {e : Expr} {path : String} {extra : List Expr}
      (hpath : Draft.pathArgument e = .ok path) :
      Builds .include [s] (e :: extra) (.include s path)
  /-- A further navigation extends the one before it. -/
  | thenInclude {s : Plan} {path tail : String} {type : Descriptor} {e : Expr} {extra : List Expr}
      (hpath : e.navigationPath = .ok tail) :
      Builds .thenInclude [.query (.include s path) type] (e :: extra)
        (.include s (path ++ "." ++ tail))
  /-- The stage of an aggregate without an argument. -/
  | aggregate {s : Plan} {func : Aggregate} :
      Builds (.aggregate func) [s] [] (.aggregate s func none)
  /-- The stage of an aggregate with an argument. -/
  | aggregateArgument {s a : Plan} {func : Aggregate} {extra : List Expr} :
      Builds (.aggregate func) [s, a] extra (.aggregate s func (some a))

/-- What holds of the plans of the operands holds of the sub-plans of the stage that they build, if
it passes from a stage to its sub-plans and from an operand to the sort key that it becomes. -/
theorem QueryVerb.Builds.forall_children {Q : Plan → Prop} {verb : QueryVerb} {plans : List Plan}
    {extra : List Expr} {op : QueryOp Plan} (h : verb.Builds plans extra op)
    (hplans : ∀ q ∈ plans, Q q) (hstage : ∀ op t, Q (.query op t) → ∀ q ∈ op.children, Q q)
    (hkey : ∀ k ∈ plans, ∀ d, Q (.sortKey k d)) : ∀ q ∈ op.children, Q q := by
  cases h with
  | @orderBy verb s k extra direction hverb =>
    have hs := hplans s (List.mem_cons_self ..)
    refine List.forall_mem_cons.mpr ⟨hs, List.forall_mem_singleton.mpr ?_⟩
    exact hkey k (by simp) direction
  | @thenBy verb s k keys type extra direction hverb =>
    have hsorted : ∀ q ∈ s :: keys, Q q := hstage _ _ (hplans _ (List.mem_cons_self ..))
    rw [QueryOp.children, ← List.cons_append]
    refine List.forall_mem_append.mpr ⟨hsorted, List.forall_mem_singleton.mpr ?_⟩
    exact hkey k (by simp) direction
  | @thenInclude s path tail type e extra hpath =>
    have hloaded : ∀ q ∈ [s], Q q := hstage _ _ (List.forall_mem_singleton.mp hplans)
    exact hloaded
  | _ => exact hplans

/-- A planned part of an expression: the types that its parameters are bound to, the expression, its
plan and its type. -/
structure Piece where
  /-- The types that the parameters of a lambda are bound to; none for a value. -/
  bound : List Ty
  /-- The expression. -/
  expr : Expr
  /-- Its plan. -/
  plan : Plan
  /-- Its type, for a lambda that of the body. -/
  type : Ty

/-- A piece as an operand. -/
def Piece.operand (x : Piece) : Operand := (x.bound, x.type)

/-- A piece as a plan with its type. -/
def Piece.typed (x : Piece) : TypedPlan := ⟨x.plan, x.type⟩

/-- The scope of a body below parameters. -/
def TypeScope.extend (scope : TypeScope) (params : List (Parameter × Ty)) : TypeScope :=
  (params.map fun p => (p.1.name, p.2)).reverse ++ scope

/-- In a scope, and with its parameters bound to types, an expression has a plan and a type. -/
inductive Planned (c : Catalog) : TypeScope → List Ty → Expr → Plan → Ty → Prop
  /-- A constant stands for itself. -/
  | constant {scope : TypeScope} (v : Value) {t : Ty} (ht : t.isConcrete = true) :
      Planned c scope [] (.constant v t) (.constant v t.describe) t
  /-- A table is the innermost stage of a query. -/
  | source {scope : TypeScope} {t : Ty} (ht : t.isConcrete = true) :
      Planned c scope [] (.source t) (.query (.source t.describe) (Ty.seq t).describe) (.seq t)
  /-- A parameter has the type that the scope gives it. -/
  | parameter {scope : TypeScope} {name : String} (declared : Ty) {t : Ty}
      (hscope : List.lookup name scope = some t) (ht : t.isConcrete = true) :
      Planned c scope [] (.parameter name declared) (.parameter ⟨name, t.describe⟩) t
  /-- A member has the type that the catalog gives it. -/
  | member {scope : TypeScope} {e : Expr} {p : Plan} {s t : Ty} {name : String}
      (htarget : Planned c scope [] e p s) (htype : c.typeOfMember s name = .ok t)
      (hs : s.isConcrete = true) (ht : t.isConcrete = true) :
      Planned c scope [] (.member e name) (.member p s.describe name t.describe) t
  /-- An operator on one operand. -/
  | unary {scope : TypeScope} {op : UnaryOp} {e : Expr} {p : Plan} {s t : Ty}
      (hoperand : Planned c scope [] e p s) (htype : op.resultType s = .ok t)
      (ht : t.isConcrete = true) : Planned c scope [] (.unary op e) (.unary op p t.describe) t
  /-- An operator on two operands. -/
  | binary {scope : TypeScope} {op : BinaryOp} {l r : Expr} {p q : Plan} {s t u : Ty}
      (hleft : Planned c scope [] l p s) (hright : Planned c scope [] r q t)
      (htype : op.resultType s t = .ok u) (hu : u.isConcrete = true) :
      Planned c scope [] (.binary op l r) (.binary op p q u.describe) u
  /-- A conditional has the common type of its branches. -/
  | conditional {scope : TypeScope} {test l r : Expr} {p q q' : Plan} {s t u v : Ty}
      (htest : Planned c scope [] test p s) (hleft : Planned c scope [] l q t)
      (hright : Planned c scope [] r q' u) (htype : Ty.unify t u = .ok v)
      (hv : v.isConcrete = true) :
      Planned c scope [] (.conditional test l r) (.conditional p q q' v.describe) v
  /-- The body of a lambda sees its parameters. -/
  | lambda {scope : TypeScope} {bound : List Ty} {params : List (String × Ty)}
      {ps : List (Parameter × Ty)} {body : Expr} {p : Plan} {t : Ty}
      (harity : bound = [] ∨ bound.length = params.length)
      (hparams : Draft.parameters params bound = .ok ps)
      (hbody : Planned c (scope.extend ps) [] body p t) (ht : t.isConcrete = true) :
      Planned c scope bound (.lambda params body) (.lambda (ps.map Prod.fst) p t.describe) t
  /-- A query operator over its operands. -/
  | query {scope : TypeScope} {verb : QueryVerb} (operands : List Piece) {extra : List Expr}
      {op : QueryOp Plan} {t : Ty}
      (hoperands : ∀ x ∈ operands, Planned c scope x.bound x.expr x.plan x.type)
      (hsignature : verb.Signature (operands.map Piece.operand) t)
      (hbuilds : verb.Builds (operands.map Piece.plan) extra op) (ht : t.isConcrete = true) :
      Planned c scope [] (.query verb (operands.map Piece.expr ++ extra)) (.query op t.describe) t
  /-- A call has the type that the function declares. -/
  | call {scope : TypeScope} {f : Function} (args : List Piece)
      (hargs : ∀ x ∈ args, Planned c scope [] x.expr x.plan x.type)
      (hdeclaring : f.declaring.isConcrete = true) (ht : f.returns.isConcrete = true) :
      Planned c scope [] (.call f (args.map Piece.expr))
        (.call f.declaring.describe f.name (args.map Piece.plan) f.returns.describe) f.returns
  /-- An anonymous object has the members that it is given. -/
  | object {scope : TypeScope} (members : List (String × Piece))
      (hmembers : ∀ m ∈ members, Planned c scope [] m.2.expr m.2.plan m.2.type) {t : Ty}
      (heq : t = .anonymous (members.map fun m => (m.1, m.2.type))) (ht : t.isConcrete = true) :
      Planned c scope [] (.object (members.map fun m => (m.1, m.2.expr)))
        (.object (members.map Prod.fst) (members.map fun m => m.2.plan) t.describe) t
  /-- An array has the element type that it declares. -/
  | array {scope : TypeScope} {t : Ty} (items : List Piece)
      (hitems : ∀ x ∈ items, Planned c scope [] x.expr x.plan x.type)
      (ht : (Ty.seq t).isConcrete = true) :
      Planned c scope [] (.array t (items.map Piece.expr))
        (.array (items.map Piece.plan) (Ty.seq t).describe) (.seq t)
  /-- A list has the element type that it declares. -/
  | list {scope : TypeScope} {t : Ty} (items : List Piece)
      (hitems : ∀ x ∈ items, Planned c scope [] x.expr x.plan x.type)
      (ht : (Ty.seq t).isConcrete = true) :
      Planned c scope [] (.list t (items.map Piece.expr))
        (.list (items.map Piece.plan) (Ty.seq t).describe) (.seq t)
  /-- A record has the type that it declares, of which every name that it binds is a member. -/
  | construct {scope : TypeScope} {t : Ty} (bindings : List (String × Piece))
      (hbindings : ∀ b ∈ bindings, Planned c scope [] b.2.expr b.2.plan b.2.type)
      (hmembers : ∀ b ∈ bindings, ∃ u, c.typeOfMember t b.1 = .ok u)
      (ht : t.isConcrete = true) :
      Planned c scope [] (.construct t (bindings.map fun b => (b.1, b.2.expr)))
        (.construct (bindings.map fun b => (b.1, b.2.plan)) t.describe) t

/-- The descriptor on a plan is that of the static type. -/
theorem Planned.type_eq {c : Catalog} {scope : TypeScope} {bound : List Ty} {e : Expr} {p : Plan}
    {t : Ty} (h : Planned c scope bound e p t) : p.type = t.describe := by
  cases h <;> rfl

end QueryRelay
