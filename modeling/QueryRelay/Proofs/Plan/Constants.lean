import QueryRelay.Proofs.Eval.Heredity
import QueryRelay.Proofs.Plan.Nodes
import QueryRelay.Proofs.Plan.Translation

/-!
# Conditions on the values that a query carries

An expression carries the values of its constants, and the functions that it calls may make others.
Planning keeps the first, and binding the plan to a catalog exchanges the second for those of the
catalog, which may be another one. Main statement: a hereditary condition that holds of the rows of
the tables, of the values that an expression carries and of what functions make of such values holds
of the value that the expression has after it was planned and bound.
-/

namespace QueryRelay

open Value (Hereditary)

variable {P : Value → Prop} {c : Catalog} {admits : Expr.LocalTest} {data : DataSource}
  {e e' : Expr}

/-! ## Expressions -/

/-- A function makes values with a property from values with the property. -/
def Function.Keeps (P : Value → Prop) (f : Function) : Prop :=
  ∀ args, (∀ v ∈ args, P v) → ∀ v, f.run args = .ok v → P v

namespace Expr

/-- At its root an expression carries a value with the property, or calls a function that keeps
it. -/
def CarriesAt (P : Value → Prop) : Expr → Prop
  | .constant v _ | .captured _ _ v => P v
  | .call f _ => f.Keeps P
  | _ => True

/-- What an expression carries it brings in, and the rows that it reads. -/
theorem bringsAt_of_carriesAt (hrows : ∀ t rows, data t = .ok rows → ∀ row ∈ rows, P row)
    (h : e.Every (CarriesAt P)) : e.Every (BringsAt P data) := by
  intro p hp
  have hat := h p hp
  cases p with
  | source t => exact hrows t
  | _ => exact hat

/-- Rebuilding an expression keeps what it carries at its root. -/
theorem carriesAt_of_mapChildrenM {f : Expr → Except Error Expr} (h : e.mapChildrenM f = .ok e')
    (he : CarriesAt P e) : CarriesAt P e' := by
  cases e with
  | constant | captured | source | parameter =>
    cases h
    exact he
  | binary op l r =>
    obtain ⟨x, -, h⟩ := Outcome.bind_eq_ok.mp h
    obtain ⟨y, -, h⟩ := Outcome.bind_eq_ok.mp h
    cases h
    trivial
  | conditional t p q =>
    obtain ⟨x, -, h⟩ := Outcome.bind_eq_ok.mp h
    obtain ⟨y, -, h⟩ := Outcome.bind_eq_ok.mp h
    obtain ⟨z, -, h⟩ := Outcome.bind_eq_ok.mp h
    cases h
    trivial
  | call f args =>
    obtain ⟨xs, -, h⟩ := Outcome.bind_eq_ok.mp h
    cases h
    exact he
  | _ =>
    obtain ⟨x, -, h⟩ := Outcome.bind_eq_ok.mp h
    cases h
    trivial

/-- The values that freezing evaluates have the property when those that it starts from have. -/
theorem carriesAt_of_freeze (hP : Hereditary P) (he : e.Every (CarriesAt P))
    (h : e.freeze c admits = .ok e') : e'.Every (CarriesAt P) := by
  induction e using induct_children generalizing e' with
  | h e ih =>
    rcases freeze_eq_ok_cases h with ⟨-, h⟩ | ⟨-, h⟩
    · obtain ⟨t, v, -, hv, rfl⟩ := toConstant_eq_ok.mp h
      have hrows : ∀ t rows, Store.empty.elements t = .ok rows → ∀ row ∈ rows, P row := by
        intro t rows hrows
        cases t with
        | record => cases hrows
        | _ => cases hrows
      have hvalue : P v := evaluate_hereditary hP (bringsAt_of_carriesAt hrows he) hv
      exact every_iff.mpr ⟨hvalue, List.forall_mem_nil _⟩
    · obtain ⟨-, hchildren⟩ := mapChildrenM_eq_ok.mp h
      obtain ⟨hroot, hparts⟩ := every_iff.mp he
      refine every_iff.mpr ⟨carriesAt_of_mapChildrenM h hroot, fun q' hq' => ?_⟩
      obtain ⟨q, hq, hfreeze⟩ := exists_of_forall₂_of_mem hchildren hq'
      exact ih q hq (hparts q hq) hfreeze

end Expr

/-! ## Plans -/

/-- All constants of a plan have the property. -/
def Plan.Carries (P : Value → Prop) (p : Plan) : Prop :=
  ∀ v d, .constant v d ∈ p.nodes → P v

/-- A plan that is no constant carries what its direct sub-plans carry. -/
theorem Plan.carries_of_children {p : Plan} (hroot : ∀ v d, p = .constant v d → P v)
    (hchildren : ∀ q ∈ p.children, q.Carries P) : p.Carries P := by
  intro v d hnode
  rcases Plan.mem_nodes.mp hnode with heq | ⟨q, hq, hnode⟩
  · exact hroot v d heq.symm
  · exact hchildren q hq v d hnode

/-- The direct sub-plans carry no more than the plan. -/
theorem Plan.Carries.child {p q : Plan} (h : p.Carries P) (hq : q ∈ p.children) : q.Carries P :=
  fun v d hnode => h v d (Plan.mem_nodes.mpr (.inr ⟨q, hq, hnode⟩))

/-- The stage of a query operator carries what the plans of its operands carry. -/
theorem QueryVerb.Builds.carries {verb : QueryVerb} {plans : List Plan} {extra : List Expr}
    {op : QueryOp Plan} (h : verb.Builds plans extra op) (hplans : ∀ q ∈ plans, q.Carries P) :
    ∀ q ∈ op.children, q.Carries P := by
  refine h.forall_children hplans (fun op t hstage q hq => hstage.child hq) fun k hk d => ?_
  exact Plan.carries_of_children (by simp) (List.forall_mem_singleton.mpr (hplans k hk))

/-- A plan carries what the expression carries that it was made from. -/
theorem Planned.carries {scope : TypeScope} {bound : List Ty} {p : Plan} {t : Ty}
    (h : Planned c scope bound e p t) (he : e.Every (Expr.CarriesAt P)) : p.Carries P := by
  induction h with
  | constant v ht =>
    refine Plan.carries_of_children ?_ (List.forall_mem_nil _)
    rintro w d heq
    cases heq
    exact (Expr.every_iff.mp he).1
  | source | parameter => exact Plan.carries_of_children (by simp) (List.forall_mem_nil _)
  | member _ _ _ _ ih | unary _ _ _ ih | lambda _ _ _ _ ih =>
    have hpart := ih ((Expr.every_iff.mp he).2 _ (List.mem_singleton_self _))
    exact Plan.carries_of_children (by simp) (List.forall_mem_singleton.mpr hpart)
  | binary _ _ _ _ ihl ihr =>
    have hparts := (Expr.every_iff.mp he).2
    refine Plan.carries_of_children (by simp) ?_
    exact List.forall_mem_cons.mpr ⟨ihl (hparts _ (by simp [Expr.children])),
      List.forall_mem_singleton.mpr (ihr (hparts _ (by simp [Expr.children])))⟩
  | conditional _ _ _ _ _ iht ihl ihr =>
    have hparts := (Expr.every_iff.mp he).2
    refine Plan.carries_of_children (by simp) ?_
    exact List.forall_mem_cons.mpr ⟨iht (hparts _ (by simp [Expr.children])),
      List.forall_mem_cons.mpr ⟨ihl (hparts _ (by simp [Expr.children])),
        List.forall_mem_singleton.mpr (ihr (hparts _ (by simp [Expr.children])))⟩⟩
  | query operands _ _ hbuilds _ ih =>
    have hparts := (Expr.every_iff.mp he).2
    refine Plan.carries_of_children (by simp)
      (hbuilds.carries (List.forall_mem_map.mpr fun x hx => ?_))
    exact ih x hx (hparts _ (List.mem_append_left _ (List.mem_map_of_mem hx)))
  | call args _ _ _ ih | array args _ _ ih | list args _ _ ih =>
    have hparts := (Expr.every_iff.mp he).2
    refine Plan.carries_of_children (by simp) (List.forall_mem_map.mpr fun x hx => ?_)
    exact ih x hx (hparts _ (List.mem_map_of_mem hx))
  | object members _ _ _ ih =>
    have hparts := (Expr.every_iff.mp he).2
    refine Plan.carries_of_children (by simp) (List.forall_mem_map.mpr fun m hm => ?_)
    exact ih m hm (hparts _ (List.mem_map_of_mem (List.mem_map_of_mem hm)))
  | construct bindings _ _ _ ih =>
    have hparts := (Expr.every_iff.mp he).2
    refine Plan.carries_of_children (by simp) ?_
    rw [Plan.children, List.map_map]
    refine List.forall_mem_map.mpr fun b hb => ?_
    exact ih b hb (hparts _ (List.mem_map_of_mem (List.mem_map_of_mem hb)))

/-! ## Functions of a catalog -/

namespace Function

/-- A test of texts makes truth values. -/
theorem keeps_textTest (hP : Hereditary P) (name : String) (test : List Char → List Char → Bool) :
    (textTest name test).Keeps P := by
  intro args _ v hv
  obtain ⟨s, -, hv⟩ := Outcome.bind_eq_ok.mp hv
  obtain ⟨t, -, hv⟩ := Outcome.bind_eq_ok.mp hv
  cases hv
  exact hP.atom trivial rfl

/-- A map of texts makes texts. -/
theorem keeps_textMap (hP : Hereditary P) (name : String) (map : String → String) :
    (textMap name map).Keeps P := by
  intro args _ v hv
  obtain ⟨s, -, hv⟩ := Outcome.bind_eq_ok.mp hv
  cases hv
  exact hP.atom trivial rfl

/-- A map of numbers makes numbers. -/
theorem keeps_numberMap (hP : Hereditary P) (name : String) (map : Binary64 → Binary64) :
    (numberMap name map).Keeps P := by
  intro args _ v hv
  obtain ⟨x, -, hv⟩ := Outcome.bind_eq_ok.mp hv
  cases hv
  exact hP.atom trivial rfl

/-- The absolute value of an integer is an integer. -/
theorem keeps_absoluteInt (hP : Hereditary P) {declaring returns : Ty} {name : String} :
    Keeps P ⟨declaring, name, returns, some absoluteInt⟩ := by
  intro args _ v hv
  change absoluteInt args = .ok v at hv
  rw [absoluteInt.eq_def] at hv
  split at hv
  · split at hv
    · cases hv
    · cases hv
      exact hP.atom trivial rfl
  · cases hv

/-- Some days after a point in time there is a point in time. -/
theorem keeps_addDays (hP : Hereditary P) {declaring returns : Ty} {name : String} :
    Keeps P ⟨declaring, name, returns, some addDays⟩ := by
  intro args _ v hv
  change addDays args = .ok v at hv
  rw [addDays.eq_def] at hv
  split at hv
  · split at hv
    · cases hv
      exact hP.atom trivial rfl
    · cases hv
  · cases hv

/-- The built-in functions make values without parts. -/
theorem keeps_of_mem_builtins (hP : Hereditary P) : ∀ f ∈ builtins, f.Keeps P := by
  simp only [builtins, List.forall_mem_cons, List.not_mem_nil, false_imp_iff, implies_true,
    and_true]
  exact ⟨keeps_textTest hP _ _, keeps_textTest hP _ _, keeps_textTest hP _ _,
    keeps_textMap hP _ _, keeps_textMap hP _ _, keeps_textMap hP _ _, keeps_absoluteInt hP,
    keeps_numberMap hP _ _, keeps_numberMap hP _ _, keeps_numberMap hP _ _, keeps_addDays hP⟩

end Function

/-- All functions of a catalog keep the property. -/
def Catalog.Keeps (P : Value → Prop) (c : Catalog) : Prop :=
  ∀ f ∈ c.functions.map Prod.snd, f.Keeps P

namespace Catalog

/-- A function that is found in a catalog keeps what all of its functions keep. -/
theorem Keeps.function {f : Function} {declaring : Ty} {name : String} (h : c.Keeps P)
    (hf : c.function? declaring name = some f) : f.Keeps P :=
  h _ (exists_mem_of_lookup_eq_some hf)

/-- A further function that keeps the property. -/
theorem Keeps.insertFunction {f : Function} (h : c.Keeps P) (hf : f.Keeps P) :
    (c.insertFunction f).Keeps P := by
  refine List.forall_mem_map.mpr (List.forall_mem_cons.mpr ⟨hf, fun entry hentry => ?_⟩)
  exact h _ (List.mem_map_of_mem (List.mem_filter.mp hentry).1)

/-- The built-in functions keep every hereditary property. -/
theorem keeps_standard (hP : Hereditary P) : standard.Keeps P := by
  have hfold : ∀ (fs : List Function) (c : Catalog), c.Keeps P → (∀ f ∈ fs, f.Keeps P) →
      (fs.foldl Catalog.insertFunction c).Keeps P := by
    intro fs
    induction fs with
    | nil => exact fun c h _ => h
    | cons f rest ih =>
      intro c h hfs
      obtain ⟨hf, hrest⟩ := List.forall_mem_cons.mp hfs
      exact ih _ (h.insertFunction hf) hrest
  exact hfold _ _ (List.forall_mem_nil _) (Function.keeps_of_mem_builtins hP)

end Catalog

/-! ## Binding a plan -/

namespace Expr

/-- A query carries what its source and its arguments carry. -/
theorem every_applyVerb {s : Expr} (verb : QueryVerb) {args : List Expr}
    (hs : s.Every (CarriesAt P)) (hargs : ∀ a ∈ args, a.Every (CarriesAt P)) :
    (s.applyVerb verb args).Every (CarriesAt P) :=
  every_iff.mpr ⟨trivial, List.forall_mem_cons.mpr ⟨hs, hargs⟩⟩

/-- A literal carries its value. -/
theorem every_literal {v : Value} (hv : P v) : (literal v).Every (CarriesAt P) :=
  every_iff.mpr ⟨hv, List.forall_mem_nil _⟩

end Expr

namespace Plan

/-- A count is a literal without parts. -/
theorem every_countLiteral (hP : Hereditary P) {n : UInt64} (h : countLiteral n = .ok e) :
    e.Every (Expr.CarriesAt P) := by
  rw [countLiteral] at h
  split at h
  · cases h
    exact Expr.every_literal (hP.atom trivial rfl)
  · cases h

/-- Sort keys add to the source what they carry. -/
theorem every_applyKeys {s : Expr} {keys : List (Expr × SortDirection)} (isFirst : Bool)
    (hs : s.Every (Expr.CarriesAt P)) (hkeys : ∀ k ∈ keys, k.1.Every (Expr.CarriesAt P)) :
    (applyKeys s isFirst keys).Every (Expr.CarriesAt P) := by
  induction keys generalizing s isFirst with
  | nil => exact hs
  | cons k rest ih =>
    obtain ⟨hk, hrest⟩ := List.forall_mem_cons.mp hkeys
    exact ih false (Expr.every_applyVerb _ hs (List.forall_mem_singleton.mpr hk)) hrest

/-- Bound sort keys stem from the sort keys of the plan. -/
theorem exists_of_toSortKeys {keys : List Plan} {ks : List (Expr × SortDirection)}
    (h : toSortKeys c keys = .ok ks) :
    ∀ k ∈ ks, ∃ key direction, .sortKey key direction ∈ keys ∧ key.toExpr c = .ok k.1 := by
  induction keys generalizing ks with
  | nil =>
    cases h
    exact List.forall_mem_nil _
  | cons p rest ih =>
    cases p with
    | sortKey key direction =>
      rw [toSortKeys] at h
      obtain ⟨x, hx, h⟩ := Outcome.bind_eq_ok.mp h
      obtain ⟨xs, hxs, h⟩ := Outcome.bind_eq_ok.mp h
      cases h
      refine List.forall_mem_cons.mpr ⟨⟨key, direction, List.mem_cons_self .., hx⟩, fun k hk => ?_⟩
      obtain ⟨key', direction', hmem, hbind⟩ := ih hxs k hk
      exact ⟨key', direction', List.mem_cons_of_mem _ hmem, hbind⟩
    | _ => cases h

/-- What bound plans carry, from what each of them carries. -/
theorem every_of_toExprs {ps : List Plan} {es : List Expr} (h : toExprs c ps = .ok es)
    (hps : ∀ p ∈ ps, ∀ e, p.toExpr c = .ok e → e.Every (Expr.CarriesAt P)) :
    ∀ e ∈ es, e.Every (Expr.CarriesAt P) := by
  rw [toExprs_eq_mapM, Outcome.mapM_eq_ok] at h
  intro e he
  obtain ⟨p, hp, hbind⟩ := exists_of_forall₂_of_mem h he
  exact hps p hp e hbind

/-- What named bound plans carry, from what each of them carries. -/
theorem every_of_toBindings {bs : List (String × Plan)} {es : List (String × Expr)}
    (h : toBindings c bs = .ok es)
    (hbs : ∀ p ∈ bs.map Prod.snd, ∀ e, p.toExpr c = .ok e → e.Every (Expr.CarriesAt P)) :
    ∀ e ∈ es.map Prod.snd, e.Every (Expr.CarriesAt P) := by
  rw [toBindings_eq_mapM] at h
  obtain ⟨zs, rfl, rfl, hzs⟩ := Outcome.mapM_named_eq_ok_iff.mp h
  rw [List.map_map]
  refine List.forall_mem_map.mpr fun z hz => hbs _ ?_ _ (hzs z hz)
  rw [List.map_map]
  exact List.mem_map_of_mem hz

/-- A stage is bound to an expression that carries what the expressions of its sub-plans carry. -/
theorem every_of_toQuery (hP : Hereditary P) {op : QueryOp Plan} (h : toQuery c op = .ok e)
    (hchildren : ∀ q ∈ op.children, ∀ e, q.toExpr c = .ok e → e.Every (Expr.CarriesAt P))
    (hkeys : ∀ key direction, .sortKey key direction ∈ op.children →
      ∀ e, key.toExpr c = .ok e → e.Every (Expr.CarriesAt P)) :
    e.Every (Expr.CarriesAt P) := by
  cases op with
  | source element =>
    obtain ⟨t, -, h⟩ := Outcome.bind_eq_ok.mp h
    cases h
    exact Expr.every_iff.mpr ⟨trivial, List.forall_mem_nil _⟩
  | filter s p | project s p many =>
    obtain ⟨x, hx, h⟩ := Outcome.bind_eq_ok.mp h
    obtain ⟨y, hy, h⟩ := Outcome.bind_eq_ok.mp h
    cases h
    refine Expr.every_applyVerb _ (hchildren s (by simp [QueryOp.children]) x hx) ?_
    exact List.forall_mem_singleton.mpr (hchildren p (by simp [QueryOp.children]) y hy)
  | sort s keys =>
    obtain ⟨x, hx, h⟩ := Outcome.bind_eq_ok.mp h
    split at h
    · cases h
    · obtain ⟨ks, hks, h⟩ := Outcome.bind_eq_ok.mp h
      cases h
      refine every_applyKeys _ (hchildren s (List.mem_cons_self ..) x hx) fun k hk => ?_
      obtain ⟨key, direction, hmem, hbind⟩ := exists_of_toSortKeys hks k hk
      exact hkeys key direction (List.mem_cons_of_mem _ hmem) k.1 hbind
  | skip s n | take s n =>
    obtain ⟨x, hx, h⟩ := Outcome.bind_eq_ok.mp h
    obtain ⟨y, hy, h⟩ := Outcome.bind_eq_ok.mp h
    cases h
    refine Expr.every_applyVerb _ (hchildren s (List.mem_cons_self ..) x hx) ?_
    exact List.forall_mem_singleton.mpr (every_countLiteral hP hy)
  | groupBy s k element =>
    cases element with
    | none =>
      obtain ⟨x, hx, h⟩ := Outcome.bind_eq_ok.mp h
      obtain ⟨y, hy, h⟩ := Outcome.bind_eq_ok.mp h
      cases h
      refine Expr.every_applyVerb _ (hchildren s (by simp [QueryOp.children]) x hx) ?_
      exact List.forall_mem_singleton.mpr (hchildren k (by simp [QueryOp.children]) y hy)
    | some f =>
      obtain ⟨x, hx, h⟩ := Outcome.bind_eq_ok.mp h
      obtain ⟨y, hy, h⟩ := Outcome.bind_eq_ok.mp h
      obtain ⟨z, hz, h⟩ := Outcome.bind_eq_ok.mp h
      cases h
      refine Expr.every_applyVerb _ (hchildren s (by simp [QueryOp.children]) x hx) ?_
      exact List.forall_mem_cons.mpr ⟨hchildren k (by simp [QueryOp.children]) y hy,
        List.forall_mem_singleton.mpr (hchildren f (by simp [QueryOp.children]) z hz)⟩
  | join o i ok ik r =>
    obtain ⟨v, hv, h⟩ := Outcome.bind_eq_ok.mp h
    obtain ⟨w, hw, h⟩ := Outcome.bind_eq_ok.mp h
    obtain ⟨x, hx, h⟩ := Outcome.bind_eq_ok.mp h
    obtain ⟨y, hy, h⟩ := Outcome.bind_eq_ok.mp h
    obtain ⟨z, hz, h⟩ := Outcome.bind_eq_ok.mp h
    cases h
    refine Expr.every_applyVerb _ (hchildren o (by simp [QueryOp.children]) v hv) ?_
    exact List.forall_mem_cons.mpr ⟨hchildren i (by simp [QueryOp.children]) w hw,
      List.forall_mem_cons.mpr ⟨hchildren ok (by simp [QueryOp.children]) x hx,
        List.forall_mem_cons.mpr ⟨hchildren ik (by simp [QueryOp.children]) y hy,
          List.forall_mem_singleton.mpr (hchildren r (by simp [QueryOp.children]) z hz)⟩⟩⟩
  | «include» s path =>
    obtain ⟨x, hx, h⟩ := Outcome.bind_eq_ok.mp h
    cases h
    refine Expr.every_applyVerb _ (hchildren s (List.mem_cons_self ..) x hx) ?_
    exact List.forall_mem_singleton.mpr (Expr.every_literal (hP.atom trivial rfl))
  | aggregate s func argument =>
    cases argument with
    | none =>
      obtain ⟨x, hx, h⟩ := Outcome.bind_eq_ok.mp h
      cases h
      exact Expr.every_applyVerb _ (hchildren s (by simp [QueryOp.children]) x hx)
        (List.forall_mem_nil _)
    | some a =>
      obtain ⟨y, hy, h⟩ := Outcome.bind_eq_ok.mp h
      obtain ⟨x, hx, h⟩ := Outcome.bind_eq_ok.mp h
      cases h
      refine Expr.every_applyVerb _ (hchildren s (by simp [QueryOp.children]) x hx) ?_
      exact List.forall_mem_singleton.mpr (hchildren a (by simp [QueryOp.children]) y hy)

/-- An expression carries what the plan carries that it was bound from, and calls functions of the
catalog. The same holds of the key when the plan is a sort key, which stands for no expression. -/
theorem every_of_toExpr (hP : Hereditary P) (hc : c.Keeps P) (p : Plan) (hp : p.Carries P) :
    (∀ e, p.toExpr c = .ok e → e.Every (Expr.CarriesAt P)) ∧
      ∀ key direction, p = .sortKey key direction →
        ∀ e, key.toExpr c = .ok e → e.Every (Expr.CarriesAt P) := by
  induction p using Plan.induct with
  | node p ih =>
    have hchildren : ∀ q ∈ p.children, ∀ e, q.toExpr c = .ok e → e.Every (Expr.CarriesAt P) :=
      fun q hq => (ih q hq (hp.child hq)).1
    constructor
    · intro e h
      cases p with
      | constant v t =>
        obtain ⟨type, -, h⟩ := Outcome.bind_eq_ok.mp h
        cases h
        exact Expr.every_iff.mpr ⟨hp v t (mem_nodes_self _), List.forall_mem_nil _⟩
      | parameter q =>
        obtain ⟨type, -, h⟩ := Outcome.bind_eq_ok.mp h
        cases h
        exact Expr.every_iff.mpr ⟨trivial, List.forall_mem_nil _⟩
      | member target declaring name t =>
        obtain ⟨-, -, h⟩ := Outcome.bind_eq_ok.mp h
        obtain ⟨-, -, h⟩ := Outcome.bind_eq_ok.mp h
        obtain ⟨x, hx, h⟩ := Outcome.bind_eq_ok.mp h
        cases h
        exact Expr.every_iff.mpr ⟨trivial, List.forall_mem_singleton.mpr
          (hchildren target (by simp [children]) x hx)⟩
      | unary op operand t | lambda params operand t =>
        obtain ⟨_, -, h⟩ := Outcome.bind_eq_ok.mp h
        obtain ⟨x, hx, h⟩ := Outcome.bind_eq_ok.mp h
        cases h
        exact Expr.every_iff.mpr ⟨trivial, List.forall_mem_singleton.mpr
          (hchildren operand (by simp [children]) x hx)⟩
      | binary op l r t =>
        obtain ⟨-, -, h⟩ := Outcome.bind_eq_ok.mp h
        obtain ⟨x, hx, h⟩ := Outcome.bind_eq_ok.mp h
        obtain ⟨y, hy, h⟩ := Outcome.bind_eq_ok.mp h
        cases h
        exact Expr.every_iff.mpr ⟨trivial, List.forall_mem_cons.mpr
          ⟨hchildren l (by simp [children]) x hx,
            List.forall_mem_singleton.mpr (hchildren r (by simp [children]) y hy)⟩⟩
      | conditional test l r t =>
        obtain ⟨-, -, h⟩ := Outcome.bind_eq_ok.mp h
        obtain ⟨w, hw, h⟩ := Outcome.bind_eq_ok.mp h
        obtain ⟨x, hx, h⟩ := Outcome.bind_eq_ok.mp h
        obtain ⟨y, hy, h⟩ := Outcome.bind_eq_ok.mp h
        cases h
        exact Expr.every_iff.mpr ⟨trivial, List.forall_mem_cons.mpr
          ⟨hchildren test (by simp [children]) w hw, List.forall_mem_cons.mpr
            ⟨hchildren l (by simp [children]) x hx,
              List.forall_mem_singleton.mpr (hchildren r (by simp [children]) y hy)⟩⟩⟩
      | call declaring name args t =>
        obtain ⟨owner, -, h⟩ := Outcome.bind_eq_ok.mp h
        obtain ⟨-, -, h⟩ := Outcome.bind_eq_ok.mp h
        split at h
        · next f hf =>
          obtain ⟨xs, hxs, h⟩ := Outcome.bind_eq_ok.mp h
          cases h
          exact Expr.every_iff.mpr ⟨hc.function hf, every_of_toExprs hxs hchildren⟩
        · cases h
      | object members args t =>
        obtain ⟨-, -, h⟩ := Outcome.bind_eq_ok.mp h
        split at h
        · obtain ⟨xs, hxs, h⟩ := Outcome.bind_eq_ok.mp h
          cases h
          refine Expr.every_iff.mpr ⟨trivial, List.forall_mem_map.mpr fun b hb => ?_⟩
          exact every_of_toExprs hxs hchildren _ (List.of_mem_zip hb).2
        · cases h
      | array items t | list items t =>
        obtain ⟨element, -, h⟩ := Outcome.bind_eq_ok.mp h
        obtain ⟨xs, hxs, h⟩ := Outcome.bind_eq_ok.mp h
        cases h
        exact Expr.every_iff.mpr ⟨trivial, every_of_toExprs hxs hchildren⟩
      | construct bindings t =>
        obtain ⟨type, -, h⟩ := Outcome.bind_eq_ok.mp h
        obtain ⟨xs, hxs, h⟩ := Outcome.bind_eq_ok.mp h
        cases h
        exact Expr.every_iff.mpr ⟨trivial, every_of_toBindings hxs hchildren⟩
      | sortKey key direction => cases h
      | query op t =>
        obtain ⟨-, -, h⟩ := Outcome.bind_eq_ok.mp h
        refine every_of_toQuery hP h hchildren fun key direction hkey => ?_
        exact (ih _ hkey (hp.child hkey)).2 key direction rfl
    · rintro key direction rfl
      exact hchildren key (List.mem_singleton_self _)

end Plan

/-! ## Planning and binding again -/

/-- The value that an expression has after it was planned and bound again has a hereditary property,
when the rows, the values that the expression carries and what functions make of such values have
it. -/
theorem evaluate_toExpr_hereditary {cat : Catalog} {a : Plan} {h : Expr} {v : Value}
    (hP : Hereditary P) (hrows : ∀ t rows, data t = .ok rows → ∀ row ∈ rows, P row)
    (he : e.Every (Expr.CarriesAt P)) (hc : c.Keeps P) (hplan : e.plan cat admits = .ok a)
    (hbind : a.toExpr c = .ok h) (hv : h.evaluate data = .ok v) : P v := by
  obtain ⟨e', t, hfreeze, hplanned⟩ := plan_eq_ok.mp hplan
  have hcarries := hplanned.carries (Expr.carriesAt_of_freeze hP he hfreeze)
  have hbound := (Plan.every_of_toExpr hP hc a hcarries).1 h hbind
  exact Expr.evaluate_hereditary hP (Expr.bringsAt_of_carriesAt hrows hbound) hv

end QueryRelay
