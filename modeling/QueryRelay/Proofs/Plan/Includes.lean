import QueryRelay.Plan.Traversal
import QueryRelay.Proofs.Expr.Navigations
import QueryRelay.Proofs.Plan.Chains
import QueryRelay.Proofs.Plan.Translation

/-!
# The navigation paths that a query loads

A chain of query operators loads navigations by `Include`, and further ones below the one just
loaded by `ThenInclude`. Main statement: navigations are recognized by their grammar, and the plan
of a chain lists one path for each `Include`, in the order of the calls, extended by the paths of
the `ThenInclude`s that follow it.
-/

namespace QueryRelay

/-- Whether a query operator loads a navigation. -/
def QueryVerb.loads : QueryVerb → Bool
  | .include | .thenInclude => true
  | _ => false

/-! ## Expressions without includes -/

namespace Expr

/-- An expression in which no operator loads a navigation. -/
def LoadsNothing (e : Expr) : Prop := e.Every fun p => ∀ verb ∈ p.verb?, verb.loads = false

variable {c : Catalog} {admits : LocalTest} {e e' : Expr} {verb : QueryVerb} {args : List Expr}

/-- Expressions with the same node have the same operator. -/
theorem SameNode.verb?_eq (h : SameNode e e') : e'.verb? = e.verb? := by
  cases h <;> rfl

/-- What freezing leaves of an expression without includes has none. -/
theorem LoadsNothing.frozen (h : e.LoadsNothing) (he : e.freeze c admits = .ok e') :
    e'.LoadsNothing := by
  refine every_of_freeze (fun p p' hsame hp => ?_) (fun _ _ _ _ _ => nofun) h he
  rw [hsame.verb?_eq]
  exact hp

/-- The direct sub-expressions of an expression without includes have none. -/
theorem LoadsNothing.child {q : Expr} (h : e.LoadsNothing) (hq : q ∈ e.children) : q.LoadsNothing :=
  (every_iff.mp h).2 q hq

/-- Freezing a query operator freezes its arguments. -/
theorem freeze_query_eq_ok (h : (query verb args).freeze c admits = .ok e') :
    ∃ args', e' = query verb args' ∧
      List.Forall₂ (fun q q' => q.freeze c admits = .ok q') args args' := by
  rw [freeze_eq_mapChildrenM (by rw [isFreezable, isClosed, Bool.and_false, Bool.false_and])] at h
  obtain ⟨hnode, hchildren⟩ := mapChildrenM_eq_ok.mp h
  cases hnode
  exact ⟨_, rfl, hchildren⟩

end Expr

/-! ## Plans without includes -/

namespace Plan

/-- Plans that load nothing each load nothing together. -/
theorem includePathsOfAll_eq_nil {ps : List Plan} (h : ∀ p ∈ ps, p.includePaths = []) :
    includePathsOfAll ps = [] := by
  induction ps with
  | nil => rfl
  | cons p rest ih =>
    obtain ⟨hp, hrest⟩ := List.forall_mem_cons.mp h
    rw [includePathsOfAll, hp, ih hrest, List.append_nil]

/-- Named plans that load nothing each load nothing together. -/
theorem includePathsOfBindings_eq_nil {bs : List (String × Plan)}
    (h : ∀ b ∈ bs, b.2.includePaths = []) : includePathsOfBindings bs = [] := by
  induction bs with
  | nil => rfl
  | cons b rest ih =>
    obtain ⟨name, p⟩ := b
    obtain ⟨hp, hrest⟩ := List.forall_mem_cons.mp h
    rw [includePathsOfBindings, hp, ih hrest, List.append_nil]

/-- One more plan that loads nothing adds nothing. -/
theorem includePathsOfAll_concat {ps : List Plan} {p : Plan} (h : p.includePaths = []) :
    includePathsOfAll (ps ++ [p]) = includePathsOfAll ps := by
  induction ps with
  | nil => exact includePathsOfAll_eq_nil (List.forall_mem_singleton.mpr h)
  | cons q rest ih => rw [List.cons_append, includePathsOfAll, includePathsOfAll, ih]

end Plan

/-- A stage of an operator that loads nothing lists the paths that its source lists, when its other
operands list none. -/
theorem QueryVerb.Builds.includePaths_eq {verb : QueryVerb} {p : Plan} {plans : List Plan}
    {extra : List Expr} {op : QueryOp Plan} (h : verb.Builds (p :: plans) extra op)
    (hverb : verb.loads = false) (hplans : ∀ q ∈ plans, q.includePaths = []) :
    Plan.includePathsOfOp op = p.includePaths := by
  cases h with
  | «include» | thenInclude => cases hverb
  | skip | take | aggregate => rfl
  | filter | select | selectMany | groupBy | aggregateArgument =>
    rw [Plan.includePathsOfOp, hplans _ List.mem_cons_self, List.append_nil]
  | orderBy =>
    rw [Plan.includePathsOfOp, Plan.includePathsOfAll, Plan.includePathsOfAll, Plan.includePaths,
      hplans _ List.mem_cons_self, List.append_nil, List.append_nil]
  | @thenBy _ s k keys _ _ direction =>
    have hkey : (Plan.sortKey k direction).includePaths = [] := hplans k List.mem_cons_self
    rw [Plan.includePathsOfOp, Plan.includePathsOfAll_concat hkey]
    rfl
  | groupByElement =>
    obtain ⟨hk, hplans⟩ := List.forall_mem_cons.mp hplans
    rw [Plan.includePathsOfOp, hk, hplans _ List.mem_cons_self, List.append_nil, List.append_nil]
  | join =>
    obtain ⟨hi, hplans⟩ := List.forall_mem_cons.mp hplans
    obtain ⟨hok, hplans⟩ := List.forall_mem_cons.mp hplans
    obtain ⟨hik, hplans⟩ := List.forall_mem_cons.mp hplans
    rw [Plan.includePathsOfOp, hi, hok, hik, hplans _ List.mem_cons_self, List.append_nil,
      List.append_nil, List.append_nil, List.append_nil]

/-- The plan of an expression without includes lists no paths. -/
theorem Planned.includePaths_eq_nil {c : Catalog} {scope : TypeScope} {bound : List Ty} {e : Expr}
    {p : Plan} {t : Ty} (h : Planned c scope bound e p t) (he : e.LoadsNothing) :
    p.includePaths = [] := by
  induction h with
  | constant | source | parameter => rfl
  | member _ _ _ _ ih => exact ih (he.child List.mem_cons_self)
  | unary _ _ _ ih => exact ih (he.child List.mem_cons_self)
  | lambda _ _ _ _ ih => exact ih (he.child List.mem_cons_self)
  | binary _ _ _ _ ihl ihr =>
    rw [Plan.includePaths, ihl (he.child List.mem_cons_self),
      ihr (he.child (List.mem_cons_of_mem _ List.mem_cons_self)), List.append_nil]
  | conditional _ _ _ _ _ iht ihl ihr =>
    rw [Plan.includePaths, iht (he.child List.mem_cons_self),
      ihl (he.child (List.mem_cons_of_mem _ List.mem_cons_self)),
      ihr (he.child (by simp [Expr.children])), List.append_nil, List.append_nil]
  | query operands _ hsignature hbuilds _ ih =>
    have hoperands : ∀ x ∈ operands, x.plan.includePaths = [] := fun x hx =>
      ih x hx (he.child (List.mem_append_left _ (List.mem_map_of_mem hx)))
    obtain ⟨u, element, rest, hrest, -⟩ := hsignature.exists_source
    obtain ⟨e, p, tail, rfl, rfl⟩ := Expr.exists_pieces_cons hrest
    obtain ⟨hp, htail⟩ := List.forall_mem_cons.mp hoperands
    rw [Plan.includePaths, hbuilds.includePaths_eq ((Expr.every_iff.mp he).1 _ rfl)
      (List.forall_mem_map.mpr htail)]
    exact hp
  | call args _ _ _ ih | array args _ _ ih | list args _ _ ih =>
    exact Plan.includePathsOfAll_eq_nil (List.forall_mem_map.mpr fun x hx =>
      ih x hx (he.child (List.mem_map_of_mem hx)))
  | object members _ _ _ ih =>
    refine Plan.includePathsOfAll_eq_nil (List.forall_mem_map.mpr fun m hm => ih m hm (he.child ?_))
    rw [Expr.children, List.map_map]
    exact List.mem_map_of_mem hm
  | construct bindings _ _ _ ih =>
    refine Plan.includePathsOfBindings_eq_nil (List.forall_mem_map.mpr fun m hm =>
      ih m hm (he.child ?_))
    rw [Expr.children, List.map_map]
    exact List.mem_map_of_mem hm

/-! ## Paths -/

namespace Expr

variable {c : Catalog} {admits : LocalTest} {e e' : Expr}

/-- A closed expression is no walk and no navigation. -/
theorem recognizes_of_isClosed (h : e.isClosed = true) (param : String) :
    walk? param e = none ∧ navigation? e = none := by
  induction e with
  | member target name ih =>
    rw [isClosed] at h
    rw [walk?, (ih h).1]
    exact ⟨rfl, rfl⟩
  | parameter | lambda | query => cases h
  | _ => exact ⟨rfl, rfl⟩

/-- Freezing keeps walks and navigations, and makes no other. -/
theorem recognizes_of_freeze (h : e.freeze c admits = .ok e') :
    (∀ param, walk? param e' = walk? param e) ∧ navigation? e' = navigation? e := by
  induction e using induct_children generalizing e' with
  | h e ih =>
    rcases freeze_eq_ok_cases h with ⟨hclosed, h⟩ | ⟨-, h⟩
    · obtain ⟨t, v, -, -, rfl⟩ := toConstant_eq_ok.mp h
      refine ⟨fun param => ?_, ?_⟩
      · rw [(recognizes_of_isClosed hclosed param).1]
        rfl
      · rw [(recognizes_of_isClosed hclosed "").2]
        rfl
    · obtain ⟨hnode, hchildren⟩ := mapChildrenM_eq_ok.mp h
      cases hnode with
      | member target target' name =>
        obtain _ | ⟨htarget, -⟩ := hchildren
        refine ⟨fun param => ?_, rfl⟩
        rw [walk?, walk?, (ih target List.mem_cons_self htarget).1]
      | lambda params body body' =>
        obtain _ | ⟨hbody, -⟩ := hchildren
        refine ⟨fun _ => rfl, ?_⟩
        rcases params with _ | ⟨⟨param, t⟩, _ | ⟨_, _⟩⟩
        · rfl
        · rw [navigation?, navigation?, (ih body List.mem_cons_self hbody).1]
        · rfl
      | query verb args args' =>
        refine ⟨fun param => ?_, rfl⟩
        have hargs : List.Forall₂ (fun q q' => q.freeze c admits = .ok q') args args' := hchildren
        obtain _ | ⟨hsource, _ | ⟨hnext, _ | _⟩⟩ := hargs
        · rfl
        · rfl
        · rw [walk?, walk?, (ih _ List.mem_cons_self hsource).1,
            (ih _ (List.mem_cons_of_mem _ List.mem_cons_self) hnext).2]
        · rfl
      | _ => exact ⟨fun _ => rfl, rfl⟩

/-- The path of an argument: that of a navigation, or a text that can be evaluated on its own. -/
inductive PathOf : Expr → String → Prop
  /-- A text. -/
  | text {e : Expr} {path : String} (hclosed : e.isClosed = true)
      (hvalue : e.evaluate Store.empty.elements = .ok (.text path)) : PathOf e path
  /-- A navigation. -/
  | navigation {e : Expr} {names : List String} (h : Navigates e names) :
      PathOf e (".".intercalate names)

/-- An argument has one path. -/
theorem PathOf.unique {path path' : String} (h : PathOf e path) (h' : PathOf e path') :
    path = path' := by
  cases h with
  | text hclosed hvalue =>
    cases h' with
    | text _ hvalue' =>
      cases hvalue.symm.trans hvalue'
      rfl
    | navigation h =>
      cases h with
      | lambda => cases hclosed
  | navigation h =>
    cases h' with
    | text hclosed _ =>
      cases h with
      | lambda => cases hclosed
    | navigation h' =>
      rw [← navigation?_eq_some] at h h'
      cases h.symm.trans h'
      rfl

/-- The path of a navigation that freezing leaves is that of the original. -/
theorem pathOf_of_navigationPath {path : String} (h : e.freeze c admits = .ok e')
    (hpath : e'.navigationPath = .ok path) : PathOf e path := by
  obtain ⟨names, hnames, rfl⟩ := navigationPath_eq_ok.mp hpath
  rw [← navigation?_eq_some, (recognizes_of_freeze h).2, navigation?_eq_some] at hnames
  exact .navigation hnames

/-- The path that planning reads off what freezing leaves of an argument is that of the argument. -/
theorem pathOf_of_pathArgument {path : String} (h : e.freeze c admits = .ok e')
    (hpath : Draft.pathArgument e' = .ok path) : PathOf e path := by
  unfold Draft.pathArgument at hpath
  split at hpath
  · next text t =>
    cases hpath
    rcases freeze_eq_ok_cases h with ⟨hclosed, h⟩ | ⟨-, h⟩
    · obtain ⟨_, v, -, hv, heq⟩ := toConstant_eq_ok.mp h
      cases heq
      exact .text hclosed hv
    · cases (mapChildrenM_eq_ok.mp h).1
      exact .text rfl rfl
  · exact pathOf_of_navigationPath h hpath

end Expr

/-! ## Chains -/

namespace Expr

/-- A chain of query operators over a table, in which includes are operators of the chain. -/
inductive IsQueryChain : Expr → Prop
  /-- A table. -/
  | source (t : Ty) : IsQueryChain (.source t)
  /-- An operator that loads nothing, over arguments without includes. -/
  | step {s : Expr} {verb : QueryVerb} {args : List Expr} (hverb : verb.loads = false)
      (hargs : ∀ q ∈ args, q.LoadsNothing) (h : IsQueryChain s) :
      IsQueryChain (.query verb (s :: args))
  /-- An operator that loads a navigation. -/
  | load {s : Expr} {verb : QueryVerb} (args : List Expr) (hverb : verb.loads = true)
      (h : IsQueryChain s) : IsQueryChain (.query verb (s :: args))

/-- The paths that a chain loads, in the order of the calls: one for each `Include`, which a
`ThenInclude` that directly follows extends. -/
inductive Loads : Expr → List String → Prop
  /-- A table loads nothing. -/
  | source (t : Ty) : Loads (.source t) []
  /-- Operators that load nothing keep the paths. -/
  | step {s : Expr} {verb : QueryVerb} {paths : List String} (args : List Expr)
      (hverb : verb.loads = false) (h : Loads s paths) : Loads (.query verb (s :: args)) paths
  /-- An include adds a path. -/
  | include {s arg : Expr} {paths : List String} {path : String} (extra : List Expr)
      (h : Loads s paths) (harg : PathOf arg path) :
      Loads (.query .include (s :: arg :: extra)) (paths ++ [path])
  /-- A further include extends the path of the include that it directly follows. -/
  | thenInclude {verb : QueryVerb} {args : List Expr} {arg : Expr} {paths : List String}
      {path tail : String} (extra : List Expr) (hverb : verb.loads = true)
      (h : Loads (.query verb args) (paths ++ [path])) (harg : PathOf arg tail) :
      Loads (.query .thenInclude (.query verb args :: arg :: extra))
        (paths ++ [path ++ "." ++ tail])

/-- A chain loads one list of paths. -/
theorem Loads.unique {e : Expr} {paths paths' : List String} (h : Loads e paths)
    (h' : Loads e paths') : paths = paths' := by
  induction h generalizing paths' with
  | source =>
    cases h'
    rfl
  | step args hverb _ ih =>
    cases h' with
    | step _ _ h' => exact ih h'
    | «include» | thenInclude => cases hverb
  | «include» extra _ harg ih =>
    cases h' with
    | step _ hverb _ => cases hverb
    | «include» _ h' harg' => rw [ih h', harg.unique harg']
  | thenInclude extra _ _ harg ih =>
    cases h' with
    | step _ hverb _ => cases hverb
    | thenInclude _ _ h' harg' =>
      obtain ⟨rfl, heq⟩ := List.append_inj' (ih h') rfl
      cases heq
      rw [harg.unique harg']

end Expr

/-- The plan of an include is that of an operator that loads a navigation. -/
theorem Planned.loads_of_include {c : Catalog} {scope : TypeScope} {bound : List Ty} {e : Expr}
    {p : Plan} {path : String} {d : Descriptor} {t : Ty}
    (h : Planned c scope bound e (.query (.include p path) d) t) :
    ∃ verb ∈ e.verb?, verb.loads = true := by
  generalize ha : Plan.query (.include p path) d = a at h
  cases h with
  | query operands _ _ hbuilds =>
    obtain ⟨rfl, -⟩ := Plan.query.inj ha
    refine ⟨_, rfl, ?_⟩
    generalize operands.map Piece.plan = plans at hbuilds
    cases hbuilds <;> rfl
  | _ => cases ha

namespace Expr

variable {c : Catalog} {admits : LocalTest} {e e' : Expr} {a : Plan} {t : Ty}

/-- A chain whose plan is an include ends with an operator that loads a navigation. -/
theorem IsQueryChain.exists_query {p : Plan} {path : String} {d : Descriptor} (h : IsQueryChain e)
    (he : e.freeze c admits = .ok e')
    (hplanned : Planned c [] [] e' (.query (.include p path) d) t) :
    ∃ verb args, e = .query verb args ∧ verb.loads = true := by
  obtain ⟨verb, hverb, hloads⟩ := hplanned.loads_of_include
  cases h with
  | source u =>
    rw [freeze_eq_mapChildrenM rfl] at he
    cases he
    cases hverb
  | step | load =>
    obtain ⟨args', rfl, -⟩ := freeze_query_eq_ok he
    cases hverb
    exact ⟨_, _, rfl, hloads⟩

/-- The plan of a chain lists the paths that the chain loads. -/
theorem IsQueryChain.loads (h : IsQueryChain e) (he : e.freeze c admits = .ok e')
    (hplanned : Planned c [] [] e' a t) : Loads e a.includePaths := by
  induction h generalizing e' a t with
  | source u =>
    rw [freeze_eq_mapChildrenM rfl] at he
    cases he
    cases hplanned
    exact .source u
  | @step s verb args hverb hargs _ ih =>
    obtain ⟨args', rfl, hfrozen⟩ := freeze_query_eq_ok he
    obtain _ | ⟨hs, hrest⟩ := hfrozen
    obtain ⟨operands, extra, hsource, hoperands, -, hbuilds⟩ := hplanned.plannedOn
    have hnothing : ∀ q ∈ operands.map Piece.plan, q.includePaths = [] := by
      refine List.forall_mem_map.mpr fun x hx => (hoperands x hx).includePaths_eq_nil ?_
      obtain ⟨q, hq, hfreeze⟩ := exists_of_forall₂_of_mem hrest
        (List.mem_append_left _ (List.mem_map_of_mem hx))
      exact (hargs q hq).frozen hfreeze
    rw [Plan.includePaths, hbuilds.includePaths_eq hverb hnothing]
    exact .step args hverb (ih hs hsource)
  | @load s verb args hverb hchain ih =>
    obtain ⟨args', rfl, hfrozen⟩ := freeze_query_eq_ok he
    obtain _ | ⟨hs, hrest⟩ := hfrozen
    obtain ⟨operands, extra, hsource, -, -, hbuilds⟩ := hplanned.plannedOn
    generalize hplans : operands.map Piece.plan = plans at hbuilds
    cases hbuilds with
    | «include» hpath =>
      cases List.map_eq_nil_iff.mp hplans
      obtain _ | ⟨harg, -⟩ := hrest
      exact .include _ (ih hs hsource) (pathOf_of_pathArgument harg hpath)
    | thenInclude hpath =>
      cases List.map_eq_nil_iff.mp hplans
      obtain _ | ⟨harg, -⟩ := hrest
      obtain ⟨verb, args, rfl, hloads⟩ := hchain.exists_query hs hsource
      exact .thenInclude _ hloads (ih hs hsource) (pathOf_of_navigationPath harg hpath)
    | orderBy direction hsort | thenBy direction hsort =>
      cases direction <;> cases hsort <;> cases hverb
    | _ => cases hverb

/-- Main statement: exactly the navigations have a path, that of their members in the order of the
walk; and the plan of a chain of operators over a table lists exactly the paths that the chain
loads, one for each `Include`, in the order of the calls, extended by the paths of the
`ThenInclude`s that directly follow. -/
theorem navigations_includePaths :
    (∀ (e : Expr) (path : String), e.navigationPath = .ok path ↔
      ∃ names, Navigates e names ∧ path = ".".intercalate names) ∧
    ∀ (c : Catalog) (admits : LocalTest) (e : Expr) (a : Plan), IsQueryChain e →
      e.plan c admits = .ok a → ∀ paths, Loads e paths ↔ paths = a.includePaths := by
  refine ⟨fun e path => navigationPath_eq_ok, fun c admits e a hchain hplan paths => ?_⟩
  obtain ⟨e', t, he, hplanned⟩ := plan_eq_ok.mp hplan
  have hloads := hchain.loads he hplanned
  exact ⟨fun h => h.unique hloads, fun h => h ▸ hloads⟩

/-- Two includes, the first by its path and the second by navigations, between other operators. -/
def peopleWithOrders : Expr :=
  ((((Expr.source (.record "app.Person")).includePath "Address").take 5).applyVerb .include
    [.lambda [("p", .infer)] (.query .selectMany [.member (.parameter "p" .infer) "Friends",
      .lambda [("p", .infer)] (.member (.parameter "p" .infer) "Orders")])]).applyVerb .thenInclude
    [.lambda [("o", .infer)] (.member (.parameter "o" .infer) "Item")]

/-- The further include extends the path of the second include. -/
theorem peopleWithOrders_navigations_includePaths :
    ∃ a, peopleWithOrders.plan Catalog.people (fun _ => true) = .ok a ∧
      Loads peopleWithOrders a.includePaths ∧
      a.includePaths = ["Address", "Friends.Orders.Item"] := by
  have hchain : IsQueryChain peopleWithOrders := by
    refine .load _ rfl (.load _ rfl (.step rfl (List.forall_mem_singleton.mpr ?_)
      (.load _ rfl (.source _))))
    exact every_iff.mpr ⟨nofun, List.forall_mem_nil _⟩
  have hplan : peopleWithOrders.plan Catalog.people (fun _ => true) = .ok _ := rfl
  have hloads := navigations_includePaths.2 Catalog.people (fun _ => true) _ _ hchain hplan
  exact ⟨_, hplan, (hloads _).mpr rfl, by decide⟩

end Expr
end QueryRelay
