import QueryRelay.Proofs.Expr.Navigations
import QueryRelay.Proofs.Plan.Nodes
import QueryRelay.Proofs.Plan.Translation
import QueryRelay.Proofs.Renaming.Meanings

/-!
# Plans of renamed expressions

Planning takes the parameters of a plan from those of the expression, and looks at their names only
to find the innermost one of a name. Main statement: of two expressions that differ in the names of
parameters alone, one has a plan when the other has, the plans differ in the same names alone, and
the expressions have the same values.
-/

namespace QueryRelay

variable {R : String → String → Prop} {binders : BinderPairs}

namespace Plan

/-- Whether the root of a plan is a parameter or has parameters. -/
def hasNames : Plan → Bool
  | .parameter _ | .lambda _ _ _ => true
  | _ => false

/-- Plans below binders that differ in the names of parameters alone. A lambda changes the names of
its parameters by pairs of `R`. -/
inductive Renamed (R : String → String → Prop) : BinderPairs → Plan → Plan → Prop
  /-- References to the same parameter. -/
  | parameter {binders : BinderPairs} {x y : String} (t : Descriptor) (h : Linked binders x y) :
      Renamed R binders (.parameter ⟨x, t⟩) (.parameter ⟨y, t⟩)
  /-- Lambdas whose parameters have the same types. -/
  | lambda {binders : BinderPairs} {body body' : Plan}
      (params : List ((String × String) × Descriptor)) (t : Descriptor)
      (hparams : ∀ p ∈ params, R p.1.1 p.1.2)
      (hbody : Renamed R ((params.map Prod.fst).reverse ++ binders) body body') :
      Renamed R binders (.lambda (params.map fun p => ⟨p.1.1, p.2⟩) body t)
        (.lambda (params.map fun p => ⟨p.1.2, p.2⟩) body' t)
  /-- Any other node is the same. -/
  | node {binders : BinderPairs} {p p' : Plan} (pairs : List (Plan × Plan))
      (hnames : p.hasNames = false) (hnode : SameNode p p')
      (hchildren : p.children = pairs.map Prod.fst) (hchildren' : p'.children = pairs.map Prod.snd)
      (h : ∀ z ∈ pairs, Renamed R binders z.1 z.2) : Renamed R binders p p'

/-- Plans with the same node are renamings when their direct sub-plans are. -/
theorem Renamed.of_forall₂ {p p' : Plan} (hnames : p.hasNames = false) (hnode : SameNode p p')
    (h : List.Forall₂ (Renamed R binders) p.children p'.children) : Renamed R binders p p' := by
  obtain ⟨pairs, hfst, hsnd, hpairs⟩ := exists_pairs_of_forall₂ h
  exact .node pairs hnames hnode hfst.symm hsnd.symm hpairs

/-- A renaming of a stage is the same stage over renamings. -/
theorem Renamed.exists_stage {op : QueryOp Plan} {t : Descriptor} {p' : Plan}
    (h : Renamed R binders (.query op t) p') : ∃ op', p' = .query op' t ∧ op.SameStage op' ∧
      List.Forall₂ (Renamed R binders) op.children op'.children := by
  cases h with
  | node pairs _ hnode hchildren hchildren' h =>
    cases hnode with
    | @query _ op' hstage =>
      refine ⟨op', rfl, hstage, ?_⟩
      have hop : op.children = pairs.map Prod.fst := hchildren
      have hop' : op'.children = pairs.map Prod.snd := hchildren'
      rw [hop, hop']
      exact forall₂_map_of_forall h

end Plan

/-! ## Arguments -/

/-- Renamed arguments give the same count. -/
theorem Expr.Renamed.constantCount_eq_ok {verb : QueryVerb} {e e' : Expr} {n : UInt64}
    (h : e.Renamed R binders e') (hn : Draft.constantCount verb e = .ok n) :
    Draft.constantCount verb e' = .ok n := by
  obtain ⟨m, t, rfl, -⟩ := Plan.countLiteral_eq_ok hn
  rw [← h.eq_of_isClosed rfl]
  exact hn

/-- Renamed arguments give the same navigation path. -/
theorem Expr.Renamed.navigationPath_eq_ok {e e' : Expr} {path : String}
    (h : e.Renamed R binders e') (hpath : e.navigationPath = .ok path) :
    e'.navigationPath = .ok path := by
  obtain ⟨names, hnames, rfl⟩ := Expr.navigationPath_eq_ok.mp hpath
  refine Expr.navigationPath_eq_ok.mpr ⟨names, ?_, rfl⟩
  rw [← Expr.navigation?_eq_some] at hnames ⊢
  rw [← h.navigation?_eq.2]
  exact hnames

/-- Renamed arguments give the same path, as a text or as a navigation. -/
theorem Expr.Renamed.pathArgument_eq_ok {e e' : Expr} {path : String} (h : e.Renamed R binders e')
    (hpath : Draft.pathArgument e = .ok path) : Draft.pathArgument e' = .ok path := by
  cases hclosed : e.isClosed with
  | true =>
    rw [← h.eq_of_isClosed hclosed]
    exact hpath
  | false =>
    have hclosed' : e'.isClosed = false := h.isClosed_eq.trans hclosed
    have hnavigation : ∀ q : Expr, q.isClosed = false →
        Draft.pathArgument q = q.navigationPath := by
      intro q hq
      cases q with
      | constant => cases hq
      | _ => rfl
    rw [hnavigation e hclosed] at hpath
    rw [hnavigation e' hclosed']
    exact h.navigationPath_eq_ok hpath

/-! ## Stages -/

/-- Renamed operands and arguments build the same stage over renamed sub-plans. -/
theorem QueryVerb.Builds.exists_renamed {verb : QueryVerb} {plans plans' : List Plan}
    {extra extra' : List Expr} {op : QueryOp Plan} (h : verb.Builds plans extra op)
    (hplans : List.Forall₂ (Plan.Renamed R binders) plans plans')
    (hextra : List.Forall₂ (Expr.Renamed R binders) extra extra') :
    ∃ op', verb.Builds plans' extra' op' ∧ op.SameStage op' ∧
      List.Forall₂ (Plan.Renamed R binders) op.children op'.children := by
  cases h with
  | filter =>
    obtain _ | ⟨hs, _ | ⟨hp, hnil⟩⟩ := hplans
    cases hnil
    exact ⟨_, .filter, .filter .., .cons hs (.cons hp .nil)⟩
  | select =>
    obtain _ | ⟨hs, _ | ⟨hf, hnil⟩⟩ := hplans
    cases hnil
    exact ⟨_, .select, .project .., .cons hs (.cons hf .nil)⟩
  | selectMany =>
    obtain _ | ⟨hs, _ | ⟨hf, hnil⟩⟩ := hplans
    cases hnil
    exact ⟨_, .selectMany, .project .., .cons hs (.cons hf .nil)⟩
  | orderBy direction hverb =>
    obtain _ | ⟨hs, _ | ⟨hk, hnil⟩⟩ := hplans
    cases hnil
    have hkey := Plan.Renamed.of_forall₂ rfl (.sortKey _ _ direction) (.cons hk .nil)
    exact ⟨_, .orderBy direction hverb, .sort .., .cons hs (.cons hkey .nil)⟩
  | thenBy direction hverb =>
    obtain _ | ⟨hsorted, _ | ⟨hk, hnil⟩⟩ := hplans
    cases hnil
    obtain ⟨op', rfl, hstage, hchildren⟩ := hsorted.exists_stage
    cases hstage with
    | sort s s' keys keys' =>
      have hkey := Plan.Renamed.of_forall₂ rfl (.sortKey _ _ direction) (.cons hk .nil)
      exact ⟨_, .thenBy direction hverb, .sort ..,
        List.rel_append hchildren (.cons hkey .nil)⟩
  | skip hcount =>
    obtain _ | ⟨hs, hnil⟩ := hplans
    cases hnil
    obtain _ | ⟨he, -⟩ := hextra
    exact ⟨_, .skip (he.constantCount_eq_ok hcount), .skip .., .cons hs .nil⟩
  | take hcount =>
    obtain _ | ⟨hs, hnil⟩ := hplans
    cases hnil
    obtain _ | ⟨he, -⟩ := hextra
    exact ⟨_, .take (he.constantCount_eq_ok hcount), .take .., .cons hs .nil⟩
  | groupBy =>
    obtain _ | ⟨hs, _ | ⟨hk, hnil⟩⟩ := hplans
    cases hnil
    cases hextra
    exact ⟨_, .groupBy, .groupBy .., .cons hs (.cons hk .nil)⟩
  | groupByElement =>
    obtain _ | ⟨hs, _ | ⟨hk, _ | ⟨hf, hnil⟩⟩⟩ := hplans
    cases hnil
    exact ⟨_, .groupByElement, .groupBy .., .cons hs (.cons hk (.cons hf .nil))⟩
  | join =>
    obtain _ | ⟨ho, _ | ⟨hi, _ | ⟨hok, _ | ⟨hik, _ | ⟨hr, hnil⟩⟩⟩⟩⟩ := hplans
    cases hnil
    exact ⟨_, .join, .join .., .cons ho (.cons hi (.cons hok (.cons hik (.cons hr .nil))))⟩
  | «include» hpath =>
    obtain _ | ⟨hs, hnil⟩ := hplans
    cases hnil
    obtain _ | ⟨he, -⟩ := hextra
    exact ⟨_, .include (he.pathArgument_eq_ok hpath), .include .., .cons hs .nil⟩
  | thenInclude hpath =>
    obtain _ | ⟨hloaded, hnil⟩ := hplans
    cases hnil
    obtain _ | ⟨he, -⟩ := hextra
    obtain ⟨op', rfl, hstage, hchildren⟩ := hloaded.exists_stage
    cases hstage with
    | «include» s s' path =>
      exact ⟨_, .thenInclude (he.navigationPath_eq_ok hpath), .include .., hchildren⟩
  | aggregate =>
    obtain _ | ⟨hs, hnil⟩ := hplans
    cases hnil
    cases hextra
    exact ⟨_, .aggregate, .aggregate .., .cons hs .nil⟩
  | aggregateArgument =>
    obtain _ | ⟨hs, _ | ⟨ha, hnil⟩⟩ := hplans
    cases hnil
    exact ⟨_, .aggregateArgument, .aggregate .., .cons hs (.cons ha .nil)⟩

/-! ## Parameters -/

/-- The type of a parameter does not depend on its name. -/
theorem Draft.parameterType_eq_ok {x : String} {declared t : Ty} {bound : Option Ty}
    (h : Draft.parameterType x declared bound = .ok t) (y : String) :
    Draft.parameterType y declared bound = .ok t := by
  cases declared with
  | infer =>
    cases bound with
    | none => cases h
    | some u => exact h
  | _ => exact h

/-- Renamed lambdas have the same types of parameters. -/
theorem Draft.exists_renamed_parameters {params : List ((String × String) × Ty)} {bound : List Ty}
    {ps : List (Parameter × Ty)}
    (h : Draft.parameters (params.map fun p => (p.1.1, p.2)) bound = .ok ps) :
    ∃ rows : List ((String × String) × Ty), rows.map Prod.fst = params.map Prod.fst ∧
      ps = rows.map (fun r => (⟨r.1.1, r.2.describe⟩, r.2)) ∧
      Draft.parameters (params.map fun p => (p.1.2, p.2)) bound =
        .ok (rows.map fun r => (⟨r.1.2, r.2.describe⟩, r.2)) := by
  induction params generalizing bound ps with
  | nil =>
    cases h
    exact ⟨[], rfl, rfl, rfl⟩
  | cons x rest ih =>
    obtain ⟨names, declared⟩ := x
    obtain ⟨t, ps, ht, hconcrete, hps, rfl⟩ := Draft.parameters_cons_eq_ok.mp h
    obtain ⟨rows, hnames, rfl, hrows⟩ := ih hps
    refine ⟨(names, t) :: rows, ?_, rfl, ?_⟩
    · rw [List.map_cons, List.map_cons, hnames]
    · have htype := Draft.parameterType_eq_ok ht names.2
      exact Draft.parameters_cons_eq_ok.mpr ⟨t, _, htype, hconcrete, hrows, rfl⟩

/-! ## Planning -/

/-- A piece with another expression and another plan. -/
def Piece.replace (x : Piece) (e : Expr) (p : Plan) : Piece := { x with expr := e, plan := p }

/-- Pieces with renamed expressions, when every piece has a plan for a renaming of its own. -/
theorem exists_renamed_pieces {Q : Piece → Prop} {pieces : List Piece} {es' : List Expr}
    (h : ∀ x ∈ pieces, ∀ e', x.expr.Renamed R binders e' →
      ∃ p', Q (x.replace e' p') ∧ x.plan.Renamed R binders p')
    (hes : List.Forall₂ (Expr.Renamed R binders) (pieces.map Piece.expr) es') :
    ∃ pieces' : List Piece, pieces'.map Piece.expr = es' ∧
      pieces'.map Piece.operand = pieces.map Piece.operand ∧ (∀ x ∈ pieces', Q x) ∧
      List.Forall₂ (Plan.Renamed R binders) (pieces.map Piece.plan) (pieces'.map Piece.plan) := by
  rw [List.forall₂_map_left_iff] at hes
  induction hes with
  | nil => exact ⟨[], rfl, rfl, List.forall_mem_nil _, .nil⟩
  | @cons x e' _ _ he _ ih =>
    obtain ⟨hx, hrest⟩ := List.forall_mem_cons.mp h
    obtain ⟨p', hp', hplan⟩ := hx e' he
    obtain ⟨pieces', rfl, hoperands, hpieces, hplans⟩ := ih hrest
    refine ⟨x.replace e' p' :: pieces', rfl, ?_, List.forall_mem_cons.mpr ⟨hp', hpieces⟩,
      .cons hplan hplans⟩
    rw [List.map_cons, List.map_cons, hoperands]
    rfl

/-- Named pieces with renamed expressions, when every piece has a plan for a renaming of its own. -/
theorem exists_renamed_named {Q : Piece → Prop} {members : List (String × Piece)}
    {bs' : List (String × Expr)}
    (h : ∀ m ∈ members, ∀ e', m.2.expr.Renamed R binders e' →
      ∃ p', Q (m.2.replace e' p') ∧ m.2.plan.Renamed R binders p')
    (hnames : bs'.map Prod.fst = (members.map fun m => (m.1, m.2.expr)).map Prod.fst)
    (hes : List.Forall₂ (Expr.Renamed R binders)
      ((members.map fun m => (m.1, m.2.expr)).map Prod.snd) (bs'.map Prod.snd)) :
    ∃ members' : List (String × Piece), members'.map (fun m => (m.1, m.2.expr)) = bs' ∧
      members'.map (fun m => (m.1, m.2.type)) = members.map (fun m => (m.1, m.2.type)) ∧
      (∀ m ∈ members', Q m.2) ∧ List.Forall₂ (Plan.Renamed R binders)
        (members.map fun m => m.2.plan) (members'.map fun m => m.2.plan) := by
  rw [List.map_map, List.forall₂_map_left_iff, List.forall₂_map_right_iff] at hes
  induction hes with
  | nil => exact ⟨[], rfl, rfl, List.forall_mem_nil _, .nil⟩
  | @cons m b' _ _ he _ ih =>
    obtain ⟨hm, hrest⟩ := List.forall_mem_cons.mp h
    obtain ⟨hname, hnames⟩ := List.cons.inj hnames
    obtain ⟨p', hp', hplan⟩ := hm b'.2 he
    obtain ⟨members', rfl, htypes, hmembers, hplans⟩ := ih hrest hnames
    refine ⟨(m.1, m.2.replace b'.2 p') :: members', ?_, ?_,
      List.forall_mem_cons.mpr ⟨hp', hmembers⟩, .cons hplan hplans⟩
    · rw [List.map_cons, ← hname]
      rfl
    · rw [List.map_cons, List.map_cons, htypes]
      rfl

/-- Named pieces with the same names and types have the same names. -/
theorem map_fst_eq_of_types {members members' : List (String × Piece)}
    (h : members'.map (fun m => (m.1, m.2.type)) = members.map (fun m => (m.1, m.2.type))) :
    members'.map Prod.fst = members.map Prod.fst := by
  have hfst := congrArg (List.map Prod.fst) h
  rw [List.map_map, List.map_map] at hfst
  exact hfst

/-- A renaming of a planned expression is planned too, in a scope where linked parameters have the
same type, and its plan is a renaming. -/
theorem Planned.exists_renamed {c : Catalog} {scope scope' : TypeScope} {bound : List Ty}
    {e e' : Expr} {p : Plan} {t : Ty} (h : Planned c scope bound e p t)
    (hrenamed : e.Renamed R binders e') (hscopes : ScopesAlike binders scope scope') :
    ∃ p', Planned c scope' bound e' p' t ∧ p.Renamed R binders p' := by
  induction h generalizing binders e' scope' with
  | constant v ht =>
    rw [← hrenamed.eq_of_isClosed rfl]
    exact ⟨_, .constant v ht, .of_forall₂ rfl (.constant _ _) .nil⟩
  | source ht =>
    obtain ⟨hnode, -⟩ := hrenamed.sameNode rfl
    cases hnode
    exact ⟨_, .source ht, .of_forall₂ rfl (.query (.source _) _) .nil⟩
  | @parameter scope name declared t hscope ht =>
    cases hrenamed with
    | @parameter _ _ y _ hlinked =>
      rw [hscopes name y hlinked] at hscope
      exact ⟨_, .parameter declared hscope ht, .parameter _ hlinked⟩
    | node _ hnames => cases hnames
  | member _ htype hs ht ih =>
    obtain ⟨hnode, hchildren⟩ := hrenamed.sameNode rfl
    cases hnode
    obtain _ | ⟨he, -⟩ := hchildren
    obtain ⟨p', hp', hrenamed⟩ := ih he hscopes
    exact ⟨_, .member hp' htype hs ht, .of_forall₂ rfl (.member ..) (.cons hrenamed .nil)⟩
  | unary _ htype ht ih =>
    obtain ⟨hnode, hchildren⟩ := hrenamed.sameNode rfl
    cases hnode
    obtain _ | ⟨he, -⟩ := hchildren
    obtain ⟨p', hp', hrenamed⟩ := ih he hscopes
    exact ⟨_, .unary hp' htype ht, .of_forall₂ rfl (.unary ..) (.cons hrenamed .nil)⟩
  | binary _ _ htype ht ihl ihr =>
    obtain ⟨hnode, hchildren⟩ := hrenamed.sameNode rfl
    cases hnode
    obtain _ | ⟨hl, _ | ⟨hr, -⟩⟩ := hchildren
    obtain ⟨l', hl', hlplan⟩ := ihl hl hscopes
    obtain ⟨r', hr', hrplan⟩ := ihr hr hscopes
    exact ⟨_, .binary hl' hr' htype ht,
      .of_forall₂ rfl (.binary ..) (.cons hlplan (.cons hrplan .nil))⟩
  | conditional _ _ _ htype ht ihtest ihl ihr =>
    obtain ⟨hnode, hchildren⟩ := hrenamed.sameNode rfl
    cases hnode
    obtain _ | ⟨htest, _ | ⟨hl, _ | ⟨hr, -⟩⟩⟩ := hchildren
    obtain ⟨q', hq', hqplan⟩ := ihtest htest hscopes
    obtain ⟨l', hl', hlplan⟩ := ihl hl hscopes
    obtain ⟨r', hr', hrplan⟩ := ihr hr hscopes
    exact ⟨_, .conditional hq' hl' hr' htype ht,
      .of_forall₂ rfl (.conditional ..) (.cons hqplan (.cons hlplan (.cons hrplan .nil)))⟩
  | @lambda scope bound params ps body p t harity hparams _ ht ih =>
    cases hrenamed with
    | @lambda _ _ body' params hpairs hbody =>
      obtain ⟨rows, hnames, rfl, hparams'⟩ := Draft.exists_renamed_parameters hparams
      have hinner := hscopes.bind rows
      rw [hnames] at hinner
      rw [TypeScope.extend, List.map_map] at ih
      obtain ⟨p', hp', hrenamed⟩ := ih hbody hinner
      rw [List.length_map] at harity
      have hp' : Planned c (scope'.extend (rows.map fun r => (⟨r.1.2, r.2.describe⟩, r.2))) []
          body' p' t := by
        rw [TypeScope.extend, List.map_map]
        exact hp'
      have hlambda := @Plan.Renamed.lambda R binders p p' (rows.map fun r => (r.1, r.2.describe))
        t.describe
      rw [List.map_map, List.map_map, List.map_map] at hlambda
      refine ⟨_, .lambda ?_ hparams' hp' ht, ?_⟩
      · rw [List.length_map]
        exact harity
      · rw [List.map_map, List.map_map]
        refine hlambda (List.forall_mem_map.mpr fun r hr => ?_) ?_
        · obtain ⟨q, hq, hqr⟩ := List.mem_map.mp (hnames ▸ List.mem_map_of_mem (f := Prod.fst) hr)
          rw [← hqr]
          exact hpairs q hq
        · have hfst : rows.map (Prod.fst ∘ fun r => (r.1, r.2.describe)) = params.map Prod.fst :=
            hnames
          rw [hfst]
          exact hrenamed
    | node _ hnames => cases hnames
  | @query scope verb operands extra op t _ hsignature hbuilds ht ih =>
    obtain ⟨hnode, hchildren⟩ := hrenamed.sameNode rfl
    cases hnode
    obtain ⟨es', extra', rfl, hes, hextra⟩ := exists_append_of_forall₂ hchildren
    obtain ⟨operands', rfl, hoperands, hplanned, hplans⟩ := exists_renamed_pieces
      (Q := fun x => Planned c scope' x.bound x.expr x.plan x.type)
      (fun x hx e' he => ih x hx he hscopes) hes
    obtain ⟨op', hbuilds', hstage, hstages⟩ := hbuilds.exists_renamed hplans hextra
    rw [← hoperands] at hsignature
    exact ⟨.query op' t.describe, .query operands' hplanned hsignature hbuilds' ht,
      .of_forall₂ rfl (.query hstage _) hstages⟩
  | call args _ hdeclaring ht ih =>
    obtain ⟨hnode, hchildren⟩ := hrenamed.sameNode rfl
    cases hnode
    obtain ⟨args', rfl, -, hplanned, hplans⟩ := exists_renamed_pieces
      (Q := fun x => Planned c scope' [] x.expr x.plan x.type)
      (fun x hx e' he => ih x hx he hscopes) hchildren
    exact ⟨_, .call args' hplanned hdeclaring ht, .of_forall₂ rfl (.call ..) hplans⟩
  | array items _ ht ih =>
    obtain ⟨hnode, hchildren⟩ := hrenamed.sameNode rfl
    cases hnode
    obtain ⟨items', rfl, -, hplanned, hplans⟩ := exists_renamed_pieces
      (Q := fun x => Planned c scope' [] x.expr x.plan x.type)
      (fun x hx e' he => ih x hx he hscopes) hchildren
    exact ⟨_, .array items' hplanned ht, .of_forall₂ rfl (.array ..) hplans⟩
  | list items _ ht ih =>
    obtain ⟨hnode, hchildren⟩ := hrenamed.sameNode rfl
    cases hnode
    obtain ⟨items', rfl, -, hplanned, hplans⟩ := exists_renamed_pieces
      (Q := fun x => Planned c scope' [] x.expr x.plan x.type)
      (fun x hx e' he => ih x hx he hscopes) hchildren
    exact ⟨_, .list items' hplanned ht, .of_forall₂ rfl (.list ..) hplans⟩
  | object members _ heq ht ih =>
    obtain ⟨hnode, hchildren⟩ := hrenamed.sameNode rfl
    cases hnode with
    | object hnames =>
      obtain ⟨members', rfl, htypes, hplanned, hplans⟩ := exists_renamed_named
        (Q := fun x => Planned c scope' [] x.expr x.plan x.type)
        (fun m hm e' he => ih m hm he hscopes) hnames hchildren
      rw [← htypes] at heq
      refine ⟨_, .object members' hplanned heq ht, ?_⟩
      rw [map_fst_eq_of_types htypes]
      exact .of_forall₂ rfl (.object ..) hplans
  | @construct scope t bindings _ hmembers ht ih =>
    obtain ⟨hnode, hchildren⟩ := hrenamed.sameNode rfl
    cases hnode with
    | construct _ hnames =>
      obtain ⟨bindings', rfl, htypes, hplanned, hplans⟩ := exists_renamed_named
        (Q := fun x => Planned c scope' [] x.expr x.plan x.type)
        (fun m hm e' he => ih m hm he hscopes) hnames hchildren
      have hfst := map_fst_eq_of_types htypes
      have hdeclared : ∀ b' ∈ bindings', ∃ u, c.typeOfMember t b'.1 = .ok u := by
        intro b' hb'
        obtain ⟨b, hb, hname⟩ := List.mem_map.mp (hfst ▸ List.mem_map_of_mem hb')
        rw [← hname]
        exact hmembers b hb
      refine ⟨_, .construct bindings' hplanned hdeclared ht, .of_forall₂ rfl (.construct ?_ _) ?_⟩
      · rw [List.map_map, List.map_map]
        exact hfst
      · rw [Plan.children, Plan.children, List.map_map, List.map_map]
        exact hplans

namespace Expr

/-- A renaming of an expression with a plan has a plan, which is a renaming. -/
theorem Renamed.exists_plan {c : Catalog} {admits : LocalTest} {e e' : Expr} {a : Plan}
    (h : e.Renamed R [] e') (hplan : e.plan c admits = .ok a) :
    ∃ a', e'.plan c admits = .ok a' ∧ a.Renamed R [] a' := by
  obtain ⟨f, t, hf, hplanned⟩ := plan_eq_ok.mp hplan
  obtain ⟨f', hf', hfrozen⟩ := h.exists_freeze hf
  obtain ⟨a', hplanned', ha⟩ := hplanned.exists_renamed hfrozen (scopesAlike_nil [] [])
  exact ⟨a', plan_eq_ok.mpr ⟨f', t, hf', hplanned'⟩, ha⟩

/-- Main statement: the names of parameters do not matter. Two expressions without free parameters
that differ in the names of their parameters alone, by pairs of `R`, have the same values over every
data source; under every catalog one has a plan when the other has, and the plans differ in the
names of their parameters alone, by pairs of `R`. -/
theorem Renamed.evaluate_plan {e e' : Expr} (h : e.Renamed R [] e') :
    (∀ (data : DataSource) (v : Value), e.evaluate data = .ok v ↔ e'.evaluate data = .ok v) ∧
      ∀ (c : Catalog) (admits : LocalTest),
        ((∃ a, e.plan c admits = .ok a) ↔ ∃ a', e'.plan c admits = .ok a') ∧
        ∀ a a', e.plan c admits = .ok a → e'.plan c admits = .ok a' → a.Renamed R [] a' := by
  refine ⟨h.evaluate_agree, fun c admits => ⟨⟨?_, ?_⟩, ?_⟩⟩
  · rintro ⟨a, ha⟩
    obtain ⟨a', ha', -⟩ := h.exists_plan ha
    exact ⟨a', ha'⟩
  · rintro ⟨a', ha'⟩
    obtain ⟨a, ha, -⟩ := h.symm.exists_plan ha'
    exact ⟨a, ha⟩
  · intro a a' ha ha'
    obtain ⟨b, hb, hrenamed⟩ := h.exists_plan ha
    cases Except.ok.inj (hb.symm.trans ha')
    exact hrenamed

/-- The people that are older than someone, by two names of parameters. -/
def olderThanSome (x y : String) : Expr :=
  .query .filter [.source (.record "app.Person"), .lambda [(x, .infer)]
    (.query (.aggregate .any) [.source (.record "app.Person"), .lambda [(y, .infer)]
      (.binary .gt (.member (.parameter x .infer) "Age") (.member (.parameter y .infer) "Age"))])]

/-- Two different names may change to any two different names, each other's among them. -/
theorem olderThanSome_renamed {x y x' y' : String} (h : y ≠ x) (h' : y' ≠ x') :
    (olderThanSome x y).Renamed (fun z z' => z = x ∧ z' = x' ∨ z = y ∧ z' = y') []
      (olderThanSome x' y') := by
  have htable : ∀ binders, Renamed (fun z z' => z = x ∧ z' = x' ∨ z = y ∧ z' = y') binders
      (.source (.record "app.Person")) (.source (.record "app.Person")) :=
    fun _ => .of_forall₂ rfl (.source _) .nil
  refine .of_forall₂ rfl (.query ..) (.cons (htable _) (.cons ?_ .nil))
  refine .lambda [((x, x'), .infer)] (by simp) ?_
  refine .of_forall₂ rfl (.query ..) (.cons (htable _) (.cons ?_ .nil))
  refine .lambda [((y, y'), .infer)] (by simp) ?_
  refine .of_forall₂ rfl (.binary ..) (.cons ?_ (.cons ?_ .nil))
  · exact .of_forall₂ rfl (.member ..)
      (.cons (.parameter _ (.there h.symm h'.symm (.here x x' []))) .nil)
  · exact .of_forall₂ rfl (.member ..) (.cons (.parameter _ (.here y y' _)) .nil)

/-- Two parameters that change their names are planned with the names changed. -/
theorem olderThanSome_evaluate_plan :
    (olderThanSome "p" "q").evaluate Store.people.elements = .ok (.list []) ∧
      (olderThanSome "q" "p").evaluate Store.people.elements = .ok (.list []) ∧
      ∃ a a', (olderThanSome "p" "q").plan Catalog.people (fun _ => true) = .ok a ∧
        (olderThanSome "q" "p").plan Catalog.people (fun _ => true) = .ok a' ∧
        a.Renamed (fun z z' => z = "p" ∧ z' = "q" ∨ z = "q" ∧ z' = "p") [] a' := by
  have hrenamed : (olderThanSome "p" "q").Renamed _ [] (olderThanSome "q" "p") :=
    olderThanSome_renamed (by decide) (by decide)
  obtain ⟨hvalues, hplans⟩ := hrenamed.evaluate_plan
  exact ⟨rfl, (hvalues _ _).mp rfl, _, _, rfl, rfl,
    (hplans Catalog.people fun _ => true).2 _ _ rfl rfl⟩

end Expr
end QueryRelay
