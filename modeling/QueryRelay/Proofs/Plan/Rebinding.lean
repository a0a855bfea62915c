import QueryRelay.Proofs.Plan.Drafting
import QueryRelay.Proofs.Plan.Inheritance

/-!
# Binding plans again

A plan that planning made is bound again to the catalog that it was made with. Every descriptor in
it stands for a type that the catalog knows, so binding succeeds, and the expression that it gives
is a rewriting of the one that was planned. If no type in it marks null twice in a row, that
expression has the same plan.
-/

namespace QueryRelay

open Ty (Hereditary IsNormal Known known_hereditary isNormal_hereditary)

/-- A catalog that fits an expression: its keys are in order, it knows the types that are declared,
in the expression and by its own records, and the functions that are called are its own. -/
structure Catalog.RegularFor (c : Catalog) (e : Expr) : Prop where
  /-- Definitions stand under their own fingerprints. -/
  keyed : c.IsKeyed
  /-- The types of fields are known. -/
  fields : ∀ r ∈ c.records, ∀ field ∈ r.fields, field.2.Known c
  /-- The declared types are known. -/
  declared : e.Declares (Known c)
  /-- Each function is the one of its declaring type and its name. -/
  functions : e.Every fun p => ∀ f, p.function? = some f → c.function? f.declaring f.name = some f

/-- A catalog whose records mark null at most once in a row. -/
def Catalog.HasNormalFields (c : Catalog) : Prop :=
  ∀ r ∈ c.records, ∀ field ∈ r.fields, field.2.IsNormal

/-- Binding the plan of an expression gives a rewriting of it that has the same plan, as far as no
type marks null twice in a row. -/
structure Rebound (c : Catalog) (scope : TypeScope) (bound : List Ty) (e : Expr) (p : Plan) (t : Ty)
    (h : Expr) : Prop where
  /-- Binding succeeds. -/
  bind : p.toExpr c = .ok h
  /-- The result is a rewriting. -/
  rewrites : e.Rewrites Ty.normal h
  /-- The result has the same plan. -/
  planned : c.HasNormalFields → TypesIn IsNormal scope bound e → Planned c scope bound h p t

/-! ## Lists of pieces -/

/-- What each element of a list has can be listed beside them. -/
theorem exists_pairs_of_forall {α β : Type} {R : α → β → Prop} {xs : List α}
    (h : ∀ x ∈ xs, ∃ y, R x y) :
    ∃ zs : List (α × β), zs.map Prod.fst = xs ∧ ∀ z ∈ zs, R z.1 z.2 := by
  induction xs with
  | nil => exact ⟨[], rfl, List.forall_mem_nil _⟩
  | cons x xs ih =>
    rw [List.forall_mem_cons] at h
    obtain ⟨y, hy⟩ := h.1
    obtain ⟨zs, rfl, hzs⟩ := ih h.2
    exact ⟨(x, y) :: zs, rfl, List.forall_mem_cons.mpr ⟨hy, hzs⟩⟩

/-- Pieces with other expressions in their place. -/
def rebindPieces (zs : List (Piece × Expr)) : List Piece := zs.map fun z => { z.1 with expr := z.2 }

/-- The new expressions. -/
theorem rebindPieces_expr (zs : List (Piece × Expr)) :
    (rebindPieces zs).map Piece.expr = zs.map Prod.snd := List.map_map

/-- The plans stay. -/
theorem rebindPieces_plan (zs : List (Piece × Expr)) :
    (rebindPieces zs).map Piece.plan = (zs.map Prod.fst).map Piece.plan := by
  rw [rebindPieces, List.map_map, List.map_map]
  rfl

/-- The operands stay. -/
theorem rebindPieces_operand (zs : List (Piece × Expr)) :
    (rebindPieces zs).map Piece.operand = (zs.map Prod.fst).map Piece.operand := by
  rw [rebindPieces, List.map_map, List.map_map]
  rfl

/-- The expressions of pieces beside those that take their place. -/
def rewritePairs (zs : List (Piece × Expr)) : List (Expr × Expr) := zs.map fun z => (z.1.expr, z.2)

/-- The old expressions. -/
theorem rewritePairs_fst (zs : List (Piece × Expr)) :
    (rewritePairs zs).map Prod.fst = (zs.map Prod.fst).map Piece.expr := by
  rw [rewritePairs, List.map_map, List.map_map]
  rfl

/-- The new expressions. -/
theorem rewritePairs_snd (zs : List (Piece × Expr)) :
    (rewritePairs zs).map Prod.snd = zs.map Prod.snd := List.map_map

namespace Plan

/-- Plans are bound one by one. -/
theorem toExprs_eq_mapM (c : Catalog) (ps : List Plan) : toExprs c ps = ps.mapM (toExpr c) := by
  induction ps with
  | nil => rfl
  | cons p rest ih => rw [toExprs, ih, List.mapM_cons]

/-- Named plans are bound one by one. -/
theorem toBindings_eq_mapM (c : Catalog) (bs : List (String × Plan)) :
    toBindings c bs = bs.mapM fun b => return (b.1, ← toExpr c b.2) := by
  induction bs with
  | nil => rfl
  | cons b rest ih =>
    obtain ⟨name, p⟩ := b
    rw [toBindings, ih, List.mapM_cons]
    cases toExpr c p <;> rfl

/-- Plans that are bound each are bound together. -/
theorem toExprs_eq_ok {α : Type} {c : Catalog} {zs : List α} {plan : α → Plan} {expr : α → Expr}
    (h : ∀ z ∈ zs, (plan z).toExpr c = .ok (expr z)) :
    toExprs c (zs.map plan) = .ok (zs.map expr) := by
  rw [toExprs_eq_mapM, Outcome.mapM_eq_ok, List.forall₂_map_left_iff, List.forall₂_map_right_iff,
    List.forall₂_same]
  exact h

/-- Named plans that are bound each are bound together. -/
theorem toBindings_eq_ok {α : Type} {c : Catalog} {zs : List α} {name : α → String}
    {plan : α → Plan} {expr : α → Expr} (h : ∀ z ∈ zs, (plan z).toExpr c = .ok (expr z)) :
    toBindings c (zs.map fun z => (name z, plan z)) = .ok (zs.map fun z => (name z, expr z)) := by
  rw [toBindings_eq_mapM, Outcome.mapM_eq_ok, List.forall₂_map_left_iff,
    List.forall₂_map_right_iff, List.forall₂_same]
  exact fun z hz => Outcome.bind_eq_ok.mpr ⟨_, h z hz, rfl⟩

/-- The parameters of a lambda are bound to the normal forms of their types. -/
theorem parameterTypes_eq_ok {c : Catalog} (hc : c.IsKeyed) {params : List (String × Ty)}
    {bound : List Ty} {ps : List (Parameter × Ty)} (h : Draft.parameters params bound = .ok ps)
    (hknown : ∀ p ∈ ps, p.2.Known c) :
    parameterTypes c (ps.map Prod.fst) = .ok (ps.map fun p => (p.1.name, p.2.normal)) := by
  induction params generalizing bound ps with
  | nil =>
    cases h
    rfl
  | cons x rest ih =>
    obtain ⟨t, ps, -, hconcrete, hps, rfl⟩ := Draft.parameters_cons_eq_ok.mp h
    rw [List.forall_mem_cons] at hknown
    rw [List.map_cons, List.map_cons, parameterTypes, hc.resolve_describe hknown.1 hconcrete,
      ih hps hknown.2]
    rfl

/-- Parameters that declare the types they had are planned alike, whatever they are bound to. -/
theorem parameters_again {params : List (String × Ty)} {bound : List Ty}
    {ps : List (Parameter × Ty)} (h : Draft.parameters params bound = .ok ps)
    (hnormal : ∀ p ∈ ps, p.2.IsNormal) (bound' : List Ty) :
    Draft.parameters (ps.map fun p => (p.1.name, p.2.normal)) bound' = .ok ps := by
  induction params generalizing bound bound' ps with
  | nil =>
    cases h
    rfl
  | cons x rest ih =>
    obtain ⟨name, declared⟩ := x
    obtain ⟨t, ps, -, hconcrete, hps, rfl⟩ := Draft.parameters_cons_eq_ok.mp h
    rw [List.forall_mem_cons] at hnormal
    have ht : t.normal = t := hnormal.1
    have hdeclared : Draft.parameterType name t bound'.head? = .ok t := by
      cases t with
      | infer => cases hconcrete
      | _ => rfl
    rw [List.map_cons, ht]
    have hagain := ih hps hnormal.2 bound'.tail
    exact Draft.parameters_cons_eq_ok.mpr ⟨t, ps, hdeclared, hconcrete, hagain, rfl⟩

/-- Planning gives a lambda one parameter for each that it has. -/
theorem parameters_names {params : List (String × Ty)} {bound : List Ty}
    {ps : List (Parameter × Ty)} (h : Draft.parameters params bound = .ok ps) :
    ps.map (fun p => p.1.name) = params.map Prod.fst := by
  induction params generalizing bound ps with
  | nil =>
    cases h
    rfl
  | cons x rest ih =>
    obtain ⟨t, ps, -, -, hps, rfl⟩ := Draft.parameters_cons_eq_ok.mp h
    rw [List.map_cons, List.map_cons, ih hps]

/-! ## Sort keys and counts -/

/-- A sort by one more key is one more operator. -/
theorem applyKeys_append (source key : Expr) (direction : SortDirection) (isFirst : Bool)
    {keys : List (Expr × SortDirection)} (h : keys ≠ []) :
    applyKeys source isFirst (keys ++ [(key, direction)]) =
      (applyKeys source isFirst keys).applyVerb (sortVerb false direction) [key] := by
  induction keys generalizing source isFirst with
  | nil => exact absurd rfl h
  | cons k rest ih =>
    obtain ⟨e, d⟩ := k
    rw [List.cons_append, applyKeys, applyKeys]
    cases rest with
    | nil => rfl
    | cons k' rest => exact ih _ _ (List.cons_ne_nil _ _)

/-- One more sort key is bound after those before it. -/
theorem toSortKeys_append {c : Catalog} {keys : List Plan} {ks : List (Expr × SortDirection)}
    {k : Plan} {e : Expr} {direction : SortDirection} (hkeys : toSortKeys c keys = .ok ks)
    (hk : k.toExpr c = .ok e) :
    toSortKeys c (keys ++ [.sortKey k direction]) = .ok (ks ++ [(e, direction)]) := by
  induction keys generalizing ks with
  | nil =>
    cases hkeys
    rw [List.nil_append, toSortKeys, hk]
    rfl
  | cons key rest ih =>
    cases key with
    | sortKey inner d =>
      rw [toSortKeys] at hkeys
      obtain ⟨x, hx, h⟩ := Outcome.bind_eq_ok.mp hkeys
      obtain ⟨xs, hxs, h⟩ := Outcome.bind_eq_ok.mp h
      cases h
      rw [List.cons_append, toSortKeys, hx, ih hxs]
      rfl
    | _ => cases hkeys

/-- A count is bound to the constant that it was read off. -/
theorem countLiteral_eq_ok {verb : QueryVerb} {e : Expr} {n : UInt64}
    (h : Draft.constantCount verb e = .ok n) :
    ∃ m t, e = .constant (.int m) t ∧ countLiteral n = .ok (.literal (.int m)) := by
  unfold Draft.constantCount at h
  split at h
  · rename_i m t
    split at h
    · rename_i hm
      cases h
      have hlt : m.toInt < 9223372036854775808 := m.toInt_lt
      have hnat : (UInt64.ofNat m.toInt.toNat).toNat = m.toInt.toNat := by
        rw [UInt64.toNat_ofNat']
        omega
      have hint : Int64.ofNat m.toInt.toNat = m := by
        rw [← Int64.ofInt_eq_ofNat, Int.toNat_of_nonneg hm, Int64.ofInt_toInt]
      refine ⟨m, t, rfl, ?_⟩
      rw [countLiteral, hnat, if_pos (by omega), hint]
    · cases h
  · cases h

end Plan

/-! ## Query operators -/

section Stages

variable {c : Catalog} {scope : TypeScope} {verb : QueryVerb} {op : QueryOp Plan} {t : Ty}

/-- A query operator over bound operands. Besides the operands, `more` pairs arguments that are read
with constants that they turn into. -/
theorem rebound_query {zs : List (Piece × Expr)} (more : List (Expr × Expr))
    (extra extra' : List Expr)
    (hzs : ∀ z ∈ zs, Rebound c scope z.1.bound z.1.expr z.1.plan z.1.type z.2)
    (hsignature : verb.Signature ((zs.map Prod.fst).map Piece.operand) t)
    (hbuilds : verb.Builds ((zs.map Prod.fst).map Piece.plan) (more.map Prod.snd ++ extra') op)
    (ht : t.isConcrete = true) (hresolve : c.resolve t.describe = .ok t.normal)
    (hop : Plan.toQuery c op = .ok (.query verb (zs.map Prod.snd ++ (more.map Prod.snd ++ extra'))))
    (hmore : ∀ z ∈ more, z.1.Rewrites Ty.normal z.2)
    (hreads : extra = [] ∧ extra' = [] ∨ Meaning.reads verb ≤ zs.length + more.length)
    (hextra : ∀ x ∈ extra', x.isConstant = true)
    (hnormal : c.HasNormalFields → TypesIn IsNormal scope []
        (.query verb ((zs.map Prod.fst).map Piece.expr ++ (more.map Prod.fst ++ extra))) →
      ∀ z ∈ zs, TypesIn IsNormal scope z.1.bound z.1.expr) :
    Rebound c scope []
      (.query verb ((zs.map Prod.fst).map Piece.expr ++ (more.map Prod.fst ++ extra)))
      (.query op t.describe) t
      (.query verb (zs.map Prod.snd ++ (more.map Prod.snd ++ extra'))) where
  bind := Outcome.bind_eq_ok.mpr ⟨_, hresolve, hop⟩
  rewrites := by
    rw [← rewritePairs_fst, ← rewritePairs_snd, ← List.append_assoc, ← List.append_assoc,
      ← List.map_append, ← List.map_append]
    refine .query verb (rewritePairs zs ++ more) extra extra' (fun z hz => ?_) ?_ hextra
    · rcases List.mem_append.mp hz with hz | hz
      · obtain ⟨y, hy, rfl⟩ := List.mem_map.mp hz
        exact (hzs y hy).rewrites
      · exact hmore z hz
    · rw [List.length_append, rewritePairs, List.length_map]
      exact hreads
  planned hfields htypes := by
    rw [← rebindPieces_expr]
    rw [← rebindPieces_operand] at hsignature
    rw [← rebindPieces_plan] at hbuilds
    refine .query (rebindPieces zs) (fun x hx => ?_) hsignature hbuilds ht
    obtain ⟨z, hz, rfl⟩ := List.mem_map.mp hx
    exact (hzs z hz).planned hfields (hnormal hfields htypes z hz)

/-- Pieces with bound expressions are known by their plans. -/
theorem exists_bound_cons {zs : List (Piece × Expr)} {p : Plan} {rest : List Plan}
    (hplans : (zs.map Prod.fst).map Piece.plan = p :: rest) :
    ∃ b e u h tail, zs = (⟨b, e, p, u⟩, h) :: tail ∧ (tail.map Prod.fst).map Piece.plan = rest := by
  rw [List.map_map] at hplans
  obtain ⟨⟨⟨b, e, p', u⟩, h⟩, tail, rfl, hp, htail⟩ := List.map_eq_cons_iff.mp hplans
  cases hp
  rw [← List.map_map] at htail
  exact ⟨b, e, u, h, tail, rfl, htail⟩

/-- One piece with its bound expression. -/
theorem exists_bound_one {zs : List (Piece × Expr)} {p : Plan}
    (hplans : (zs.map Prod.fst).map Piece.plan = [p]) :
    ∃ b e u h, zs = [(⟨b, e, p, u⟩, h)] := by
  obtain ⟨b, e, u, h, tail, rfl, htail⟩ := exists_bound_cons hplans
  rw [List.map_eq_nil_iff.mp (List.map_eq_nil_iff.mp htail)]
  exact ⟨b, e, u, h, rfl⟩

/-- Two pieces with their bound expressions. -/
theorem exists_bound_two {zs : List (Piece × Expr)} {p p' : Plan}
    (hplans : (zs.map Prod.fst).map Piece.plan = [p, p']) :
    ∃ b e u h b' e' u' h', zs = [(⟨b, e, p, u⟩, h), (⟨b', e', p', u'⟩, h')] := by
  obtain ⟨b, e, u, h, tail, rfl, htail⟩ := exists_bound_cons hplans
  obtain ⟨b', e', u', h', rfl⟩ := exists_bound_one htail
  exact ⟨b, e, u, h, b', e', u', h', rfl⟩

/-- Three pieces with their bound expressions. -/
theorem exists_bound_three {zs : List (Piece × Expr)} {p p' p'' : Plan}
    (hplans : (zs.map Prod.fst).map Piece.plan = [p, p', p'']) :
    ∃ b e u h b' e' u' h' b'' e'' u'' h'',
      zs = [(⟨b, e, p, u⟩, h), (⟨b', e', p', u'⟩, h'), (⟨b'', e'', p'', u''⟩, h'')] := by
  obtain ⟨b, e, u, h, tail, rfl, htail⟩ := exists_bound_cons hplans
  obtain ⟨b', e', u', h', b'', e'', u'', h'', rfl⟩ := exists_bound_two htail
  exact ⟨b, e, u, h, b', e', u', h', b'', e'', u'', h'', rfl⟩

/-- The plan of a bound sort binds its source and its keys. -/
theorem toExpr_sort_eq_ok {s : Plan} {keys : List Plan} {type : Descriptor} {h : Expr}
    (hbind : (Plan.query (.sort s keys) type).toExpr c = .ok h) :
    ∃ source ks, s.toExpr c = .ok source ∧ keys ≠ [] ∧ Plan.toSortKeys c keys = .ok ks ∧
      h = Plan.applyKeys source true ks := by
  obtain ⟨_, -, hquery⟩ := Outcome.bind_eq_ok.mp hbind
  obtain ⟨source, hsource, hquery⟩ := Outcome.bind_eq_ok.mp hquery
  split at hquery
  · cases hquery
  · rename_i hempty
    obtain ⟨ks, hks, hquery⟩ := Outcome.bind_eq_ok.mp hquery
    cases hquery
    refine ⟨source, ks, hsource, ?_, hks, rfl⟩
    rintro rfl
    exact hempty rfl

/-- Binding keeps the number of sort keys. -/
theorem toSortKeys_ne_nil {keys : List Plan} {ks : List (Expr × SortDirection)}
    (hks : Plan.toSortKeys c keys = .ok ks) (hkeys : keys ≠ []) : ks ≠ [] := by
  cases keys with
  | nil => exact absurd rfl hkeys
  | cons key rest =>
    cases key with
    | sortKey inner d =>
      rw [Plan.toSortKeys] at hks
      obtain ⟨x, -, hks⟩ := Outcome.bind_eq_ok.mp hks
      obtain ⟨xs, -, hks⟩ := Outcome.bind_eq_ok.mp hks
      cases hks
      exact List.cons_ne_nil _ _
    | _ => cases hks

/-- The plan of a bound include binds its source. -/
theorem toExpr_include_eq_ok {s : Plan} {path : String} {type : Descriptor} {h : Expr}
    (hbind : (Plan.query (.include s path) type).toExpr c = .ok h) :
    ∃ source, s.toExpr c = .ok source ∧ h = source.includePath path := by
  obtain ⟨_, -, hquery⟩ := Outcome.bind_eq_ok.mp hbind
  obtain ⟨source, hsource, hquery⟩ := Outcome.bind_eq_ok.mp hquery
  cases hquery
  exact ⟨source, hsource, rfl⟩

/-- The source of a planned include is planned, of the type of the include. -/
theorem Planned.include_source {source : Expr} {s : Plan} {path path' : String}
    {type : Descriptor} {u : Ty}
    (h : Planned c scope [] (source.includePath path) (.query (.include s path') type) u) :
    Planned c scope [] source s u := by
  generalize he : source.includePath path = e at h
  cases h with
  | query operands hoperands hsignature hbuilds _ =>
    obtain ⟨rfl, hargs⟩ := Expr.query.inj he
    generalize hops : operands.map Piece.operand = signature at hsignature
    cases hsignature with
    | «include» helement =>
      obtain ⟨e, p, rfl⟩ := Expr.exists_pieces_one hops
      cases hbuilds
      cases hargs
      exact hoperands _ (List.mem_singleton_self _)
    | sort isFirst direction hverb => cases isFirst <;> cases direction <;> cases hverb

/-- A planned query operator is bound again when its operands are. -/
theorem exists_rebound_query {operands : List Piece} {extra : List Expr}
    (hoperands : ∀ x ∈ operands, ∃ h, Rebound c scope x.bound x.expr x.plan x.type h)
    (hsignature : verb.Signature (operands.map Piece.operand) t)
    (hbuilds : verb.Builds (operands.map Piece.plan) extra op)
    (ht : t.isConcrete = true) (hresolve : c.resolve t.describe = .ok t.normal)
    (hnormal : c.HasNormalFields →
      TypesIn IsNormal scope [] (.query verb (operands.map Piece.expr ++ extra)) →
      ∀ x ∈ operands, TypesIn IsNormal scope x.bound x.expr) :
    ∃ h, Rebound c scope [] (.query verb (operands.map Piece.expr ++ extra))
      (.query op t.describe) t h := by
  obtain ⟨zs, rfl, hzs⟩ := exists_pairs_of_forall hoperands
  have hnormal' : c.HasNormalFields →
      TypesIn IsNormal scope [] (.query verb ((zs.map Prod.fst).map Piece.expr ++ extra)) →
      ∀ z ∈ zs, TypesIn IsNormal scope z.1.bound z.1.expr :=
    fun hfields htypes z hz => hnormal hfields htypes z.1 (List.mem_map_of_mem hz)
  generalize hplans : (zs.map Prod.fst).map Piece.plan = plans at hbuilds
  cases hbuilds with
  | filter =>
    obtain ⟨b, e, u, h, b', e', u', h', rfl⟩ := exists_bound_two hplans
    have hs := hzs _ (List.mem_cons_self ..)
    have hf := hzs _ (List.mem_cons_of_mem _ (List.mem_cons_self ..))
    exact ⟨_, rebound_query [] extra [] hzs hsignature .filter ht hresolve
      (Outcome.bind_eq_ok.mpr ⟨_, hs.bind, Outcome.bind_eq_ok.mpr ⟨_, hf.bind, rfl⟩⟩)
      (List.forall_mem_nil _) (.inr (Nat.le_refl 2)) (List.forall_mem_nil _) hnormal'⟩
  | select =>
    obtain ⟨b, e, u, h, b', e', u', h', rfl⟩ := exists_bound_two hplans
    have hs := hzs _ (List.mem_cons_self ..)
    have hf := hzs _ (List.mem_cons_of_mem _ (List.mem_cons_self ..))
    exact ⟨_, rebound_query [] extra [] hzs hsignature .select ht hresolve
      (Outcome.bind_eq_ok.mpr ⟨_, hs.bind, Outcome.bind_eq_ok.mpr ⟨_, hf.bind, rfl⟩⟩)
      (List.forall_mem_nil _) (.inr (Nat.le_refl 2)) (List.forall_mem_nil _) hnormal'⟩
  | selectMany =>
    obtain ⟨b, e, u, h, b', e', u', h', rfl⟩ := exists_bound_two hplans
    have hs := hzs _ (List.mem_cons_self ..)
    have hf := hzs _ (List.mem_cons_of_mem _ (List.mem_cons_self ..))
    exact ⟨_, rebound_query [] extra [] hzs hsignature .selectMany ht hresolve
      (Outcome.bind_eq_ok.mpr ⟨_, hs.bind, Outcome.bind_eq_ok.mpr ⟨_, hf.bind, rfl⟩⟩)
      (List.forall_mem_nil _) (.inr (Nat.le_refl 2)) (List.forall_mem_nil _) hnormal'⟩
  | orderBy direction hverb =>
    obtain ⟨b, e, u, h, b', e', u', h', rfl⟩ := exists_bound_two hplans
    have hs := hzs _ (List.mem_cons_self ..)
    have hk := hzs _ (List.mem_cons_of_mem _ (List.mem_cons_self ..))
    have hreads : Meaning.reads verb = 2 := by
      rw [hverb]
      cases direction <;> rfl
    refine ⟨_, rebound_query [] extra [] hzs hsignature (.orderBy direction hverb) ht hresolve
      (Outcome.bind_eq_ok.mpr ⟨_, hs.bind, Outcome.bind_eq_ok.mpr ⟨[(h', direction)], ?_, ?_⟩⟩)
      (List.forall_mem_nil _) (.inr (Nat.le_of_eq hreads)) (List.forall_mem_nil _) hnormal'⟩
    · exact Outcome.bind_eq_ok.mpr ⟨_, hk.bind, rfl⟩
    · rw [hverb]
      rfl
  | thenBy direction hverb =>
    obtain ⟨b, e, u, h, b', e', u', h', rfl⟩ := exists_bound_two hplans
    have hs := hzs _ (List.mem_cons_self ..)
    have hk := hzs _ (List.mem_cons_of_mem _ (List.mem_cons_self ..))
    have hreads : Meaning.reads verb = 2 := by
      rw [hverb]
      cases direction <;> rfl
    obtain ⟨source, ks, hsource, hkeys, hks, hsort⟩ := toExpr_sort_eq_ok hs.bind
    refine ⟨_, rebound_query [] extra [] hzs hsignature (.thenBy direction hverb) ht hresolve
      (Outcome.bind_eq_ok.mpr ⟨_, hsource, ?_⟩) (List.forall_mem_nil _)
      (.inr (Nat.le_of_eq hreads)) (List.forall_mem_nil _) hnormal'⟩
    rw [if_neg (by simp)]
    refine Outcome.bind_eq_ok.mpr ⟨_, Plan.toSortKeys_append hks hk.bind, ?_⟩
    rw [Plan.applyKeys_append _ _ _ _ (toSortKeys_ne_nil hks hkeys), ← hsort, hverb]
    rfl
  | @skip s e₁ n rest hcount =>
    obtain ⟨b, e, u, h, rfl⟩ := exists_bound_one hplans
    have hs := hzs _ (List.mem_cons_self ..)
    obtain ⟨m, t', rfl, hliteral⟩ := Plan.countLiteral_eq_ok hcount
    exact ⟨_, rebound_query [(.constant (.int m) t', .literal (.int m))] rest [] hzs hsignature
      (.skip hcount) ht hresolve
      (Outcome.bind_eq_ok.mpr ⟨_, hs.bind, Outcome.bind_eq_ok.mpr ⟨_, hliteral, rfl⟩⟩)
      (List.forall_mem_singleton.mpr (.evaluated _ rfl rfl)) (.inr (Nat.le_refl 2))
      (List.forall_mem_nil _) hnormal'⟩
  | @take s e₁ n rest hcount =>
    obtain ⟨b, e, u, h, rfl⟩ := exists_bound_one hplans
    have hs := hzs _ (List.mem_cons_self ..)
    obtain ⟨m, t', rfl, hliteral⟩ := Plan.countLiteral_eq_ok hcount
    exact ⟨_, rebound_query [(.constant (.int m) t', .literal (.int m))] rest [] hzs hsignature
      (.take hcount) ht hresolve
      (Outcome.bind_eq_ok.mpr ⟨_, hs.bind, Outcome.bind_eq_ok.mpr ⟨_, hliteral, rfl⟩⟩)
      (List.forall_mem_singleton.mpr (.evaluated _ rfl rfl)) (.inr (Nat.le_refl 2))
      (List.forall_mem_nil _) hnormal'⟩
  | groupBy =>
    obtain ⟨b, e, u, h, b', e', u', h', rfl⟩ := exists_bound_two hplans
    have hs := hzs _ (List.mem_cons_self ..)
    have hk := hzs _ (List.mem_cons_of_mem _ (List.mem_cons_self ..))
    exact ⟨_, rebound_query [] [] [] hzs hsignature .groupBy ht hresolve
      (Outcome.bind_eq_ok.mpr ⟨_, hs.bind, Outcome.bind_eq_ok.mpr ⟨_, hk.bind, rfl⟩⟩)
      (List.forall_mem_nil _) (.inl ⟨rfl, rfl⟩) (List.forall_mem_nil _) hnormal'⟩
  | groupByElement =>
    obtain ⟨b, e, u, h, b', e', u', h', b'', e'', u'', h'', rfl⟩ := exists_bound_three hplans
    have hs := hzs _ (List.mem_cons_self ..)
    have hk := hzs _ (List.mem_cons_of_mem _ (List.mem_cons_self ..))
    have hf := hzs _ (List.mem_cons_of_mem _ (List.mem_cons_of_mem _ (List.mem_cons_self ..)))
    exact ⟨_, rebound_query [] extra [] hzs hsignature .groupByElement ht hresolve
      (Outcome.bind_eq_ok.mpr ⟨_, hs.bind, Outcome.bind_eq_ok.mpr
        ⟨_, hk.bind, Outcome.bind_eq_ok.mpr ⟨_, hf.bind, rfl⟩⟩⟩)
      (List.forall_mem_nil _) (.inr (Nat.le_refl 3)) (List.forall_mem_nil _) hnormal'⟩
  | join =>
    obtain ⟨b, e, u, h, tail, rfl, hplans'⟩ := exists_bound_cons hplans
    obtain ⟨b₁, e₁, u₁, h₁, tail, rfl, hplans''⟩ := exists_bound_cons hplans'
    obtain ⟨b₂, e₂, u₂, h₂, b₃, e₃, u₃, h₃, b₄, e₄, u₄, h₄, rfl⟩ := exists_bound_three hplans''
    have hall := hzs
    simp only [List.forall_mem_cons] at hall
    obtain ⟨ho, hi, hok, hik, hr, -⟩ := hall
    exact ⟨_, rebound_query [] extra [] hzs hsignature .join ht hresolve
      (Outcome.bind_eq_ok.mpr ⟨_, ho.bind, Outcome.bind_eq_ok.mpr ⟨_, hi.bind,
        Outcome.bind_eq_ok.mpr ⟨_, hok.bind, Outcome.bind_eq_ok.mpr
          ⟨_, hik.bind, Outcome.bind_eq_ok.mpr ⟨_, hr.bind, rfl⟩⟩⟩⟩⟩)
      (List.forall_mem_nil _) (.inr (Nat.le_refl 5)) (List.forall_mem_nil _) hnormal'⟩
  | «include» hpath =>
    obtain ⟨b, e, u, h, rfl⟩ := exists_bound_one hplans
    have hs := hzs _ (List.mem_cons_self ..)
    exact ⟨_, rebound_query [] _ [.literal (.text _)] hzs hsignature (.include rfl) ht hresolve
      (Outcome.bind_eq_ok.mpr ⟨_, hs.bind, rfl⟩) (List.forall_mem_nil _)
      (.inr (Nat.le_refl 1)) (List.forall_mem_singleton.mpr rfl) hnormal'⟩
  | thenInclude hpath =>
    obtain ⟨b, e, u, h, rfl⟩ := exists_bound_one hplans
    have hs := hzs _ (List.mem_cons_self ..)
    obtain ⟨source, hsource, rfl⟩ := toExpr_include_eq_ok hs.bind
    refine ⟨source.includePath _, Outcome.bind_eq_ok.mpr
      ⟨_, hresolve, Outcome.bind_eq_ok.mpr ⟨_, hsource, rfl⟩⟩,
      .thenInclude _ _ _ hs.rewrites (List.forall_mem_singleton.mpr rfl), ?_⟩
    intro hfields htypes
    have hplanned := hs.planned hfields (hnormal' hfields htypes _ (List.mem_cons_self ..))
    cases hsignature with
    | thenInclude helement =>
      exact .query [⟨[], source, _, _⟩]
        (List.forall_mem_singleton.mpr hplanned.include_source) (.include helement)
        (.include rfl) ht
  | aggregate =>
    obtain ⟨b, e, u, h, rfl⟩ := exists_bound_one hplans
    have hs := hzs _ (List.mem_cons_self ..)
    exact ⟨_, rebound_query [] [] [] hzs hsignature .aggregate ht hresolve
      (Outcome.bind_eq_ok.mpr ⟨_, hs.bind, rfl⟩) (List.forall_mem_nil _) (.inl ⟨rfl, rfl⟩)
      (List.forall_mem_nil _) hnormal'⟩
  | aggregateArgument =>
    obtain ⟨b, e, u, h, b', e', u', h', rfl⟩ := exists_bound_two hplans
    have hs := hzs _ (List.mem_cons_self ..)
    have ha := hzs _ (List.mem_cons_of_mem _ (List.mem_cons_self ..))
    exact ⟨_, rebound_query [] extra [] hzs hsignature .aggregateArgument ht hresolve
      (Outcome.bind_eq_ok.mpr ⟨_, ha.bind, Outcome.bind_eq_ok.mpr ⟨_, hs.bind, rfl⟩⟩)
      (List.forall_mem_nil _) (.inr (Nat.le_refl 2)) (List.forall_mem_nil _) hnormal'⟩

end Stages

/-! ## All expressions -/

/-- The functions that an expression calls are those of the catalog. -/
def Catalog.Calls (c : Catalog) (e : Expr) : Prop :=
  e.Every fun p => ∀ f, p.function? = some f → c.function? f.declaring f.name = some f

/-- The functions of a direct sub-expression are those of the catalog. -/
theorem Catalog.Calls.child {c : Catalog} {e q : Expr} (h : c.Calls e) (hq : q ∈ e.children) :
    c.Calls q := (Expr.every_iff.mp h).2 q hq

section Values

variable {c : Catalog} {scope : TypeScope} {zs : List (Piece × Expr)}

/-- Values that are bound again are rewritten. -/
theorem rewritePairs_rewrites
    (hzs : ∀ z ∈ zs, Rebound c scope [] z.1.expr z.1.plan z.1.type z.2) :
    ∀ z ∈ rewritePairs zs, z.1.Rewrites Ty.normal z.2 :=
  List.forall_mem_map.mpr fun z hz => (hzs z hz).rewrites

/-- Values that are bound again have the same plans. -/
theorem rebindPieces_planned
    (hzs : ∀ z ∈ zs, Rebound c scope [] z.1.expr z.1.plan z.1.type z.2)
    (hfields : c.HasNormalFields) (htypes : ∀ z ∈ zs, TypesIn IsNormal scope [] z.1.expr) :
    ∀ x ∈ rebindPieces zs, Planned c scope [] x.expr x.plan x.type :=
  List.forall_mem_map.mpr fun z hz => (hzs z hz).planned hfields (htypes z hz)

end Values

/-- A planned expression is bound again. -/
theorem Planned.exists_rebound {c : Catalog} (hc : c.IsKeyed)
    (hfields : ∀ r ∈ c.records, ∀ field ∈ r.fields, field.2.Known c) {scope : TypeScope}
    {bound : List Ty} {e : Expr} {p : Plan} {t : Ty} (hp : Planned c scope bound e p t)
    (htypes : TypesIn (Known c) scope bound e) (hcalls : c.Calls e) :
    ∃ h, Rebound c scope bound e p t h := by
  induction hp with
  | @constant scope v t ht =>
    have hresolve := hc.resolve_describe (htypes.root _ (List.mem_singleton_self _)) ht
    refine ⟨.constant v t.normal, Outcome.bind_eq_ok.mpr ⟨_, hresolve, rfl⟩,
      .evaluated _ rfl rfl, fun _ hnormal => ?_⟩
    rw [hnormal.root _ (List.mem_singleton_self _)]
    exact .constant v ht
  | @source scope t ht =>
    have hresolve := hc.resolve_describe (htypes.root _ (List.mem_singleton_self _)) ht
    have hseq := hc.resolve_describe
      ((known_hereditary c).seq.mpr (htypes.root _ (List.mem_singleton_self _))) ht
    refine ⟨.source t.normal, Outcome.bind_eq_ok.mpr ⟨_, hseq, Outcome.bind_eq_ok.mpr
      ⟨_, hresolve, rfl⟩⟩, .source t, fun _ hnormal => ?_⟩
    rw [hnormal.root _ (List.mem_singleton_self _)]
    exact .source ht
  | @parameter scope name declared t hscope ht =>
    have hknown := List.forall_mem_map.mpr htypes.scope _ (exists_mem_of_lookup_eq_some hscope)
    exact ⟨.parameter name t.normal,
      Outcome.bind_eq_ok.mpr ⟨_, hc.resolve_describe hknown ht, rfl⟩, .parameter _ _ _,
      fun _ _ => .parameter _ hscope ht⟩
  | @member scope e p s t name htarget htype hs ht ih =>
    have hchild := htypes.child (List.mem_singleton_self _)
    have hknown := htarget.type_inherits (known_hereditary c) hfields hchild
    have hmember := (known_hereditary c).typeOfMember hfields hknown htype
    obtain ⟨h, hbind, hrewrites, hplanned⟩ := ih hchild (hcalls.child (List.mem_singleton_self _))
    refine ⟨.member h name, ?_, .member name hrewrites, fun hf hnormal => ?_⟩
    · exact Outcome.bind_eq_ok.mpr ⟨_, hc.resolve_describe hknown hs, Outcome.bind_eq_ok.mpr
        ⟨_, hc.resolve_describe hmember ht, Outcome.bind_eq_ok.mpr ⟨_, hbind, rfl⟩⟩⟩
    · exact .member (hplanned hf (hnormal.child (List.mem_singleton_self _))) htype hs ht
  | @unary scope op e p s t hoperand htype ht ih =>
    have hchild := htypes.child (List.mem_singleton_self _)
    have hknown := (known_hereditary c).unary
      (hoperand.type_inherits (known_hereditary c) hfields hchild) htype
    obtain ⟨h, hbind, hrewrites, hplanned⟩ := ih hchild (hcalls.child (List.mem_singleton_self _))
    refine ⟨.unary op h, ?_, .unary op hrewrites, fun hf hnormal => ?_⟩
    · exact Outcome.bind_eq_ok.mpr ⟨_, hc.resolve_describe hknown ht, Outcome.bind_eq_ok.mpr
        ⟨_, hbind, rfl⟩⟩
    · exact .unary (hplanned hf (hnormal.child (List.mem_singleton_self _))) htype ht
  | @binary scope op l r p q s t u hleft hright htype hu ihl ihr =>
    have hknown := (Planned.binary hleft hright htype hu).type_inherits (known_hereditary c)
      hfields htypes
    have hl : l ∈ (Expr.binary op l r).children := List.mem_cons_self ..
    have hr : r ∈ (Expr.binary op l r).children :=
      List.mem_cons_of_mem _ (List.mem_singleton_self _)
    obtain ⟨h, hbind, hrewrites, hplanned⟩ := ihl (htypes.child hl) (hcalls.child hl)
    obtain ⟨h', hbind', hrewrites', hplanned'⟩ := ihr (htypes.child hr) (hcalls.child hr)
    refine ⟨.binary op h h', ?_, .binary op hrewrites hrewrites', fun hf hnormal => ?_⟩
    · exact Outcome.bind_eq_ok.mpr ⟨_, hc.resolve_describe hknown hu, Outcome.bind_eq_ok.mpr
        ⟨_, hbind, Outcome.bind_eq_ok.mpr ⟨_, hbind', rfl⟩⟩⟩
    · exact .binary (hplanned hf (hnormal.child hl)) (hplanned' hf (hnormal.child hr)) htype hu
  | @conditional scope test l r p q q' s t u v htest hleft hright htype hv iht ihl ihr =>
    have hknown := (Planned.conditional htest hleft hright htype hv).type_inherits
      (known_hereditary c) hfields htypes
    have ht : test ∈ (Expr.conditional test l r).children := List.mem_cons_self ..
    have hl : l ∈ (Expr.conditional test l r).children :=
      List.mem_cons_of_mem _ (List.mem_cons_self ..)
    have hr : r ∈ (Expr.conditional test l r).children :=
      List.mem_cons_of_mem _ (List.mem_cons_of_mem _ (List.mem_singleton_self _))
    obtain ⟨h, hbind, hrewrites, hplanned⟩ := iht (htypes.child ht) (hcalls.child ht)
    obtain ⟨h', hbind', hrewrites', hplanned'⟩ := ihl (htypes.child hl) (hcalls.child hl)
    obtain ⟨h'', hbind'', hrewrites'', hplanned''⟩ := ihr (htypes.child hr) (hcalls.child hr)
    refine ⟨.conditional h h' h'', ?_, .conditional hrewrites hrewrites' hrewrites'',
      fun hf hnormal => ?_⟩
    · exact Outcome.bind_eq_ok.mpr ⟨_, hc.resolve_describe hknown hv, Outcome.bind_eq_ok.mpr
        ⟨_, hbind, Outcome.bind_eq_ok.mpr ⟨_, hbind', Outcome.bind_eq_ok.mpr ⟨_, hbind'', rfl⟩⟩⟩⟩
    · exact .conditional (hplanned hf (hnormal.child ht)) (hplanned' hf (hnormal.child hl))
        (hplanned'' hf (hnormal.child hr)) htype hv
  | @lambda scope bound params ps body p t harity hparams hbody ht ih =>
    have hknown : ∀ x ∈ ps, x.2.Known c :=
      Draft.parameters_types hparams (List.forall_mem_map.mp htypes.root) htypes.bound
    obtain ⟨h, hbind, hrewrites, hplanned⟩ := ih (htypes.body hparams)
      (hcalls.child (List.mem_singleton_self _))
    have hnames : (ps.map fun x => (x.1.name, x.2.normal)).map Prod.fst = params.map Prod.fst := by
      rw [List.map_map]
      exact Plan.parameters_names hparams
    refine ⟨.lambda (ps.map fun x => (x.1.name, x.2.normal)) h, ?_, .lambda hnames hrewrites,
      fun hf hnormal => ?_⟩
    · exact Outcome.bind_eq_ok.mpr ⟨_, Plan.parameterTypes_eq_ok hc hparams hknown,
        Outcome.bind_eq_ok.mpr ⟨_, hbind, rfl⟩⟩
    · have hps : ∀ x ∈ ps, x.2.IsNormal :=
        Draft.parameters_types hparams (List.forall_mem_map.mp hnormal.root) hnormal.bound
      have hlength : (ps.map fun x => (x.1.name, x.2.normal)).length = params.length := by
        rw [← List.length_map (f := Prod.fst), hnames, List.length_map]
      refine .lambda ?_ (Plan.parameters_again hparams hps bound)
        (hplanned hf (hnormal.body hparams)) ht
      rw [hlength]
      exact harity
  | @query scope verb operands extra op t hoperands hsignature hbuilds ht ih =>
    have hinherits {P : Ty → Prop} (hP : Hereditary P)
        (hf : ∀ r ∈ c.records, ∀ field ∈ r.fields, P field.2)
        (htypes : TypesIn P scope [] (.query verb (operands.map Piece.expr ++ extra))) :
        (∀ x ∈ operands, TypesIn P scope x.bound x.expr) ∧ P t :=
      htypes.operands hP hsignature fun x hx h => (hoperands x hx).type_inherits hP hf h
    obtain ⟨hall, hknown⟩ := hinherits (known_hereditary c) hfields htypes
    refine exists_rebound_query (fun x hx => ih x hx (hall x hx) (hcalls.child ?_)) hsignature
      hbuilds ht (hc.resolve_describe hknown ht)
      (fun hf hnormal => (hinherits isNormal_hereditary hf hnormal).1)
    exact List.mem_append_left _ (List.mem_map_of_mem hx)
  | @call scope f args _ hdeclaring ht ih =>
    obtain ⟨zs, rfl, hzs⟩ := exists_pairs_of_forall fun x hx =>
      ih x hx (htypes.child (List.mem_map_of_mem hx)) (hcalls.child (List.mem_map_of_mem hx))
    have howner := htypes.root f.declaring (List.mem_cons_self ..)
    have hreturns := htypes.root f.returns (List.mem_cons_of_mem _ (List.mem_singleton_self _))
    have hfunction : c.function? f.declaring.normal f.name = some f := by
      rw [Catalog.function?, Ty.describe_normal]
      exact (Expr.every_iff.mp hcalls).1 f rfl
    refine ⟨.call f (zs.map Prod.snd), ?_, ?_, fun hf hnormal => ?_⟩
    · refine Outcome.bind_eq_ok.mpr ⟨_, hc.resolve_describe howner hdeclaring,
        Outcome.bind_eq_ok.mpr ⟨_, hc.resolve_describe hreturns ht, ?_⟩⟩
      rw [hfunction, List.map_map]
      exact Outcome.bind_eq_ok.mpr ⟨_, Plan.toExprs_eq_ok fun z hz => (hzs z hz).bind, rfl⟩
    · rw [← rewritePairs_fst, ← rewritePairs_snd]
      exact .call _ (rewritePairs_rewrites hzs)
    · rw [← rebindPieces_expr, ← rebindPieces_plan]
      exact .call _ (rebindPieces_planned hzs hf fun z hz => hnormal.child
        (List.mem_map_of_mem (List.mem_map_of_mem hz))) hdeclaring ht
  | @object scope members hmembers t heq ht ih =>
    have hchild : ∀ m ∈ members, m.2.expr ∈
        (Expr.object (members.map fun m => (m.1, m.2.expr))).children := by
      intro m hm
      rw [Expr.children, List.map_map]
      exact List.mem_map_of_mem hm
    have hknown := (Planned.object members hmembers heq ht).type_inherits (known_hereditary c)
      hfields htypes
    obtain ⟨zs, rfl, hzs⟩ := exists_pairs_of_forall fun m hm =>
      ih m hm (htypes.child (hchild m hm)) (hcalls.child (hchild m hm))
    refine ⟨.object (zs.map fun z => (z.1.1, z.2)), ?_, ?_, fun hf hnormal => ?_⟩
    · refine Outcome.bind_eq_ok.mpr ⟨_, hc.resolve_describe hknown ht, ?_⟩
      have hlength : ((zs.map Prod.fst).map Prod.fst).length =
          ((zs.map Prod.fst).map fun m => m.2.plan).length := by
        simp only [List.length_map]
      rw [if_pos hlength, List.map_map, List.map_map]
      refine Outcome.bind_eq_ok.mpr ⟨_, Plan.toExprs_eq_ok fun z hz => (hzs z hz).bind, ?_⟩
      rw [List.zip_map']
      rfl
    · have h : Expr.Rewrites Ty.normal _ _ :=
        .object (zs.map fun z => (z.1.1, z.1.2.expr, z.2))
        (List.forall_mem_map.mpr fun z hz => (hzs z hz).rewrites)
      rw [List.map_map, List.map_map] at h
      rw [List.map_map]
      exact h
    · have h := Planned.object (zs.map fun z => (z.1.1, { z.1.2 with expr := z.2 }))
        (List.forall_mem_map.mpr fun z hz => (hzs z hz).planned hf
          (hnormal.child (hchild _ (List.mem_map_of_mem hz)))) rfl
      simp only [List.map_map] at h heq ht ⊢
      subst heq
      exact h ht
  | @array scope t items _ ht ih =>
    obtain ⟨zs, rfl, hzs⟩ := exists_pairs_of_forall fun x hx =>
      ih x hx (htypes.child (List.mem_map_of_mem hx)) (hcalls.child (List.mem_map_of_mem hx))
    have hresolve := hc.resolve_describe
      ((known_hereditary c).seq.mpr (htypes.root _ (List.mem_singleton_self _))) ht
    refine ⟨.array t.normal (zs.map Prod.snd), ?_, ?_, fun hf hnormal => ?_⟩
    · rw [List.map_map]
      exact Outcome.bind_eq_ok.mpr ⟨t.normal, Outcome.bind_eq_ok.mpr ⟨_, hresolve, rfl⟩,
        Outcome.bind_eq_ok.mpr ⟨_, Plan.toExprs_eq_ok fun z hz => (hzs z hz).bind, rfl⟩⟩
    · rw [← rewritePairs_fst, ← rewritePairs_snd]
      exact .array _ (rewritePairs_rewrites hzs)
    · have ht' : t.normal = t := hnormal.root _ (List.mem_singleton_self _)
      rw [← rebindPieces_expr, ← rebindPieces_plan, ht']
      exact .array _ (rebindPieces_planned hzs hf fun z hz => hnormal.child
        (List.mem_map_of_mem (List.mem_map_of_mem hz))) ht
  | @list scope t items _ ht ih =>
    obtain ⟨zs, rfl, hzs⟩ := exists_pairs_of_forall fun x hx =>
      ih x hx (htypes.child (List.mem_map_of_mem hx)) (hcalls.child (List.mem_map_of_mem hx))
    have hresolve := hc.resolve_describe
      ((known_hereditary c).seq.mpr (htypes.root _ (List.mem_singleton_self _))) ht
    refine ⟨.list t.normal (zs.map Prod.snd), ?_, ?_, fun hf hnormal => ?_⟩
    · rw [List.map_map]
      exact Outcome.bind_eq_ok.mpr ⟨t.normal, Outcome.bind_eq_ok.mpr ⟨_, hresolve, rfl⟩,
        Outcome.bind_eq_ok.mpr ⟨_, Plan.toExprs_eq_ok fun z hz => (hzs z hz).bind, rfl⟩⟩
    · rw [← rewritePairs_fst, ← rewritePairs_snd]
      exact .list _ (rewritePairs_rewrites hzs)
    · have ht' : t.normal = t := hnormal.root _ (List.mem_singleton_self _)
      rw [← rebindPieces_expr, ← rebindPieces_plan, ht']
      exact .list _ (rebindPieces_planned hzs hf fun z hz => hnormal.child
        (List.mem_map_of_mem (List.mem_map_of_mem hz))) ht
  | @construct scope t bindings hbindings hmembers ht ih =>
    have hchild : ∀ b ∈ bindings, b.2.expr ∈
        (Expr.construct t (bindings.map fun b => (b.1, b.2.expr))).children := by
      intro b hb
      rw [Expr.children, List.map_map]
      exact List.mem_map_of_mem hb
    have hresolve := hc.resolve_describe (htypes.root _ (List.mem_singleton_self _)) ht
    obtain ⟨zs, rfl, hzs⟩ := exists_pairs_of_forall fun b hb =>
      ih b hb (htypes.child (hchild b hb)) (hcalls.child (hchild b hb))
    refine ⟨.construct t.normal (zs.map fun z => (z.1.1, z.2)), ?_, ?_, fun hf hnormal => ?_⟩
    · rw [List.map_map]
      exact Outcome.bind_eq_ok.mpr ⟨_, hresolve, Outcome.bind_eq_ok.mpr
        ⟨_, Plan.toBindings_eq_ok fun z hz => (hzs z hz).bind, rfl⟩⟩
    · have h : Expr.Rewrites Ty.normal (.construct t _) (.construct t.normal _) :=
        .construct (zs.map fun z => (z.1.1, z.1.2.expr, z.2))
        (List.forall_mem_map.mpr fun z hz => (hzs z hz).rewrites)
      rw [List.map_map, List.map_map] at h
      rw [List.map_map]
      exact h
    · have ht' : t.normal = t := hnormal.root _ (List.mem_singleton_self _)
      have h := Planned.construct (zs.map fun z => (z.1.1, { z.1.2 with expr := z.2 }))
        (List.forall_mem_map.mpr fun z hz => (hzs z hz).planned hf
          (hnormal.child (hchild _ (List.mem_map_of_mem hz))))
        (List.forall_mem_map.mpr fun z hz => hmembers z.1 (List.mem_map_of_mem hz)) ht
      simp only [List.map_map] at h ⊢
      rw [ht']
      exact h

end QueryRelay
