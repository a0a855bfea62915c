import Mathlib.Data.List.Induction
import QueryRelay.Plan.Linear
import QueryRelay.Proofs.Eval.SortChains
import QueryRelay.Proofs.Plan.Constants

/-!
# Linear queries without a window

A linear query puts its filters below its sort, in whatever order both were added. A filter keeps
elements in their order and a stable sort arranges what is kept as it arranges all, so that nothing
shows of this. Main statement: one more predicate, which goes below the sort, leaves exactly the
elements of the result that satisfy it, in the same order.
-/

namespace QueryRelay

open Sequence (Keyed FitsDirections sortKeyed passes)

/-! ## Filters and sorts of expressions -/

namespace Expr

variable {data : DataSource} {scope : Scope} {source e g : Expr} {items rows : List Value}
  {keys : List (Expr × SortDirection)}

/-- A predicate has an outcome for an element. -/
def Decides (data : DataSource) (scope : Scope) (g : Expr) (v : Value) : Prop :=
  ∃ b, ((g.meaning data).apply scope [v] >>= Value.truth) = .ok b

/-- Whether an element satisfies a predicate. -/
def satisfies (data : DataSource) (scope : Scope) (g : Expr) (v : Value) : Bool :=
  passes (fun v => (g.meaning data).apply scope [v]) v

/-- The value of a filter is the list of the elements that satisfy the predicate. -/
theorem value_filter (hsource : (source.meaning data).value scope = .ok (.list items))
    (htest : ∀ v ∈ items, g.Decides data scope v) :
    ((source.applyVerb .filter [g]).meaning data).value scope =
      .ok (.list (items.filter (g.satisfies data scope))) := by
  have helements : (source.meaning data).elements scope = .ok items :=
    Outcome.bind_eq_ok.mpr ⟨_, hsource, rfl⟩
  have hkept : Sequence.keep (fun v => (g.meaning data).apply scope [v]) items = _ :=
    Sequence.keep_eq_ok htest
  exact Outcome.bind_eq_ok.mpr ⟨items, helements, Outcome.bind_eq_ok.mpr ⟨_, hkept, rfl⟩⟩

/-- Sorting by keys is a chain of sort operators. -/
theorem sortsBy_applyKeys (source : Expr) (h : keys ≠ []) :
    SortsBy source (Plan.applyKeys source true keys) keys := by
  induction keys using List.reverseRecOn with
  | nil => exact absurd rfl h
  | append_singleton rest k ih =>
    obtain ⟨key, d⟩ := k
    cases rest with
    | nil => exact .primary key d []
    | cons k' rest =>
      rw [Plan.applyKeys_append _ _ _ _ (List.cons_ne_nil _ _)]
      exact .further (ih (List.cons_ne_nil _ _)) key d []

/-- What satisfies a predicate of a sorted list is what comes of sorting the elements that satisfy
it. -/
theorem value_sort_filter {filtered sorted sortedFiltered : Expr} {P : Value → Bool}
    (hsorted : SortsBy source sorted keys) (hfilter : SortsBy filtered sortedFiltered keys)
    (hsource : (source.meaning data).value scope = .ok (.list items))
    (hfiltered : (filtered.meaning data).value scope = .ok (.list (items.filter P)))
    (hkeys : ∀ v ∈ items, ∀ k ∈ keys,
      ∃ w, (k.1.meaning data).apply scope [v] = .ok w ∧ w.FloatFree) :
    ∃ out, (sorted.meaning data).value scope = .ok (.list out) ∧
      (sortedFiltered.meaning data).value scope = .ok (.list (out.filter P)) := by
  obtain ⟨rows, rfl, hrows, hfits⟩ := exists_rows hkeys
  refine ⟨_, hsorted.value_eq_ok (Outcome.bind_eq_ok.mpr ⟨_, hsource, rfl⟩) hrows, ?_⟩
  rw [List.filter_map] at hfiltered ⊢
  rw [← Sequence.sortKeyed_filter hfits]
  refine hfilter.value_eq_ok (Outcome.bind_eq_ok.mpr ⟨_, hfiltered, rfl⟩) fun r hr => ?_
  exact hrows r (List.mem_filter.mp hr).1

end Expr

/-! ## Filters and sorts of plans -/

namespace LinearQuery

variable {c : Catalog} {data : DataSource} {q : LinearQuery} {p : Plan} {e e' : Expr}
  {rows : List Value}

/-- A query that was made from a source by adding predicates and sort keys, in any order. -/
inductive Unwindowed : LinearQuery → Prop
  /-- All elements of a source. -/
  | ofSource (element : Descriptor) : Unwindowed (ofSource element)
  /-- A predicate was added. -/
  | filter {q : LinearQuery} (h : Unwindowed q) (predicate : Plan) : Unwindowed (q.filter predicate)
  /-- A sort key was added. -/
  | orderBy {q : LinearQuery} (h : Unwindowed q) (key : Plan) (direction : SortDirection) :
    Unwindowed (q.orderBy key direction)

/-- The stage of the last filter of a query. -/
def filtered (q : LinearQuery) : Plan :=
  q.filters.foldl (fun p predicate => .query (.filter p predicate) q.element.sequence)
    (.query (.source q.element) q.element.sequence)

/-- A query without a window ends with its sort, or with its last filter. -/
theorem Unwindowed.toPlan_eq (h : q.Unwindowed) : q.toPlan =
    if q.sortKeys.isEmpty then q.filtered
    else .query (.sort q.filtered q.sortKeys) q.element.sequence := by
  have hwindow : q.skipCount = none ∧ q.takeCount = none := by
    induction h with
    | ofSource => exact ⟨rfl, rfl⟩
    | filter _ _ ih | orderBy _ _ _ ih => exact ih
  rw [toPlan, hwindow.1, hwindow.2]
  rfl

/-- One more predicate is one more stage above the last filter. -/
theorem filtered_filter (q : LinearQuery) (p : Plan) :
    (q.filter p).filtered = .query (.filter q.filtered p) q.element.sequence := by
  rw [filtered, filter, List.foldl_append]
  rfl

/-- A bound query is bound filters, sorted by its bound keys if there are any. -/
theorem Unwindowed.toExpr_eq_ok (h : q.Unwindowed) (he : q.toPlan.toExpr c = .ok e) :
    ∃ s, q.filtered.toExpr c = .ok s ∧
      (q.sortKeys = [] ∧ e = s ∨ ∃ ks, q.sortKeys ≠ [] ∧ Plan.toSortKeys c q.sortKeys = .ok ks ∧
        e = Plan.applyKeys s true ks) := by
  rw [h.toPlan_eq] at he
  split at he
  · next hempty => exact ⟨e, he, .inl ⟨List.isEmpty_iff.mp hempty, rfl⟩⟩
  · obtain ⟨s, ks, hs, hne, hks, rfl⟩ := toExpr_sort_eq_ok he
    exact ⟨s, hs, .inr ⟨ks, hne, hks, rfl⟩⟩

/-- A bound filter is bound source and bound predicate. -/
theorem toExpr_filter_eq_ok {s : Plan} {type : Descriptor}
    (h : (Plan.query (.filter s p) type).toExpr c = .ok e) :
    ∃ source g, s.toExpr c = .ok source ∧ p.toExpr c = .ok g ∧ e = source.applyVerb .filter [g] := by
  obtain ⟨_, -, hquery⟩ := Outcome.bind_eq_ok.mp h
  obtain ⟨source, hsource, hquery⟩ := Outcome.bind_eq_ok.mp hquery
  obtain ⟨g, hg, hquery⟩ := Outcome.bind_eq_ok.mp hquery
  cases hquery
  exact ⟨source, g, hsource, hg, rfl⟩

/-- Filters over elements for which their predicates have outcomes keep some of them. -/
theorem exists_value_foldl_filter {fs : List Plan} {s : Plan} {type : Descriptor}
    (htests : ∀ f ∈ fs, ∀ g, f.toExpr c = .ok g → ∀ row ∈ rows, g.Decides data [] row)
    (hs : ∀ source, s.toExpr c = .ok source →
      ∃ items ⊆ rows, source.evaluate data = .ok (.list items))
    (he : (fs.foldl (fun p f => .query (.filter p f) type) s).toExpr c = .ok e) :
    ∃ items ⊆ rows, e.evaluate data = .ok (.list items) := by
  induction fs generalizing s with
  | nil => exact hs e he
  | cons f rest ih =>
    obtain ⟨htest, htests⟩ := List.forall_mem_cons.mp htests
    refine ih htests (fun e' he' => ?_) he
    obtain ⟨source, g, hsource, hg, rfl⟩ := toExpr_filter_eq_ok he'
    obtain ⟨items, hsub, hitems⟩ := hs source hsource
    refine ⟨items.filter (g.satisfies data []), fun v hv => hsub (List.mem_filter.mp hv).1, ?_⟩
    exact Expr.value_filter hitems fun v hv => htest g hg v (hsub hv)

/-- The filters of a query keep some of the elements of its source. -/
theorem exists_value_filtered {t : Ty} (ht : c.resolve q.element = .ok t) (hrows : data t = .ok rows)
    (htests : ∀ f ∈ q.filters, ∀ g, f.toExpr c = .ok g → ∀ row ∈ rows, g.Decides data [] row)
    (he : q.filtered.toExpr c = .ok e) :
    ∃ items ⊆ rows, e.evaluate data = .ok (.list items) := by
  refine exists_value_foldl_filter htests (fun source hsource => ?_) he
  obtain ⟨_, -, hquery⟩ := Outcome.bind_eq_ok.mp hsource
  obtain ⟨t', ht', hquery⟩ := Outcome.bind_eq_ok.mp hquery
  cases hquery
  rw [← Except.ok.inj (ht.symm.trans ht')]
  exact ⟨rows, fun v hv => hv, Outcome.map_eq_ok.mpr ⟨rows, hrows, rfl⟩⟩

/-- Main statement: let a query without a window, and the query with one more predicate, be bound to
a catalog, and let all predicates have an outcome and all sort keys a value without floats for every
row of the source. The query with the predicate then has, in the same order, exactly those elements
of the value of the query that satisfy the predicate, although it filters before it sorts. -/
theorem evaluate_filter_toPlan {t : Ty} (hq : q.Unwindowed) (he : q.toPlan.toExpr c = .ok e)
    (he' : (q.filter p).toPlan.toExpr c = .ok e') (ht : c.resolve q.element = .ok t)
    (hrows : data t = .ok rows)
    (htests : ∀ f ∈ q.filters ++ [p], ∀ g, f.toExpr c = .ok g → ∀ row ∈ rows,
      g.Decides data [] row)
    (hkeys : ∀ key d, .sortKey key d ∈ q.sortKeys → ∀ k, key.toExpr c = .ok k → ∀ row ∈ rows,
      ∃ w, (k.meaning data).apply [] [row] = .ok w ∧ w.FloatFree) :
    ∃ g out, p.toExpr c = .ok g ∧ e.evaluate data = .ok (.list out) ∧
      e'.evaluate data = .ok (.list (out.filter (g.satisfies data []))) := by
  obtain ⟨s, hs, hsorted⟩ := hq.toExpr_eq_ok he
  obtain ⟨s', hs', hsorted'⟩ := (hq.filter p).toExpr_eq_ok he'
  rw [filtered_filter] at hs'
  obtain ⟨source, g, hsource, hg, rfl⟩ := toExpr_filter_eq_ok hs'
  obtain rfl := Except.ok.inj (hs.symm.trans hsource)
  obtain ⟨htests, hp⟩ := List.forall_mem_append.mp htests
  obtain ⟨items, hsub, hitems⟩ := exists_value_filtered ht hrows htests hs
  have hkept := Expr.value_filter hitems fun v hv =>
    hp p (List.mem_singleton_self p) g hg v (hsub hv)
  refine ⟨g, ?_⟩
  rcases hsorted with ⟨hnil, rfl⟩ | ⟨ks, hne, hks, rfl⟩
  · rcases hsorted' with ⟨-, rfl⟩ | ⟨_, hne, -, -⟩
    · exact ⟨items, hg, hitems, hkept⟩
    · exact absurd hnil hne
  · rcases hsorted' with ⟨hnil, -⟩ | ⟨ks', -, hks', rfl⟩
    · exact absurd hnil hne
    · obtain rfl := Except.ok.inj (hks.symm.trans hks')
      have hchain := fun source => Expr.sortsBy_applyKeys source (toSortKeys_ne_nil hks hne)
      obtain ⟨out, hout, hfiltered⟩ := Expr.value_sort_filter (hchain s) (hchain _) hitems hkept
        fun v hv k hk => by
          obtain ⟨key, d, hmem, hkey⟩ := Plan.exists_of_toSortKeys hks k hk
          exact hkeys key d hmem k.1 hkey v (hsub hv)
      exact ⟨out, hg, hout, hfiltered⟩

/-! ## A small example -/

/-- The descriptor of the record of people. -/
def people : Descriptor := .plain (some "app") "Person"

/-- The age of the parameter. -/
def age : Plan := .member (.parameter ⟨"p", people⟩) people "Age" (.core "Int64")

/-- A lambda that compares the age with a limit. -/
def ageIs (op : BinaryOp) (limit : Int64) : Plan :=
  .lambda [⟨"p", people⟩]
    (.binary op age (.constant (.int limit) (.core "Int64")) (.core "Boolean")) (.core "Boolean")

/-- People of age, the older ones first; the sort was asked for before the filter. -/
def ofAge : LinearQuery :=
  ((ofSource people).orderBy (.lambda [⟨"p", people⟩] age (.core "Int64")) .descending).filter
    (ageIs .ge 18)

/-- Five people. -/
def household : List Value :=
  [Expr.person "Bob" 20, Expr.person "Ann" 30, Expr.person "Kim" 9, Expr.person "Cleo" 30,
    Expr.person "Dan" 70]

/-- Those of the people of age who are under sixty stand in the order in which they stood. -/
theorem ofAge_evaluate_filter_toPlan :
    ∃ e e' g, ofAge.toPlan.toExpr Catalog.people = .ok e ∧
      (ofAge.filter (ageIs .lt 60)).toPlan.toExpr Catalog.people = .ok e' ∧
      (ageIs .lt 60).toExpr Catalog.people = .ok g ∧
      e.evaluate (Store.empty.insert "app.Person" household).elements =
        .ok (.list [Expr.person "Dan" 70, Expr.person "Ann" 30, Expr.person "Cleo" 30,
          Expr.person "Bob" 20]) ∧
      e'.evaluate (Store.empty.insert "app.Person" household).elements =
        .ok (.list [Expr.person "Ann" 30, Expr.person "Cleo" 30, Expr.person "Bob" 20]) := by
  have he : ofAge.toPlan.toExpr Catalog.people = .ok _ := rfl
  have he' : (ofAge.filter (ageIs .lt 60)).toPlan.toExpr Catalog.people = .ok _ := rfl
  have hrows : (Store.empty.insert "app.Person" household).elements (.record "app.Person") =
      .ok household := rfl
  obtain ⟨g, out, hg, hout, hfiltered⟩ := evaluate_filter_toPlan
    (.filter (.orderBy (.ofSource people) _ _) _) he he' rfl hrows
    (by
      refine List.forall_mem_cons.mpr ⟨?_, List.forall_mem_singleton.mpr ?_⟩
      all_goals
        intro g hg
        cases hg
        simp only [household, List.forall_mem_cons, List.not_mem_nil, false_imp_iff, implies_true,
          and_true]
        exact ⟨⟨_, rfl⟩, ⟨_, rfl⟩, ⟨_, rfl⟩, ⟨_, rfl⟩, ⟨_, rfl⟩⟩)
    (by
      intro key d hmem k hk
      obtain ⟨rfl, rfl⟩ := Plan.sortKey.inj (List.mem_singleton.mp hmem)
      cases hk
      simp only [household, List.forall_mem_cons, List.not_mem_nil, false_imp_iff, implies_true,
        and_true]
      refine ⟨?_, ?_, ?_, ?_, ?_⟩ <;> exact ⟨_, rfl, Expr.floatFree_int _⟩)
  have hvalue : out = [Expr.person "Dan" 70, Expr.person "Ann" 30, Expr.person "Cleo" 30,
      Expr.person "Bob" 20] := (Value.list.inj (Except.ok.inj hout)).symm
  subst hvalue
  cases hg
  exact ⟨_, _, _, he, he', rfl, hout, hfiltered⟩

end LinearQuery
end QueryRelay
