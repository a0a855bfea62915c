import Mathlib.Data.List.Induction
import QueryRelay.Plan.Linear
import QueryRelay.Proofs.Plan.Chains
import QueryRelay.Proofs.Plan.Nodes
import QueryRelay.Proofs.Plan.Translation

/-!
# Linear queries and their chains

A linear query is what a sequence of calls makes of a source, and stands for one chain of stages.
Main statement: the chain has one filter for each call that adds one, one sort with all keys, the
last skip and the last take, in this order; the query is read off its chain again; and a chain that
planning makes is that of the query that is read off it.
-/

namespace QueryRelay

namespace LinearQuery

/-- A call that changes a linear query. -/
inductive Call where
  /-- Add a predicate. -/
  | filter (predicate : Plan)
  /-- Add a sort key. -/
  | orderBy (key : Plan) (direction : SortDirection)
  /-- Set how many elements are left out. -/
  | skip (count : UInt64)
  /-- Set how many elements are kept. -/
  | take (count : UInt64)

namespace Call

/-- What a call makes of a query. -/
def apply (q : LinearQuery) : Call → LinearQuery
  | .filter predicate => q.filter predicate
  | .orderBy key direction => q.orderBy key direction
  | .skip count => q.skip count
  | .take count => q.take count

/-- The predicate that a call adds. -/
def predicate? : Call → Option Plan
  | .filter predicate => some predicate
  | _ => none

/-- The sort key that a call adds. -/
def sortKey? : Call → Option Plan
  | .orderBy key direction => some (.sortKey key direction)
  | _ => none

/-- The number of elements that a call leaves out. -/
def skipCount? : Call → Option UInt64
  | .skip count => some count
  | _ => none

/-- The number of elements that a call keeps. -/
def takeCount? : Call → Option UInt64
  | .take count => some count
  | _ => none

end Call

/-- The query that calls make of a source, one after the other. -/
def ofCalls (element : Descriptor) (calls : List Call) : LinearQuery :=
  calls.foldl Call.apply (ofSource element)

/-- The stages of a chain from its parts: filters, one sort if there are keys, a skip, a take. -/
def stages (filters keys : List Plan) (skipCount takeCount : Option UInt64) :
    List (Plan → QueryOp Plan) :=
  filters.map (fun f p => .filter p f) ++ (if keys = [] then [] else [fun p => .sort p keys]) ++
    skipCount.toList.map (fun n p => .skip p n) ++ takeCount.toList.map (fun n p => .take p n)

/-- Stages one above the other over a source, all of one type. -/
def chain (source : Plan) (type : Descriptor) (stages : List (Plan → QueryOp Plan)) : Plan :=
  stages.foldl (fun p stage => .query (stage p) type) source

/-- More stages go above those there are. -/
theorem chain_append (source : Plan) (type : Descriptor)
    (below above : List (Plan → QueryOp Plan)) :
    chain source type (below ++ above) = chain (chain source type below) type above :=
  List.foldl_append

/-! ## From calls to chains -/

/-- Calls collect their predicates and sort keys, and the last counts stand. -/
theorem ofCalls_eq (element : Descriptor) (calls : List Call) : ofCalls element calls =
    ⟨element, calls.filterMap Call.predicate?, calls.filterMap Call.sortKey?,
      (calls.filterMap Call.skipCount?).getLast?, (calls.filterMap Call.takeCount?).getLast?⟩ := by
  induction calls using List.reverseRecOn with
  | nil => rfl
  | append_singleton calls call ih =>
    rw [ofCalls, List.foldl_append]
    rw [ofCalls] at ih
    rw [ih]
    simp only [List.filterMap_append, List.foldl_cons, List.foldl_nil]
    cases call <;> simp [Call.apply, Call.predicate?, Call.sortKey?, Call.skipCount?,
      Call.takeCount?, filter, orderBy, skip, take]

/-- The chain that a query stands for. -/
theorem toPlan_eq_chain (q : LinearQuery) :
    q.toPlan = chain (.query (.source q.element) q.element.sequence) q.element.sequence
      (stages q.filters q.sortKeys q.skipCount q.takeCount) := by
  obtain ⟨element, filters, keys, skipCount, takeCount⟩ := q
  simp only [chain, stages, List.foldl_append, List.foldl_map]
  cases keys <;> cases skipCount <;> cases takeCount <;> rfl

/-! ## Reading a chain -/

/-- A stage is read when its rank is below the given one, or it is a filter, and a query is read off
its source. -/
theorem checked_eq_ok {rank n : Nat} {op : QueryOp Plan} (hn : stageRank op = some n)
    {x : Except Error LinearQuery} {f : LinearQuery → LinearQuery} {q : LinearQuery} :
    (do checkRank rank op; return f (← x)) = .ok q ↔
      (n < rank ∨ n = 1) ∧ ∃ r, x = .ok r ∧ f r = q := by
  simp only [Outcome.bind_eq_ok, Outcome.pure_eq_ok, checkRank, hn]
  split
  · next h => simp only [reduceCtorEq, false_and, exists_false, false_iff]; omega
  · next h => simp only [true_and, exists_const, iff_and_self]; omega

/-- Filters are read anywhere. -/
theorem readBelow_filters (element : Descriptor) (filters : List Plan) (rank : Nat) :
    readBelow rank (chain (.query (.source element) element.sequence) element.sequence
      (filters.map fun f p => .filter p f)) = .ok ⟨element, filters, [], none, none⟩ := by
  induction filters using List.reverseRecOn generalizing rank with
  | nil => rfl
  | append_singleton filters f ih =>
    rw [chain, List.map_append, List.foldl_append]
    exact (checked_eq_ok (f := fun r => r.filter f) rfl).mpr ⟨.inr rfl, _, ih 1, rfl⟩

section Layers

variable {element d : Descriptor} {filters keys : List Plan} {s : Plan} {rank : Nat}

/-- The sort above filters is read with its keys, if there is one. -/
theorem readBelow_sorted
    (h : ∀ rank, readBelow rank s = .ok ⟨element, filters, [], none, none⟩) (keys : List Plan)
    (hrank : 2 < rank) :
    readBelow rank (chain s d (if keys = [] then [] else [fun p => .sort p keys])) =
      .ok ⟨element, filters, keys, none, none⟩ := by
  split
  · next hkeys =>
    rw [hkeys]
    exact h rank
  · exact (checked_eq_ok (f := fun r => { r with sortKeys := keys }) rfl).mpr
      ⟨.inl hrank, _, h 2, rfl⟩

/-- The skip above a sort is read with its count, if there is one. -/
theorem readBelow_skipped
    (h : ∀ rank, 2 < rank → readBelow rank s = .ok ⟨element, filters, keys, none, none⟩)
    (skipCount : Option UInt64) (hrank : 3 < rank) :
    readBelow rank (chain s d (skipCount.toList.map fun n p => .skip p n)) =
      .ok ⟨element, filters, keys, skipCount, none⟩ := by
  cases skipCount with
  | none => exact h rank (by omega)
  | some n =>
    exact (checked_eq_ok (f := fun r => r.skip n) rfl).mpr ⟨.inl hrank, _, h 3 (by omega), rfl⟩

/-- The take above a skip is read with its count, if there is one. -/
theorem readBelow_taken {skipCount : Option UInt64}
    (h : ∀ rank, 3 < rank → readBelow rank s = .ok ⟨element, filters, keys, skipCount, none⟩)
    (takeCount : Option UInt64) (hrank : 4 < rank) :
    readBelow rank (chain s d (takeCount.toList.map fun n p => .take p n)) =
      .ok ⟨element, filters, keys, skipCount, takeCount⟩ := by
  cases takeCount with
  | none => exact h rank (by omega)
  | some n =>
    exact (checked_eq_ok (f := fun r => r.take n) rfl).mpr ⟨.inl hrank, _, h 4 (by omega), rfl⟩

end Layers

/-- The query that a chain stands for is read off the chain. -/
theorem ofPlan_toPlan (q : LinearQuery) : ofPlan q.toPlan = .ok q := by
  rw [toPlan_eq_chain, stages, chain_append, chain_append, chain_append]
  refine readBelow_taken (fun _ hskip => ?_) q.takeCount (by decide)
  refine readBelow_skipped (fun _ hsort => ?_) q.skipCount hskip
  exact readBelow_sorted (readBelow_filters q.element q.filters) q.sortKeys hsort

end LinearQuery

/-! ## Chains that planning makes -/

namespace Plan

/-- A chain of a table, filters, sorts, skips and takes that has the type of a sequence of the
elements of the table throughout, and keys where it is sorted. -/
def KeepsType : Plan → Prop
  | .query (.source element) d => d = element.sequence
  | .query (.filter s _) d => s.type = d ∧ s.KeepsType
  | .query (.sort s keys) d => keys ≠ [] ∧ s.type = d ∧ s.KeepsType
  | .query (.skip s _) d => s.type = d ∧ s.KeepsType
  | .query (.take s _) d => s.type = d ∧ s.KeepsType
  | _ => True
termination_by structural p => p

end Plan

/-- A stage built on a source whose chain keeps its type keeps it. -/
theorem QueryVerb.Builds.keepsType {verb : QueryVerb} {p : Plan} {plans : List Plan}
    {extra : List Expr} {op : QueryOp Plan} {u t : Ty} {operands : List Operand}
    (h : verb.Builds (p :: plans) extra op) (hsignature : verb.Signature (([], u) :: operands) t)
    (htype : p.type = u.describe) (hp : p.KeepsType) : (Plan.query op t.describe).KeepsType := by
  cases h with
  | filter | skip | take => cases hsignature <;> exact ⟨htype, hp⟩
  | orderBy direction hverb =>
    subst hverb
    cases direction <;> cases hsignature <;> exact ⟨List.cons_ne_nil _ _, htype, hp⟩
  | @thenBy _ s k keys _ _ direction hverb =>
    obtain ⟨-, hs, hsource⟩ := hp
    have hkeys : keys ++ [.sortKey k direction] ≠ [] :=
      List.append_ne_nil_of_right_ne_nil _ (List.cons_ne_nil _ _)
    subst hverb
    cases direction <;> cases hsignature <;> exact ⟨hkeys, hs.trans htype, hsource⟩
  | _ => trivial

/-- The chain of a plan that planning makes keeps its type. -/
theorem Planned.keepsType {c : Catalog} {scope : TypeScope} {bound : List Ty} {e : Expr} {p : Plan}
    {t : Ty} (h : Planned c scope bound e p t) : p.KeepsType := by
  induction h with
  | source => rfl
  | query operands hoperands hsignature hbuilds _ ih =>
    obtain ⟨u, element, rest, hrest, -⟩ := hsignature.exists_source
    obtain ⟨e, p, tail, rfl, -⟩ := Expr.exists_pieces_cons hrest
    exact hbuilds.keepsType hsignature (hoperands _ List.mem_cons_self).type_eq
      (ih _ List.mem_cons_self)
  | _ => trivial

namespace LinearQuery

/-- A query without the parts whose stages stand at a rank or above it. -/
structure EndsBelow (rank : Nat) (q : LinearQuery) : Prop where
  /-- A take stands at four. -/
  take : rank ≤ 4 → q.takeCount = none
  /-- A skip stands at three. -/
  skip : rank ≤ 3 → q.skipCount = none
  /-- A sort stands at two. -/
  sort : rank ≤ 2 → q.sortKeys = []

/-- A chain that keeps its type is that of the query that is read off it. -/
theorem toPlan_of_readBelow {rank : Nat} {a : Plan} {q : LinearQuery} (ha : a.KeepsType)
    (h : readBelow rank a = .ok q) :
    q.EndsBelow rank ∧ q.toPlan = a ∧ a.type = q.element.sequence := by
  induction a using Plan.induct generalizing rank q with
  | node a ih =>
    cases a with
    | query op d =>
      cases op with
      | source element =>
        cases h
        obtain rfl : d = element.sequence := ha
        exact ⟨⟨fun _ => rfl, fun _ => rfl, fun _ => rfl⟩, rfl, rfl⟩
      | filter s f =>
        obtain ⟨-, r, hr, rfl⟩ := (checked_eq_ok (f := fun r => r.filter f) rfl).mp h
        obtain ⟨rfl, hs⟩ := ha
        obtain ⟨hend, rfl, htype⟩ := ih s List.mem_cons_self hs hr
        obtain ⟨element, filters, keys, skipCount, takeCount⟩ := r
        obtain rfl : takeCount = none := hend.take (by decide)
        obtain rfl : skipCount = none := hend.skip (by decide)
        obtain rfl : keys = [] := hend.sort (by decide)
        refine ⟨⟨fun _ => rfl, fun _ => rfl, fun _ => rfl⟩, ?_, htype⟩
        rw [htype, filter, toPlan, toPlan, List.foldl_append]
        rfl
      | sort s keys =>
        obtain ⟨hrank, r, hr, rfl⟩ :=
          (checked_eq_ok (f := fun r => { r with sortKeys := keys }) rfl).mp h
        obtain ⟨hkeys, rfl, hs⟩ := ha
        obtain ⟨hend, rfl, htype⟩ := ih s List.mem_cons_self hs hr
        obtain ⟨element, filters, keys', skipCount, takeCount⟩ := r
        obtain rfl : takeCount = none := hend.take (by decide)
        obtain rfl : skipCount = none := hend.skip (by decide)
        obtain rfl : keys' = [] := hend.sort (by decide)
        refine ⟨⟨fun _ => rfl, fun _ => rfl, fun _ => by omega⟩, ?_, htype⟩
        rw [htype]
        cases keys with
        | nil => exact absurd rfl hkeys
        | cons key rest => rfl
      | skip s n =>
        obtain ⟨hrank, r, hr, rfl⟩ := (checked_eq_ok (f := fun r => r.skip n) rfl).mp h
        obtain ⟨rfl, hs⟩ := ha
        obtain ⟨hend, rfl, htype⟩ := ih s List.mem_cons_self hs hr
        obtain ⟨element, filters, keys, skipCount, takeCount⟩ := r
        obtain rfl : takeCount = none := hend.take (by decide)
        obtain rfl : skipCount = none := hend.skip (by decide)
        refine ⟨⟨fun _ => rfl, fun _ => by omega, fun _ => by omega⟩, ?_, htype⟩
        rw [htype]
        rfl
      | take s n =>
        obtain ⟨hrank, r, hr, rfl⟩ := (checked_eq_ok (f := fun r => r.take n) rfl).mp h
        obtain ⟨rfl, hs⟩ := ha
        obtain ⟨hend, rfl, htype⟩ := ih s List.mem_cons_self hs hr
        obtain ⟨element, filters, keys, skipCount, takeCount⟩ := r
        obtain rfl : takeCount = none := hend.take (by decide)
        refine ⟨⟨fun _ => by omega, fun _ => by omega, fun _ => by omega⟩, ?_, htype⟩
        rw [htype]
        rfl
      | _ => cases h
    | _ => cases h

/-- Main statement: whatever calls make a query of a source, its chain is the source below one
filter for each call that adds one, in the order of the calls, one sort with all keys if there are
any, the last skip if there is one, and the last take if there is one, and the query is read off
this chain again; and a plan of an expression off which a query is read is the chain that the query
stands for. -/
theorem toPlan_ofPlan :
    (∀ (element : Descriptor) (calls : List Call),
      (ofCalls element calls).toPlan =
        chain (.query (.source element) element.sequence) element.sequence
          (stages (calls.filterMap Call.predicate?) (calls.filterMap Call.sortKey?)
            (calls.filterMap Call.skipCount?).getLast?
            (calls.filterMap Call.takeCount?).getLast?) ∧
      ofPlan (ofCalls element calls).toPlan = .ok (ofCalls element calls)) ∧
    ∀ (c : Catalog) (admits : Expr.LocalTest) (e : Expr) (a : Plan) (q : LinearQuery),
      e.plan c admits = .ok a → ofPlan a = .ok q → q.toPlan = a := by
  refine ⟨fun element calls => ⟨?_, ofPlan_toPlan _⟩, fun c admits e a q hplan hread => ?_⟩
  · rw [toPlan_eq_chain, ofCalls_eq]
  · obtain ⟨e', t, -, hplanned⟩ := plan_eq_ok.mp hplan
    exact (toPlan_of_readBelow hplanned.keepsType hread).2.1

/-- The query that is read off the plan of a filtered table stands for that plan. -/
theorem adults_toPlan_ofPlan :
    ∃ a q, Expr.adults.plan Catalog.people (fun _ => true) = .ok a ∧ ofPlan a = .ok q ∧
      q.filters.length = 1 ∧ q.toPlan = a := by
  have hplan : Expr.adults.plan Catalog.people (fun _ => true) = .ok _ := rfl
  exact ⟨_, _, hplan, rfl, rfl, toPlan_ofPlan.2 _ _ _ _ _ hplan rfl⟩

end LinearQuery
end QueryRelay
