import QueryRelay.Proofs.Plan.Nodes

/-!
# Well-shaped plans

Not every plan has the shape of a query: a sort key may stand where nothing is sorted, a sort may
have no keys, the names of an anonymous object may outnumber its values, and a count may be larger
than any integer. A plan is well shaped when none of its nodes shows such a fault.
-/

namespace QueryRelay

namespace QueryOp

variable {α : Type}

/-- The sub-plans of a stage, save the keys of a sort. -/
@[simp] def operands : QueryOp α → List α
  | .sort s _ => [s]
  | op => op.children

/-- The keys of a sort. -/
@[simp] def keys : QueryOp α → List α
  | .sort _ keys => keys
  | _ => []

/-- The sub-plans of a stage are its operands and, of a sort, the keys. -/
theorem mem_children {op : QueryOp α} {q : α} :
    q ∈ op.children ↔ q ∈ op.operands ∨ q ∈ op.keys := by
  cases op with
  | sort s keys =>
    simp only [children, operands, QueryOp.keys, List.mem_cons, List.not_mem_nil, or_false]
  | _ => simp only [operands, keys, List.not_mem_nil, or_false]

end QueryOp

namespace Plan

/-- Whether the root is one key of a sort. -/
@[simp] def isSortKey : Plan → Bool
  | .sortKey _ _ => true
  | _ => false

/-- The direct sub-plans, save the keys of a sort. -/
@[simp] def operands : Plan → List Plan
  | .query op _ => op.operands
  | p => p.children

/-- The keys of a sort. -/
@[simp] def sortKeys : Plan → List Plan
  | .query op _ => op.keys
  | _ => []

/-- The direct sub-plans are the operands and, of a sort, the keys. -/
theorem mem_children {p q : Plan} : q ∈ p.children ↔ q ∈ p.operands ∨ q ∈ p.sortKeys := by
  cases p with
  | query op t => exact QueryOp.mem_children
  | _ => simp only [operands, sortKeys, List.not_mem_nil, or_false]

/-- Every node is the plan itself or one of a direct sub-plan. -/
theorem forall_mem_nodes {P : Plan → Prop} {p : Plan} :
    (∀ q ∈ p.nodes, P q) ↔ P p ∧ ∀ r ∈ p.children, ∀ q ∈ r.nodes, P q := by
  constructor
  · intro h
    exact ⟨h p (mem_nodes_self p), fun r hr q hq => h q (mem_nodes.mpr (.inr ⟨r, hr, hq⟩))⟩
  · rintro ⟨hp, hchildren⟩ q hq
    rcases mem_nodes.mp hq with rfl | ⟨r, hr, hq⟩
    · exact hp
    · exact hchildren r hr q hq

/-- What the kind of a node asks of its shape: a sort has keys, all of which are sort keys; the
count of elements to leave out or to keep is an integer; an anonymous object has as many values as
names. -/
@[simp] def ShapedAt : Plan → Prop
  | .query (.sort _ keys) _ => keys ≠ [] ∧ ∀ k ∈ keys, k.isSortKey = true
  | .query (.skip _ n) _ | .query (.take _ n) _ => (n.toNat : Int) ≤ Int64.maxValue.toInt
  | .object members args _ => members.length = args.length
  | _ => True

/-- Whether the root is a lambda of so many parameters. -/
def Takes (count : Nat) : Plan → Prop
  | .lambda params _ _ => params.length = count
  | _ => False

/-- The functions that a stage applies to elements are lambdas: of two parameters in the result of a
join, of one everywhere else. -/
def AppliesAt : Plan → Prop
  | .query (.filter _ f) _ | .query (.project _ f _) _ => f.Takes 1
  | .query (.sort _ keys) _ => ∀ key d, .sortKey key d ∈ keys → key.Takes 1
  | .query (.groupBy _ key element) _ => key.Takes 1 ∧ ∀ f ∈ element, f.Takes 1
  | .query (.join _ _ outerKey innerKey result) _ =>
    outerKey.Takes 1 ∧ innerKey.Takes 1 ∧ result.Takes 2
  | .query (.aggregate _ _ argument) _ => ∀ f ∈ argument, f.Takes 1
  | _ => True

/-- The keys of a sort in shape are sort keys. -/
theorem ShapedAt.isSortKey {p q : Plan} (h : p.ShapedAt) (hq : q ∈ p.sortKeys) :
    q.isSortKey = true := by
  cases p with
  | query op t =>
    cases op with
    | sort s keys => exact h.2 q hq
    | _ => cases hq
  | _ => cases hq

/-- A plan whose nodes are in shape, with sort keys under a sort only. -/
structure WellShaped (p : Plan) : Prop where
  /-- The plan is no sort key. -/
  root : p.isSortKey = false
  /-- No sort key stands where nothing is sorted. -/
  operands : ∀ q ∈ p.nodes, ∀ r ∈ q.operands, r.isSortKey = false
  /-- Every node is in shape. -/
  nodes : ∀ q ∈ p.nodes, q.ShapedAt

end Plan
end QueryRelay
