import QueryRelay.Plan.Traversal

/-!
# The nodes of a plan

Induction over plans with one hypothesis for the direct sub-plans, and the list of all nodes,
through which conditions on every node are stated. Two plans have the same node when they differ in
their direct sub-plans at most.
-/

namespace QueryRelay

/-- The sub-plans of a stage are smaller than the stage. -/
theorem QueryOp.sizeOf_lt_of_mem_children {op : QueryOp Plan} {q : Plan} (h : q ∈ op.children) :
    sizeOf q < sizeOf op := by
  cases op with
  | source => cases h
  | sort s keys =>
    rcases List.mem_cons.mp h with rfl | h
    · simp only [QueryOp.sort.sizeOf_spec]
      omega
    · have hlt := List.sizeOf_lt_of_mem h
      simp only [QueryOp.sort.sizeOf_spec]
      omega
  | groupBy s k e =>
    cases e <;>
      simp only [children, Option.toList, List.mem_cons, List.not_mem_nil, or_false] at h <;>
      rcases h with rfl | rfl | rfl <;>
      simp only [QueryOp.groupBy.sizeOf_spec, Option.some.sizeOf_spec] <;> omega
  | aggregate s func a =>
    cases a <;>
      simp only [children, Option.toList, List.mem_cons, List.not_mem_nil, or_false] at h <;>
      rcases h with rfl | rfl <;>
      simp only [QueryOp.aggregate.sizeOf_spec, Option.some.sizeOf_spec] <;> omega
  | _ =>
    simp only [children, List.mem_cons, List.not_mem_nil, or_false] at h
    rcases h with rfl | rfl | rfl | rfl | rfl <;> decreasing_tactic

namespace Plan

/-- The direct sub-plans of a plan are smaller than the plan. -/
theorem sizeOf_lt_of_mem_children {p q : Plan} (h : q ∈ p.children) : sizeOf q < sizeOf p := by
  cases p with
  | constant | parameter => cases h
  | call declaring name args t | object members args t | array args t | list args t =>
    rw [children] at h
    have hlt := List.sizeOf_lt_of_mem h
    decreasing_tactic
  | construct bindings t =>
    obtain ⟨⟨name, q⟩, hb, rfl⟩ := List.mem_map.mp h
    have hlt := List.sizeOf_lt_of_mem hb
    simp only [Prod.mk.sizeOf_spec] at hlt
    simp only [construct.sizeOf_spec]
    omega
  | query op t =>
    have hlt := QueryOp.sizeOf_lt_of_mem_children h
    clear h
    decreasing_tactic
  | _ =>
    simp only [children, List.mem_cons, List.not_mem_nil, or_false] at h
    rcases h with rfl | rfl | rfl <;> decreasing_tactic

/-- Induction over plans: a property holds of every plan when it passes from the direct sub-plans of
each node to the node. -/
theorem induct {motive : Plan → Prop} (node : ∀ p, (∀ q ∈ p.children, motive q) → motive p)
    (p : Plan) : motive p :=
  node p fun q _ => induct node q
termination_by sizeOf p
decreasing_by exact sizeOf_lt_of_mem_children ‹_›

/-- The nodes of several plans are those of each. -/
theorem nodesOfAll_eq (ps : List Plan) : nodesOfAll ps = ps.flatMap nodes := by
  induction ps with
  | nil => rfl
  | cons p ps ih => rw [nodesOfAll, ih, List.flatMap_cons]

/-- The nodes of named plans are those of each. -/
theorem nodesOfBindings_eq (bs : List (String × Plan)) :
    nodesOfBindings bs = (bs.map Prod.snd).flatMap nodes := by
  induction bs with
  | nil => rfl
  | cons b bs ih =>
    obtain ⟨name, p⟩ := b
    rw [nodesOfBindings, ih, List.map_cons, List.flatMap_cons]

/-- The nodes of a stage are those of its sub-plans. -/
theorem nodesOfOp_eq (op : QueryOp Plan) : nodesOfOp op = op.children.flatMap nodes := by
  cases op with
  | groupBy s k e => cases e <;> simp [nodesOfOp, QueryOp.children]
  | aggregate s func a => cases a <;> simp [nodesOfOp, QueryOp.children]
  | _ => simp [nodesOfOp, QueryOp.children, nodesOfAll_eq]

/-- The nodes of a plan are the plan and then those of its sub-plans in order. -/
theorem nodes_eq (p : Plan) : p.nodes = p :: p.children.flatMap nodes := by
  cases p <;> simp [nodes, children, nodesOfAll_eq, nodesOfBindings_eq, nodesOfOp_eq]

/-- The nodes of a plan are itself and those of its direct sub-plans. -/
theorem mem_nodes {p q : Plan} : q ∈ p.nodes ↔ q = p ∨ ∃ r ∈ p.children, q ∈ r.nodes := by
  rw [nodes_eq, List.mem_cons, List.mem_flatMap]

/-- A plan is one of its own nodes. -/
theorem mem_nodes_self (p : Plan) : p ∈ p.nodes := mem_nodes.mpr (.inl rfl)

end Plan

/-- Stages that differ in their sub-plans at most. -/
inductive QueryOp.SameStage : QueryOp Plan → QueryOp Plan → Prop
  /-- Tables of one element type. -/
  | source (element : Descriptor) : SameStage (.source element) (.source element)
  /-- Predicates. -/
  | filter (s s' p p' : Plan) : SameStage (.filter s p) (.filter s' p')
  /-- Selectors of the same kind. -/
  | project (s s' f f' : Plan) (many : Bool) : SameStage (.project s f many) (.project s' f' many)
  /-- Sorts. -/
  | sort (s s' : Plan) (keys keys' : List Plan) : SameStage (.sort s keys) (.sort s' keys')
  /-- The same count of elements to leave out. -/
  | skip (s s' : Plan) (count : UInt64) : SameStage (.skip s count) (.skip s' count)
  /-- The same count of elements to keep. -/
  | take (s s' : Plan) (count : UInt64) : SameStage (.take s count) (.take s' count)
  /-- Groupings. -/
  | groupBy (s s' key key' : Plan) (element element' : Option Plan) :
      SameStage (.groupBy s key element) (.groupBy s' key' element')
  /-- Joins. -/
  | join (o o' i i' ok ok' ik ik' r r' : Plan) :
      SameStage (.join o i ok ik r) (.join o' i' ok' ik' r')
  /-- The same navigation path. -/
  | include (s s' : Plan) (path : String) : SameStage (.include s path) (.include s' path)
  /-- The same aggregate. -/
  | aggregate (s s' : Plan) (func : Aggregate) (argument argument' : Option Plan) :
      SameStage (.aggregate s func argument) (.aggregate s' func argument')

namespace Plan

/-- Plans that differ in their direct sub-plans at most. -/
inductive SameNode : Plan → Plan → Prop
  /-- A constant has no sub-plans. -/
  | constant (v : Value) (t : Descriptor) : SameNode (.constant v t) (.constant v t)
  /-- The same member of two targets. -/
  | member (p p' : Plan) (declaring : Descriptor) (name : String) (t : Descriptor) :
      SameNode (.member p declaring name t) (.member p' declaring name t)
  /-- An operator over two operands. -/
  | unary (op : UnaryOp) (p p' : Plan) (t : Descriptor) : SameNode (.unary op p t) (.unary op p' t)
  /-- An operator over two pairs of operands. -/
  | binary (op : BinaryOp) (l l' r r' : Plan) (t : Descriptor) :
      SameNode (.binary op l r t) (.binary op l' r' t)
  /-- Conditionals. -/
  | conditional (c c' p p' q q' : Plan) (t : Descriptor) :
      SameNode (.conditional c p q t) (.conditional c' p' q' t)
  /-- Lambdas with the same parameters. -/
  | lambda (params : List Parameter) (body body' : Plan) (t : Descriptor) :
      SameNode (.lambda params body t) (.lambda params body' t)
  /-- A reference to a parameter has none. -/
  | parameter (param : Parameter) : SameNode (.parameter param) (.parameter param)
  /-- Calls of the same function. -/
  | call (declaring : Descriptor) (name : String) (args args' : List Plan) (t : Descriptor) :
      SameNode (.call declaring name args t) (.call declaring name args' t)
  /-- Objects with the same member names. -/
  | object (members : List String) (args args' : List Plan) (t : Descriptor) :
      SameNode (.object members args t) (.object members args' t)
  /-- Arrays. -/
  | array (items items' : List Plan) (t : Descriptor) : SameNode (.array items t) (.array items' t)
  /-- Lists. -/
  | list (items items' : List Plan) (t : Descriptor) : SameNode (.list items t) (.list items' t)
  /-- Records with the same names. -/
  | construct {bindings bindings' : List (String × Plan)}
      (hnames : bindings'.map Prod.fst = bindings.map Prod.fst) (t : Descriptor) :
      SameNode (.construct bindings t) (.construct bindings' t)
  /-- Sort keys of the same direction. -/
  | sortKey (key key' : Plan) (direction : SortDirection) :
      SameNode (.sortKey key direction) (.sortKey key' direction)
  /-- The same stage. -/
  | query {op op' : QueryOp Plan} (h : op.SameStage op') (t : Descriptor) :
      SameNode (.query op t) (.query op' t)

end Plan
end QueryRelay
