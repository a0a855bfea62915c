import QueryRelay.Plan.Basic

/-!
# Walking plans

`Plan.mapChildrenM` rebuilds one node from the results of an action on its direct sub-plans, run in
order; `Plan.rebuildM` does so from the leaves up and then runs the action on the rebuilt node.
`Plan.nodes` lists all nodes, parents first. The last part is structural equality, which takes
constants by `Value.equals`.
-/

namespace QueryRelay

variable {m : Type → Type} [Monad m]

/-- Rebuild an operator from the results of an action on its sub-plans, in order. -/
def QueryOp.mapM {α β : Type} (f : α → m β) : QueryOp α → m (QueryOp β)
  | .source element => return .source element
  | .filter s p => return .filter (← f s) (← f p)
  | .project s g many => return .project (← f s) (← f g) many
  | .sort s keys => return .sort (← f s) (← keys.mapM f)
  | .skip s n => return .skip (← f s) n
  | .take s n => return .take (← f s) n
  | .groupBy s k none => return .groupBy (← f s) (← f k) none
  | .groupBy s k (some e) => return .groupBy (← f s) (← f k) (some (← f e))
  | .join o i ok ik r => return .join (← f o) (← f i) (← f ok) (← f ik) (← f r)
  | .include s path => return .include (← f s) path
  | .aggregate s func none => return .aggregate (← f s) func none
  | .aggregate s func (some a) => return .aggregate (← f s) func (some (← f a))

namespace Plan

/-- Rebuild a node from the results of an action on its direct sub-plans, in order. -/
def mapChildrenM (f : Plan → m Plan) : Plan → m Plan
  | .constant v t => return .constant v t
  | .member target d name t => return .member (← f target) d name t
  | .unary op operand t => return .unary op (← f operand) t
  | .binary op l r t => return .binary op (← f l) (← f r) t
  | .conditional c p q t => return .conditional (← f c) (← f p) (← f q) t
  | .lambda params body t => return .lambda params (← f body) t
  | .parameter p => return .parameter p
  | .call d name args t => return .call d name (← args.mapM f) t
  | .object members args t => return .object members (← args.mapM f) t
  | .array items t => return .array (← items.mapM f) t
  | .list items t => return .list (← items.mapM f) t
  | .construct bindings t =>
    return .construct (← bindings.mapM fun b => return (b.1, ← f b.2)) t
  | .sortKey key d => return .sortKey (← f key) d
  | .query op t => return .query (← op.mapM f) t

mutual

/-- Rebuild from the leaves up: the sub-plans first, then the rebuilt node by the action. -/
def rebuildM (f : Plan → m Plan) : Plan → m Plan
  | .constant v t => f (.constant v t)
  | .member target d name t => do f (.member (← rebuildM f target) d name t)
  | .unary op operand t => do f (.unary op (← rebuildM f operand) t)
  | .binary op l r t => do f (.binary op (← rebuildM f l) (← rebuildM f r) t)
  | .conditional c p q t => do
    f (.conditional (← rebuildM f c) (← rebuildM f p) (← rebuildM f q) t)
  | .lambda params body t => do f (.lambda params (← rebuildM f body) t)
  | .parameter p => f (.parameter p)
  | .call d name args t => do f (.call d name (← rebuildAllM f args) t)
  | .object members args t => do f (.object members (← rebuildAllM f args) t)
  | .array items t => do f (.array (← rebuildAllM f items) t)
  | .list items t => do f (.list (← rebuildAllM f items) t)
  | .construct bindings t => do f (.construct (← rebuildBindingsM f bindings) t)
  | .sortKey key d => do f (.sortKey (← rebuildM f key) d)
  | .query op t => do f (.query (← rebuildOpM f op) t)
termination_by structural p => p

/-- Rebuild several plans from left to right. -/
def rebuildAllM (f : Plan → m Plan) : List Plan → m (List Plan)
  | [] => return []
  | p :: rest => return (← rebuildM f p) :: (← rebuildAllM f rest)
termination_by structural ps => ps

/-- Rebuild the values of member bindings in order. -/
def rebuildBindingsM (f : Plan → m Plan) : List (String × Plan) → m (List (String × Plan))
  | [] => return []
  | (name, p) :: rest => return (name, ← rebuildM f p) :: (← rebuildBindingsM f rest)
termination_by structural bs => bs

/-- Rebuild the sub-plans of a query stage in order. -/
def rebuildOpM (f : Plan → m Plan) : QueryOp Plan → m (QueryOp Plan)
  | .source element => return .source element
  | .filter s p => return .filter (← rebuildM f s) (← rebuildM f p)
  | .project s g many => return .project (← rebuildM f s) (← rebuildM f g) many
  | .sort s keys => return .sort (← rebuildM f s) (← rebuildAllM f keys)
  | .skip s n => return .skip (← rebuildM f s) n
  | .take s n => return .take (← rebuildM f s) n
  | .groupBy s k none => return .groupBy (← rebuildM f s) (← rebuildM f k) none
  | .groupBy s k (some e) =>
    return .groupBy (← rebuildM f s) (← rebuildM f k) (some (← rebuildM f e))
  | .join o i ok ik r =>
    return .join (← rebuildM f o) (← rebuildM f i) (← rebuildM f ok) (← rebuildM f ik)
      (← rebuildM f r)
  | .include s path => return .include (← rebuildM f s) path
  | .aggregate s func none => return .aggregate (← rebuildM f s) func none
  | .aggregate s func (some a) =>
    return .aggregate (← rebuildM f s) func (some (← rebuildM f a))
termination_by structural op => op

end

/-- Rebuild a node from the images of its direct sub-plans. -/
def mapChildren (f : Plan → Plan) (p : Plan) : Plan := Id.run (mapChildrenM (fun q => pure (f q)) p)

/-- Rebuild from the leaves up. -/
def rebuild (f : Plan → Plan) (p : Plan) : Plan := Id.run (rebuildM (fun q => pure (f q)) p)

mutual

/-- All nodes, parents before their sub-plans. -/
def nodes : Plan → List Plan
  | .constant v t => [.constant v t]
  | .member target d name t => .member target d name t :: nodes target
  | .unary op operand t => .unary op operand t :: nodes operand
  | .binary op l r t => .binary op l r t :: (nodes l ++ nodes r)
  | .conditional c p q t => .conditional c p q t :: (nodes c ++ nodes p ++ nodes q)
  | .lambda params body t => .lambda params body t :: nodes body
  | .parameter p => [.parameter p]
  | .call d name args t => .call d name args t :: nodesOfAll args
  | .object members args t => .object members args t :: nodesOfAll args
  | .array items t => .array items t :: nodesOfAll items
  | .list items t => .list items t :: nodesOfAll items
  | .construct bindings t => .construct bindings t :: nodesOfBindings bindings
  | .sortKey key d => .sortKey key d :: nodes key
  | .query op t => .query op t :: nodesOfOp op
termination_by structural p => p

/-- The nodes of several plans. -/
def nodesOfAll : List Plan → List Plan
  | [] => []
  | p :: rest => nodes p ++ nodesOfAll rest
termination_by structural ps => ps

/-- The nodes of the values of member bindings. -/
def nodesOfBindings : List (String × Plan) → List Plan
  | [] => []
  | (_, p) :: rest => nodes p ++ nodesOfBindings rest
termination_by structural bs => bs

/-- The nodes of the sub-plans of a query stage. -/
def nodesOfOp : QueryOp Plan → List Plan
  | .source _ => []
  | .filter s p => nodes s ++ nodes p
  | .project s g _ => nodes s ++ nodes g
  | .sort s keys => nodes s ++ nodesOfAll keys
  | .skip s _ => nodes s
  | .take s _ => nodes s
  | .groupBy s k none => nodes s ++ nodes k
  | .groupBy s k (some e) => nodes s ++ nodes k ++ nodes e
  | .join o i ok ik r => nodes o ++ nodes i ++ nodes ok ++ nodes ik ++ nodes r
  | .include s _ => nodes s
  | .aggregate s _ none => nodes s
  | .aggregate s _ (some a) => nodes s ++ nodes a
termination_by structural op => op

end

mutual

/-- The navigation paths that are loaded, in the order in which the includes apply. -/
def includePaths : Plan → List String
  | .constant _ _ | .parameter _ => []
  | .member target _ _ _ => includePaths target
  | .unary _ operand _ => includePaths operand
  | .binary _ l r _ => includePaths l ++ includePaths r
  | .conditional c p q _ => includePaths c ++ includePaths p ++ includePaths q
  | .lambda _ body _ => includePaths body
  | .call _ _ args _ => includePathsOfAll args
  | .object _ args _ => includePathsOfAll args
  | .array items _ => includePathsOfAll items
  | .list items _ => includePathsOfAll items
  | .construct bindings _ => includePathsOfBindings bindings
  | .sortKey key _ => includePaths key
  | .query op _ => includePathsOfOp op
termination_by structural p => p

/-- The navigation paths that several plans load. -/
def includePathsOfAll : List Plan → List String
  | [] => []
  | p :: rest => includePaths p ++ includePathsOfAll rest
termination_by structural ps => ps

/-- The navigation paths that the values of member bindings load. -/
def includePathsOfBindings : List (String × Plan) → List String
  | [] => []
  | (_, p) :: rest => includePaths p ++ includePathsOfBindings rest
termination_by structural bs => bs

/-- The navigation paths that a query stage loads, its own after those of its sub-plans. -/
def includePathsOfOp : QueryOp Plan → List String
  | .source _ => []
  | .filter s p => includePaths s ++ includePaths p
  | .project s g _ => includePaths s ++ includePaths g
  | .sort s keys => includePaths s ++ includePathsOfAll keys
  | .skip s _ => includePaths s
  | .take s _ => includePaths s
  | .groupBy s k none => includePaths s ++ includePaths k
  | .groupBy s k (some e) => includePaths s ++ includePaths k ++ includePaths e
  | .join o i ok ik r =>
    includePaths o ++ includePaths i ++ includePaths ok ++ includePaths ik ++ includePaths r
  | .include s path => includePaths s ++ [path]
  | .aggregate s _ none => includePaths s
  | .aggregate s _ (some a) => includePaths s ++ includePaths a
termination_by structural op => op

end

mutual

/-- The element type of the innermost source of a query. -/
def rootElement? : Plan → Option Descriptor
  | .query op _ => rootElementOfOp? op
  | _ => none
termination_by structural p => p

/-- The element type of the innermost source of a query stage. -/
def rootElementOfOp? : QueryOp Plan → Option Descriptor
  | .source element => some element
  | .filter s _ => rootElement? s
  | .project s _ _ => rootElement? s
  | .sort s _ => rootElement? s
  | .skip s _ => rootElement? s
  | .take s _ => rootElement? s
  | .groupBy s _ _ => rootElement? s
  | .join outer _ _ _ _ => rootElement? outer
  | .include s _ => rootElement? s
  | .aggregate s _ _ => rootElement? s
termination_by structural op => op

end

/-! ## Equality -/

/-- Equality of parameters. -/
def equalParams : List Parameter → List Parameter → Bool
  | [], [] => true
  | p :: ps, q :: qs => p.name == q.name && p.type == q.type && equalParams ps qs
  | _, _ => false

mutual

/-- Structural equality. -/
def equals : Plan → Plan → Bool
  | .constant v t, .constant w u => v == w && t == u
  | .member p d m t, .member q e n u => equals p q && d == e && m == n && t == u
  | .unary o p t, .unary o' q u => o == o' && equals p q && t == u
  | .binary o l r t, .binary o' l' r' u => o == o' && equals l l' && equals r r' && t == u
  | .conditional c p q t, .conditional c' p' q' u =>
    equals c c' && equals p p' && equals q q' && t == u
  | .lambda ps b t, .lambda qs c u => equalParams ps qs && equals b c && t == u
  | .parameter p, .parameter q => equalParams [p] [q]
  | .call d m ps t, .call e n qs u => d == e && m == n && equalAll ps qs && t == u
  | .object ms ps t, .object ns qs u => ms == ns && equalAll ps qs && t == u
  | .array ps t, .array qs u => equalAll ps qs && t == u
  | .list ps t, .list qs u => equalAll ps qs && t == u
  | .construct bs t, .construct cs u => equalBindings bs cs && t == u
  | .sortKey p d, .sortKey q e => equals p q && d == e
  | .query o t, .query p u => equalOps o p && t == u
  | _, _ => false
termination_by structural p => p

/-- Equality of several plans. -/
def equalAll : List Plan → List Plan → Bool
  | [], [] => true
  | p :: ps, q :: qs => equals p q && equalAll ps qs
  | _, _ => false
termination_by structural ps => ps

/-- Equality of member bindings. -/
def equalBindings : List (String × Plan) → List (String × Plan) → Bool
  | [], [] => true
  | (m, p) :: ps, (n, q) :: qs => m == n && equals p q && equalBindings ps qs
  | _, _ => false
termination_by structural bs => bs

/-- Equality of query stages. -/
def equalOps : QueryOp Plan → QueryOp Plan → Bool
  | .source d, .source e => d == e
  | .filter s p, .filter s' p' => equals s s' && equals p p'
  | .project s f m, .project s' f' m' => equals s s' && equals f f' && m == m'
  | .sort s ks, .sort s' ks' => equals s s' && equalAll ks ks'
  | .skip s n, .skip s' n' => equals s s' && n == n'
  | .take s n, .take s' n' => equals s s' && n == n'
  | .groupBy s k none, .groupBy s' k' none => equals s s' && equals k k'
  | .groupBy s k (some e), .groupBy s' k' (some e') => equals s s' && equals k k' && equals e e'
  | .join o i ok ik r, .join o' i' ok' ik' r' =>
    equals o o' && equals i i' && equals ok ok' && equals ik ik' && equals r r'
  | .include s p, .include s' p' => equals s s' && p == p'
  | .aggregate s f none, .aggregate s' f' none => equals s s' && f == f'
  | .aggregate s f (some a), .aggregate s' f' (some a') => equals s s' && f == f' && equals a a'
  | _, _ => false
termination_by structural op => op

end

instance : BEq Plan := ⟨equals⟩

end Plan
end QueryRelay
