import Mathlib.Data.List.Perm.Basic
import QueryRelay.Proofs.Expr.Nodes
import QueryRelay.Proofs.Plan.Nodes
import QueryRelay.Proofs.Traversals

/-!
# Rebuilding plans

Mapping the sub-plans of a node is a traversal of their list, whose results stand in the same node
afterwards; rebuilding a plan is this at every node, sub-plans first. So the calls that an action
receives are known: one for each node of the plan, children in order and before their parent.
-/

namespace QueryRelay

variable {m : Type → Type} [Monad m]

/-- The same stage over other sub-plans, as many as it has. -/
def QueryOp.withChildren : QueryOp Plan → List Plan → QueryOp Plan
  | .filter _ _, [s, p] => .filter s p
  | .project _ _ many, [s, g] => .project s g many
  | .sort _ _, s :: keys => .sort s keys
  | .skip _ n, [s] => .skip s n
  | .take _ n, [s] => .take s n
  | .groupBy _ _ none, [s, k] => .groupBy s k none
  | .groupBy _ _ (some _), [s, k, e] => .groupBy s k (some e)
  | .join _ _ _ _ _, [o, i, ok, ik, r] => .join o i ok ik r
  | .include _ path, [s] => .include s path
  | .aggregate _ func none, [s] => .aggregate s func none
  | .aggregate _ func (some _), [s, a] => .aggregate s func (some a)
  | op, _ => op

/-- A stage over other sub-plans, as many as it has, is the same stage and has these. -/
theorem QueryOp.withChildren_spec {op : QueryOp Plan} {parts : List Plan}
    (h : parts.length = op.children.length) :
    op.SameStage (op.withChildren parts) ∧ (op.withChildren parts).children = parts := by
  cases op with
  | source d =>
    obtain rfl := List.eq_nil_of_length_eq_zero h
    exact ⟨.source d, rfl⟩
  | skip | take | «include» =>
    obtain ⟨s, rfl⟩ := List.length_eq_one_iff.mp h
    exact ⟨by constructor, rfl⟩
  | filter | project =>
    obtain ⟨s, p, rfl⟩ := List.length_eq_two.mp h
    exact ⟨by constructor, rfl⟩
  | sort s keys =>
    obtain ⟨s', keys', rfl⟩ := List.exists_cons_of_length_eq_add_one h
    exact ⟨.sort _ _ _ _, rfl⟩
  | groupBy s k e =>
    cases e with
    | none =>
      obtain ⟨s', k', rfl⟩ := List.length_eq_two.mp h
      exact ⟨.groupBy _ _ _ _ _ _, rfl⟩
    | some e =>
      obtain ⟨s', k', e', rfl⟩ := List.length_eq_three.mp h
      exact ⟨.groupBy _ _ _ _ _ _, rfl⟩
  | join =>
    match parts, h with
    | [_, _, _, _, _], _ => exact ⟨.join _ _ _ _ _ _ _ _ _ _, rfl⟩
  | aggregate s func a =>
    cases a with
    | none =>
      obtain ⟨s', rfl⟩ := List.length_eq_one_iff.mp h
      exact ⟨.aggregate _ _ _ _ _, rfl⟩
    | some a =>
      obtain ⟨s', a', rfl⟩ := List.length_eq_two.mp h
      exact ⟨.aggregate _ _ _ _ _, rfl⟩

/-- Rebuilding a stage is a traversal of its sub-plans. -/
theorem QueryOp.mapM_eq [LawfulMonad m] (f : Plan → m Plan) (op : QueryOp Plan) :
    op.mapM f = op.withChildren <$> op.children.mapM f := by
  cases op with
  | groupBy s k e =>
    cases e <;> simp [QueryOp.mapM, children, withChildren, List.mapM_cons]
  | aggregate s func a =>
    cases a <;> simp [QueryOp.mapM, children, withChildren, List.mapM_cons]
  | _ => simp [QueryOp.mapM, children, withChildren, List.mapM_cons]

namespace Plan

/-- The same node over other sub-plans, as many as it has. -/
def withChildren : Plan → List Plan → Plan
  | .member _ d name t, [target] => .member target d name t
  | .unary op _ t, [operand] => .unary op operand t
  | .binary op _ _ t, [l, r] => .binary op l r t
  | .conditional _ _ _ t, [c, p, q] => .conditional c p q t
  | .lambda params _ t, [body] => .lambda params body t
  | .call d name _ t, args => .call d name args t
  | .object members _ t, args => .object members args t
  | .array _ t, items => .array items t
  | .list _ t, items => .list items t
  | .construct bindings t, values => .construct ((bindings.map Prod.fst).zip values) t
  | .sortKey _ d, [key] => .sortKey key d
  | .query op t, parts => .query (op.withChildren parts) t
  | p, _ => p

/-- A node over other sub-plans, as many as it has, is the same node and has these. -/
theorem withChildren_spec {p : Plan} {parts : List Plan} (h : parts.length = p.children.length) :
    SameNode p (p.withChildren parts) ∧ (p.withChildren parts).children = parts := by
  cases p with
  | constant | parameter =>
    obtain rfl := List.eq_nil_of_length_eq_zero h
    exact ⟨by constructor, rfl⟩
  | member | unary | lambda | sortKey =>
    obtain ⟨x, rfl⟩ := List.length_eq_one_iff.mp h
    exact ⟨by constructor, rfl⟩
  | binary =>
    obtain ⟨l, r, rfl⟩ := List.length_eq_two.mp h
    exact ⟨.binary _ _ _ _ _ _, rfl⟩
  | conditional =>
    obtain ⟨c, x, y, rfl⟩ := List.length_eq_three.mp h
    exact ⟨.conditional _ _ _ _ _ _ _, rfl⟩
  | call | object | array | list => exact ⟨by constructor, rfl⟩
  | construct bindings t =>
    rw [children, List.length_map, ← List.length_map (f := Prod.fst)] at h
    exact ⟨.construct (List.map_fst_zip (Nat.le_of_eq h.symm)) t,
      List.map_snd_zip (Nat.le_of_eq h)⟩
  | query op t =>
    obtain ⟨hstage, hparts⟩ := QueryOp.withChildren_spec h
    exact ⟨.query hstage t, hparts⟩

/-- The same node over the same sub-plans is the same plan. -/
theorem withChildren_children (p : Plan) : p.withChildren p.children = p := by
  cases p with
  | construct bindings t => exact congrArg (construct · t) (List.zip_of_prod rfl rfl).symm
  | query op t =>
    cases op with
    | groupBy s k e => cases e <;> rfl
    | aggregate s func a => cases a <;> rfl
    | _ => rfl
  | _ => rfl

/-- Rebuilding a node is a traversal of its sub-plans. -/
theorem mapChildrenM_eq [LawfulMonad m] (f : Plan → m Plan) (p : Plan) :
    p.mapChildrenM f = p.withChildren <$> p.children.mapM f := by
  cases p with
  | construct bindings t =>
    rw [mapChildrenM, mapM_named_eq, bind_map_left, ← map_eq_pure_bind]
    rfl
  | query op t =>
    rw [mapChildrenM, QueryOp.mapM_eq, bind_map_left, ← map_eq_pure_bind]
    rfl
  | call | object | array | list =>
    rw [mapChildrenM, ← map_eq_pure_bind]
    rfl
  | _ => simp [mapChildrenM, children, withChildren, List.mapM_cons]

section Recursion

variable (f : Plan → m Plan)

/-- Several plans are rebuilt in a traversal. -/
theorem rebuildAllM_eq [LawfulMonad m] (ps : List Plan) :
    rebuildAllM f ps = ps.mapM (rebuildM f) := by
  induction ps with
  | nil => simp [rebuildAllM]
  | cons p ps ih => simp [rebuildAllM, List.mapM_cons, ih]

/-- Named plans are rebuilt in a traversal that keeps the names. -/
theorem rebuildBindingsM_eq [LawfulMonad m] (bs : List (String × Plan)) :
    rebuildBindingsM f bs = bs.mapM fun b => return (b.1, ← rebuildM f b.2) := by
  induction bs with
  | nil => simp [rebuildBindingsM]
  | cons b bs ih =>
    obtain ⟨name, p⟩ := b
    simp [rebuildBindingsM, List.mapM_cons, ih]

/-- The sub-plans of a stage are rebuilt as they are mapped. -/
theorem rebuildOpM_eq [LawfulMonad m] (op : QueryOp Plan) :
    rebuildOpM f op = op.mapM (rebuildM f) := by
  cases op with
  | sort s keys => rw [rebuildOpM, QueryOp.mapM, rebuildAllM_eq]
  | groupBy s k e => cases e <;> rfl
  | aggregate s func a => cases a <;> rfl
  | _ => rfl

/-- To rebuild a plan is to rebuild its sub-plans, put the results into the node, and run the action
on that. -/
theorem rebuildM_eq [LawfulMonad m] (p : Plan) :
    p.rebuildM f = p.mapChildrenM (rebuildM f) >>= f := by
  cases p with
  | construct bindings t => simp [rebuildM, mapChildrenM, rebuildBindingsM_eq]
  | query op t => simp [rebuildM, mapChildrenM, rebuildOpM_eq]
  | call | object | array | list => simp [rebuildM, mapChildrenM, rebuildAllM_eq]
  | _ => simp [rebuildM, mapChildrenM]

end Recursion

/-! ## Plain functions -/

/-- Rebuilding a node by a function gives the same node over the images of its sub-plans. -/
theorem mapChildren_eq (f : Plan → Plan) (p : Plan) :
    p.mapChildren f = p.withChildren (p.children.map f) := by
  rw [mapChildren, mapChildrenM_eq, List.mapM_pure]
  rfl

/-- Rebuilding a plan from the leaves up is rebuilding its sub-plans first. -/
theorem rebuild_eq (f : Plan → Plan) (p : Plan) :
    p.rebuild f = f (p.mapChildren (rebuild f)) := by
  rw [rebuild, rebuildM_eq]
  rfl

/-- Rebuilding by the identity gives the plan back. -/
theorem rebuild_id (p : Plan) : p.rebuild id = p := by
  induction p using induct with
  | node p ih =>
    rw [rebuild_eq, id, mapChildren_eq, List.map_congr_left ih, List.map_id',
      withChildren_children]

/-! ## The order of the nodes -/

/-- All nodes, sub-plans in order before their parents. -/
def bottomUp (p : Plan) : List Plan :=
  p.children.attach.flatMap (fun q => bottomUp q.1) ++ [p]
termination_by sizeOf p
decreasing_by exact sizeOf_lt_of_mem_children q.2

/-- The nodes of the sub-plans come before a plan. -/
theorem bottomUp_eq (p : Plan) : p.bottomUp = p.children.flatMap bottomUp ++ [p] := by
  rw [bottomUp, List.flatMap_subtype (g := bottomUp) fun _ _ => rfl, List.unattach_attach]

/-- Both orders list the same nodes, each the same number of times. -/
theorem bottomUp_perm_nodes (p : Plan) : p.bottomUp.Perm p.nodes := by
  induction p using induct with
  | node p ih =>
    rw [bottomUp_eq, nodes_eq]
    exact (List.perm_append_singleton p _).trans ((List.Perm.flatMap_left _ ih).cons p)

/-! ## Calls -/

mutual

/-- The calls of an action while a plan is rebuilt, and what comes out: those for the sub-plans in
order, and one for the node over what came out of these, whose answer is the result. -/
inductive Rebuilds : Plan → List (Plan × Plan) → Plan → Prop
  /-- The node is called last. -/
  | node {p p' answer : Plan} {calls : List (Plan × Plan)} (hnode : SameNode p p')
      (hparts : RebuildsAll p.children calls p'.children) :
      Rebuilds p (calls ++ [(p', answer)]) answer

/-- The calls of an action while several plans are rebuilt, and what comes out of each. -/
inductive RebuildsAll : List Plan → List (Plan × Plan) → List Plan → Prop
  /-- No plan, no call. -/
  | nil : RebuildsAll [] [] []
  /-- The calls for the first come before those for the others. -/
  | cons {q q' : Plan} {qs qs' : List Plan} {calls calls' : List (Plan × Plan)}
      (hhead : Rebuilds q calls q') (htail : RebuildsAll qs calls' qs') :
      RebuildsAll (q :: qs) (calls ++ calls') (q' :: qs')

end

/-- One plan comes out of each. -/
theorem RebuildsAll.length_eq {qs qs' : List Plan} {calls : List (Plan × Plan)} :
    RebuildsAll qs calls qs' → qs'.length = qs.length
  | .nil => rfl
  | .cons _ htail => congrArg (· + 1) htail.length_eq

mutual

/-- The calls are about the nodes of the plan, sub-plans before their parents. -/
theorem Rebuilds.forall₂_sameNode {p p' : Plan} {calls : List (Plan × Plan)} :
    Rebuilds p calls p' → List.Forall₂ SameNode p.bottomUp (calls.map Prod.fst)
  | .node hnode hparts => by
    rw [bottomUp_eq, List.map_append]
    exact List.rel_append hparts.forall₂_sameNode (.cons hnode .nil)

/-- The calls are about the nodes of the plans. -/
theorem RebuildsAll.forall₂_sameNode {qs qs' : List Plan} {calls : List (Plan × Plan)} :
    RebuildsAll qs calls qs' → List.Forall₂ SameNode (qs.flatMap bottomUp) (calls.map Prod.fst)
  | .nil => .nil
  | .cons hhead htail => by
    rw [List.flatMap_cons, List.map_append]
    exact List.rel_append hhead.forall₂_sameNode htail.forall₂_sameNode

end

variable {σ : Type} {f : Plan → StateM σ Plan}

/-- Plans that are each rebuilt by calls are rebuilt by these calls one after the other. -/
theorem exists_rebuildsAll {qs : List Plan}
    (h : ∀ q ∈ qs, ∀ s, ∃ calls q' s', (q.rebuildM f).run s = (q', s') ∧ Answers f s calls s' ∧
      Rebuilds q calls q') (s : σ) :
    ∃ calls qs' s', (qs.mapM (rebuildM f)).run s = (qs', s') ∧ Answers f s calls s' ∧
      RebuildsAll qs calls qs' := by
  induction qs generalizing s with
  | nil => exact ⟨[], [], s, rfl, .nil s, .nil⟩
  | cons q qs ih =>
    obtain ⟨hq, hqs⟩ := List.forall_mem_cons.mp h
    obtain ⟨calls, q', t, hrun, hcalls, hhead⟩ := hq s
    obtain ⟨calls', qs', s', hrun', hcalls', htail⟩ := ih hqs t
    refine ⟨calls ++ calls', q' :: qs', s', ?_, hcalls.append hcalls', .cons hhead htail⟩
    rw [List.mapM_cons, StateT.run_bind, hrun]
    exact congrArg (fun r => (q' :: r.1, r.2)) hrun'

/-- Rebuilding a plan calls the action on each node once, from the leaves up. -/
theorem exists_rebuilds (f : Plan → StateM σ Plan) (p : Plan) (s : σ) :
    ∃ calls p' s', (p.rebuildM f).run s = (p', s') ∧ Answers f s calls s' ∧
      Rebuilds p calls p' := by
  induction p using induct generalizing s with
  | node p ih =>
    obtain ⟨calls, parts, t, hrun, hcalls, hparts⟩ := exists_rebuildsAll ih s
    -- The last call is about the node over these parts, from the state that they leave.
    obtain ⟨hnode, hchildren⟩ := withChildren_spec hparts.length_eq
    refine ⟨_, _, _, ?_, hcalls.append (.single f t (p.withChildren parts)),
      .node hnode (hchildren.symm ▸ hparts)⟩
    rw [rebuildM_eq, mapChildrenM_eq, StateT.run_bind, StateT.run_map, hrun]
    rfl

/-- Mapping the sub-plans of a node calls the action on them in order, once each, and the answers
stand in the same node. -/
theorem exists_answers_mapChildrenM (f : Plan → StateM σ Plan) (p : Plan) (s : σ) :
    ∃ calls p' s', (p.mapChildrenM f).run s = (p', s') ∧ Answers f s calls s' ∧
      calls.map Prod.fst = p.children ∧ calls.map Prod.snd = p'.children ∧ SameNode p p' := by
  obtain ⟨calls, s', hrun, hargs, hcalls⟩ := exists_answers_mapM f p.children s
  have hlength : (calls.map Prod.snd).length = p.children.length := by
    rw [← hargs, List.length_map, List.length_map]
  obtain ⟨hnode, hchildren⟩ := withChildren_spec hlength
  refine ⟨calls, p.withChildren (calls.map Prod.snd), s', ?_, hcalls, hargs, hchildren.symm, hnode⟩
  rw [mapChildrenM_eq, StateT.run_map, hrun]
  rfl

end Plan

/-- Main statement: what the traversals do with every plan `p`, every expression `e` and every
action. Mapping the sub-plans of `p` calls `f` on them in order and once each, and puts the answers
into the same node. Rebuilding `p` by the identity changes nothing, and rebuilding it by `f` calls
`f` once for each node, over what came out of its sub-plans: in order, before their parent. Mapping
the sub-expressions of `e` by an action that may fail calls it on them in order, once each, up to
the first failure, whose error is the outcome; without one the answers stand in the same node. -/
theorem traversals_call {σ : Type} (p : Plan) (e : Expr) (f : Plan → StateM σ Plan)
    (g : Expr → ExceptT Error (StateM σ) Expr) (s : σ) :
    (∃ calls p' s', (p.mapChildrenM f).run s = (p', s') ∧ Answers f s calls s' ∧
      calls.map Prod.fst = p.children ∧ calls.map Prod.snd = p'.children ∧ p.SameNode p') ∧
    p.rebuild id = p ∧
    (∃ calls p' s', (p.rebuildM f).run s = (p', s') ∧ Answers f s calls s' ∧
      p.Rebuilds calls p' ∧ List.Forall₂ Plan.SameNode p.bottomUp (calls.map Prod.fst) ∧
      p.bottomUp.Perm p.nodes ∧ calls.length = p.nodes.length) ∧
    ∃ calls outcome parts s', (e.mapChildrenM g).run.run s = (outcome, s') ∧
      Answers (fun q => (g q).run) s calls s' ∧ Reaches e.children calls parts ∧
      (∀ qs, parts = .ok qs → ∃ e', outcome = .ok e' ∧ e.SameNode e' ∧ e'.children = qs) ∧
      ∀ x, parts = .error x → outcome = .error x := by
  refine ⟨p.exists_answers_mapChildrenM f s, p.rebuild_id, ?_, ?_⟩
  · obtain ⟨calls, p', s', hrun, hcalls, hrebuilds⟩ := p.exists_rebuilds f s
    have hnodes := hrebuilds.forall₂_sameNode
    refine ⟨calls, p', s', hrun, hcalls, hrebuilds, hnodes, p.bottomUp_perm_nodes, ?_⟩
    rw [← p.bottomUp_perm_nodes.length_eq, hnodes.length_eq, List.length_map]
  · obtain ⟨calls, s', parts, hrun, hcalls, hreach⟩ := e.exists_reaches_mapChildrenM g s
    refine ⟨calls, _, parts, s', hrun, hcalls, hreach, ?_, ?_⟩
    · rintro qs rfl
      obtain ⟨hnode, hchildren⟩ := Expr.withChildren_spec hreach.length_eq
      exact ⟨_, rfl, hnode, hchildren⟩
    · rintro x rfl
      rfl

end QueryRelay
