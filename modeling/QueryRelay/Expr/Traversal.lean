import QueryRelay.Expr.Basic

/-!
# Walking expressions

`Expr.replaceM` walks an expression from the root: where an action is picked for a node its result
stands for the whole sub-expression, and every other node is rebuilt from its sub-expressions in
order.
-/

namespace QueryRelay.Expr

variable {m : Type → Type} [Monad m]

mutual

/-- Replace the sub-expressions nearest to the root for which an action is picked. -/
def replaceM (pick : Expr → Option (m Expr)) (e : Expr) : m Expr :=
  match pick e with
  | some action => action
  | none =>
    match e with
    | .constant v t => return .constant v t
    | .captured n t v => return .captured n t v
    | .source t => return .source t
    | .parameter n t => return .parameter n t
    | .member target name => return .member (← replaceM pick target) name
    | .unary op operand => return .unary op (← replaceM pick operand)
    | .binary op l r => return .binary op (← replaceM pick l) (← replaceM pick r)
    | .conditional c p q =>
      return .conditional (← replaceM pick c) (← replaceM pick p) (← replaceM pick q)
    | .lambda params body => return .lambda params (← replaceM pick body)
    | .query verb args => return .query verb (← replaceAllM pick args)
    | .call f args => return .call f (← replaceAllM pick args)
    | .object members => return .object (← replaceMembersM pick members)
    | .array t items => return .array t (← replaceAllM pick items)
    | .list t items => return .list t (← replaceAllM pick items)
    | .construct t bindings => return .construct t (← replaceMembersM pick bindings)
termination_by structural e

/-- Replace in several expressions from left to right. -/
def replaceAllM (pick : Expr → Option (m Expr)) (es : List Expr) : m (List Expr) :=
  match es with
  | [] => return []
  | e :: rest => return (← replaceM pick e) :: (← replaceAllM pick rest)
termination_by structural es

/-- Replace in named expressions in order. -/
def replaceMembersM (pick : Expr → Option (m Expr)) (bs : List (String × Expr)) :
    m (List (String × Expr)) :=
  match bs with
  | [] => return []
  | (name, e) :: rest => return (name, ← replaceM pick e) :: (← replaceMembersM pick rest)
termination_by structural bs

end

end QueryRelay.Expr
