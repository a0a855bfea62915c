import QueryRelay.Expr.Basic

/-!
# Navigation paths

A navigation is a lambda that walks from its parameter through members, where `Select` and
`SelectMany` continue a walk with a navigation of the elements. Its path names the members in the
order of the walk, joined by dots.
-/

namespace QueryRelay.Expr

/-- Whether an operator continues a walk with its elements. -/
def continuesWalk : QueryVerb → Bool
  | .select | .selectMany => true
  | _ => false

mutual

/-- The members that an expression walks through from a parameter. -/
def walk? (param : String) : Expr → Option (List String)
  | .parameter name _ => if name = param then some [] else none
  | .member target name => (walk? param target).map fun names => names ++ [name]
  | .query verb [start, next] =>
    if continuesWalk verb then do return (← walk? param start) ++ (← navigation? next) else none
  | _ => none
termination_by structural e => e

/-- The members that a navigation names, at least one. -/
def navigation? : Expr → Option (List String)
  | .lambda [(param, _)] body =>
    match walk? param body with
    | some (name :: names) => some (name :: names)
    | _ => none
  | _ => none
termination_by structural e => e

end

/-- The path of a navigation. -/
def navigationPath (e : Expr) : Except Error String :=
  match navigation? e with
  | some names => .ok (".".intercalate names)
  | none => .error (.unsupported (.notNavigation e.render))

end QueryRelay.Expr
