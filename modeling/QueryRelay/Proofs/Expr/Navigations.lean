import QueryRelay.Expr.Navigation
import QueryRelay.Proofs.Expr.Parts

/-!
# The grammar of navigations

A walk from a parameter is the parameter itself, a member of a walk, or `Select` or `SelectMany`
over a walk with a navigation; a navigation is a lambda of one parameter over a walk from it through
at least one member. Main statement: `Expr.navigation?` recognizes exactly these, and reads off the
members in the order of the walk.
-/

namespace QueryRelay.Expr

mutual

/-- Expressions that walk from a parameter through members. -/
inductive Walks : String → Expr → List String → Prop
  /-- A walk starts at the parameter. -/
  | start (param : String) (t : Ty) : Walks param (.parameter param t) []
  /-- It goes on through a member. -/
  | member {param : String} {e : Expr} {names : List String} (name : String)
      (h : Walks param e names) : Walks param (.member e name) (names ++ [name])
  /-- It goes on through the members of the elements. -/
  | elements {param : String} {verb : QueryVerb} {e next : Expr} {names names' : List String}
      (hverb : verb = .select ∨ verb = .selectMany) (h : Walks param e names)
      (hnext : Navigates next names') : Walks param (.query verb [e, next]) (names ++ names')

/-- Navigations with their members. -/
inductive Navigates : Expr → List String → Prop
  /-- A lambda of one parameter walks from it, through one member at least. -/
  | lambda {param : String} {t : Ty} {body : Expr} {names : List String}
      (h : Walks param body names) (hnames : names ≠ []) :
      Navigates (.lambda [(param, t)] body) names

end

/-- `Select` and `SelectMany` continue a walk. -/
theorem continuesWalk_iff {verb : QueryVerb} :
    continuesWalk verb = true ↔ verb = .select ∨ verb = .selectMany := by
  cases verb <;> simp [continuesWalk]

/-- A walk goes on through the elements when its source is a walk and a navigation follows. -/
theorem walk?_query_eq_some {param : String} {verb : QueryVerb} {e next : Expr}
    {names : List String} :
    walk? param (.query verb [e, next]) = some names ↔ (verb = .select ∨ verb = .selectMany) ∧
      ∃ before after, walk? param e = some before ∧ navigation? next = some after ∧
        before ++ after = names := by
  rw [walk?, ← continuesWalk_iff]
  cases continuesWalk verb with
  | false => simp
  | true => simp [Option.bind_eq_some_iff]

/-- A lambda of one parameter is a navigation when its body walks through one member at least. -/
theorem navigation?_lambda_eq_some {param : String} {t : Ty} {body : Expr} {names : List String} :
    navigation? (.lambda [(param, t)] body) = some names ↔
      walk? param body = some names ∧ names ≠ [] := by
  rw [navigation?]
  rcases walk? param body with _ | ⟨_ | ⟨name, rest⟩⟩
  · simp
  · simp [eq_comm]
  · simp only [Option.some.injEq]
    constructor
    · rintro rfl
      exact ⟨rfl, List.cons_ne_nil _ _⟩
    · exact And.left

/-- Exactly the walks are recognized as such, and exactly the navigations. -/
theorem recognizes_iff (e : Expr) :
    (∀ param names, walk? param e = some names ↔ Walks param e names) ∧
      ∀ names, navigation? e = some names ↔ Navigates e names := by
  induction e with
  | parameter name t =>
    refine ⟨fun param names => ⟨fun h => ?_, fun h => ?_⟩, fun _ => ⟨nofun, nofun⟩⟩
    · rw [walk?, Option.ite_none_right_eq_some] at h
      obtain ⟨rfl, h⟩ := h
      cases h
      exact .start name t
    · cases h with
      | start => exact if_pos rfl
  | member target name ih =>
    refine ⟨fun param names => ⟨fun h => ?_, fun h => ?_⟩, fun _ => ⟨nofun, nofun⟩⟩
    · obtain ⟨before, hbefore, rfl⟩ := Option.map_eq_some_iff.mp h
      exact .member name ((ih.1 param before).mp hbefore)
    · cases h with
      | member _ h => exact Option.map_eq_some_iff.mpr ⟨_, (ih.1 param _).mpr h, rfl⟩
  | query verb args ih =>
    refine ⟨fun param names => ⟨fun h => ?_, fun h => ?_⟩, fun _ => ⟨nofun, nofun⟩⟩
    · rcases args with _ | ⟨e, _ | ⟨next, _ | ⟨_, _⟩⟩⟩
      · cases h
      · cases h
      · obtain ⟨hverb, before, after, hbefore, hafter, rfl⟩ := walk?_query_eq_some.mp h
        exact .elements hverb (((ih e (by simp)).1 param before).mp hbefore)
          (((ih next (by simp)).2 after).mp hafter)
      · cases h
    · cases h with
      | @elements _ _ e next _ _ hverb h hnext =>
        refine walk?_query_eq_some.mpr ⟨hverb, _, _, ?_, ?_, rfl⟩
        · exact ((ih e (by simp)).1 param _).mpr h
        · exact ((ih next (by simp)).2 _).mpr hnext
  | lambda params body ih =>
    refine ⟨fun _ _ => ⟨nofun, nofun⟩, fun names => ⟨fun h => ?_, fun h => ?_⟩⟩
    · rcases params with _ | ⟨⟨param, t⟩, _ | ⟨_, _⟩⟩
      · cases h
      · obtain ⟨hwalk, hnames⟩ := navigation?_lambda_eq_some.mp h
        exact .lambda ((ih.1 param names).mp hwalk) hnames
      · cases h
    · cases h with
      | lambda h hnames => exact navigation?_lambda_eq_some.mpr ⟨(ih.1 _ names).mpr h, hnames⟩
  | _ => exact ⟨fun _ _ => ⟨nofun, nofun⟩, fun _ => ⟨nofun, nofun⟩⟩

/-- Exactly the navigations are recognized, with their members. -/
theorem navigation?_eq_some {e : Expr} {names : List String} :
    navigation? e = some names ↔ Navigates e names :=
  (recognizes_iff e).2 names

/-- The path of a navigation is that of its members. -/
theorem navigationPath_eq_ok {e : Expr} {path : String} :
    e.navigationPath = .ok path ↔ ∃ names, Navigates e names ∧ path = ".".intercalate names := by
  simp only [← navigation?_eq_some]
  rw [navigationPath]
  cases navigation? e with
  | none => simp
  | some names => simp [eq_comm]

end QueryRelay.Expr
