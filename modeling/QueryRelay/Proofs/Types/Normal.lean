import QueryRelay.Catalog.Basic

/-!
# Normal types

A descriptor marks null at most once, so a type that marks it twice in a row cannot be told from one
that marks it once. `Ty.normal` keeps one mark; a type and its normal form have one descriptor.
-/

namespace QueryRelay

namespace Ty

/-- Induction over types, with one hypothesis for each direct part. -/
@[induction_eliminator]
theorem induct {motive : Ty → Prop} (unit : motive .unit) (bool : motive .bool) (int : motive .int)
    (float : motive .float) (text : motive .text) (timestamp : motive .timestamp)
    (record : ∀ name, motive (.record name)) (enum : ∀ name, motive (.enum name))
    (seq : ∀ e, motive e → motive (.seq e))
    (option : ∀ inner, motive inner → motive (.option inner))
    (group : ∀ k e, motive k → motive e → motive (.group k e))
    (anonymous : ∀ members, (∀ m ∈ members, motive m.2) → motive (.anonymous members))
    (dynamic : motive .dynamic) (infer : motive .infer) (t : Ty) : motive t := by
  refine @Ty.rec motive (fun ms => ∀ m ∈ ms, motive m.2) (fun m => motive m.2) unit bool int float
    text timestamp record enum seq option group anonymous dynamic infer ?_ ?_ (fun _ _ h => h) t
  · intro m hm
    cases hm
  · intro head tail hhead htail m hm
    rcases List.mem_cons.mp hm with rfl | hm
    · exact hhead
    · exact htail m hm

mutual

/-- The type with one mark for null where there are several in a row. -/
def normal : Ty → Ty
  | .seq e => .seq (normal e)
  | .option inner => (normal inner).optional
  | .group k e => .group (normal k) (normal e)
  | .anonymous members => .anonymous (normalMembers members)
  | t => t
termination_by structural t => t

/-- The members with normal types. -/
def normalMembers : List (String × Ty) → List (String × Ty)
  | [] => []
  | (name, t) :: rest => (name, normal t) :: normalMembers rest
termination_by structural ms => ms

end

/-- Members are normalized one by one. -/
theorem normalMembers_eq_map (ms : List (String × Ty)) :
    normalMembers ms = ms.map fun m => (m.1, m.2.normal) := by
  induction ms with
  | nil => rfl
  | cons m rest ih =>
    obtain ⟨name, t⟩ := m
    rw [normalMembers, ih, List.map_cons]

/-- Members are described one by one. -/
theorem describeMembers_eq_map (ms : List (String × Ty)) :
    describeMembers ms = ms.map fun m => (m.1, m.2.describe) := by
  induction ms with
  | nil => rfl
  | cons m rest ih =>
    obtain ⟨name, t⟩ := m
    rw [describeMembers, ih, List.map_cons]

/-- Members are concrete when each type is. -/
theorem membersConcrete_iff (ms : List (String × Ty)) :
    membersConcrete ms = true ↔ ∀ m ∈ ms, m.2.isConcrete = true := by
  induction ms with
  | nil => simp [membersConcrete]
  | cons m rest ih =>
    obtain ⟨name, t⟩ := m
    simp [membersConcrete, ih]

/-- A type with a mark for null is described with the mark. -/
theorem describe_optional (t : Ty) : t.optional.describe = t.describe.nullable := by
  cases t <;> rfl

/-- A type and its normal form have one descriptor. -/
theorem describe_normal (t : Ty) : t.normal.describe = t.describe := by
  induction t with
  | seq e ih => rw [normal, describe, describe, ih]
  | option inner ih => rw [normal, describe_optional, ih, describe]
  | group k e ihk ihe => rw [normal, describe, describe, ihk, ihe]
  | anonymous members ih =>
    rw [normal, describe, describe, normalMembers_eq_map, describeMembers_eq_map,
      describeMembers_eq_map, List.map_map]
    congr 1
    apply List.map_congr_left
    intro m hm
    exact congrArg (Prod.mk m.1) (ih m hm)
  | unit | bool | int | float | text | timestamp | dynamic | infer => rfl
  | record name => rfl
  | enum name => rfl

/-- A type that marks null at most once in a row, in all its parts. -/
def IsNormal (t : Ty) : Prop := t.normal = t

/-- The optional form of an optional form is the same. -/
theorem optional_optional (t : Ty) : t.optional.optional = t.optional := by
  cases t <;> rfl

/-- A type is optional in its normal form when it is optional. -/
theorem optional_normal (t : Ty) : t.optional.normal = t.normal.optional := by
  cases t with
  | option inner => rw [optional, normal, optional_optional]
  | _ => rfl

end Ty
end QueryRelay
