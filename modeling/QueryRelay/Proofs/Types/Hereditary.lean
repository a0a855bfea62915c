import QueryRelay.Expr.Typing
import QueryRelay.Proofs.Catalog.Resolution
import QueryRelay.Proofs.Fields

/-!
# Hereditary conditions on types

Some conditions hold of a type when they hold of its parts: that a catalog knows every name in it,
or that it marks null at most once in a row. Such a condition passes from the types of operands to
the type of the result, for members, operators, conditionals and aggregates alike.
-/

namespace QueryRelay

/-- The value of an association stands in the list under some key. -/
theorem exists_mem_of_lookup_eq_some {κ α : Type} [BEq κ] {table : List (κ × α)} {key : κ}
    {value : α} (h : table.lookup key = some value) : value ∈ table.map Prod.snd := by
  induction table with
  | nil => cases h
  | cons entry rest ih =>
    obtain ⟨k, v⟩ := entry
    rw [List.lookup_cons] at h
    cases hk : key == k with
    | true =>
      rw [hk] at h
      cases h
      exact List.mem_cons_self ..
    | false =>
      rw [hk] at h
      exact List.mem_cons_of_mem _ (ih h)

namespace Ty

/-- A condition on types that holds of the built-in types, and of a compound type when it holds of
the parts. -/
structure Hereditary (P : Ty → Prop) : Prop where
  /-- It holds of truth values. -/
  bool : P .bool
  /-- It holds of integers. -/
  int : P .int
  /-- It holds of floating-point numbers. -/
  float : P .float
  /-- It holds of texts. -/
  text : P .text
  /-- It holds of untyped data. -/
  dynamic : P .dynamic
  /-- A sequence is as its elements are. -/
  seq : ∀ {e}, P (.seq e) ↔ P e
  /-- A group is as its key and its elements are. -/
  group : ∀ {k e}, P (.group k e) ↔ P k ∧ P e
  /-- A projection is as its members are. -/
  anonymous : ∀ {ms}, P (.anonymous ms) ↔ ∀ m ∈ ms, P m.2
  /-- It passes to the type without the mark for null. -/
  inner : ∀ {t}, P (.option t) → P t
  /-- It passes to the type with one mark for null. -/
  optional : ∀ {t}, P t → P t.optional

namespace Hereditary

variable {P : Ty → Prop}

/-- The condition passes through one mark for null. -/
theorem unwrapped (hP : Hereditary P) {t : Ty} (h : P t) : P t.unwrapped := by
  cases t with
  | option t => exact hP.inner h
  | _ => exact h

/-- The condition passes to elements. -/
theorem element? (hP : Hereditary P) {t e : Ty} (h : P t) (he : t.element? = some e) : P e := by
  induction t with
  | seq t =>
    cases he
    exact hP.seq.mp h
  | group k t =>
    cases he
    exact (hP.group.mp h).2
  | option inner ih => exact ih (hP.inner h) he
  | dynamic =>
    cases he
    exact hP.dynamic
  | _ => cases he

/-- The condition passes to members, when the fields of the records of the catalog fulfil it. -/
theorem memberType? (hP : Hereditary P) {c : Catalog}
    (hfields : ∀ r ∈ c.records, ∀ field ∈ r.fields, P field.2) {t u : Ty} {name : String}
    (h : P t) (hu : c.memberType? t name = some u) : P u := by
  induction t generalizing u with
  | record n =>
    rw [Catalog.memberType?, Option.bind_eq_some_iff] at hu
    obtain ⟨r, hr, hfield⟩ := hu
    exact hfields r (exists_mem_of_lookup_eq_some hr) _ (Fields.mem_of_get?_eq_some hfield)
  | anonymous ms =>
    rw [Catalog.memberType?] at hu
    exact hP.anonymous.mp h _ (Fields.mem_of_get?_eq_some hu)
  | group k e =>
    rw [Catalog.memberType?] at hu
    split at hu
    · cases hu
      exact (hP.group.mp h).1
    · split at hu
      · cases hu
        exact hP.int
      · cases hu
  | seq e | text | timestamp =>
    rw [Catalog.memberType?] at hu
    split at hu
    · cases hu
      exact hP.int
    · cases hu
  | option inner ih =>
    rw [Catalog.memberType?, Option.map_eq_some_iff] at hu
    obtain ⟨u', hu', rfl⟩ := hu
    exact hP.optional (ih (hP.inner h) hu')
  | dynamic =>
    cases hu
    exact hP.dynamic
  | _ => cases hu

/-- The condition passes to the type of a member. -/
theorem typeOfMember (hP : Hereditary P) {c : Catalog}
    (hfields : ∀ r ∈ c.records, ∀ field ∈ r.fields, P field.2) {t u : Ty} {name : String}
    (h : P t) (hu : c.typeOfMember t name = .ok u) : P u := by
  rw [Catalog.typeOfMember] at hu
  cases hfound : c.memberType? t name with
  | none =>
    rw [hfound] at hu
    cases hu
  | some u' =>
    rw [hfound] at hu
    cases hu
    exact hP.memberType? hfields h hfound

/-- The condition passes through an operator on one operand. -/
theorem unary (hP : Hereditary P) {op : UnaryOp} {t u : Ty} (h : P t)
    (hu : op.resultType t = .ok u) : P u := by
  cases op with
  | not =>
    cases hu
    exact hP.bool
  | negate =>
    rw [UnaryOp.resultType] at hu
    split at hu
    · cases hu
      exact h
    · cases hu

/-- Arithmetic has a number or untyped data as its result. -/
theorem arithmetic? (hP : Hereditary P) {l r t : Ty} (ht : l.arithmetic? r = some t) : P t := by
  unfold Ty.arithmetic? at ht
  split at ht <;> cases ht
  · exact hP.dynamic
  · exact hP.dynamic
  · exact hP.int
  · exact hP.float
  · exact hP.float
  · exact hP.float

/-- The condition passes through an operator on two operands. -/
theorem binary (hP : Hereditary P) {op : BinaryOp} {l r u : Ty} (hl : P l) (hr : P r)
    (hu : op.resultType l r = .ok u) : P u := by
  rw [BinaryOp.resultType] at hu
  split at hu
  · cases hu
    exact hP.bool
  · split at hu
    · cases hu
      split
      · exact hr
      · exact hl
    · split at hu
      · cases hu
        exact hP.text
      · split at hu
        · rename_i t ht
          cases hu
          split
          · exact hP.optional (hP.arithmetic? ht)
          · exact hP.arithmetic? ht
        · cases hu

/-- The condition passes to the common type of two branches. -/
theorem unify (hP : Hereditary P) {l r u : Ty} (hl : P l) (hr : P r)
    (hu : Ty.unify l r = .ok u) : P u := by
  rw [Ty.unify] at hu
  split at hu
  · cases hu
    exact hl
  · split at hu
    · cases hu
      exact hP.optional hr
    · split at hu
      · cases hu
        exact hP.optional hl
      · split at hu
        · cases hu
          exact hP.optional hr
        · split at hu
          · cases hu
            exact hP.optional hl
          · split at hu
            · cases hu
              exact hP.dynamic
            · cases hu

/-- The condition passes through an aggregate with a predicate. -/
theorem predicateResult (hP : Hereditary P) {func : Aggregate} {t : Ty} (h : P t) :
    P (func.predicateResult t) := by
  cases func with
  | count => exact hP.int
  | any | all => exact hP.bool
  | firstOrDefault | singleOrDefault => exact hP.optional h
  | _ => exact h

/-- The condition passes through an aggregate with a selector. -/
theorem selectorResult (hP : Hereditary P) {func : Aggregate} {t u : Ty} (h : P t)
    (hu : func.selectorResult t = .ok u) : P u := by
  cases func with
  | min | max =>
    cases hu
    exact h
  | sum =>
    rw [Aggregate.selectorResult] at hu
    split at hu
    · cases hu
      exact hP.unwrapped h
    · cases hu
  | average =>
    rw [Aggregate.selectorResult] at hu
    split at hu
    · cases hu
      exact hP.float
    · cases hu
  | _ => cases hu

end Hereditary

/-- That a catalog knows every name in a type is hereditary. -/
theorem known_hereditary (c : Catalog) : Hereditary (Known c) where
  bool := trivial
  int := trivial
  float := trivial
  text := trivial
  dynamic := trivial
  seq := Iff.rfl
  group := Iff.rfl
  anonymous := membersKnown_iff
  inner := id
  optional := by
    intro t h
    cases t <;> exact h

/-- A normal type never marks null twice in a row. -/
theorem normal_ne_option_option (t u : Ty) : t.normal ≠ .option (.option u) := by
  induction t with
  | option inner ih =>
    intro h
    rw [normal] at h
    cases hn : inner.normal with
    | option w =>
      rw [hn] at h ih
      exact ih h
    | _ =>
      rw [hn] at h
      cases h
  | _ =>
    intro h
    cases h

/-- Marking null at most once in a row is hereditary. -/
theorem isNormal_hereditary : Hereditary IsNormal where
  bool := rfl
  int := rfl
  float := rfl
  text := rfl
  dynamic := rfl
  seq := by
    intro e
    rw [IsNormal, normal, seq.injEq, IsNormal]
  group := by
    intro k e
    rw [IsNormal, normal, group.injEq, IsNormal, IsNormal]
  anonymous := by
    intro ms
    rw [IsNormal, normal, anonymous.injEq, normalMembers_eq_map]
    constructor
    · intro h m hm
      have hmap : ms.map (fun m => (m.1, m.2.normal)) = ms.map id := by rw [h, List.map_id]
      exact congrArg Prod.snd (List.map_inj_left.mp hmap m hm)
    · intro h
      have hmap : ms.map (fun m => (m.1, m.2.normal)) = ms.map id :=
        List.map_inj_left.mpr fun m hm => Prod.ext rfl (h m hm)
      rw [hmap, List.map_id]
  inner := by
    intro t h
    cases t with
    | option w => exact absurd h (normal_ne_option_option _ w)
    | _ => exact (option.injEq ..).mp h
  optional := by
    intro t h
    rw [IsNormal, optional_normal, h]

end Ty
end QueryRelay
