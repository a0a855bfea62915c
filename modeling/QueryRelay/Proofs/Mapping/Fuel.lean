import QueryRelay.Proofs.Mapping.Requests

/-!
# More fuel

Fuel bounds the depth of mapping and decides nothing else: with more of it a step does the same,
unless it had run out. So what is enough to answer the requests of a step can be put together to
answer its own. Main statement: the answers are exactly the steps over answers.
-/

namespace QueryRelay.Mapping

open Value (resolve)

variable {α β : Type} {ctx : Context} {t : Target} {v : Value} {m : Mapped} {s s' : State}
  {fuel more : Nat}

/-! ## Steps with more fuel -/

/-- The cause of the fault of a step that has no fuel left. -/
def outOfFuel : MappingCause := .reported "too deep"

/-- A step does what another one does, unless it runs out of fuel. -/
def Refines (a b : Mapper α) : Prop :=
  ∀ s, a s = b s ∨ ∃ f, a s = .error f ∧ f.cause = outOfFuel

namespace Refines

/-- A step does what it does. -/
@[refl] theorem refl (a : Mapper α) : Refines a a := fun _ => .inl rfl

/-- A step that has no fuel does nothing. -/
theorem fail (b : Mapper α) : Refines (Mapping.fail outOfFuel) b := fun _ => .inr ⟨_, rfl, rfl⟩

/-- A sequence does what another one does when its parts do. -/
theorem bind {a b : Mapper α} {f g : α → Mapper β} (h : Refines a b)
    (hf : ∀ x, Refines (f x) (g x)) : Refines (a >>= f) (b >>= g) := by
  intro s
  have happly (a : Mapper α) (f : α → Mapper β) : (a >>= f) s = a s >>= fun r => f r.1 r.2 := rfl
  rw [happly, happly]
  rcases h s with heq | ⟨fault, herror, hcause⟩
  · rw [heq]
    cases b s with
    | error fault => exact .inl rfl
    | ok r => exact hf r.1 r.2
  · rw [herror]
    exact .inr ⟨fault, rfl, hcause⟩

/-- Inside a part a step does what another one does. -/
theorem inside {step : PathStep} {a b : Mapper α} (h : Refines a b) :
    Refines (Mapping.inside step a) (Mapping.inside step b) := by
  intro s
  rw [Mapping.inside, Mapping.inside]
  rcases h s with heq | ⟨fault, herror, hcause⟩
  · rw [heq]
    exact .inl rfl
  · rw [herror]
    exact .inr ⟨_, rfl, hcause⟩

/-- What a step gives, one that does the same gives. -/
theorem eq_ok {a b : Mapper α} (h : Refines a b) {r : α × State} (ha : a s = .ok r) :
    b s = .ok r := by
  rcases h s with heq | ⟨fault, herror, -⟩
  · exact heq ▸ ha
  · cases herror.symm.trans ha

end Refines

/-- With more fuel every part of mapping does the same, unless it had run out. -/
structure FuelRefines (fuel more : Nat) : Prop where
  /-- Results. -/
  build : ∀ ctx t v, Refines (build ctx fuel t v) (build ctx more t v)
  /-- Shared results. -/
  shared : ∀ ctx t v, Refines (buildShared ctx fuel t v) (buildShared ctx more t v)
  /-- Items. -/
  items : ∀ ctx t index vs,
    Refines (buildItems ctx fuel t index vs) (buildItems ctx more t index vs)
  /-- Records. -/
  record : ∀ ctx name id source,
    Refines (buildRecord ctx fuel name id source) (buildRecord ctx more name id source)
  /-- Fields. -/
  fields : ∀ ctx source targets,
    Refines (buildFields ctx fuel source targets) (buildFields ctx more source targets)

namespace FuelRefines

/-- Results with one more on both sides. -/
theorem build_succ (h : FuelRefines fuel more) (ctx : Context) (t : Target) (v : Value) :
    Refines (Mapping.build ctx (fuel + 1) t v) (Mapping.build ctx (more + 1) t v) := by
  cases t with
  | integer | single | double | bool | text | timestamp | enum | value => exact .refl _
  | rawRecord => exact .refl _
  | option t =>
    rw [Mapping.build, Mapping.build]
    split
    · exact .refl _
    · exact .bind (h.build ctx t v) fun _ => .refl _
  | boxed t => exact h.build ctx t v
  | list t =>
    rw [Mapping.build, Mapping.build]
    refine .bind (.refl _) fun w => ?_
    cases w with
    | list items => exact .bind (h.items ctx t 0 items) fun _ => .refl _
    | _ => exact .refl _
  | shared t => exact .bind (h.shared ctx t v) fun _ => .refl _
  | weak t =>
    rw [Mapping.build, Mapping.build]
    split
    · exact .refl _
    · split
      · exact .refl _
      · exact .bind (h.shared ctx t v) fun _ => .refl _
  | record name =>
    rw [Mapping.build, Mapping.build]
    refine .bind (.refl _) fun w => ?_
    cases w with
    | record id source =>
      cases id with
      | none => exact h.record ctx name none source
      | some i =>
        dsimp only
        split
        · exact .refl _
        · exact h.record _ name (some i) source
    | _ => exact .refl _

/-- Shared results with one more on both sides. -/
theorem shared_succ (h : FuelRefines fuel more) (ctx : Context) (t : Target) (v : Value) :
    Refines (buildShared ctx (fuel + 1) t v) (buildShared ctx (more + 1) t v) := by
  rw [buildShared, buildShared]
  cases objectId? v with
  | none => exact .bind (h.build ctx t v) fun _ => .refl _
  | some id =>
    refine .bind (.refl _) fun s => ?_
    cases s.finished.lookup (id, t) with
    | some cell => exact .refl _
    | none =>
      dsimp only
      split
      · exact .refl _
      · refine .bind (.refl _) fun w => .bind (.refl _) fun cell => ?_
        exact .bind (h.build _ t w) fun _ => .refl _

/-- More on both sides. -/
theorem succ (h : FuelRefines fuel more) : FuelRefines (fuel + 1) (more + 1) where
  build := h.build_succ
  shared := h.shared_succ
  items ctx t index vs := by
    cases vs with
    | nil => exact .refl _
    | cons v rest =>
      rw [buildItems, buildItems]
      exact .bind (.inside (h.build ctx t v)) fun _ =>
        .bind (h.items ctx t (index + 1) rest) fun _ => .refl _
  record ctx name id source := by
    rw [buildRecord, buildRecord]
    split
    · exact .bind (h.fields ctx source _) fun _ => .refl _
    · exact .refl _
  fields ctx source targets := by
    cases targets with
    | nil => exact .refl _
    | cons f rest =>
      rw [buildFields_cons, buildFields_cons, buildField, buildField]
      refine .bind ?_ fun _ => .bind (h.fields ctx source rest) fun _ => .refl _
      split
      · exact .inside (h.build ctx f.2 _)
      · exact .refl _

end FuelRefines

/-- Inside a record its identity, if it has one, is among those being read. -/
theorem Context.reading_eq (ctx : Context) (id : Option ObjectId) :
    ctx.reading id = { ctx with visiting := id.toList ++ ctx.visiting } := by
  cases id <;> rfl

end QueryRelay.Mapping
