import Mathlib.Data.List.Forall2

/-!
# Outcomes

When a computation that may fail gives a value, and when two such computations agree: they give the
same value, if any, and may fail for different reasons. Agreement is kept by sequencing and by
traversals.
-/

namespace QueryRelay.Outcome

variable {ε α β γ δ : Type}

/-- A sequence gives a value exactly when its first part gives one from which the second does. -/
theorem bind_eq_ok {x : Except ε α} {f : α → Except ε β} {b : β} :
    (x >>= f) = .ok b ↔ ∃ a, x = .ok a ∧ f a = .ok b := by
  cases x with
  | error e =>
    constructor
    · intro h
      cases h
    · rintro ⟨a, h, -⟩
      cases h
  | ok a =>
    constructor
    · intro h
      exact ⟨a, rfl, h⟩
    · rintro ⟨a', h, hf⟩
      cases h
      exact hf

/-- The image of an outcome under a total function. -/
theorem map_eq_ok {x : Except ε α} {f : α → β} {b : β} :
    x.map f = .ok b ↔ ∃ a, x = .ok a ∧ f a = b := by
  cases x with
  | error e => simp [Except.map]
  | ok a => simp [Except.map]

/-- Two images in a row are the image under the composition. -/
theorem map_map (x : Except ε α) (f : α → β) (g : β → γ) :
    (x.map f).map g = x.map fun a => g (f a) := by
  cases x <;> rfl

/-- The image under the identity is the outcome. -/
theorem map_id (x : Except ε α) : (x.map fun a => a) = x := by
  cases x <;> rfl

/-- A pure outcome gives its value. -/
theorem pure_eq_ok {a b : α} : (pure a : Except ε α) = .ok b ↔ a = b := by
  constructor
  · intro h
    exact Except.ok.inj h
  · intro h
    exact congrArg Except.ok h

/-- Some value comes out of a sequence exactly when one comes out of its first part from which one
comes out of the second. -/
theorem exists_bind_eq_ok {x : Except ε α} {f : α → Except ε β} :
    (∃ b, (x >>= f) = .ok b) ↔ ∃ a, x = .ok a ∧ ∃ b, f a = .ok b := by
  simp only [bind_eq_ok]
  constructor
  · rintro ⟨b, a, ha, hb⟩
    exact ⟨a, ha, b, hb⟩
  · rintro ⟨a, ha, b, hb⟩
    exact ⟨b, a, ha, hb⟩

/-- Some value is a pure outcome. -/
theorem exists_pure_eq_ok (a : α) : ∃ b, (pure a : Except ε α) = .ok b := ⟨a, rfl⟩

/-- A traversal gives the list of the values that its steps give. -/
theorem mapM_eq_ok {f : α → Except ε β} {xs : List α} {ys : List β} :
    xs.mapM f = .ok ys ↔ List.Forall₂ (fun x y => f x = .ok y) xs ys := by
  induction xs generalizing ys with
  | nil =>
    rw [List.mapM_nil, pure_eq_ok]
    constructor
    · rintro rfl
      exact .nil
    · intro h
      cases h
      rfl
  | cons x xs ih =>
    rw [List.mapM_cons, bind_eq_ok]
    constructor
    · rintro ⟨y, hy, h⟩
      obtain ⟨rest, hrest, hpure⟩ := bind_eq_ok.mp h
      rw [pure_eq_ok] at hpure
      subst hpure
      exact .cons hy (ih.mp hrest)
    · intro h
      cases h with
      | cons hy hrest => exact ⟨_, hy, bind_eq_ok.mpr ⟨_, ih.mpr hrest, rfl⟩⟩

/-- A traversal gives a list when each of its steps gives a value. -/
theorem exists_mapM_eq_ok {f : α → Except ε β} {xs : List α} (h : ∀ x ∈ xs, ∃ y, f x = .ok y) :
    ∃ ys, xs.mapM f = .ok ys := by
  induction xs with
  | nil => exact ⟨[], rfl⟩
  | cons x xs ih =>
    obtain ⟨⟨y, hy⟩, hrest⟩ := List.forall_mem_cons.mp h
    obtain ⟨ys, hys⟩ := ih hrest
    exact ⟨y :: ys, mapM_eq_ok.mpr (.cons hy (mapM_eq_ok.mp hys))⟩

/-- Traversals with equal steps are equal. -/
theorem mapM_congr {f g : α → Except ε β} {xs : List α} (h : ∀ x ∈ xs, f x = g x) :
    xs.mapM f = xs.mapM g := by
  induction xs with
  | nil => rfl
  | cons x xs ih =>
    rw [List.mapM_cons, List.mapM_cons, h x (List.mem_cons_self ..),
      ih fun y hy => h y (List.mem_cons_of_mem x hy)]

/-- A traversal whose steps are accounted for one by one is accounted for as a whole: `f` and `g`
read the input and the output of a step off its account. -/
theorem mapM_eq_ok_iff_exists {step : α → Except ε β} {f : γ → α} {g : γ → β} {Q : γ → Prop}
    (hstep : ∀ x y, step x = .ok y ↔ ∃ z, f z = x ∧ g z = y ∧ Q z) {xs : List α} {ys : List β} :
    xs.mapM step = .ok ys ↔ ∃ zs : List γ, zs.map f = xs ∧ zs.map g = ys ∧ ∀ z ∈ zs, Q z := by
  rw [mapM_eq_ok]
  constructor
  · intro h
    induction h with
    | nil => exact ⟨[], rfl, rfl, List.forall_mem_nil _⟩
    | cons hxy _ ih =>
      obtain ⟨z, rfl, rfl, hz⟩ := (hstep _ _).mp hxy
      obtain ⟨zs, rfl, rfl, hzs⟩ := ih
      exact ⟨z :: zs, rfl, rfl, List.forall_mem_cons.mpr ⟨hz, hzs⟩⟩
  · rintro ⟨zs, rfl, rfl, hzs⟩
    rw [List.forall₂_map_left_iff, List.forall₂_map_right_iff, List.forall₂_same]
    intro z hz
    exact (hstep _ _).mpr ⟨z, rfl, rfl, hzs z hz⟩

/-- A traversal pairs each element with the value that its step gives. -/
theorem mapM_eq_ok_iff_pairs {step : α → Except ε β} {xs : List α} {ys : List β} :
    xs.mapM step = .ok ys ↔ ∃ zs : List (α × β), zs.map Prod.fst = xs ∧ zs.map Prod.snd = ys ∧
      ∀ z ∈ zs, step z.1 = .ok z.2 := by
  refine mapM_eq_ok_iff_exists fun x y => ?_
  constructor
  · intro h
    exact ⟨(x, y), rfl, rfl, h⟩
  · rintro ⟨z, rfl, rfl, h⟩
    exact h

/-- A traversal of named elements pairs each of them with the value that its step gives. -/
theorem mapM_named_eq_ok_iff {name : Type} {step : α → Except ε β} {xs : List (name × α)}
    {ys : List (name × β)} :
    (xs.mapM fun x => return (x.1, ← step x.2)) = .ok ys ↔
      ∃ zs : List (name × α × β), zs.map (fun z => (z.1, z.2.1)) = xs ∧
        zs.map (fun z => (z.1, z.2.2)) = ys ∧ ∀ z ∈ zs, step z.2.1 = .ok z.2.2 := by
  refine mapM_eq_ok_iff_exists fun x y => ?_
  constructor
  · intro h
    obtain ⟨v, hv, h⟩ := bind_eq_ok.mp h
    cases h
    exact ⟨(x.1, x.2, v), rfl, rfl, hv⟩
  · rintro ⟨z, rfl, rfl, h⟩
    exact bind_eq_ok.mpr ⟨z.2.2, h, rfl⟩

/-- Two outcomes that give the same value, if any. -/
def Agree (x y : Except ε α) : Prop := ∀ v, x = .ok v ↔ y = .ok v

/-- Every outcome agrees with itself. -/
@[refl] theorem Agree.refl (x : Except ε α) : Agree x x := fun _ => Iff.rfl

/-- Agreement goes both ways. -/
theorem Agree.symm {x y : Except ε α} (h : Agree x y) : Agree y x := fun v => (h v).symm

/-- Agreement passes through a third outcome. -/
theorem Agree.trans {x y z : Except ε α} (h : Agree x y) (h' : Agree y z) : Agree x z :=
  fun v => (h v).trans (h' v)

/-- All faults agree. -/
theorem Agree.faults (e e' : ε) : Agree (.error e : Except ε α) (.error e') := by
  intro v
  constructor <;> intro h <;> cases h

/-- Sequences agree when their first parts do and their second parts do on every value. -/
theorem Agree.bind {x y : Except ε α} {f g : α → Except ε β} (h : Agree x y)
    (hf : ∀ a, Agree (f a) (g a)) : Agree (x >>= f) (y >>= g) := by
  intro v
  rw [bind_eq_ok, bind_eq_ok]
  constructor
  · rintro ⟨a, ha, hv⟩
    exact ⟨a, (h a).mp ha, (hf a v).mp hv⟩
  · rintro ⟨a, ha, hv⟩
    exact ⟨a, (h a).mpr ha, (hf a v).mpr hv⟩

/-- Images of agreeing outcomes agree. -/
theorem Agree.map {x y : Except ε α} (h : Agree x y) (f : α → β) : Agree (x.map f) (y.map f) := by
  intro v
  rw [map_eq_ok, map_eq_ok]
  constructor
  · rintro ⟨a, ha, hv⟩
    exact ⟨a, (h a).mp ha, hv⟩
  · rintro ⟨a, ha, hv⟩
    exact ⟨a, (h a).mpr ha, hv⟩

/-- Traversals agree when their steps do. -/
theorem Agree.mapM {f : α → Except ε γ} {g : β → Except ε γ} {xs : List α} {ys : List β}
    (h : List.Forall₂ (fun x y => Agree (f x) (g y)) xs ys) : Agree (xs.mapM f) (ys.mapM g) := by
  induction h with
  | nil => exact .refl _
  | cons hhead _ ih =>
    rw [List.mapM_cons, List.mapM_cons]
    exact hhead.bind fun a => ih.bind fun rest => .refl _

/-- Traversals of one list agree when their steps do. -/
theorem Agree.mapM_same {f g : α → Except ε β} (h : ∀ a, Agree (f a) (g a)) (xs : List α) :
    Agree (xs.mapM f) (xs.mapM g) :=
  .mapM (List.forall₂_same.mpr fun x _ => h x)

end QueryRelay.Outcome
