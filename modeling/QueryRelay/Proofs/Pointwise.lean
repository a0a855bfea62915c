import Mathlib.Data.List.Forall2

/-!
# Lists place by place

Two lists whose elements are related place by place, as lists of pairs, at one place, and in parts.
-/

namespace QueryRelay

variable {α β γ : Type} {R : α → β → Prop}

/-- Lists related place by place are the two sides of a list of related pairs. -/
theorem exists_pairs_of_forall₂ {as : List α} {bs : List β} (h : List.Forall₂ R as bs) :
    ∃ pairs : List (α × β), pairs.map Prod.fst = as ∧ pairs.map Prod.snd = bs ∧
      ∀ p ∈ pairs, R p.1 p.2 := by
  induction h with
  | nil => exact ⟨[], rfl, rfl, List.forall_mem_nil _⟩
  | @cons a b _ _ hab _ ih =>
    obtain ⟨pairs, rfl, rfl, hpairs⟩ := ih
    exact ⟨(a, b) :: pairs, rfl, rfl, List.forall_mem_cons.mpr ⟨hab, hpairs⟩⟩

/-- What stands in one of two lists related place by place is related to something in the other. -/
theorem exists_mem_of_forall₂ {as : List α} {bs : List β} {a : α} (h : List.Forall₂ R as bs)
    (ha : a ∈ as) : ∃ b ∈ bs, R a b := by
  obtain ⟨pairs, rfl, rfl, hpairs⟩ := exists_pairs_of_forall₂ h
  obtain ⟨p, hp, rfl⟩ := List.mem_map.mp ha
  exact ⟨p.2, List.mem_map_of_mem hp, hpairs p hp⟩

/-- What stands in the second of two lists related place by place is related to something in the
first. -/
theorem exists_of_forall₂_of_mem {as : List α} {bs : List β} {b : β} (h : List.Forall₂ R as bs)
    (hb : b ∈ bs) : ∃ a ∈ as, R a b :=
  exists_mem_of_forall₂ h.flip hb

/-- Named things related place by place, under the same names, are the two sides of a list of named
pairs. -/
theorem exists_named_pairs_of_forall₂ {as : List (γ × α)} {bs : List (γ × β)}
    (hnames : bs.map Prod.fst = as.map Prod.fst)
    (h : List.Forall₂ R (as.map Prod.snd) (bs.map Prod.snd)) :
    ∃ rows : List (γ × α × β), rows.map (fun r => (r.1, r.2.1)) = as ∧
      rows.map (fun r => (r.1, r.2.2)) = bs ∧ ∀ r ∈ rows, R r.2.1 r.2.2 := by
  rw [List.forall₂_map_left_iff, List.forall₂_map_right_iff] at h
  induction h with
  | nil => exact ⟨[], rfl, rfl, List.forall_mem_nil _⟩
  | @cons a b _ _ hab _ ih =>
    obtain ⟨hname, hnames⟩ := List.cons.inj hnames
    obtain ⟨rows, rfl, rfl, hrows⟩ := ih hnames
    refine ⟨(a.1, a.2, b.2) :: rows, rfl, ?_, List.forall_mem_cons.mpr ⟨hab, hrows⟩⟩
    rw [List.map_cons, ← hname]

/-- Lists related place by place are related at every place. -/
theorem rel_getElem?_of_forall₂ {as : List α} {bs : List β} (h : List.Forall₂ R as bs) (i : Nat) :
    Option.Rel R as[i]? bs[i]? := by
  induction h generalizing i with
  | nil => exact .none
  | cons hab _ ih =>
    cases i with
    | zero => exact .some hab
    | succ i => exact ih i

/-- A list related place by place to two others put together falls into two parts. -/
theorem exists_append_of_forall₂ {as as' : List α} {bs : List β}
    (h : List.Forall₂ R (as ++ as') bs) :
    ∃ cs cs', bs = cs ++ cs' ∧ List.Forall₂ R as cs ∧ List.Forall₂ R as' cs' :=
  ⟨bs.take as.length, bs.drop as.length, (List.take_append_drop _ _).symm,
    (List.forall₂_take_append _ _ _ h.flip).flip, (List.forall₂_drop_append _ _ _ h.flip).flip⟩

/-- Two images of a list are related place by place when those of each element are. -/
theorem forall₂_map_of_forall {f : γ → α} {g : γ → β} {xs : List γ}
    (h : ∀ x ∈ xs, R (f x) (g x)) : List.Forall₂ R (xs.map f) (xs.map g) := by
  rw [List.forall₂_map_left_iff, List.forall₂_map_right_iff, List.forall₂_same]
  exact h

end QueryRelay
