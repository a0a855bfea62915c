import Mathlib.Data.List.Perm.Subperm
import Mathlib.Logic.Relation
import QueryRelay.Mapping.Result

/-!
# Living cells

A mapped result owns the cells of the owners among its parts, and through them the cells that their
contents own. Which cells live is computed by going from owners to owned as long as a new cell is
found; no cell is found twice, so that there are as many steps as cells at most. Main statement: a
cell lives exactly when the result owns it through a chain of owners.
-/

namespace QueryRelay

namespace Mapped

/-! ## Parts -/

/-- The direct parts of a result, not those behind a cell. -/
inductive Part : Mapped → Mapped → Prop
  /-- Something where nothing could be. -/
  | present (m : Mapped) : Part (.present m) m
  /-- An item of a list. -/
  | item {ms : List Mapped} {m : Mapped} (h : m ∈ ms) : Part (.list ms) m
  /-- A field of a record. -/
  | field {entries : List (String × Mapped)} {e : String × Mapped} (h : e ∈ entries) :
      Part (.record entries) e.2

/-- A result is within another one: it is a part, or a part of a part, and so on. -/
def Within (m inner : Mapped) : Prop := Relation.ReflTransGen Part m inner

/-- A result holds a cell, as an owner or as a weak holder. -/
def HoldsCell (m : Mapped) (cell : Nat) : Prop := m = .shared cell ∨ m = .weak (some cell)

/-- A result holds no cell, neither itself nor in a part. -/
def IsBare (m : Mapped) : Prop := ∀ inner cell, m.Within inner → ¬ inner.HoldsCell cell

variable {m inner : Mapped} {cell : Nat}

/-- What the items of a list own is owned by one of them. -/
theorem mem_ownedByItems {ms : List Mapped} :
    cell ∈ ownedByItems ms ↔ ∃ m ∈ ms, cell ∈ m.owned := by
  induction ms with
  | nil => simp [ownedByItems]
  | cons m rest ih => simp [ownedByItems, ih]

/-- What the fields of a record own is owned by one of them. -/
theorem mem_ownedByFields {entries : List (String × Mapped)} :
    cell ∈ ownedByFields entries ↔ ∃ e ∈ entries, cell ∈ e.2.owned := by
  induction entries with
  | nil => simp [ownedByFields]
  | cons e rest ih => simp [ownedByFields, ih]

/-- What a part owns the result owns. -/
theorem Part.owned_subset (h : Part m inner) (hcell : cell ∈ inner.owned) : cell ∈ m.owned := by
  cases h with
  | present => exact hcell
  | item hm => exact mem_ownedByItems.mpr ⟨inner, hm, hcell⟩
  | field he => exact mem_ownedByFields.mpr ⟨_, he, hcell⟩

mutual

/-- An owner of each cell that a result owns is within the result. -/
theorem within_of_mem_owned : ∀ m : Mapped, cell ∈ m.owned → Within m (.shared cell)
  | .shared own, h => by
    rw [List.mem_singleton.mp h]
    exact .refl
  | .present content, h => .head (.present content) (within_of_mem_owned content h)
  | .list items, h => by
    obtain ⟨m, hm, hwithin⟩ := exists_within_items items h
    exact .head (.item hm) hwithin
  | .record entries, h => by
    obtain ⟨e, he, hwithin⟩ := exists_within_fields entries h
    exact .head (.field he) hwithin
  | .integer _, h | .single _, h | .double _, h | .bool _, h | .text _, h | .timestamp _, h
  | .value _, h | .rawRecord _ _, h | .variant _, h | .absent, h | .outline _ _, h
  | .weak _, h => nomatch h

/-- An owner of each cell that the items of a list own is within one of them. -/
theorem exists_within_items : ∀ ms : List Mapped, cell ∈ ownedByItems ms →
    ∃ m ∈ ms, Within m (.shared cell)
  | m :: rest, h => by
    rcases List.mem_append.mp h with hfirst | hrest
    · exact ⟨m, List.mem_cons_self, within_of_mem_owned m hfirst⟩
    · obtain ⟨m', hm', hwithin⟩ := exists_within_items rest hrest
      exact ⟨m', List.mem_cons_of_mem m hm', hwithin⟩

/-- An owner of each cell that the fields of a record own is within one of them. -/
theorem exists_within_fields : ∀ entries : List (String × Mapped), cell ∈ ownedByFields entries →
    ∃ e ∈ entries, Within e.2 (.shared cell)
  | (name, m) :: rest, h => by
    rcases List.mem_append.mp h with hfirst | hrest
    · exact ⟨(name, m), List.mem_cons_self, within_of_mem_owned m hfirst⟩
    · obtain ⟨e, he, hwithin⟩ := exists_within_fields rest hrest
      exact ⟨e, List.mem_cons_of_mem _ he, hwithin⟩

end

/-- A result owns a cell at first hand exactly when an owner of the cell is within it. -/
theorem mem_owned : cell ∈ m.owned ↔ Within m (.shared cell) := by
  constructor
  · exact within_of_mem_owned m
  · intro h
    induction h using Relation.ReflTransGen.head_induction_on with
    | refl => exact List.mem_singleton_self cell
    | head hpart _ ih => exact hpart.owned_subset ih

/-- A result that holds no cell owns none. -/
theorem IsBare.owned (h : m.IsBare) : m.owned = [] :=
  List.eq_nil_iff_forall_not_mem.mpr fun cell hcell =>
    h (.shared cell) cell (mem_owned.mp hcell) (.inl rfl)

/-- A result without parts that is not a holder of a cell holds no cell. -/
theorem isBare_of_not_part (hparts : ∀ inner, ¬ Part m inner)
    (hcell : ∀ cell, ¬ m.HoldsCell cell) : m.IsBare := by
  intro inner cell hwithin
  rcases Relation.ReflTransGen.cases_head hwithin with rfl | ⟨part, hpart, -⟩
  · exact hcell cell
  · exact absurd hpart (hparts part)

/-- The empty list holds no cell. -/
theorem isBare_nil : (Mapped.list []).IsBare := by
  refine isBare_of_not_part (fun inner hpart => ?_) (fun cell hcell => ?_)
  · cases hpart with
    | item hm => cases hm
  · rcases hcell with h | h <;> cases h

end Mapped

namespace MappedGraph

/-! ## Owners -/

/-- A cell owns another at first hand. -/
def Owns (g : MappedGraph) (owner cell : Nat) : Prop :=
  ∃ m, g.cell? owner = some m ∧ cell ∈ m.owned

/-- The result owns a cell through a chain of owners. -/
def Reaches (g : MappedGraph) (cell : Nat) : Prop :=
  ∃ first ∈ g.root.owned, Relation.ReflTransGen g.Owns first cell

/-- Everything that is owned is a cell of the heap. -/
structure IsBounded (g : MappedGraph) : Prop where
  /-- What the result owns. -/
  root : ∀ cell ∈ g.root.owned, cell < g.heap.length
  /-- What a cell owns. -/
  owned : ∀ owner cell, g.Owns owner cell → cell < g.heap.length

variable {g : MappedGraph} {cells : List Nat} {cell : Nat}

/-- What some cells own is owned by one of them. -/
theorem mem_ownedByCells : cell ∈ g.ownedByCells cells ↔ ∃ owner ∈ cells, g.Owns owner cell := by
  rw [ownedByCells, List.mem_flatMap]
  refine exists_congr fun owner => and_congr_right fun _ => ?_
  cases hcell : g.cell? owner with
  | none => simp [Owns, hcell]
  | some m => simp [Owns, hcell]

/-- A list without its repetitions has none. -/
theorem nodup_eraseDups (cells : List Nat) : cells.eraseDups.Nodup := by
  induction hn : cells.length using Nat.strongRecOn generalizing cells with
  | ind n ih =>
    cases cells with
    | nil => exact List.nodup_nil
    | cons cell rest =>
      rw [List.eraseDups_cons]
      have hshorter : (rest.filter fun c => !c == cell).length < n := by
        have := List.length_filter_le (fun c => !c == cell) rest
        rw [List.length_cons] at hn
        omega
      refine List.nodup_cons.mpr ⟨fun hmem => ?_, ih _ hshorter _ rfl⟩
      have hne := (List.mem_filter.mp (List.mem_eraseDups.mp hmem)).2
      simp at hne

/-- From some cells, without repetition, exactly those are reached that they own through a chain of
owners, when each cell that is not among them gives one more step. -/
theorem mem_reachWithin (hg : g.IsBounded) {steps : Nat} (hnodup : cells.Nodup)
    (hless : ∀ c ∈ cells, c < g.heap.length) (hsteps : g.heap.length ≤ steps + cells.length) :
    cell ∈ g.reachWithin steps cells ↔
      ∃ first ∈ cells, Relation.ReflTransGen g.Owns first cell := by
  -- Cells that own cells among them only are all that is reached.
  have hclosed {cells : List Nat} (h : ∀ c ∈ g.ownedByCells cells, c ∈ cells) :
      cell ∈ cells ↔ ∃ first ∈ cells, Relation.ReflTransGen g.Owns first cell := by
    constructor
    · exact fun hcell => ⟨cell, hcell, .refl⟩
    · rintro ⟨first, hfirst, hchain⟩
      induction hchain with
      | refl => exact hfirst
      | tail _ howns ih => exact h _ (mem_ownedByCells.mpr ⟨_, ih, howns⟩)
  induction steps generalizing cells with
  | zero =>
    rw [reachWithin]
    refine hclosed fun c hc => ?_
    obtain ⟨owner, -, howns⟩ := mem_ownedByCells.mp hc
    have hsub : cells.Subperm (List.range g.heap.length) :=
      List.subperm_of_subset hnodup fun c hc => List.mem_range.mpr (hless c hc)
    have hall : (List.range g.heap.length).length ≤ cells.length := by
      rw [List.length_range]
      omega
    exact (hsub.perm_of_length_le hall).mem_iff.mpr (List.mem_range.mpr (hg.owned owner c howns))
  | succ steps ih =>
    rw [reachWithin]
    have hnext (c : Nat) : c ∈ (g.ownedByCells cells).filter (fun c => !cells.contains c) ↔
        c ∈ g.ownedByCells cells ∧ c ∉ cells := by simp [List.mem_filter]
    generalize (g.ownedByCells cells).filter (fun c => !cells.contains c) = next at hnext ⊢
    cases hempty : next.isEmpty with
    | true =>
      refine hclosed fun c hc => ?_
      by_contra hnew
      have hmem := (hnext c).mpr ⟨hc, hnew⟩
      rw [List.isEmpty_iff.mp hempty] at hmem
      cases hmem
    | false =>
      have hpos : 0 < next.eraseDups.length := by
        obtain ⟨c, hc⟩ := List.exists_mem_of_ne_nil next (List.isEmpty_eq_false_iff.mp hempty)
        exact List.length_pos_of_mem (List.mem_eraseDups.mpr hc)
      have hdisjoint : ∀ c ∈ cells, ∀ d ∈ next.eraseDups, c ≠ d := by
        rintro c hold d hnew rfl
        exact ((hnext c).mp (List.mem_eraseDups.mp hnew)).2 hold
      have hnodup' := List.nodup_append.mpr ⟨hnodup, nodup_eraseDups next, hdisjoint⟩
      have hless' : ∀ c ∈ cells ++ next.eraseDups, c < g.heap.length := by
        intro c hc
        rcases List.mem_append.mp hc with hold | hnew
        · exact hless c hold
        · obtain ⟨owner, -, howns⟩ :=
            mem_ownedByCells.mp ((hnext c).mp (List.mem_eraseDups.mp hnew)).1
          exact hg.owned owner c howns
      have hsteps' : g.heap.length ≤ steps + (cells ++ next.eraseDups).length := by
        rw [List.length_append]
        omega
      refine (ih hnodup' hless' hsteps').trans ⟨?_, ?_⟩
      · rintro ⟨first, hfirst, hchain⟩
        rcases List.mem_append.mp hfirst with hold | hnew
        · exact ⟨first, hold, hchain⟩
        · obtain ⟨owner, howner, howns⟩ :=
            mem_ownedByCells.mp ((hnext first).mp (List.mem_eraseDups.mp hnew)).1
          exact ⟨owner, howner, .head howns hchain⟩
      · rintro ⟨first, hfirst, hchain⟩
        exact ⟨first, List.mem_append_left _ hfirst, hchain⟩

/-- A cell lives exactly when the result owns it through a chain of owners. -/
theorem isAlive_iff (hg : g.IsBounded) : g.isAlive cell = true ↔ g.Reaches cell := by
  have hless : ∀ c ∈ g.root.owned.eraseDups, c < g.heap.length :=
    fun c hc => hg.root c (List.mem_eraseDups.mp hc)
  rw [isAlive, living, List.contains_iff_mem,
    mem_reachWithin hg (nodup_eraseDups _) hless (Nat.le_add_right _ _)]
  exact exists_congr fun first => and_congr_left fun _ => List.mem_eraseDups

end MappedGraph
end QueryRelay
