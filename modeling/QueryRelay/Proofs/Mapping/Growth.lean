import QueryRelay.Proofs.Mapping.Living
import QueryRelay.Proofs.Mapping.Requests

/-!
# How mapped results grow

From one state to the next mapping adds cells and finishes shared results. It keeps what is
finished, finishes nothing that is still being built further out, and fills a cell once all the
cells that its content owns are filled. Main statements: what an answer leaves has grown out of what
it found; and no cell of a mapped graph owns itself through a chain of owners.
-/

namespace QueryRelay

namespace Mapped

variable {m : Mapped}

/-- What has no parts and no cell holds none. -/
theorem IsLeaf.isBare (h : m.IsLeaf) : m.IsBare := by
  refine isBare_of_not_part (fun inner hpart => ?_) (fun cell hcell => ?_)
  · cases hpart <;> exact h
  · rcases hcell with rfl | rfl <;> exact h

/-- What a type without parts reads holds no cell. -/
theorem isBare_of_readScalar {t : Target} {v : Value} (h : Mapping.readScalar v t = some m) :
    m.IsBare := by
  refine IsLeaf.isBare ?_
  cases t with
  | integer | single | double | bool | text | timestamp | enum =>
    obtain ⟨x, -, rfl⟩ := Option.map_eq_some_iff.mp h
    trivial
  | _ => cases h

end Mapped

namespace Mapping

open Mapped (Kept)

variable {types : RecordTargets} {ctx : Context} {t : Target} {v : Value} {m : Mapped}
  {s s₁ s' : State} {r : Request} {pending : List (SharedKey × Nat)} {key : SharedKey}

/-! ## States -/

/-- An entry for something else is passed by. -/
theorem lookup_cons_of_ne {key' : SharedKey} (h : key' ≠ key) (cell : Nat)
    (entries : List (SharedKey × Nat)) :
    ((key, cell) :: entries).lookup key' = entries.lookup key' := by
  rw [List.lookup_cons, beq_false_of_ne h]

/-- A state grows into another while shared results are being built: cells are added, what is
finished stays so, and what is newly finished is not among what is being built and has a new
cell. -/
structure Grows (pending : List (SharedKey × Nat)) (s s' : State) : Prop where
  /-- Cells are added. -/
  heap : s.heap <+: s'.heap
  /-- What is finished stays so. -/
  kept : ∀ {key cell}, s.finished.lookup key = some cell → s'.finished.lookup key = some cell
  /-- What is newly finished. -/
  fresh : ∀ {key cell}, s'.finished.lookup key = some cell →
    s.finished.lookup key = some cell ∨
      pending.lookup key = none ∧ s.heap.length ≤ cell ∧ cell < s'.heap.length

namespace Grows

/-- A state grows into itself. -/
theorem refl (pending : List (SharedKey × Nat)) (s : State) : Grows pending s s :=
  ⟨List.prefix_refl _, id, .inl⟩

/-- A state grows in steps. -/
theorem trans (h : Grows pending s s₁) (h' : Grows pending s₁ s') : Grows pending s s' := by
  refine ⟨h.heap.trans h'.heap, fun hkey => h'.kept (h.kept hkey), fun hkey => ?_⟩
  have hlength := h.heap.length_le
  have hlength' := h'.heap.length_le
  rcases h'.fresh hkey with hold | ⟨hpending, hleast, hless⟩
  · rcases h.fresh hold with hold | ⟨hpending, hleast, hless⟩
    · exact .inl hold
    · exact .inr ⟨hpending, hleast, by omega⟩
  · exact .inr ⟨hpending, by omega, hless⟩

/-- Adding cells makes a state grow. -/
theorem added (pending : List (SharedKey × Nat)) (s : State) (cells : Heap) :
    Grows pending s { s with heap := s.heap ++ cells } :=
  ⟨⟨cells, rfl⟩, id, .inl⟩

/-- The number of cells grows. -/
theorem length_le (h : Grows pending s s') : s.heap.length ≤ s'.heap.length := h.heap.length_le

/-- The contents of cells are kept. -/
theorem keeps (h : Grows pending s s') : Kept s.heap s'.heap := Mapped.kept_of_prefix h.heap

/-- What is being built and is not finished is not finished later. -/
theorem unfinished {cell : Nat} (h : Grows pending s s')
    (hpending : pending.lookup key = some cell) (hs : s.finished.lookup key = none) :
    s'.finished.lookup key = none := by
  by_contra hsome
  obtain ⟨cell', hcell'⟩ := Option.ne_none_iff_exists'.mp hsome
  rcases h.fresh hcell' with hold | ⟨hnone, -⟩
  · cases hs.symm.trans hold
  · cases hnone.symm.trans hpending

/-- The cell that was taken before a content was built is empty, until it is filled. -/
theorem getElem?_reserved (h : Grows pending s.reserved s') :
    s'.heap[s.heap.length]? = some none := by
  obtain ⟨added, hadded⟩ := h.heap
  have hheap : s'.heap = s.heap ++ none :: added := by
    rw [← hadded, State.reserved, List.append_assoc, List.singleton_append]
  rw [hheap, List.getElem?_append_right (Nat.le_refl _), Nat.sub_self, List.getElem?_cons_zero]

/-- A state grows when a shared result is built. -/
theorem finish (hfinished : s.finished.lookup key = none) (hpending : pending.lookup key = none)
    (h : Grows ((key, s.heap.length) :: pending) s.reserved s') (m : Mapped) :
    Grows pending s (s'.finish key s.heap.length m) := by
  have hreserved : s.reserved.heap.length = s.heap.length + 1 := List.length_append
  have hset : (s'.finish key s.heap.length m).heap.length = s'.heap.length := List.length_set
  have hlength := h.length_le
  refine ⟨?_, fun {key' cell} hkey => ?_, fun {key' cell} hkey => ?_⟩
  · obtain ⟨added, hadded⟩ := h.heap
    have hheap : s'.heap = s.heap ++ none :: added := by
      rw [← hadded, State.reserved, List.append_assoc, List.singleton_append]
    rw [State.finish, hheap, set_append_none]
    exact ⟨_, rfl⟩
  · have hne : key' ≠ key := by
      rintro rfl
      rw [hfinished] at hkey
      cases hkey
    rw [State.finish, lookup_cons_of_ne hne]
    exact h.kept hkey
  · rw [hset]
    rw [State.finish] at hkey
    by_cases hkeys : key' = key
    · rw [hkeys, List.lookup_cons_self] at hkey
      cases hkey
      exact .inr ⟨by rw [hkeys, hpending], Nat.le_refl _, by omega⟩
    · rw [lookup_cons_of_ne hkeys] at hkey
      rcases h.fresh hkey with hold | ⟨hother, hleast, hless⟩
      · exact .inl hold
      · rw [lookup_cons_of_ne hkeys] at hother
        exact .inr ⟨hother, by omega, hless⟩

end Grows

/-- Inside a record the same shared results are being built. -/
theorem Context.pending_reading (ctx : Context) (id : Option ObjectId) :
    (ctx.reading id).pending = ctx.pending := by
  cases id <;> rfl

/-- Inside a record the graph is the same. -/
theorem Context.records_reading (ctx : Context) (id : Option ObjectId) :
    (ctx.reading id).records = ctx.records := by
  cases id <;> rfl

/-- A field grows the state when requests do. -/
theorem FieldAnswer.grows {A : AnswerRel} {source : List (String × Value)} {f : String × Target}
    {entry : String × Mapped} (hA : ∀ q m s, A q m s → Grows q.context.pending q.state s)
    (h : FieldAnswer A ctx source f entry s s') : Grows ctx.pending s s' := by
  cases h with
  | found _ h => exact hA _ _ _ h
  | missing _ haction h =>
    obtain ⟨m', tree, cells, -, hm, -⟩ := missing_eq haction s
    cases h.symm.trans hm
    exact .added ctx.pending s cells

/-- A cell that is found grows the state when requests do. -/
theorem CellAnswer.grows {A : AnswerRel} {cell : Nat}
    (hA : ∀ q m s, A q m s → Grows q.context.pending q.state s)
    (h : CellAnswer A ctx t v cell s s') : Grows ctx.pending s s' := by
  cases h with
  | fresh _ h => exact (hA _ _ _ h).trans (.added ctx.pending _ _)
  | found => exact .refl ctx.pending s
  | built _ hfinished hpending _ h => exact .finish hfinished hpending (hA _ _ _ h) _

/-- An answer leaves a state that has grown out of what it found. -/
theorem Request.Answers.grows (h : r.Answers m s') : Grows r.context.pending r.state s' := by
  refine h.induct (P := fun r _ s' => Grows r.context.pending r.state s') ?_
  intro r m s' _ hstep
  cases hstep with
  | present _ h | boxed h => exact h.2
  | items _ h =>
    exact h.rel (Grows.refl _) (fun _ _ _ => Grows.trans) fun _ _ _ _ hitem => hitem.2
  | shared h | downgraded _ _ h => exact h.grows fun _ _ _ hq => hq.2
  | @fields _ _ _ id _ _ _ _ _ _ _ _ h =>
    have hfields := h.rel (Grows.refl _) (fun _ _ _ => Grows.trans)
      fun _ _ _ _ hfield => hfield.grows fun _ _ _ hq => hq.2
    rwa [Context.pending_reading] at hfields
  | _ => exact .refl _ _

/-! ## Settled cells -/

/-- A cell is settled when it is filled, and so are the cells that its content owns, and so on. -/
inductive Settled (heap : Heap) : Nat → Prop
  /-- A filled cell. -/
  | filled {cell : Nat} {content : Mapped} (hcell : heap[cell]? = some (some content))
      (h : ∀ c ∈ content.owned, Settled heap c) : Settled heap cell

/-- A settled cell stays settled when contents are kept. -/
theorem Settled.mono {heap heap' : Heap} {cell : Nat} (hkept : Kept heap heap')
    (h : Settled heap cell) : Settled heap' cell := by
  induction h with
  | filled hcell _ ih => exact .filled (hkept _ _ hcell) ih

/-- Everything that is filled or finished is settled. -/
structure Sturdy (s : State) : Prop where
  /-- What is filled. -/
  filled : ∀ {cell content}, s.heap[cell]? = some (some content) → Settled s.heap cell
  /-- What is finished. -/
  finished : ∀ {key cell}, s.finished.lookup key = some cell → Settled s.heap cell

/-- What a result owns is settled. -/
def OwnsSettled (heap : Heap) (m : Mapped) : Prop := ∀ cell ∈ m.owned, Settled heap cell

/-- What a result owns stays settled when contents are kept. -/
theorem OwnsSettled.mono {heap heap' : Heap} (hkept : Kept heap heap') (h : OwnsSettled heap m) :
    OwnsSettled heap' m :=
  fun cell hcell => (h cell hcell).mono hkept

/-- A new cell with a content that owns settled cells. -/
theorem Sturdy.allocated (h : Sturdy s) (hm : OwnsSettled s.heap m) :
    Sturdy (s.allocated m) ∧ Settled (s.allocated m).heap s.heap.length := by
  have hkept : Kept s.heap (s.allocated m).heap := Mapped.kept_of_prefix ⟨[some m], rfl⟩
  have hlast : (s.allocated m).heap[s.heap.length]? = some (some m) := by
    rw [State.allocated, List.getElem?_concat_length]
  have hnew : Settled (s.allocated m).heap s.heap.length := .filled hlast (hm.mono hkept)
  refine ⟨⟨fun {cell content} hcell => ?_, fun hkey => (h.finished hkey).mono hkept⟩, hnew⟩
  by_cases hold : cell < s.heap.length
  · rw [State.allocated, List.getElem?_append_left hold] at hcell
    exact (h.filled hcell).mono hkept
  · have hlength := (List.getElem?_eq_some_iff.mp hcell).1
    rw [State.allocated, List.length_append, List.length_singleton] at hlength
    rwa [show cell = s.heap.length by omega]

/-- A cell is taken. -/
theorem Sturdy.reserved (h : Sturdy s) : Sturdy s.reserved := by
  have hkept : Kept s.heap s.reserved.heap := Mapped.kept_of_prefix ⟨[none], rfl⟩
  refine ⟨fun {cell content} hcell => ?_, fun hkey => (h.finished hkey).mono hkept⟩
  by_cases hold : cell < s.heap.length
  · rw [State.reserved, List.getElem?_append_left hold] at hcell
    exact (h.filled hcell).mono hkept
  · rw [State.reserved, List.getElem?_append_right (Nat.le_of_not_lt hold)] at hcell
    cases List.mem_singleton.mp (List.mem_of_getElem? hcell)

/-- A cell that was taken and is filled with a content that owns settled cells. -/
theorem Sturdy.finish {cell : Nat} (h : Sturdy s) (hm : OwnsSettled s.heap m)
    (hcell : s.heap[cell]? = some none) :
    Sturdy (s.finish key cell m) ∧ Settled (s.finish key cell m).heap cell := by
  have hkept : Kept s.heap (s.finish key cell m).heap := Mapped.kept_set hcell m
  have hset : (s.finish key cell m).heap[cell]? = some (some m) := by
    rw [State.finish, List.getElem?_set_self (List.getElem?_eq_some_iff.mp hcell).1]
  have hnew : Settled (s.finish key cell m).heap cell := .filled hset (hm.mono hkept)
  refine ⟨⟨fun {cell' content} hcell' => ?_, fun {key' cell'} hkey => ?_⟩, hnew⟩
  · by_cases heq : cell' = cell
    · rwa [heq]
    · rw [State.finish, List.getElem?_set_ne (Ne.symm heq)] at hcell'
      exact (h.filled hcell').mono hkept
  · rw [State.finish] at hkey
    by_cases heq : key' = key
    · rw [heq, List.lookup_cons_self] at hkey
      cases hkey
      exact hnew
    · rw [lookup_cons_of_ne heq] at hkey
      exact (h.finished hkey).mono hkept

/-! ## Absent fields -/

/-- A result owns cells that were added between two states only, and has no weak holder of any. -/
structure StandsAlone (s s' : State) (m : Mapped) : Prop where
  /-- What it owns. -/
  owned : ∀ cell ∈ m.owned, s.heap.length ≤ cell ∧ cell < s'.heap.length
  /-- It has no weak holder of a cell. -/
  weak : ∀ cell, ¬ m.Within (.weak (some cell))

/-- From one state to another cells are added that own only such cells that were added before
them. -/
structure Separate (s s' : State) : Prop where
  /-- Cells are added. -/
  heap : s.heap <+: s'.heap
  /-- Nothing is finished. -/
  finished : s'.finished = s.finished
  /-- What an added cell owns. -/
  alone : ∀ {cell}, s.heap.length ≤ cell → cell < s'.heap.length →
    ∃ content, s'.heap[cell]? = some (some content) ∧
      (∀ c ∈ content.owned, s.heap.length ≤ c ∧ c < cell) ∧
      ∀ c, ¬ content.Within (.weak (some c))

namespace Separate

/-- No cell is added. -/
theorem refl (s : State) : Separate s s :=
  ⟨List.prefix_refl _, rfl, fun hleast hless => absurd hless (Nat.not_lt_of_le hleast)⟩

/-- Cells are added in steps. -/
theorem trans (h : Separate s s₁) (h' : Separate s₁ s') : Separate s s' := by
  have hlength := h.heap.length_le
  refine ⟨h.heap.trans h'.heap, h'.finished.trans h.finished, fun {cell} hleast hless => ?_⟩
  by_cases hfirst : cell < s₁.heap.length
  · obtain ⟨content, hcontent, halone⟩ := h.alone hleast hfirst
    exact ⟨content, Mapped.kept_of_prefix h'.heap _ _ hcontent, halone⟩
  · obtain ⟨content, hcontent, howned, hweak⟩ := h'.alone (Nat.le_of_not_lt hfirst) hless
    refine ⟨content, hcontent, fun c hc => ?_, hweak⟩
    have := howned c hc
    omega

/-- A cell is added for a result that owns cells added before. -/
theorem allocated (h : Separate s s') (hm : StandsAlone s s' m) : Separate s (s'.allocated m) := by
  refine ⟨h.heap.trans ⟨[some m], rfl⟩, h.finished, fun {cell} hleast hless => ?_⟩
  rw [State.allocated, List.length_append, List.length_singleton] at hless
  by_cases hold : cell < s'.heap.length
  · obtain ⟨content, hcontent, halone⟩ := h.alone hleast hold
    rw [State.allocated, List.getElem?_append_left hold]
    exact ⟨content, hcontent, halone⟩
  · obtain rfl : cell = s'.heap.length := by omega
    rw [State.allocated, List.getElem?_concat_length]
    exact ⟨m, rfl, hm.owned, hm.weak⟩

/-- Cells that are added so are settled. -/
theorem settled (h : Separate s s') {cell : Nat} (hleast : s.heap.length ≤ cell)
    (hless : cell < s'.heap.length) : Settled s'.heap cell := by
  induction cell using Nat.strongRecOn with
  | ind cell ih =>
    obtain ⟨content, hcontent, howned, -⟩ := h.alone hleast hless
    refine .filled hcontent fun c hc => ?_
    obtain ⟨hleast', hless'⟩ := howned c hc
    exact ih c hless' hleast' (Nat.lt_trans hless' hless)

/-- Everything stays settled. -/
theorem sturdy (h : Separate s s') (hs : Sturdy s) : Sturdy s' := by
  have hkept := Mapped.kept_of_prefix h.heap
  refine ⟨fun {cell content} hcell => ?_, fun {key cell} hkey => ?_⟩
  · by_cases hold : cell < s.heap.length
    · obtain ⟨added, hadded⟩ := h.heap
      rw [← hadded, List.getElem?_append_left hold] at hcell
      exact (hs.filled hcell).mono hkept
    · exact h.settled (Nat.le_of_not_lt hold) (List.getElem?_eq_some_iff.mp hcell).1
  · rw [h.finished] at hkey
    exact (hs.finished hkey).mono hkept

end Separate

/-- What stands alone between two states does so from an earlier to a later one. -/
theorem StandsAlone.mono {s₂ : State} (h : StandsAlone s₁ s' m) (hearlier : s.heap <+: s₁.heap)
    (hlater : s'.heap <+: s₂.heap) : StandsAlone s s₂ m := by
  refine ⟨fun cell hcell => ?_, h.weak⟩
  have := h.owned cell hcell
  have := hearlier.length_le
  have := hlater.length_le
  omega

/-- A result that holds no cell stands alone. -/
theorem standsAlone_of_isBare (h : m.IsBare) (s s' : State) : StandsAlone s s' m := by
  refine ⟨fun cell hcell => ?_, fun cell hwithin => h _ cell hwithin (.inr rfl)⟩
  rw [h.owned] at hcell
  cases hcell

/-- A result that is given at once adds nothing. -/
theorem pure_separate {m' : Mapped} (hm : m.IsBare)
    (h : (pure m : Mapper Mapped) s = .ok (m', s')) : Separate s s' ∧ StandsAlone s s' m' := by
  cases h
  exact ⟨.refl s, standsAlone_of_isBare hm s s⟩

/-- Entries that are built one after the other stand alone. -/
theorem mapM_separate {action : Target → Mapper Mapped} {fields : List (String × Target)}
    {entries : List (String × Mapped)}
    (haction : ∀ t s m s', action t s = .ok (m, s') → Separate s s' ∧ StandsAlone s s' m)
    (h : (fields.mapM fun f => return (f.1, ← action f.2) : Mapper _) s = .ok (entries, s')) :
    Separate s s' ∧ ∀ e ∈ entries, StandsAlone s s' e.2 := by
  induction fields generalizing s entries with
  | nil =>
    cases h
    exact ⟨.refl s', List.forall_mem_nil _⟩
  | cons f rest ih =>
    rw [List.mapM_cons] at h
    obtain ⟨e, s₁, hentry, hrest⟩ := bind_eq_ok.mp h
    obtain ⟨m, s₂, hm, hname⟩ := bind_eq_ok.mp hentry
    cases hname
    obtain ⟨others, s₃, hothers, hdone⟩ := bind_eq_ok.mp hrest
    cases hdone
    obtain ⟨hfirst, halone⟩ := haction _ _ _ _ hm
    obtain ⟨hsecond, haloneRest⟩ := ih hothers
    refine ⟨hfirst.trans hsecond, List.forall_mem_cons.mpr ⟨?_, fun e he => ?_⟩⟩
    · exact halone.mono (List.prefix_refl _) hsecond.heap
    · exact (haloneRest e he).mono hfirst.heap (List.prefix_refl _)

/-- A record stands alone when its fields do. -/
theorem standsAlone_record {entries : List (String × Mapped)}
    (h : ∀ e ∈ entries, StandsAlone s s' e.2) : StandsAlone s s' (.record entries) := by
  constructor
  · intro cell hcell
    obtain ⟨e, he, hcell⟩ := Mapped.mem_ownedByFields.mp hcell
    exact (h e he).owned cell hcell
  · intro cell hwithin
    rcases Relation.ReflTransGen.cases_head hwithin with heq | ⟨part, hpart, hwithin⟩
    · cases heq
    · cases hpart with
      | field he => exact (h _ he).weak cell hwithin

/-- What stands for nothing stands alone. -/
theorem default_separate {fuel : Nat} (h : default types fuel t s = .ok (m, s')) :
    Separate s s' ∧ StandsAlone s s' m := by
  induction fuel generalizing t s m s' with
  | zero =>
    cases t with
    | list t => exact pure_separate Mapped.isBare_nil h
    | _ => exact pure_separate (Mapped.IsLeaf.isBare (by trivial)) h
  | succ fuel ih =>
    cases t with
    | list t => exact pure_separate Mapped.isBare_nil h
    | boxed t => exact ih h
    | shared t =>
      obtain ⟨content, s₁, hcontent, hdone⟩ := bind_eq_ok.mp h
      obtain ⟨hseparate, halone⟩ := ih hcontent
      cases (allocate_eq content).symm.trans hdone
      refine ⟨hseparate.allocated halone, fun cell hcell => ?_, fun cell hwithin => ?_⟩
      · obtain rfl := List.mem_singleton.mp hcell
        have := hseparate.heap.length_le
        rw [List.length_append, List.length_singleton]
        omega
      · rcases Relation.ReflTransGen.cases_head hwithin with heq | ⟨part, hpart, -⟩
        · cases heq
        · cases hpart
    | record name =>
      rw [default] at h
      revert h
      rcases types.get? name with _ | fields | _
      · exact pure_separate (Mapped.IsLeaf.isBare (by trivial))
      · intro h
        obtain ⟨entries, s₁, hentries, hdone⟩ := bind_eq_ok.mp h
        cases hdone
        have hdefault : ∀ t s m s', default types fuel t s = .ok (m, s') →
            Separate s s' ∧ StandsAlone s s' m := fun _ _ _ _ => ih
        obtain ⟨hseparate, halone⟩ := mapM_separate hdefault hentries
        exact ⟨hseparate, standsAlone_record halone⟩
      · exact pure_separate (Mapped.IsLeaf.isBare (by trivial))
    | _ => exact pure_separate (Mapped.IsLeaf.isBare (by trivial)) h

/-- What stands for an absent field stands alone. -/
theorem missing_separate {action : Mapper Mapped} (haction : missing types t = some action)
    (h : action s = .ok (m, s')) : Separate s s' ∧ StandsAlone s s' m := by
  induction t with
  | boxed t ih => exact ih haction
  | timestamp | rawRecord | enum | shared => cases haction
  | _ =>
    cases haction
    exact default_separate h

/-! ## Answers own settled cells -/

/-- From settled cells an answer leaves settled cells, and owns such. -/
def LeavesSettled : AnswerRel := fun r m s' =>
  Sturdy r.state → Sturdy s' ∧ OwnsSettled s'.heap m

/-- Steps that grow the state and leave settled cells do so one after the other. -/
theorem Chain.sturdy {α β : Type} {step : α → β → State → State → Prop}
    (pending : List (SharedKey × Nat)) (content : β → Mapped)
    (hgrows : ∀ a b s s', step a b s s' → Grows pending s s')
    (hstep : ∀ a b s s', step a b s s' → Sturdy s → Sturdy s' ∧ OwnsSettled s'.heap (content b))
    {as : List α} {bs : List β} (h : Chain step as bs s s') (hs : Sturdy s) :
    Sturdy s' ∧ ∀ b ∈ bs, OwnsSettled s'.heap (content b) := by
  induction h with
  | nil s => exact ⟨hs, List.forall_mem_nil _⟩
  | cons hfirst hrest ih =>
    obtain ⟨hs₁, howned⟩ := hstep _ _ _ _ hfirst hs
    obtain ⟨hs₂, hothers⟩ := ih hs₁
    have hkept := (hrest.rel (Grows.refl pending) (fun _ _ _ => Grows.trans) hgrows).keeps
    exact ⟨hs₂, List.forall_mem_cons.mpr ⟨howned.mono hkept, hothers⟩⟩

/-- A cell that is found is settled, and everything stays so. -/
theorem CellAnswer.sturdy {cell : Nat}
    (h : CellAnswer (fun q m s => q.Answers m s ∧ LeavesSettled q m s) ctx t v cell s s')
    (hs : Sturdy s) : Sturdy s' ∧ Settled s'.heap cell := by
  cases h with
  | fresh _ h =>
    obtain ⟨hs₁, howned⟩ := h.2 hs
    exact hs₁.allocated howned
  | found _ hcell => exact ⟨hs, hs.finished hcell⟩
  | built _ _ _ _ h =>
    -- While the content is built its own cell is empty, so that the content cannot own it.
    obtain ⟨hs₁, howned⟩ := h.2 hs.reserved
    exact hs₁.finish howned h.1.grows.getElem?_reserved

/-- A field leaves settled cells, and owns such. -/
theorem FieldAnswer.sturdy {source : List (String × Value)} {f : String × Target}
    {entry : String × Mapped}
    (h : FieldAnswer (fun q m s => q.Answers m s ∧ LeavesSettled q m s) ctx source f entry s s')
    (hs : Sturdy s) : Sturdy s' ∧ OwnsSettled s'.heap entry.2 := by
  cases h with
  | found _ h => exact h.2 hs
  | missing _ haction h =>
    obtain ⟨hseparate, halone⟩ := missing_separate haction h
    refine ⟨hseparate.sturdy hs, fun cell hcell => ?_⟩
    obtain ⟨hleast, hless⟩ := halone.owned cell hcell
    exact hseparate.settled hleast hless

/-- An answer leaves settled cells, and owns such. -/
theorem Request.Answers.sturdy (h : r.Answers m s') : LeavesSettled r m s' := by
  refine h.induct (P := LeavesSettled) ?_
  intro r m s' _ hstep hs
  have hnone {heap : Heap} {m : Mapped} (howned : m.owned = []) : OwnsSettled heap m :=
    fun cell hcell => by rw [howned] at hcell; cases hcell
  cases hstep with
  | scalar h => exact ⟨hs, hnone (Mapped.isBare_of_readScalar h).owned⟩
  | present _ h | boxed h => exact h.2 hs
  | @items ctx _ _ _ _ _ _ _ h =>
    obtain ⟨hs', howned⟩ := Chain.sturdy ctx.pending id (fun _ _ _ _ hitem => hitem.1.grows)
      (fun _ _ _ _ hitem => hitem.2) h hs
    refine ⟨hs', fun cell hcell => ?_⟩
    obtain ⟨m, hm, hcell⟩ := Mapped.mem_ownedByItems.mp hcell
    exact howned m hm cell hcell
  | shared h =>
    obtain ⟨hs', hcell⟩ := h.sturdy hs
    exact ⟨hs', List.forall_mem_singleton.mpr hcell⟩
  | downgraded _ _ h => exact ⟨(h.sturdy hs).1, hnone rfl⟩
  | @fields ctx _ _ id _ _ _ _ _ _ _ _ h =>
    obtain ⟨hs', howned⟩ := Chain.sturdy (ctx.reading id).pending Prod.snd
      (fun _ _ _ _ hfield => hfield.grows fun _ _ _ hq => hq.1.grows)
      (fun _ _ _ _ => FieldAnswer.sturdy) h hs
    refine ⟨hs', fun cell hcell => ?_⟩
    obtain ⟨e, he, hcell⟩ := Mapped.mem_ownedByFields.mp hcell
    exact howned e he cell hcell
  | _ => exact ⟨hs, hnone rfl⟩

/-! ## Graphs -/

/-- A settled cell does not own itself, not through any chain of owners. -/
theorem Settled.acyclic {g : MappedGraph} {cell : Nat} (h : Settled g.heap cell) :
    ¬ Relation.TransGen g.Owns cell cell := by
  induction h with
  | @filled cell content hcell _ ih =>
    intro hcycle
    obtain ⟨next, hfirst, hback⟩ := Relation.TransGen.head'_iff.mp hcycle
    obtain ⟨m, hm, hnext⟩ := hfirst
    have hcontent : g.cell? cell = some content := by rw [MappedGraph.cell?, hcell]; rfl
    cases hcontent.symm.trans hm
    -- What comes next owns itself as well, by going on to the cell and round once more.
    exact ih next hnext (Relation.TransGen.tail' hback ⟨content, hcontent, hnext⟩)

/-- Everything that is owned is a cell of the heap, when what is filled and what the result owns is
settled. -/
theorem Sturdy.isBounded {root : Mapped} (h : Sturdy s) (hroot : OwnsSettled s.heap root) :
    MappedGraph.IsBounded ⟨root, s.heap⟩ := by
  have hless {cell : Nat} (hcell : Settled s.heap cell) : cell < s.heap.length := by
    cases hcell with
    | filled hcell => exact (List.getElem?_eq_some_iff.mp hcell).1
  refine ⟨fun cell hcell => hless (hroot cell hcell), fun owner cell howns => ?_⟩
  obtain ⟨m, hm, hcell⟩ := howns
  have howner : s.heap[owner]? = some (some m) := Option.join_eq_some_iff.mp hm
  cases h.filled howner with
  | filled hcontent howned =>
    cases howner.symm.trans hcontent
    exact hless (howned cell hcell)

/-- No cell owns itself, not through any chain of owners, when everything that is filled is
settled. -/
theorem Sturdy.acyclic (h : Sturdy s) (root : Mapped) (cell : Nat) :
    ¬ Relation.TransGen (MappedGraph.Owns ⟨root, s.heap⟩) cell cell := by
  intro hcycle
  obtain ⟨next, hfirst, -⟩ := Relation.TransGen.head'_iff.mp hcycle
  obtain ⟨m, hm, -⟩ := hfirst
  have hcell : s.heap[cell]? = some (some m) := Option.join_eq_some_iff.mp hm
  exact (h.filled hcell).acyclic hcycle

end Mapping
end QueryRelay
