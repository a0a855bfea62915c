import QueryRelay.Proofs.Mapping.Growth

/-!
# Requests that requests ask for

A request asks for others, and they for others in turn: these are the requests of a mapping call,
whether it succeeds or fails. What was built when a request is made has grown out of what was there
when the one that asks for it was made. Main statements: when a request is answered, so is every
request that follows from it; and of two requests that one request asks for, one is over when the
other is made.
-/

namespace QueryRelay

open Mapping

/-- The types whose results hold a cell with a result of a type: owners and weak holders. -/
inductive Target.Holds : Target → Target → Prop
  /-- Owners. -/
  | shared (t : Target) : Holds (.shared t) t
  /-- Weak holders. -/
  | weak (t : Target) : Holds (.weak t) t

/-- A holder holds results of one type. -/
theorem Target.Holds.unique {target t u : Target} (h : target.Holds t) (h' : target.Holds u) :
    t = u := by
  cases h <;> cases h' <;> rfl

/-- The holder of a cell that a type asks for. -/
def Target.holder : Target → Nat → Mapped
  | .weak _, cell => .weak (some cell)
  | _, cell => .shared cell

/-- A holder holds its cell and no other. -/
theorem Target.Holds.eq_of_holdsCell {target t : Target} {own cell : Nat} (h : target.Holds t)
    (hcell : (target.holder own).HoldsCell cell) : own = cell := by
  cases h <;> rcases hcell with heq | heq <;> cases heq <;> rfl

/-- A holder of a cell holds it. -/
theorem Target.Holds.holdsCell {target t : Target} (h : target.Holds t) (cell : Nat) :
    (target.holder cell).HoldsCell cell := by
  cases h with
  | shared => exact .inl rfl
  | weak => exact .inr rfl

/-- A holder has one cell. -/
theorem Target.Holds.eq_of_holder {target t : Target} {own cell : Nat} (h : target.Holds t)
    (hcell : target.holder own = target.holder cell) : own = cell :=
  h.eq_of_holdsCell (hcell ▸ h.holdsCell cell)

/-- What asks for an owner of results of a type is the type of owners of such. -/
theorem Target.Holds.eq_shared {target t : Target} {cell : Nat} (h : target.Holds t)
    (hcell : .shared cell = target.holder cell) : target = .shared t := by
  cases h with
  | shared => rfl
  | weak => cases hcell

/-- What asks for a weak holder of results of a type is the type of weak holders of such. -/
theorem Target.Holds.eq_weak {target t : Target} {cell : Nat} (h : target.Holds t)
    (hcell : .weak (some cell) = target.holder cell) : target = .weak t := by
  cases h with
  | shared => cases hcell
  | weak => rfl

namespace Mapping

open Mapped (Kept)
open Value (resolve)

/-! ## Requests that a request asks for -/

/-- A request asks for another one. For the parts of a list and of a record it does so one after the
other, once those before are answered. -/
inductive Asks : Request → Request → Prop
  /-- For what may be absent. -/
  | option {ctx : Context} {t : Target} {v : Value} {s : State} (hnull : v.isNull = false) :
      Asks ⟨ctx, .option t, v, s⟩ ⟨ctx, t, v, s⟩
  /-- For what has a place of its own. -/
  | boxed {ctx : Context} {t : Target} {v : Value} {s : State} :
      Asks ⟨ctx, .boxed t, v, s⟩ ⟨ctx, t, v, s⟩
  /-- For an item of a list. -/
  | item {ctx : Context} {t : Target} {v w : Value} {before after : List Value} {ms : List Mapped}
      {s s₁ : State} (hv : resolve ctx.records v = some (.list (before ++ w :: after)))
      (hbefore : Chain (ItemAnswer Request.Answers ctx t) before ms s s₁) :
      Asks ⟨ctx, .list t, v, s⟩ ⟨ctx, t, w, s₁⟩
  /-- For the content of a cell, of a value without identity. -/
  | fresh {ctx : Context} {target t : Target} {v : Value} {s : State} (hholds : target.Holds t)
      (hid : objectId? v = none) (hnull : target = .weak t → v.isNull = false) :
      Asks ⟨ctx, target, v, s⟩ ⟨ctx, t, v, s⟩
  /-- For the content of a cell, of a value with an identity. -/
  | built {ctx : Context} {target t : Target} {v w : Value} {s : State} {id : ObjectId}
      (hholds : target.Holds t) (hid : objectId? v = some id)
      (hfinished : s.finished.lookup (id, t) = none)
      (hpending : ctx.pending.lookup (id, t) = none) (hw : resolve ctx.records v = some w) :
      Asks ⟨ctx, target, v, s⟩ ⟨ctx.building (id, t) s.heap.length, t, w, s.reserved⟩
  /-- For a field of a record. -/
  | field {ctx : Context} {name : String} {v w : Value} {id : Option ObjectId}
      {source : List (String × Value)} {before after : List (String × Target)}
      {f : String × Target} {entries : List (String × Mapped)} {s s₁ : State}
      (hv : resolve ctx.records v = some (.record id source))
      (hvisiting : ∀ i, id = some i → i ∉ ctx.visiting)
      (htype : ctx.types.get? name = some (.fields (before ++ f :: after)))
      (hbefore : Chain (FieldAnswer Request.Answers (ctx.reading id) source) before entries s s₁)
      (hw : Fields.lookup? source f.1 = some w) :
      Asks ⟨ctx, .record name, v, s⟩ ⟨ctx.reading id, f.2, w, s₁⟩

/-- The request that mapping starts with. -/
def Request.first (types : RecordTargets) (t : Target) (v : Value) : Request :=
  ⟨⟨types, v.identified, [], []⟩, t, v, ⟨[], []⟩⟩

/-- A request is made when a value is mapped. -/
def Request.Made (types : RecordTargets) (t : Target) (v : Value) (r : Request) : Prop :=
  Relation.ReflTransGen Asks (.first types t v) r

/-- A request for a holder of a shared result of an identity and a type builds the result: it asks
for its content. -/
def Request.Builds (r : Request) (id : ObjectId) (t : Target) : Prop :=
  r.target.Holds t ∧ objectId? r.value = some id ∧ ∃ q, Asks r q

/-- A request reads the record of an identity as a record type. -/
def Request.Reads (r : Request) (id : ObjectId) (name : String) : Prop :=
  r.target = .record name ∧
    ∃ source, resolve r.context.records r.value = some (.record (some id) source)

variable {ctx : Context} {t u : Target} {v : Value} {m root : Mapped} {s s₁ s₂ s' : State}
  {r q p : Request} {pending : List (SharedKey × Nat)} {key : SharedKey} {cell : Nat}
  {id : ObjectId}

/-! ## Sequences -/

section Sequences

variable {α β : Type} {step : α → β → State → State → Prop} {a : α} {as before after : List α}
  {b : β} {bs bs' : List β}

/-- Steps for two lists one after the other. -/
theorem Chain.of_append (h : Chain step (before ++ after) bs s s') :
    ∃ bs₁ bs₂ s₁, Chain step before bs₁ s s₁ ∧ Chain step after bs₂ s₁ s' ∧ bs = bs₁ ++ bs₂ := by
  induction before generalizing bs s with
  | nil => exact ⟨[], bs, s, .nil s, h, rfl⟩
  | cons a before ih =>
    cases h with
    | cons hfirst hrest =>
      obtain ⟨bs₁, bs₂, s₁, hbefore, hafter, rfl⟩ := ih hrest
      exact ⟨_ :: bs₁, bs₂, s₁, .cons hfirst hbefore, hafter, rfl⟩

/-- Steps that have one outcome each go through the state that those before leave. -/
theorem Chain.through (h : Chain step (before ++ a :: after) bs s s')
    (hbefore : Chain step before bs' s s₁)
    (hunique : ∀ a b b' s s' s'', step a b s s' → step a b' s s'' → b = b' ∧ s' = s'') :
    ∃ b bs₂ s₂, step a b s₁ s₂ ∧ Chain step after bs₂ s₂ s' ∧ bs = bs' ++ b :: bs₂ := by
  obtain ⟨bs₁, bs₂, s₂, hfirst, hrest, rfl⟩ := h.of_append
  obtain ⟨rfl, rfl⟩ := hfirst.unique hbefore hunique
  cases hrest with
  | cons hstep hafter => exact ⟨_, _, _, hstep, hafter, rfl⟩

/-- A result of steps is the result of one of them. -/
theorem Chain.exists_of_mem (h : Chain step as bs s s') (hb : b ∈ bs) :
    ∃ before a after bs₁ bs₂ s₁ s₂, as = before ++ a :: after ∧ Chain step before bs₁ s s₁ ∧
      step a b s₁ s₂ ∧ Chain step after bs₂ s₂ s' := by
  induction h with
  | nil => cases hb
  | @cons a as b' bs s s₁ s₂ hfirst hrest ih =>
    rcases List.mem_cons.mp hb with rfl | hb
    · exact ⟨[], a, as, [], bs, s, s₁, rfl, .nil s, hfirst, hrest⟩
    · obtain ⟨before, a', after, bs₁, bs₂, t₁, t₂, rfl, hbefore, hstep, hafter⟩ := ih hb
      exact ⟨a :: before, a', after, _, bs₂, t₁, t₂, rfl, .cons hfirst hbefore, hstep, hafter⟩

/-- What becomes true in steps becomes true in one of them. -/
theorem Chain.exists_step {P : State → Prop} (h : Chain step as bs s s') (hs : ¬ P s)
    (hs' : P s') : ∃ before a after bs₁ b s₁ s₂, as = before ++ a :: after ∧
      Chain step before bs₁ s s₁ ∧ step a b s₁ s₂ ∧ ¬ P s₁ ∧ P s₂ := by
  induction h with
  | nil => exact absurd hs' hs
  | @cons a as b bs s s₁ s₂ hfirst hrest ih =>
    by_cases hs₁ : P s₁
    · exact ⟨[], a, as, [], b, s, s₁, rfl, .nil s, hfirst, hs, hs₁⟩
    · obtain ⟨before, a', after, bs₁, b', t₁, t₂, rfl, hbefore, hstep, ht₁, ht₂⟩ := ih hs₁ hs'
      exact ⟨a :: before, a', after, _, b', t₁, t₂, rfl, .cons hfirst hbefore, hstep, ht₁, ht₂⟩

end Sequences

/-- An item has one answer. -/
theorem itemAnswer_unique (ctx : Context) (t : Target) (v : Value) (m m' : Mapped)
    (s s' s'' : State) (h : ItemAnswer Request.Answers ctx t v m s s')
    (h' : ItemAnswer Request.Answers ctx t v m' s s'') : m = m' ∧ s' = s'' :=
  Request.Answers.unique h h'

/-- A field has one answer. -/
theorem fieldAnswer_unique (ctx : Context) (source : List (String × Value)) (f : String × Target)
    (entry entry' : String × Mapped) (s s' s'' : State)
    (h : FieldAnswer Request.Answers ctx source f entry s s')
    (h' : FieldAnswer Request.Answers ctx source f entry' s s'') : entry = entry' ∧ s' = s'' := by
  have hanswer : ∀ q m s m' s', Request.Answers q m s → Request.Answers q m' s' →
      m = m' ∧ s = s' := fun _ _ _ _ _ => Request.Answers.unique
  exact h.unique hanswer h'

/-- Items that are answered grow the state. -/
theorem Chain.grows_items {vs : List Value} {ms : List Mapped}
    (h : Chain (ItemAnswer Request.Answers ctx t) vs ms s s') : Grows ctx.pending s s' :=
  h.rel (Grows.refl _) (fun _ _ _ => Grows.trans) fun _ _ _ _ hitem => hitem.grows

/-- Fields that are answered grow the state. -/
theorem Chain.grows_fields {id : Option ObjectId} {source : List (String × Value)}
    {targets : List (String × Target)} {entries : List (String × Mapped)}
    (h : Chain (FieldAnswer Request.Answers (ctx.reading id) source) targets entries s s') :
    Grows ctx.pending s s' := by
  have hfields := h.rel (Grows.refl _) (fun _ _ _ => Grows.trans)
    fun _ _ _ _ hfield => hfield.grows fun _ _ _ hq => hq.grows
  rwa [Context.pending_reading] at hfields

/-! ## What a request finds and what follows its answer -/

/-- The state has grown when a request is asked for. -/
theorem Asks.grows (h : Asks r q) : Grows r.context.pending r.state q.state := by
  cases h with
  | item _ hbefore => exact hbefore.grows_items
  | field _ _ _ hbefore => exact hbefore.grows_fields
  | built => exact .added _ _ [none]
  | _ => exact .refl _ _

/-- What is being built further out is still being built. -/
theorem Asks.still_pending (h : Asks r q) (hkey : r.context.pending.lookup key = some cell) :
    q.context.pending.lookup key = some cell := by
  cases h with
  | @built ctx _ t _ _ s id _ _ _ hpending =>
    have hne : key ≠ (id, t) := by
      rintro rfl
      cases hpending.symm.trans hkey
    dsimp only [Context.building]
    rw [lookup_cons_of_ne hne]
    exact hkey
  | field => rwa [Context.pending_reading]
  | _ => exact hkey

/-- What is being built is not finished. -/
def Request.Unfinished (r : Request) : Prop :=
  ∀ key cell, r.context.pending.lookup key = some cell → r.state.finished.lookup key = none

/-- What is being built is not finished at the requests that are asked for either. -/
theorem Asks.unfinished (h : Asks r q) (hr : r.Unfinished) : q.Unfinished := by
  have hold : ∀ key cell, r.context.pending.lookup key = some cell →
      q.state.finished.lookup key = none :=
    fun key cell hkey => h.grows.unfinished hkey (hr key cell hkey)
  cases h with
  | @built ctx _ t _ _ s id _ _ hfinished =>
    intro key cell hkey
    dsimp only [Context.building] at hkey
    by_cases heq : key = (id, t)
    · rw [heq]
      exact hfinished
    · rw [lookup_cons_of_ne heq] at hkey
      exact hold key cell hkey
  | @field ctx _ _ _ id =>
    intro key cell hkey
    rw [Context.pending_reading] at hkey
    exact hold key cell hkey
  | _ => exact hold

/-- What mapping does after an answer keeps the cells and what is finished. What it finishes then
was being built, or has a new cell. -/
structure Continues (pending : List (SharedKey × Nat)) (s s' : State) : Prop where
  /-- There are no fewer cells. -/
  length_le : s.heap.length ≤ s'.heap.length
  /-- Contents are kept. -/
  keeps : Kept s.heap s'.heap
  /-- What is finished stays so. -/
  kept : ∀ {key cell}, s.finished.lookup key = some cell → s'.finished.lookup key = some cell
  /-- What is newly finished. -/
  fresh : ∀ {key cell}, s'.finished.lookup key = some cell →
    s.finished.lookup key = some cell ∨ pending.lookup key = some cell ∨ s.heap.length ≤ cell

/-- Further growth continues an answer. -/
theorem Grows.continues {others : List (SharedKey × Nat)} (h : Grows others s s') :
    Continues pending s s' := by
  refine ⟨h.length_le, h.keeps, h.kept, fun hkey => ?_⟩
  rcases h.fresh hkey with hold | ⟨-, hleast, -⟩
  · exact .inl hold
  · exact .inr (.inr hleast)

/-- Filling the cell of the shared result that is being built continues the answer. -/
theorem continues_finish (hcell : s.heap[cell]? = some none)
    (hfinished : s.finished.lookup key = none) (m : Mapped) :
    Continues ((key, cell) :: pending) s (s.finish key cell m) := by
  refine ⟨Nat.le_of_eq List.length_set.symm, Mapped.kept_set hcell m, fun {key' cell'} hkey => ?_,
    fun {key' cell'} hkey => ?_⟩
  · have hne : key' ≠ key := by
      rintro rfl
      cases hfinished.symm.trans hkey
    rw [State.finish, lookup_cons_of_ne hne]
    exact hkey
  · rw [State.finish] at hkey
    by_cases heq : key' = key
    · rw [heq, List.lookup_cons_self] at hkey ⊢
      exact .inr (.inl hkey)
    · rw [lookup_cons_of_ne heq] at hkey
      exact .inl hkey

/-- What mapping does after an answer goes on in steps. -/
theorem Continues.trans {others : List (SharedKey × Nat)} (h : Continues others s s₁)
    (h' : Continues pending s₁ s')
    (hpending : ∀ {key cell}, pending.lookup key = some cell → others.lookup key = some cell) :
    Continues others s s' := by
  have hkeeps : Kept s.heap s'.heap := fun cell m hcell => h'.keeps _ _ (h.keeps _ _ hcell)
  refine ⟨Nat.le_trans h.length_le h'.length_le, hkeeps, fun hkey => h'.kept (h.kept hkey),
    fun hkey => ?_⟩
  rcases h'.fresh hkey with hold | hold | hleast
  · exact h.fresh hold
  · exact .inr (.inl (hpending hold))
  · exact .inr (.inr (Nat.le_trans h.length_le hleast))

/-! ## Answers to the requests that are asked for -/

/-- A holder that is not empty and not of what is being built gets its cell. -/
theorem Step.cellAnswer {A : AnswerRel} {target : Target} (hholds : target.Holds t)
    (hnull : target = .weak t → v.isNull = false)
    (hpending : ∀ id, objectId? v = some id → ctx.pending.lookup (id, t) = none)
    (h : Step A ⟨ctx, target, v, s⟩ m s') :
    ∃ cell, m = target.holder cell ∧ CellAnswer A ctx t v cell s s' := by
  cases hholds with
  | shared =>
    cases h with
    | scalar h => cases h
    | shared h => exact ⟨_, rfl, h⟩
  | weak =>
    cases h with
    | scalar h => cases h
    | empty h => cases h.symm.trans (hnull rfl)
    | ancestor hid hcell => cases hcell.symm.trans (hpending _ hid)
    | downgraded _ _ h => exact ⟨_, rfl, h⟩

/-- A holder for a value without identity gets a new cell with the content of the value. -/
theorem Request.Answers.fresh (hholds : r.target.Holds u) (hid : objectId? r.value = none)
    (hnull : r.target = .weak u → r.value.isNull = false) (h : r.Answers m s') :
    ∃ content s, Request.Answers ⟨r.context, u, r.value, r.state⟩ content s ∧
      m = r.target.holder s.heap.length ∧ s' = s.allocated content := by
  have hpending : ∀ i, objectId? r.value = some i → r.context.pending.lookup (i, u) = none :=
    fun i hid' => by cases hid.symm.trans hid'
  obtain ⟨cell, rfl, hcell⟩ := h.step.cellAnswer hholds hnull hpending
  cases hcell with
  | fresh _ hcontent => exact ⟨_, _, hcontent, rfl, rfl⟩
  | found hid' | built hid' => cases hid.symm.trans hid'

/-- The request for the content of a cell that is taken first. -/
def Request.forContent (r : Request) (id : ObjectId) (t : Target) (w : Value) : Request :=
  ⟨r.context.building (id, t) r.state.heap.length, t, w, r.state.reserved⟩

/-- A holder for a value with an identity whose shared result is neither finished nor being built
takes a cell and fills it with the content, and the shared result is finished. -/
theorem Request.Answers.built {w : Value} (hholds : r.target.Holds u)
    (hid : objectId? r.value = some id) (hfinished : r.state.finished.lookup (id, u) = none)
    (hpending : r.context.pending.lookup (id, u) = none)
    (hw : resolve r.context.records r.value = some w) (h : r.Answers m s') :
    ∃ content s, (r.forContent id u w).Answers content s ∧
      s' = s.finish (id, u) r.state.heap.length content := by
  have hnone : ∀ i, objectId? r.value = some i → r.context.pending.lookup (i, u) = none := by
    intro i hid'
    cases hid.symm.trans hid'
    exact hpending
  obtain ⟨cell, -, hcell⟩ := h.step.cellAnswer hholds (fun _ => isNull_of_objectId? hid) hnone
  cases hcell with
  | fresh hid' => cases hid.symm.trans hid'
  | found hid' hcell' =>
    cases hid.symm.trans hid'
    cases hfinished.symm.trans hcell'
  | built hid' _ _ hw' hcontent =>
    cases hid.symm.trans hid'
    cases hw.symm.trans hw'
    exact ⟨_, _, hcontent, rfl⟩

/-- What a request asks for is answered when the request is. After that mapping goes on to the
answer of the request, and what was being built for the other request only is finished then. -/
theorem Asks.answered (h : Asks r q) (hr : r.Answers m s') :
    ∃ mq sq, q.Answers mq sq ∧ Continues q.context.pending sq s' ∧
      ∀ {key cell}, q.context.pending.lookup key = some cell →
        r.context.pending.lookup key = some cell ∨ s'.finished.lookup key = some cell := by
  have hstep := hr.step
  cases h with
  | option hnull =>
    cases hstep with
    | scalar h => cases h
    | absent hnull' => cases hnull.symm.trans hnull'
    | present _ h => exact ⟨_, _, h, (Grows.refl [] _).continues, .inl⟩
  | boxed =>
    cases hstep with
    | scalar h => cases h
    | boxed h => exact ⟨_, _, h, (Grows.refl [] _).continues, .inl⟩
  | item hv hbefore =>
    obtain ⟨ms, -, hitems⟩ := hr.items hv
    obtain ⟨mq, _, sq, hq, hafter, -⟩ := hitems.through hbefore (itemAnswer_unique _ _)
    exact ⟨mq, sq, hq, hafter.grows_items.continues, .inl⟩
  | fresh hholds hid hnull =>
    obtain ⟨content, sq, hq, -, rfl⟩ := hr.fresh hholds hid hnull
    exact ⟨content, sq, hq, (Grows.added [] sq [_]).continues, .inl⟩
  | @built ctx target t v w s id hholds hid hfinished hpending hw =>
    obtain ⟨content, sq, hq, rfl⟩ := hr.built hholds hid hfinished hpending hw
    have hunfinished := hq.grows.unfinished List.lookup_cons_self hfinished
    refine ⟨content, sq, hq, continues_finish hq.grows.getElem?_reserved hunfinished _, ?_⟩
    intro key cell hkey
    -- Only the key of the content stops being built with this answer.
    by_cases heq : key = (id, t)
    · rw [heq] at hkey ⊢
      rw [Context.building, List.lookup_cons_self] at hkey
      rw [State.finish, List.lookup_cons_self]
      exact .inr hkey
    · rw [Context.building, lookup_cons_of_ne heq] at hkey
      exact .inl hkey
  | field hv hvisiting htype hbefore hw =>
    obtain ⟨entries, -, hfields⟩ := hr.fields hv htype
    obtain ⟨entry, _, sq, hq, hafter, -⟩ := hfields.through hbefore (fieldAnswer_unique _ _)
    cases hq with
    | missing hsource => cases hsource.symm.trans hw
    | found hw' hq =>
      cases hw.symm.trans hw'
      refine ⟨_, sq, hq, hafter.grows_fields.continues, fun hkey => .inl ?_⟩
      rwa [Context.pending_reading] at hkey

/-! ## Requests at any distance -/

/-- Every request that follows from an answered one is answered. After that mapping goes on to the
end, and what was being built then is finished there. -/
theorem Request.Answers.reached (hp : p.Answers root s') (h : Relation.ReflTransGen Asks p r) :
    ∃ m s, r.Answers m s ∧ Continues r.context.pending s s' ∧
      ∀ {key cell}, r.context.pending.lookup key = some cell →
        p.context.pending.lookup key = some cell ∨ s'.finished.lookup key = some cell := by
  induction h with
  | refl => exact ⟨root, s', hp, (Grows.refl [] s').continues, .inl⟩
  | tail _ hasks ih =>
    obtain ⟨m, s, hr, hcontinues, hpending⟩ := ih
    obtain ⟨mq, sq, hq, hcontinues', hpending'⟩ := hasks.answered hr
    refine ⟨mq, sq, hq, hcontinues'.trans hcontinues hasks.still_pending, fun hkey => ?_⟩
    rcases hpending' hkey with hold | hfinished
    · exact hpending hold
    · exact .inr (hcontinues.kept hfinished)

/-- The number of cells grows from request to request. -/
theorem length_le_of_reached (h : Relation.ReflTransGen Asks p r) :
    p.state.heap.length ≤ r.state.heap.length := by
  induction h with
  | refl => exact Nat.le_refl _
  | tail _ hasks ih => exact Nat.le_trans ih hasks.grows.length_le

/-- What is being built stays so from request to request. -/
theorem pending_of_reached (h : Relation.ReflTransGen Asks p r)
    (hkey : p.context.pending.lookup key = some cell) :
    r.context.pending.lookup key = some cell := by
  induction h with
  | refl => exact hkey
  | tail _ hasks ih => exact hasks.still_pending ih

/-- What is being built is not finished, from request to request. -/
theorem unfinished_of_reached (h : Relation.ReflTransGen Asks p r) (hp : p.Unfinished) :
    r.Unfinished := by
  induction h with
  | refl => exact hp
  | tail _ hasks ih => exact hasks.unfinished ih

/-- A record that is being read is still being read. -/
theorem Asks.still_visiting (h : Asks r q) (hid : id ∈ r.context.visiting) :
    id ∈ q.context.visiting := by
  cases h with
  | @field _ _ _ _ own =>
    cases own with
    | none => exact hid
    | some _ => exact List.mem_cons_of_mem _ hid
  | _ => exact hid

/-- A record that is being read is so from request to request. -/
theorem visiting_of_reached (h : Relation.ReflTransGen Asks p r) (hid : id ∈ p.context.visiting) :
    id ∈ r.context.visiting := by
  induction h with
  | refl => exact hid
  | tail _ hasks ih => exact hasks.still_visiting ih

/-! ## One cell -/

/-- The cell that a value with an identity gets is finished. -/
theorem CellAnswer.finished {A : AnswerRel} (hid : objectId? v = some id)
    (h : CellAnswer A ctx t v cell s s') : s'.finished.lookup (id, t) = some cell := by
  cases h with
  | fresh hid' => cases hid.symm.trans hid'
  | found hid' hcell =>
    cases hid.symm.trans hid'
    exact hcell
  | built hid' =>
    cases hid.symm.trans hid'
    exact List.lookup_cons_self

/-- A holder for a value with an identity gets the cell that is being built or finished. -/
theorem Request.Answers.holder (hholds : r.target.Holds u) (hid : objectId? r.value = some id)
    (h : r.Answers m s) : ∃ cell, m = r.target.holder cell ∧
      (r.context.pending.lookup (id, u) = some cell ∨ s.finished.lookup (id, u) = some cell) := by
  have hstep := h.step
  obtain ⟨ctx, target, v, s₀⟩ := r
  cases hholds with
  | shared =>
    cases hstep with
    | scalar hread => cases hread
    | shared h => exact ⟨_, rfl, .inr (h.finished hid)⟩
  | weak =>
    cases hstep with
    | scalar hread => cases hread
    | empty hnull => cases hnull.symm.trans (isNull_of_objectId? hid)
    | ancestor hid' hcell =>
      cases hid.symm.trans hid'
      exact ⟨_, rfl, .inl hcell⟩
    | downgraded _ _ h => exact ⟨_, rfl, .inr (h.finished hid)⟩

/-- What a holder for a value with an identity asks for is the content of a cell that it takes
first. -/
theorem Asks.content (hholds : r.target.Holds u) (hid : objectId? r.value = some id)
    (h : Asks r q) : r.state.finished.lookup (id, u) = none ∧
      r.context.pending.lookup (id, u) = none ∧
      ∃ w, resolve r.context.records r.value = some w ∧ q = r.forContent id u w := by
  cases h with
  | option | boxed | item | field => cases hholds
  | fresh _ hid' => cases hid.symm.trans hid'
  | built hholds' hid' hfinished hpending hw =>
    cases hid.symm.trans hid'
    cases hholds.unique hholds'
    exact ⟨hfinished, hpending, _, hw, rfl⟩

/-- The cell is taken before the content is requested. -/
theorem Request.length_forContent (r : Request) (id : ObjectId) (t : Target) (w : Value) :
    (r.forContent id t w).state.heap.length = r.state.heap.length + 1 := List.length_append

/-- While the content is built the cell is known. -/
theorem Request.lookup_forContent (r : Request) (id : ObjectId) (t : Target) (w : Value) :
    (r.forContent id t w).context.pending.lookup (id, t) = some r.state.heap.length :=
  List.lookup_cons_self

/-- What a holder for a value without identity asks for is the content of the value. -/
theorem Asks.fresh_content (hholds : r.target.Holds u) (hid : objectId? r.value = none)
    (h : Asks r q) : q = ⟨r.context, u, r.value, r.state⟩ ∧
      (r.target = .weak u → r.value.isNull = false) := by
  cases h with
  | option | boxed | item | field => cases hholds
  | built _ hid' => cases hid.symm.trans hid'
  | fresh hholds' _ hnull =>
    cases hholds.unique hholds'
    exact ⟨rfl, hnull⟩

/-! ## The order of requests -/

section Separation

variable {α β : Type} {step : α → β → State → State → Prop} {a a' : α}
  {as as' before before' after after' : List α} {bs bs' : List β}

/-- Of two places in a list of steps that have one outcome each, either they are the same, or the
step at one is over when the steps before the other are. -/
theorem Chain.separate (h : Chain step before bs s s₁) (h' : Chain step before' bs' s s₂)
    (heq : before ++ a :: after = before' ++ a' :: after')
    (hunique : ∀ a b b' s s' s'', step a b s s' → step a b' s s'' → b = b' ∧ s' = s'') :
    a = a' ∧ s₁ = s₂ ∨
      (∃ b mid bs₃ s₃, step a b s₁ s₃ ∧ Chain step mid bs₃ s₃ s₂) ∨
      (∃ b mid bs₃ s₃, step a' b s₂ s₃ ∧ Chain step mid bs₃ s₃ s₁) := by
  -- The steps before one place are a front part of those before the other; what lies between them
  -- is empty, or starts with the first of the two places.
  rcases List.append_eq_append_iff.mp heq with ⟨mid, rfl, hmid⟩ | ⟨mid, rfl, hmid⟩
  · cases mid with
    | nil =>
      rw [List.append_nil] at h'
      cases hmid
      exact .inl ⟨rfl, (h.unique h' hunique).2⟩
    | cons x mid =>
      cases hmid
      obtain ⟨b, bs₂, s₃, hstep, hrest, -⟩ := h'.through h hunique
      exact .inr (.inl ⟨b, mid, bs₂, s₃, hstep, hrest⟩)
  · cases mid with
    | nil =>
      rw [List.append_nil] at h
      cases hmid
      exact .inl ⟨rfl, (h.unique h' hunique).2⟩
    | cons x mid =>
      cases hmid
      obtain ⟨b, bs₂, s₃, hstep, hrest, -⟩ := h.through h' hunique
      exact .inr (.inr ⟨b, mid, bs₂, s₃, hstep, hrest⟩)

end Separation

/-- A request is over when another one is made. -/
def Precedes (q r : Request) : Prop :=
  ∀ m s, q.Answers m s → s.heap.length ≤ r.state.heap.length

/-- An item is over when those after it are. -/
theorem precedes_of_item {w : Value} {mid : List Value} {ms : List Mapped}
    (hw : ItemAnswer Request.Answers ctx t w m s s₁)
    (hrest : Chain (ItemAnswer Request.Answers ctx t) mid ms s₁ s₂) (w' : Value) :
    Precedes ⟨ctx, t, w, s⟩ ⟨ctx, t, w', s₂⟩ := by
  intro m' s' h
  obtain ⟨-, rfl⟩ := Request.Answers.unique hw h
  exact hrest.grows_items.length_le

/-- A field is over when those after it are. -/
theorem precedes_of_field {own : Option ObjectId} {source : List (String × Value)}
    {f : String × Target} {w : Value} {entry : String × Mapped} {mid : List (String × Target)}
    {entries : List (String × Mapped)} (hw : Fields.lookup? source f.1 = some w)
    (hfield : FieldAnswer Request.Answers (ctx.reading own) source f entry s s₁)
    (hrest : Chain (FieldAnswer Request.Answers (ctx.reading own) source) mid entries s₁ s₂)
    {f' : String × Target} {w' : Value} :
    Precedes ⟨ctx.reading own, f.2, w, s⟩ ⟨ctx.reading own, f'.2, w', s₂⟩ := by
  intro m' s' h
  cases hfield with
  | missing hsource => cases hsource.symm.trans hw
  | found hw' hanswer =>
    cases hw.symm.trans hw'
    obtain ⟨-, rfl⟩ := hanswer.unique h
    exact hrest.grows_fields.length_le

/-- Of two requests that a request asks for, either they are the same, or one is over when the other
is made. -/
theorem Asks.separate (hq : Asks p q) (hr : Asks p r) : q = r ∨ Precedes q r ∨ Precedes r q := by
  cases hq with
  | option =>
    cases hr with
    | fresh hholds | built hholds => cases hholds
    | option => exact .inl rfl
  | boxed =>
    cases hr with
    | fresh hholds | built hholds => cases hholds
    | boxed => exact .inl rfl
  | item hv hbefore =>
    cases hr with
    | fresh hholds | built hholds => cases hholds
    | item hv' hbefore' =>
      have heq := Value.list.inj (Option.some.inj (hv.symm.trans hv'))
      rcases hbefore.separate hbefore' heq (itemAnswer_unique _ _) with
        ⟨rfl, rfl⟩ | ⟨_, _, _, _, hw, hrest⟩ | ⟨_, _, _, _, hw, hrest⟩
      · exact .inl rfl
      · exact .inr (.inl (precedes_of_item hw hrest _))
      · exact .inr (.inr (precedes_of_item hw hrest _))
  | fresh hholds hid =>
    cases hr with
    | option | boxed | item | field => cases hholds
    | fresh hholds' =>
      cases hholds.unique hholds'
      exact .inl rfl
    | built _ hid' => cases hid.symm.trans hid'
  | built hholds hid _ _ hw =>
    cases hr with
    | option | boxed | item | field => cases hholds
    | fresh _ hid' => cases hid.symm.trans hid'
    | built hholds' hid' _ _ hw' =>
      cases hholds.unique hholds'
      cases hid.symm.trans hid'
      cases hw.symm.trans hw'
      exact .inl rfl
  | field hv _ htype hbefore hw =>
    cases hr with
    | fresh hholds | built hholds => cases hholds
    | field hv' _ htype' hbefore' hw' =>
      cases hv.symm.trans hv'
      have heq := RecordReading.fields.inj (Option.some.inj (htype.symm.trans htype'))
      rcases hbefore.separate hbefore' heq (fieldAnswer_unique _ _) with
        ⟨rfl, rfl⟩ | ⟨_, _, _, _, hfield, hrest⟩ | ⟨_, _, _, _, hfield, hrest⟩
      · cases hw.symm.trans hw'
        exact .inl rfl
      · exact .inr (.inl (precedes_of_field hw hfield hrest))
      · exact .inr (.inr (precedes_of_field hw' hfield hrest))

end Mapping
end QueryRelay
