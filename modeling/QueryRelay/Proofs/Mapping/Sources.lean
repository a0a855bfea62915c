import QueryRelay.Proofs.Mapping.Identity

/-!
# Where the cells of a mapped graph come from

Every holder of a cell in an answer is the answer to a request that leads there through parts, and
every cell that is held is taken by one request, which fills it with the answer to the request for
its content. What stands for an absent field is the only other source of cells, and it keeps to
itself. Main statements: where the holders within an answer come from; who takes the cell of a
holder; and what is in a cell that was taken.
-/

namespace QueryRelay.Mapping

open Value (resolve)

variable {ctx : Context} {t u : Target} {v : Value} {m root inner content : Mapped}
  {s s₁ s₂ s' : State} {r q p b : Request} {cell : Nat} {id : ObjectId}

/-! ## Who takes a cell -/

/-- A shared result that is finished now was finished before, or a request that follows builds it
and takes its cell. -/
def FinishedBy (r : Request) (s' : State) : Prop :=
  ∀ id u cell, s'.finished.lookup (id, u) = some cell →
    r.state.finished.lookup (id, u) ≠ some cell →
      ∃ b, Relation.ReflTransGen Asks r b ∧ b.Builds id u ∧ cell = b.state.heap.length

/-- What a request that is asked for builds is built by one that follows. -/
theorem FinishedBy.head (h : FinishedBy q s') (hq : Asks r q)
    (hkey : s'.finished.lookup (id, u) = some cell)
    (hnew : q.state.finished.lookup (id, u) ≠ some cell) :
    ∃ b, Relation.ReflTransGen Asks r b ∧ b.Builds id u ∧ cell = b.state.heap.length := by
  obtain ⟨b, hb, hbuilds, hcell⟩ := h id u cell hkey hnew
  exact ⟨b, .head hq hb, hbuilds, hcell⟩

/-- A holder that finishes a shared result builds it, or a request that follows does. -/
theorem CellAnswer.finishedBy {target : Target} {own : Nat} (hholds : target.Holds t)
    (hnull : target = .weak t → v.isNull = false)
    (h : CellAnswer (fun q m s => q.Answers m s ∧ FinishedBy q s) ctx t v own s s') :
    FinishedBy ⟨ctx, target, v, s⟩ s' := by
  intro id u cell hkey hnew
  cases h with
  | fresh hid h => exact h.2.head (.fresh hholds hid hnull) hkey hnew
  | found => exact absurd hkey hnew
  | @built w _ own _ _ hid hfinished hpending hw h =>
    have hasks : Asks ⟨ctx, target, v, s⟩ _ := .built hholds hid hfinished hpending hw
    rw [State.finish] at hkey
    by_cases heq : (id, u) = (own, t)
    · cases heq
      rw [List.lookup_cons_self] at hkey
      exact ⟨_, .refl, ⟨hholds, hid, _, hasks⟩, (Option.some.inj hkey).symm⟩
    · rw [lookup_cons_of_ne heq] at hkey
      exact h.2.head hasks hkey hnew

/-- What is finished when a request is answered was finished before, or a request that follows
builds it. -/
theorem Request.Answers.finishedBy (h : r.Answers m s') : FinishedBy r s' := by
  refine h.induct (P := fun r _ s' => FinishedBy r s') ?_
  intro r m s' _ hstep id u cell hkey hnew
  cases hstep with
  | present hnull h => exact h.2.head (.option hnull) hkey hnew
  | boxed h => exact h.2.head .boxed hkey hnew
  | items hv h =>
    obtain ⟨before, w, after, ms, m, s₁, s₂, rfl, hbefore, hitem, hnew', hkey'⟩ :=
      h.exists_step (P := fun s => s.finished.lookup (id, u) = some cell) hnew hkey
    have hasks := Asks.item hv (hbefore.mono fun _ _ _ _ hitem => hitem.1)
    exact hitem.2.head hasks hkey' hnew'
  | shared h => exact h.finishedBy (.shared _) nofun id u cell hkey hnew
  | downgraded hnull _ h => exact h.finishedBy (.weak _) (fun _ => hnull) id u cell hkey hnew
  | fields hv hvisiting htype h =>
    obtain ⟨before, f, after, entries, e, s₁, s₂, rfl, hbefore, hfield, hnew', hkey'⟩ :=
      h.exists_step (P := fun s => s.finished.lookup (id, u) = some cell) hnew hkey
    have hbefore' := hbefore.mono fun _ _ _ _ => FieldAnswer.mono fun _ _ _ hq => hq.1
    cases hfield with
    | found hw hanswer => exact hanswer.2.head (.field hv hvisiting htype hbefore' hw) hkey' hnew'
    | missing _ haction haction' =>
      rw [(missing_separate haction haction').1.finished] at hkey'
      exact absurd hkey' hnew'
  | _ => exact absurd hkey hnew

/-! ## What is in a cell -/

/-- A cell that a holder takes is filled with the answer to the request for its content. -/
theorem content_of_takes (hp : p.Answers root s') (hb : Relation.ReflTransGen Asks p b)
    (hcell : b.Takes cell) (hholds : b.target.Holds u) (hq : Asks b q) :
    ∃ content s, q.Answers content s ∧ s'.heap[cell]? = some (some content) := by
  obtain ⟨m, s, hanswer, hcontinues, -⟩ := hp.reached hb
  cases hcell with
  | built h =>
    obtain ⟨hfinished, hpending, w, hw, rfl⟩ := hq.content h.1 h.2.1
    obtain ⟨content, s₁, hcontent, rfl⟩ := hanswer.built h.1 h.2.1 hfinished hpending hw
    refine ⟨content, s₁, hcontent, hcontinues.keeps _ _ ?_⟩
    have hempty : s₁.heap[b.state.heap.length]? = some none := hcontent.grows.getElem?_reserved
    rw [State.finish, List.getElem?_set_self (List.getElem?_eq_some_iff.mp hempty).1]
  | fresh hholds' hid hasks h =>
    obtain ⟨rfl, hnull⟩ := hasks.fresh_content hholds' hid
    obtain ⟨rfl, -⟩ := hq.fresh_content hholds' hid
    obtain ⟨content, s₁, hcontent, -, rfl⟩ := hanswer.fresh hholds' hid hnull
    obtain ⟨-, rfl⟩ := h.unique hcontent
    refine ⟨content, _, hcontent, hcontinues.keeps _ _ ?_⟩
    rw [State.allocated, List.getElem?_concat_length]
  | absent => cases hholds

/-- A cell that is taken for an absent field is filled with a result that owns such cells only, and
has no weak holder of any. -/
theorem content_of_takes_absent (hp : p.Answers root s') (hb : Relation.ReflTransGen Asks p b)
    (hcell : b.Takes cell) (htarget : ∀ u, ¬ b.target.Holds u) :
    ∃ content, s'.heap[cell]? = some (some content) ∧ (∀ c ∈ content.owned, b.Takes c) ∧
      ∀ c, ¬ content.Within (.weak (some c)) := by
  obtain ⟨m, s, hanswer, hcontinues, -⟩ := hp.reached hb
  cases hcell with
  | built h => exact absurd h.1 (htarget _)
  | fresh hholds => exact absurd hholds (htarget _)
  | absent hv htype hbefore hsource haction h hleast hless =>
    obtain ⟨hseparate, -⟩ := missing_separate haction h
    obtain ⟨content, hcontent, howned, hweak⟩ := hseparate.alone hleast hless
    obtain ⟨entries', -, hfields⟩ := hanswer.fields hv htype
    obtain ⟨entry, _, s₃, hfield, hafter, -⟩ := hfields.through hbefore (fieldAnswer_unique _ _)
    obtain rfl := state_of_absent hfield hsource haction h
    have hkept := hcontinues.keeps _ _ (hafter.grows_fields.keeps _ _ hcontent)
    refine ⟨content, hkept, fun c hc => ?_, hweak⟩
    obtain ⟨hleast', hless'⟩ := howned c hc
    exact .absent hv htype hbefore hsource haction h hleast' (Nat.lt_trans hless' hless)

/-- A holder that gets a cell is not for null. -/
theorem isNull_of_holder (hweak : r.target = .weak u) (h : r.Answers (r.target.holder cell) s) :
    r.value.isNull = false := by
  have hstep := h.step
  obtain ⟨ctx, target, v, s₀⟩ := r
  cases hweak
  generalize hm : Target.holder (.weak u) cell = m at hstep
  cases hstep with
  | scalar hread => cases hread
  | empty => cases hm
  | ancestor hid => exact isNull_of_objectId? hid
  | downgraded hnull => exact hnull

/-- The cell of a holder is taken by a request for the content of the same identity. If there is no
identity, the holder takes it itself. -/
theorem exists_takes {types : RecordTargets} (hfirst : (Request.first types t v).Answers root s')
    (hr : Request.Made types t v r) (hholds : r.target.Holds u)
    (h : r.Answers (r.target.holder cell) s) :
    ∃ b q, Request.Made types t v b ∧ b.Takes cell ∧ b.target.Holds u ∧
      objectId? b.value = objectId? r.value ∧ Asks b q ∧ (objectId? r.value = none → b = r) := by
  cases hid : objectId? r.value with
  | none =>
    have hnull : r.target = .weak u → r.value.isNull = false := fun hweak =>
      isNull_of_holder hweak h
    obtain ⟨content, s₁, hcontent, hholder, -⟩ := h.fresh hholds hid hnull
    have hq : Asks r ⟨r.context, u, r.value, r.state⟩ := .fresh hholds hid hnull
    rw [hholds.eq_of_holder hholder]
    exact ⟨r, _, hr, .fresh hholds hid hq hcontent, hholds, hid, hq, fun _ => rfl⟩
  | some id =>
    obtain ⟨cell', s₁, hanswer, hfinished⟩ := exists_cell hfirst hr hholds hid
    obtain rfl := hholds.eq_of_holder (h.unique hanswer).1
    obtain ⟨b, hb, hbuilds, rfl⟩ := hfirst.finishedBy id u cell hfinished nofun
    obtain ⟨q, hq⟩ := hbuilds.2.2
    exact ⟨b, q, hb, .built hbuilds, hbuilds.1, hbuilds.2.1, hq, nofun⟩

/-! ## Holders within an answer -/

/-- A request asks for a part of its result, not for the content of a cell. -/
def AsksPart (r q : Request) : Prop := Asks r q ∧ ∀ u, ¬ r.target.Holds u

/-- A request gives a holder of a cell. -/
inductive Request.Gives (r : Request) (inner : Mapped) (cell : Nat) : Prop
  /-- The holder is its answer. -/
  | answer {u : Target} {s : State} (hholds : r.target.Holds u)
      (hinner : inner = r.target.holder cell) (h : r.Answers inner s) : Gives r inner cell
  /-- The holder owns a cell that it takes for an absent field. -/
  | absent (hinner : inner = .shared cell) (hcell : r.Takes cell)
      (htarget : ∀ u, ¬ r.target.Holds u) : Gives r inner cell

/-- A holder of a cell is given by a request that a request leads to through parts. -/
def HolderFrom (r : Request) (inner : Mapped) (cell : Nat) : Prop :=
  ∃ q, Relation.ReflTransGen AsksPart r q ∧ q.Gives inner cell

/-- A holder that comes from a request comes from each that asks for it as a part. -/
theorem HolderFrom.head (h : HolderFrom q inner cell) (hq : Asks r q)
    (htarget : ∀ u, ¬ r.target.Holds u) : HolderFrom r inner cell := by
  obtain ⟨b, hb, hgives⟩ := h
  exact ⟨b, .head ⟨hq, htarget⟩ hb, hgives⟩

/-- A holder within a result that is not a holder is within a part. -/
theorem exists_part_of_holdsCell (hwithin : m.Within inner) (hcell : inner.HoldsCell cell)
    (hm : ¬ m.HoldsCell cell) : ∃ part, Mapped.Part m part ∧ part.Within inner := by
  rcases Relation.ReflTransGen.cases_head hwithin with rfl | hpart
  · exact absurd hcell hm
  · exact hpart

/-- Within a holder there is the holder only. -/
theorem eq_of_within_holder (hholds : u.Holds t) (hwithin : (u.holder cell).Within inner) :
    inner = u.holder cell := by
  rcases Relation.ReflTransGen.cases_head hwithin with heq | ⟨part, hpart, -⟩
  · exact heq.symm
  · cases hholds <;> cases hpart

/-- A holder of a cell is the only holder within itself. -/
theorem holderFrom_self (hholds : r.target.Holds u) {own : Nat}
    (h : r.Answers (r.target.holder own) s) (hwithin : (r.target.holder own).Within inner)
    (hcell : inner.HoldsCell cell) : HolderFrom r inner cell := by
  obtain rfl := eq_of_within_holder hholds hwithin
  obtain rfl := hholds.eq_of_holdsCell hcell
  exact ⟨r, .refl, .answer hholds rfl h⟩

/-- Every holder of a cell within an answer comes from the request. -/
theorem Request.Answers.holderFrom (h : r.Answers m s') (hwithin : m.Within inner)
    (hcell : inner.HoldsCell cell) : HolderFrom r inner cell := by
  revert inner cell
  refine h.induct (P := fun r m _ => ∀ {inner cell}, m.Within inner → inner.HoldsCell cell →
    HolderFrom r inner cell) ?_
  intro r m s' hanswer hstep inner cell hwithin hcell
  cases hstep with
  | scalar h => exact absurd hcell (Mapped.isBare_of_readScalar h inner cell hwithin)
  | null => exact absurd hcell (Mapped.isBare_nil inner cell hwithin)
  | present hnull h =>
    obtain ⟨part, hpart, hwithin⟩ := exists_part_of_holdsCell hwithin hcell nofun
    cases hpart
    exact (h.2 hwithin hcell).head (.option hnull) nofun
  | boxed h => exact (h.2 hwithin hcell).head .boxed nofun
  | items hv h =>
    obtain ⟨part, hpart, hwithin⟩ := exists_part_of_holdsCell hwithin hcell nofun
    cases hpart with
    | item hm =>
      obtain ⟨before, w, after, ms, _, s₁, s₂, rfl, hbefore, hitem, -⟩ := h.exists_of_mem hm
      have hasks := Asks.item hv (hbefore.mono fun _ _ _ _ hitem => hitem.1)
      exact (hitem.2 hwithin hcell).head hasks nofun
  | shared => exact holderFrom_self (.shared _) hanswer hwithin hcell
  | ancestor | downgraded => exact holderFrom_self (.weak _) hanswer hwithin hcell
  | fields hv hvisiting htype h =>
    obtain ⟨part, hpart, hwithin⟩ := exists_part_of_holdsCell hwithin hcell nofun
    cases hpart with
    | field he =>
      obtain ⟨before, f, after, entries, _, s₁, s₂, rfl, hbefore, hfield, -⟩ := h.exists_of_mem he
      have hbefore' := hbefore.mono fun _ _ _ _ => FieldAnswer.mono fun _ _ _ hq => hq.1
      cases hfield with
      | found hw hanswer =>
        exact (hanswer.2 hwithin hcell).head (.field hv hvisiting htype hbefore' hw) nofun
      | missing hsource haction haction' =>
        obtain ⟨-, halone⟩ := missing_separate haction haction'
        rcases hcell with rfl | rfl
        · obtain ⟨hleast, hless⟩ := halone.owned cell (Mapped.mem_owned.mpr hwithin)
          have htakes : Request.Takes _ cell :=
            .absent hv htype hbefore' hsource haction haction' hleast hless
          exact ⟨_, .refl, .absent rfl htakes nofun⟩
        · exact absurd hwithin (halone.weak cell)
  | _ => exact absurd hcell (Mapped.IsLeaf.isBare (by trivial) inner cell hwithin)

/-- The answer to a request for a part is within the answer to the request. -/
theorem AsksPart.within (h : AsksPart r q) {mq : Mapped} {sq : State} (hr : r.Answers m s')
    (hq : q.Answers mq sq) : m.Within mq := by
  have hstep := hr.step
  obtain ⟨hasks, htarget⟩ := h
  cases hasks with
  | fresh hholds | built hholds => exact absurd hholds (htarget _)
  | option hnull =>
    cases hstep with
    | scalar hread => cases hread
    | absent hnull' => cases hnull.symm.trans hnull'
    | present _ h =>
      obtain ⟨rfl, -⟩ := h.unique hq
      exact .single (.present _)
  | boxed =>
    cases hstep with
    | scalar hread => cases hread
    | boxed h =>
      obtain ⟨rfl, -⟩ := h.unique hq
      exact .refl
  | item hv hbefore =>
    obtain ⟨ms, rfl, hitems⟩ := hr.items hv
    obtain ⟨mw, _, sw, hitem, -, rfl⟩ := hitems.through hbefore (itemAnswer_unique _ _)
    obtain ⟨rfl, -⟩ := Request.Answers.unique hitem hq
    exact .single (.item (List.mem_append_right _ List.mem_cons_self))
  | field hv hvisiting htype hbefore hw =>
    obtain ⟨entries, rfl, hfields⟩ := hr.fields hv htype
    obtain ⟨entry, _, sw, hfield, -, rfl⟩ := hfields.through hbefore (fieldAnswer_unique _ _)
    cases hfield with
    | missing hsource => cases hsource.symm.trans hw
    | found hw' hanswer =>
      cases hw.symm.trans hw'
      obtain ⟨rfl, -⟩ := hanswer.unique hq
      exact .single (.field (e := (_, _)) (List.mem_append_right _ List.mem_cons_self))

end QueryRelay.Mapping
