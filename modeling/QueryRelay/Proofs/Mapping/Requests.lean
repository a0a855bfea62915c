import QueryRelay.Proofs.Mapping.Steps

/-!
# Requests

Mapping asks for results of types over values: for the whole, for its parts, for what is shared.
Whether such a request gets an answer, and which, depends on what mapping knows at its place and on
what was built before. What one answer is made of is said once here, in terms of the answers that
it asks for, so that a property of all answers needs one case for each kind of step and no fuel.
Main statement: the induction over answers; and a request has one answer.
-/

namespace QueryRelay.Mapping

open Value (resolve)

/-! ## Requests and steps -/

/-- A request for a result of a type over a value, with what mapping knows at its place and what it
has built so far. -/
structure Request where
  /-- What mapping knows there. -/
  context : Context
  /-- The type. -/
  target : Target
  /-- The value. -/
  value : Value
  /-- What mapping has built so far. -/
  state : State

/-- Which requests get which results, and what is built then. -/
abbrev AnswerRel := Request → Mapped → State → Prop

/-- A request is answered with a result and a state. -/
def Request.Answers (r : Request) (m : Mapped) (s : State) : Prop :=
  ∃ fuel, build r.context fuel r.target r.value r.state = .ok (m, s)

/-- The context inside a record: if it has an identity, it is being read. -/
def Context.reading (ctx : Context) : Option ObjectId → Context
  | some id => { ctx with visiting := id :: ctx.visiting }
  | none => ctx

/-- The context inside a shared result that is being built in a cell. -/
def Context.building (ctx : Context) (key : SharedKey) (cell : Nat) : Context :=
  { ctx with pending := (key, cell) :: ctx.pending }

/-- A state with one more cell, to be filled later. -/
def State.reserved (s : State) : State := { s with heap := s.heap ++ [none] }

/-- A state with a result in a new cell. -/
def State.allocated (s : State) (m : Mapped) : State := { s with heap := s.heap ++ [some m] }

/-- A state in which a shared result is finished. -/
def State.finish (s : State) (key : SharedKey) (cell : Nat) (m : Mapped) : State :=
  ⟨s.heap.set cell (some m), (key, cell) :: s.finished⟩

/-- Steps one after the other, each from the state that the one before leaves. -/
inductive Chain {α β : Type} (step : α → β → State → State → Prop) :
    List α → List β → State → State → Prop
  /-- No step. -/
  | nil (s : State) : Chain step [] [] s s
  /-- A step and those after it. -/
  | cons {a : α} {as : List α} {b : β} {bs : List β} {s s₁ s₂ : State} (hfirst : step a b s s₁)
      (hrest : Chain step as bs s₁ s₂) : Chain step (a :: as) (b :: bs) s s₂

/-- An item of a list is answered. -/
def ItemAnswer (A : AnswerRel) (ctx : Context) (t : Target) (v : Value) (m : Mapped)
    (s s' : State) : Prop :=
  A ⟨ctx, t, v, s⟩ m s'

/-- A field of a record type is answered: by what the source has, or by what stands for its
absence. -/
inductive FieldAnswer (A : AnswerRel) (ctx : Context) (source : List (String × Value)) :
    String × Target → String × Mapped → State → State → Prop
  /-- The source has the field. -/
  | found {f : String × Target} {w : Value} {m : Mapped} {s s' : State}
      (hw : Fields.lookup? source f.1 = some w) (h : A ⟨ctx, f.2, w, s⟩ m s') :
      FieldAnswer A ctx source f (f.1, m) s s'
  /-- The source lacks the field. -/
  | missing {f : String × Target} {action : Mapper Mapped} {m : Mapped} {s s' : State}
      (hsource : Fields.lookup? source f.1 = none) (haction : missing ctx.types f.2 = some action)
      (h : action s = .ok (m, s')) : FieldAnswer A ctx source f (f.1, m) s s'

/-- The cell of a shared result is found: it is new, was finished before, or is built now. -/
inductive CellAnswer (A : AnswerRel) (ctx : Context) (t : Target) (v : Value) :
    Nat → State → State → Prop
  /-- A value without identity gets a cell of its own. -/
  | fresh {m : Mapped} {s s' : State} (hid : objectId? v = none) (h : A ⟨ctx, t, v, s⟩ m s') :
      CellAnswer A ctx t v s'.heap.length s (s'.allocated m)
  /-- The shared result is finished. -/
  | found {id : ObjectId} {cell : Nat} {s : State} (hid : objectId? v = some id)
      (hcell : s.finished.lookup (id, t) = some cell) : CellAnswer A ctx t v cell s s
  /-- The shared result is built. -/
  | built {w : Value} {m : Mapped} {id : ObjectId} {s s' : State} (hid : objectId? v = some id)
      (hfinished : s.finished.lookup (id, t) = none)
      (hpending : ctx.pending.lookup (id, t) = none) (hw : resolve ctx.records v = some w)
      (h : A ⟨ctx.building (id, t) s.heap.length, t, w, s.reserved⟩ m s') :
      CellAnswer A ctx t v s.heap.length s (s'.finish (id, t) s.heap.length m)

/-- What one answer is made of, when the requests that it asks for are answered in a given way. -/
inductive Step (A : AnswerRel) : AnswerRel
  /-- A type without parts. -/
  | scalar {ctx : Context} {t : Target} {v : Value} {m : Mapped} {s : State}
      (h : readScalar v t = some m) : Step A ⟨ctx, t, v, s⟩ m s
  /-- A raw value. -/
  | value {ctx : Context} {v : Value} {s : State} : Step A ⟨ctx, .value, v, s⟩ (.value v) s
  /-- A raw record. -/
  | rawRecord {ctx : Context} {v : Value} {s : State} {id : Option ObjectId}
      {source : List (String × Value)} (hv : resolve ctx.records v = some (.record id source)) :
      Step A ⟨ctx, .rawRecord, v, s⟩ (.rawRecord id source) s
  /-- Nothing, where nothing could be. -/
  | absent {ctx : Context} {t : Target} {v : Value} {s : State} (hnull : v.isNull = true) :
      Step A ⟨ctx, .option t, v, s⟩ .absent s
  /-- Something, where nothing could be. -/
  | present {ctx : Context} {t : Target} {v : Value} {m : Mapped} {s s' : State}
      (hnull : v.isNull = false) (h : A ⟨ctx, t, v, s⟩ m s') :
      Step A ⟨ctx, .option t, v, s⟩ (.present m) s'
  /-- A result with a place of its own. -/
  | boxed {ctx : Context} {t : Target} {v : Value} {m : Mapped} {s s' : State}
      (h : A ⟨ctx, t, v, s⟩ m s') : Step A ⟨ctx, .boxed t, v, s⟩ m s'
  /-- The empty list, for null. -/
  | null {ctx : Context} {t : Target} {v : Value} {s : State}
      (hv : resolve ctx.records v = some .null) : Step A ⟨ctx, .list t, v, s⟩ (.list []) s
  /-- A list. -/
  | items {ctx : Context} {t : Target} {v : Value} {vs : List Value} {ms : List Mapped}
      {s s' : State} (hv : resolve ctx.records v = some (.list vs))
      (h : Chain (ItemAnswer A ctx t) vs ms s s') : Step A ⟨ctx, .list t, v, s⟩ (.list ms) s'
  /-- An owner of a cell. -/
  | shared {ctx : Context} {t : Target} {v : Value} {cell : Nat} {s s' : State}
      (h : CellAnswer A ctx t v cell s s') : Step A ⟨ctx, .shared t, v, s⟩ (.shared cell) s'
  /-- A weak holder of nothing, for null. -/
  | empty {ctx : Context} {t : Target} {v : Value} {s : State} (hnull : v.isNull = true) :
      Step A ⟨ctx, .weak t, v, s⟩ (.weak none) s
  /-- A weak holder of a cell that is being built. -/
  | ancestor {ctx : Context} {t : Target} {v : Value} {s : State} {id : ObjectId} {cell : Nat}
      (hid : objectId? v = some id) (hcell : ctx.pending.lookup (id, t) = some cell) :
      Step A ⟨ctx, .weak t, v, s⟩ (.weak (some cell)) s
  /-- A weak holder of another cell. -/
  | downgraded {ctx : Context} {t : Target} {v : Value} {cell : Nat} {s s' : State}
      (hnull : v.isNull = false)
      (hpending : ∀ id, objectId? v = some id → ctx.pending.lookup (id, t) = none)
      (h : CellAnswer A ctx t v cell s s') : Step A ⟨ctx, .weak t, v, s⟩ (.weak (some cell)) s'
  /-- A record that is read field by field. -/
  | fields {ctx : Context} {name : String} {v : Value} {id : Option ObjectId}
      {source : List (String × Value)} {targets : List (String × Target)}
      {entries : List (String × Mapped)} {s s' : State}
      (hv : resolve ctx.records v = some (.record id source))
      (hvisiting : ∀ i, id = some i → i ∉ ctx.visiting)
      (htype : ctx.types.get? name = some (.fields targets))
      (h : Chain (FieldAnswer A (ctx.reading id) source) targets entries s s') :
      Step A ⟨ctx, .record name, v, s⟩ (.record entries) s'
  /-- The outline of a record. -/
  | outline {ctx : Context} {name : String} {v : Value} {id : Option ObjectId}
      {source : List (String × Value)} {s : State}
      (hv : resolve ctx.records v = some (.record id source))
      (hvisiting : ∀ i, id = some i → i ∉ ctx.visiting)
      (htype : ∀ targets, ctx.types.get? name ≠ some (.fields targets)) :
      Step A ⟨ctx, .record name, v, s⟩ (.outline id source.length) s

variable {α β : Type} {A B : AnswerRel} {ctx : Context} {t : Target} {v : Value} {m m' : Mapped}
  {s s' s'' : State} {r : Request} {fuel : Nat}

/-! ## Steps over other answers -/

/-- Steps that are other steps as well. -/
theorem Chain.mono {step step' : α → β → State → State → Prop} {as : List α} {bs : List β}
    (hstep : ∀ a b s s', step a b s s' → step' a b s s') (h : Chain step as bs s s') :
    Chain step' as bs s s' := by
  induction h with
  | nil s => exact .nil s
  | cons hfirst _ ih => exact .cons (hstep _ _ _ _ hfirst) ih

/-- Steps along which a relation of states passes. -/
theorem Chain.rel {step : α → β → State → State → Prop} {R : State → State → Prop}
    (hrefl : ∀ s, R s s) (htrans : ∀ s s₁ s₂, R s s₁ → R s₁ s₂ → R s s₂)
    (hstep : ∀ a b s s', step a b s s' → R s s') {as : List α} {bs : List β}
    (h : Chain step as bs s s') : R s s' := by
  induction h with
  | nil s => exact hrefl s
  | cons hfirst _ ih => exact htrans _ _ _ (hstep _ _ _ _ hfirst) ih

/-- A field is answered in another way when requests are. -/
theorem FieldAnswer.mono (hanswer : ∀ q m s, A q m s → B q m s) {source : List (String × Value)}
    {f : String × Target} {entry : String × Mapped} (h : FieldAnswer A ctx source f entry s s') :
    FieldAnswer B ctx source f entry s s' := by
  cases h with
  | found hw h => exact .found hw (hanswer _ _ _ h)
  | missing hsource haction h => exact .missing hsource haction h

/-- A cell is found in another way when requests are answered so. -/
theorem CellAnswer.mono (hanswer : ∀ q m s, A q m s → B q m s) {cell : Nat}
    (h : CellAnswer A ctx t v cell s s') : CellAnswer B ctx t v cell s s' := by
  cases h with
  | fresh hid h => exact .fresh hid (hanswer _ _ _ h)
  | found hid hcell => exact .found hid hcell
  | built hid hfinished hpending hw h => exact .built hid hfinished hpending hw (hanswer _ _ _ h)

/-- A step is one over other answers when requests are answered in the other way. -/
theorem Step.mono (hanswer : ∀ q m s, A q m s → B q m s) (h : Step A r m s) : Step B r m s := by
  cases h with
  | scalar h => exact .scalar h
  | value => exact .value
  | rawRecord hv => exact .rawRecord hv
  | absent hnull => exact .absent hnull
  | present hnull h => exact .present hnull (hanswer _ _ _ h)
  | boxed h => exact .boxed (hanswer _ _ _ h)
  | null hv => exact .null hv
  | items hv h => exact .items hv (h.mono fun _ _ _ _ => hanswer _ _ _)
  | shared h => exact .shared (h.mono hanswer)
  | empty hnull => exact .empty hnull
  | ancestor hid hcell => exact .ancestor hid hcell
  | downgraded hnull hpending h => exact .downgraded hnull hpending (h.mono hanswer)
  | fields hv hvisiting htype h =>
    exact .fields hv hvisiting htype (h.mono fun _ _ _ _ => FieldAnswer.mono hanswer)
  | outline hv hvisiting htype => exact .outline hv hvisiting htype

/-! ## Answers -/

/-- Answers that less than some fuel is enough for. -/
def AnswersBelow (fuel : Nat) : AnswerRel := fun r m s =>
  ∃ n < fuel, build r.context n r.target r.value r.state = .ok (m, s)

/-- More fuel is enough for more. -/
theorem AnswersBelow.mono {n : Nat} (hn : n ≤ fuel) (h : AnswersBelow n r m s) :
    AnswersBelow fuel r m s := by
  obtain ⟨k, hk, hbuild⟩ := h
  exact ⟨k, Nat.lt_of_lt_of_le hk hn, hbuild⟩

/-- The items of a list are answered one after the other. -/
theorem chain_of_buildItems {index : Nat} {vs : List Value} {ms : List Mapped}
    (h : buildItems ctx fuel t index vs s = .ok (ms, s')) :
    Chain (ItemAnswer (AnswersBelow fuel) ctx t) vs ms s s' := by
  induction vs generalizing fuel index s ms with
  | nil =>
    cases fuel <;> cases h <;> exact .nil _
  | cons v rest ih =>
    cases fuel with
    | zero => nomatch h
    | succ fuel =>
      obtain ⟨m, s₁, hm, hothers⟩ := bind_eq_ok.mp h
      obtain ⟨others, s₂, hothers, hdone⟩ := bind_eq_ok.mp hothers
      cases hdone
      have hrest := (ih hothers).mono fun _ _ _ _ => AnswersBelow.mono (Nat.le_succ fuel)
      exact .cons ⟨fuel, Nat.lt_succ_self fuel, inside_eq_ok.mp hm⟩ hrest

/-- A field of a record is answered. -/
theorem fieldAnswer_of_buildField {source : List (String × Value)} {f : String × Target}
    (h : buildField ctx fuel source f s = .ok (m, s')) :
    FieldAnswer (AnswersBelow (fuel + 1)) ctx source f (f.1, m) s s' := by
  rw [buildField] at h
  cases hsource : Fields.lookup? source f.1 with
  | some w =>
    rw [hsource] at h
    exact .found hsource ⟨fuel, Nat.lt_succ_self fuel, inside_eq_ok.mp h⟩
  | none =>
    rw [hsource] at h
    cases haction : missing ctx.types f.2 with
    | none =>
      rw [haction] at h
      cases h
    | some action =>
      rw [haction] at h
      exact .missing hsource haction h

/-- The fields of a record are answered one after the other. -/
theorem chain_of_buildFields {source : List (String × Value)} {targets : List (String × Target)}
    {entries : List (String × Mapped)} (h : buildFields ctx fuel source targets s =
      .ok (entries, s')) :
    Chain (FieldAnswer (AnswersBelow fuel) ctx source) targets entries s s' := by
  induction targets generalizing fuel s entries with
  | nil =>
    cases fuel <;> cases h <;> exact .nil _
  | cons f rest ih =>
    cases fuel with
    | zero => nomatch h
    | succ fuel =>
      rw [buildFields_cons] at h
      obtain ⟨m, s₁, hm, hothers⟩ := bind_eq_ok.mp h
      obtain ⟨others, s₂, hothers, hdone⟩ := bind_eq_ok.mp hothers
      cases hdone
      have hmore : ∀ q m s, AnswersBelow fuel q m s → AnswersBelow (fuel + 1) q m s :=
        fun _ _ _ => AnswersBelow.mono (Nat.le_succ fuel)
      have hrest := (ih hothers).mono fun _ _ _ _ => FieldAnswer.mono hmore
      exact .cons (fieldAnswer_of_buildField hm) hrest

/-- The cell of a shared result is found. -/
theorem cellAnswer_of_buildShared {cell : Nat}
    (h : buildShared ctx fuel t v s = .ok (cell, s')) :
    CellAnswer (AnswersBelow fuel) ctx t v cell s s' := by
  cases fuel with
  | zero => nomatch h
  | succ fuel =>
    rw [buildShared] at h
    cases hid : objectId? v with
    | none =>
      rw [hid] at h
      obtain ⟨content, s₁, hcontent, hdone⟩ := bind_eq_ok.mp h
      have hcell : (s₁.heap.length, s₁.allocated content) = (cell, s') := by
        rw [State.allocated, ← set_append_none s₁.heap [] content]
        exact Except.ok.inj hdone
      cases hcell
      exact .fresh hid ⟨fuel, Nat.lt_succ_self fuel, hcontent⟩
    | some id =>
      rw [hid] at h
      obtain ⟨x, s₁, hget, hrest⟩ := bind_eq_ok.mp h
      cases hget
      cases hfinished : s.finished.lookup (id, t) with
      | some found =>
        rw [hfinished] at hrest
        cases hrest
        exact .found hid hfinished
      | none =>
        rw [hfinished] at hrest
        dsimp only at hrest
        split at hrest
        · nomatch hrest
        · have hpending : ctx.pending.lookup (id, t) = none := Option.not_isSome_iff_eq_none.mp ‹_›
          obtain ⟨w, s₁, hfollow, hcell⟩ := bind_eq_ok.mp hrest
          obtain ⟨hw, rfl⟩ := follow_eq_ok.mp hfollow
          obtain ⟨own, s₂, hreserve, hbuilding⟩ := bind_eq_ok.mp hcell
          cases hreserve
          obtain ⟨content, s₃, hcontent, hdone⟩ := bind_eq_ok.mp hbuilding
          cases hdone
          exact .built hid hfinished hpending hw ⟨fuel, Nat.lt_succ_self fuel, hcontent⟩

/-- A record of a type is that of a step. -/
theorem step_of_buildRecord {name : String} {id : Option ObjectId}
    {source : List (String × Value)} (hv : resolve ctx.records v = some (.record id source))
    (hvisiting : ∀ i, id = some i → i ∉ ctx.visiting)
    (h : buildRecord (ctx.reading id) fuel name id source s = .ok (m, s')) :
    Step (AnswersBelow fuel) ⟨ctx, .record name, v, s⟩ m s' := by
  have htypes : (ctx.reading id).types = ctx.types := by cases id <;> rfl
  cases fuel with
  | zero => nomatch h
  | succ fuel =>
    rw [buildRecord, htypes] at h
    cases htype : ctx.types.get? name with
    | none =>
      rw [htype] at h
      cases h
      refine .outline hv hvisiting fun targets htargets => ?_
      rw [htype] at htargets
      cases htargets
    | some reading =>
      rw [htype] at h
      cases reading with
      | outline =>
        cases h
        refine .outline hv hvisiting fun targets htargets => ?_
        rw [htype] at htargets
        cases htargets
      | fields targets =>
        obtain ⟨entries, s₁, hentries, hdone⟩ := bind_eq_ok.mp h
        cases hdone
        have hmore : ∀ q m s, AnswersBelow fuel q m s → AnswersBelow (fuel + 1) q m s :=
          fun _ _ _ => AnswersBelow.mono (Nat.le_succ fuel)
        have hchain := (chain_of_buildFields hentries).mono fun _ _ _ _ => FieldAnswer.mono hmore
        exact .fields hv hvisiting htype hchain

/-- A result is that of a step, and less fuel was enough for what the step asks for. -/
theorem step_of_build (h : build ctx fuel t v s = .ok (m, s')) :
    Step (AnswersBelow fuel) ⟨ctx, t, v, s⟩ m s' := by
  cases fuel with
  | zero => nomatch h
  | succ fuel =>
    have hmore : ∀ q m s, AnswersBelow fuel q m s → AnswersBelow (fuel + 1) q m s :=
      fun _ _ _ => AnswersBelow.mono (Nat.le_succ fuel)
    cases t with
    | integer | single | double | bool | text | timestamp | enum =>
      obtain ⟨hm, rfl⟩ := convert_eq_ok.mp h
      exact .scalar hm
    | value =>
      cases h
      exact .value
    | rawRecord =>
      obtain ⟨w, s₁, hfollow, hrecord⟩ := bind_eq_ok.mp h
      obtain ⟨hw, rfl⟩ := follow_eq_ok.mp hfollow
      cases w with
      | record id source =>
        cases hrecord
        exact .rawRecord hw
      | _ => nomatch hrecord
    | option t =>
      rw [build] at h
      split at h
      · cases h
        exact .absent ‹_›
      · have hnull : v.isNull = false := by simpa using ‹¬ v.isNull = true›
        obtain ⟨content, s₁, hcontent, hdone⟩ := bind_eq_ok.mp h
        cases hdone
        exact .present hnull ⟨fuel, Nat.lt_succ_self fuel, hcontent⟩
    | boxed t => exact .boxed ⟨fuel, Nat.lt_succ_self fuel, h⟩
    | list t =>
      obtain ⟨w, s₁, hfollow, hlist⟩ := bind_eq_ok.mp h
      obtain ⟨hw, rfl⟩ := follow_eq_ok.mp hfollow
      cases w with
      | null =>
        cases hlist
        exact .null hw
      | list vs =>
        obtain ⟨ms, s₂, hms, hdone⟩ := bind_eq_ok.mp hlist
        cases hdone
        exact .items hw ((chain_of_buildItems hms).mono fun _ _ _ _ => hmore _ _ _)
      | _ => nomatch hlist
    | shared t =>
      obtain ⟨cell, s₁, hcell, hdone⟩ := bind_eq_ok.mp h
      cases hdone
      exact .shared ((cellAnswer_of_buildShared hcell).mono hmore)
    | weak t =>
      rw [build] at h
      split at h
      · cases h
        exact .empty ‹_›
      · have hnull : v.isNull = false := by simpa using ‹¬ v.isNull = true›
        cases hcell : (objectId? v).bind fun id => ctx.pending.lookup (id, t) with
        | some cell =>
          rw [hcell] at h
          cases h
          obtain ⟨id, hid, hlookup⟩ := Option.bind_eq_some_iff.mp hcell
          exact .ancestor hid hlookup
        | none =>
          rw [hcell] at h
          obtain ⟨cell, s₁, hshared, hdone⟩ := bind_eq_ok.mp h
          cases hdone
          have hpending : ∀ id, objectId? v = some id → ctx.pending.lookup (id, t) = none := by
            intro id hid
            rw [hid] at hcell
            exact hcell
          exact .downgraded hnull hpending ((cellAnswer_of_buildShared hshared).mono hmore)
    | record name =>
      obtain ⟨w, s₁, hfollow, hrecord⟩ := bind_eq_ok.mp h
      obtain ⟨hw, rfl⟩ := follow_eq_ok.mp hfollow
      cases w with
      | record id source =>
        cases id with
        | none => exact (step_of_buildRecord hw nofun hrecord).mono hmore
        | some id =>
          dsimp only at hrecord
          split at hrecord
          · nomatch hrecord
          · have hvisiting : ∀ i, some id = some i → i ∉ ctx.visiting := by
              intro i hi
              cases hi
              simpa using ‹¬ ctx.visiting.contains id = true›
            exact (step_of_buildRecord hw hvisiting hrecord).mono hmore
      | _ => nomatch hrecord

/-! ## Induction over answers -/

namespace Request.Answers

/-- An answer is that of a step. -/
theorem step (h : r.Answers m s) : Step Answers r m s := by
  obtain ⟨fuel, hbuild⟩ := h
  refine (step_of_build hbuild).mono fun q m s hq => ?_
  obtain ⟨n, -, hn⟩ := hq
  exact ⟨n, hn⟩

/-- The answer for a value that stands for a list is that of its items. -/
theorem items {vs : List Value} (hv : resolve ctx.records v = some (.list vs))
    (h : Answers ⟨ctx, .list t, v, s⟩ m s') :
    ∃ ms, m = .list ms ∧ Chain (ItemAnswer Answers ctx t) vs ms s s' := by
  have hstep := h.step
  cases hstep with
  | scalar hread => cases hread
  | null hv' => cases hv.symm.trans hv'
  | items hv' hitems =>
    cases hv.symm.trans hv'
    exact ⟨_, rfl, hitems⟩

/-- The answer for a value that stands for a record, to be read field by field, is that of its
fields. -/
theorem fields {name : String} {id : Option ObjectId} {source : List (String × Value)}
    {targets : List (String × Target)} (hv : resolve ctx.records v = some (.record id source))
    (htype : ctx.types.get? name = some (.fields targets))
    (h : Answers ⟨ctx, .record name, v, s⟩ m s') : ∃ entries, m = .record entries ∧
      Chain (FieldAnswer Answers (ctx.reading id) source) targets entries s s' := by
  have hstep := h.step
  cases hstep with
  | scalar hread => cases hread
  | outline _ _ htype' => exact absurd htype (htype' _)
  | fields hv' _ htype' hfields =>
    cases hv.symm.trans hv'
    cases htype.symm.trans htype'
    exact ⟨_, rfl, hfields⟩

/-- What passes to each answer from the answers that it asks for holds of all. -/
theorem induct {P : AnswerRel}
    (hstep : ∀ r m s, r.Answers m s → Step (fun q m s => q.Answers m s ∧ P q m s) r m s → P r m s)
    (h : r.Answers m s) : P r m s := by
  obtain ⟨fuel, hbuild⟩ := h
  -- Less fuel was enough for what is asked for, so the fuel is what the induction is on.
  induction fuel using Nat.strongRecOn generalizing r m s with
  | ind fuel ih =>
    refine hstep r m s ⟨fuel, hbuild⟩ ((step_of_build hbuild).mono fun q m s hq => ?_)
    obtain ⟨n, hn, hanswer⟩ := hq
    exact ⟨⟨n, hanswer⟩, ih n hn hanswer⟩

end Request.Answers

/-! ## Uniqueness -/

/-- What carries an identity is not null. -/
theorem isNull_of_objectId? {id : ObjectId} (h : objectId? v = some id) : v.isNull = false := by
  cases v with
  | null => cases h
  | _ => rfl

/-- Steps that have one outcome each have one outcome one after the other. -/
theorem Chain.unique {step step' : α → β → State → State → Prop} {as : List α} {bs bs' : List β}
    (h : Chain step as bs s s') (h' : Chain step' as bs' s s'')
    (hstep : ∀ a b b' s s' s'', step a b s s' → step' a b' s s'' → b = b' ∧ s' = s'') :
    bs = bs' ∧ s' = s'' := by
  induction h generalizing bs' with
  | nil s =>
    cases h'
    exact ⟨rfl, rfl⟩
  | cons hfirst _ ih =>
    cases h' with
    | cons hfirst' hrest' =>
      obtain ⟨rfl, rfl⟩ := hstep _ _ _ _ _ _ hfirst hfirst'
      obtain ⟨rfl, rfl⟩ := ih hrest'
      exact ⟨rfl, rfl⟩

section Unique

variable (hanswer : ∀ q m s m' s', A q m s → B q m' s' → m = m' ∧ s = s')
include hanswer

/-- A field has one answer when requests have. -/
theorem FieldAnswer.unique {source : List (String × Value)} {f : String × Target}
    {entry entry' : String × Mapped} (h : FieldAnswer A ctx source f entry s s')
    (h' : FieldAnswer B ctx source f entry' s s'') : entry = entry' ∧ s' = s'' := by
  cases h with
  | found hw h =>
    cases h' with
    | found hw' h' =>
      cases hw.symm.trans hw'
      obtain ⟨rfl, rfl⟩ := hanswer _ _ _ _ _ h h'
      exact ⟨rfl, rfl⟩
    | missing hsource' => cases hw.symm.trans hsource'
  | missing hsource haction h =>
    cases h' with
    | found hw' => cases hsource.symm.trans hw'
    | missing _ haction' h' =>
      cases haction.symm.trans haction'
      cases h.symm.trans h'
      exact ⟨rfl, rfl⟩

/-- A shared result has one cell when requests have one answer. -/
theorem CellAnswer.unique {cell cell' : Nat} (h : CellAnswer A ctx t v cell s s')
    (h' : CellAnswer B ctx t v cell' s s'') : cell = cell' ∧ s' = s'' := by
  cases h with
  | fresh hid h =>
    cases h' with
    | fresh _ h' =>
      obtain ⟨rfl, rfl⟩ := hanswer _ _ _ _ _ h h'
      exact ⟨rfl, rfl⟩
    | found hid' | built hid' => cases hid.symm.trans hid'
  | found hid hcell =>
    cases h' with
    | fresh hid' => cases hid.symm.trans hid'
    | found hid' hcell' =>
      cases hid.symm.trans hid'
      cases hcell.symm.trans hcell'
      exact ⟨rfl, rfl⟩
    | built hid' hfinished =>
      cases hid.symm.trans hid'
      cases hcell.symm.trans hfinished
  | built hid hfinished _ hw h =>
    cases h' with
    | fresh hid' => cases hid.symm.trans hid'
    | found hid' hcell' =>
      cases hid.symm.trans hid'
      cases hfinished.symm.trans hcell'
    | built hid' _ _ hw' h' =>
      cases hid.symm.trans hid'
      cases hw.symm.trans hw'
      obtain ⟨rfl, rfl⟩ := hanswer _ _ _ _ _ h h'
      exact ⟨rfl, rfl⟩

/-- A step has one outcome when requests have one answer. -/
theorem Step.unique (h : Step A r m s) (h' : Step B r m' s') : m = m' ∧ s = s' := by
  cases h with
  | scalar h =>
    cases h' with
    | scalar h' =>
      cases h.symm.trans h'
      exact ⟨rfl, rfl⟩
    | _ => cases h
  | value =>
    cases h' with
    | scalar h' => cases h'
    | value => exact ⟨rfl, rfl⟩
  | rawRecord hv =>
    cases h' with
    | scalar h' => cases h'
    | rawRecord hv' =>
      cases hv.symm.trans hv'
      exact ⟨rfl, rfl⟩
  | absent hnull =>
    cases h' with
    | scalar h' => cases h'
    | absent => exact ⟨rfl, rfl⟩
    | present hnull' => cases hnull.symm.trans hnull'
  | present hnull h =>
    cases h' with
    | scalar h' => cases h'
    | absent hnull' => cases hnull.symm.trans hnull'
    | present _ h' =>
      obtain ⟨rfl, rfl⟩ := hanswer _ _ _ _ _ h h'
      exact ⟨rfl, rfl⟩
  | boxed h =>
    cases h' with
    | scalar h' => cases h'
    | boxed h' => exact hanswer _ _ _ _ _ h h'
  | null hv =>
    cases h' with
    | scalar h' => cases h'
    | null => exact ⟨rfl, rfl⟩
    | items hv' => cases hv.symm.trans hv'
  | items hv h =>
    cases h' with
    | scalar h' => cases h'
    | null hv' => cases hv.symm.trans hv'
    | items hv' h' =>
      cases hv.symm.trans hv'
      obtain ⟨rfl, rfl⟩ := h.unique h' fun _ _ _ _ _ _ => hanswer _ _ _ _ _
      exact ⟨rfl, rfl⟩
  | shared h =>
    cases h' with
    | scalar h' => cases h'
    | shared h' =>
      obtain ⟨rfl, rfl⟩ := h.unique hanswer h'
      exact ⟨rfl, rfl⟩
  | empty hnull =>
    cases h' with
    | scalar h' => cases h'
    | empty => exact ⟨rfl, rfl⟩
    | ancestor hid' => cases hnull.symm.trans (isNull_of_objectId? hid')
    | downgraded hnull' => cases hnull.symm.trans hnull'
  | ancestor hid hcell =>
    cases h' with
    | scalar h' => cases h'
    | empty hnull' => cases hnull'.symm.trans (isNull_of_objectId? hid)
    | ancestor hid' hcell' =>
      cases hid.symm.trans hid'
      cases hcell.symm.trans hcell'
      exact ⟨rfl, rfl⟩
    | downgraded _ hpending' => cases hcell.symm.trans (hpending' _ hid)
  | downgraded hnull hpending h =>
    cases h' with
    | scalar h' => cases h'
    | empty hnull' => cases hnull.symm.trans hnull'
    | ancestor hid' hcell' => cases hcell'.symm.trans (hpending _ hid')
    | downgraded _ _ h' =>
      obtain ⟨rfl, rfl⟩ := h.unique hanswer h'
      exact ⟨rfl, rfl⟩
  | fields hv _ htype h =>
    cases h' with
    | scalar h' => cases h'
    | fields hv' _ htype' h' =>
      cases hv.symm.trans hv'
      cases htype.symm.trans htype'
      obtain ⟨rfl, rfl⟩ := h.unique h' fun _ _ _ _ _ _ => FieldAnswer.unique hanswer
      exact ⟨rfl, rfl⟩
    | outline _ _ htype' => exact absurd htype (htype' _)
  | outline hv _ htype =>
    cases h' with
    | scalar h' => cases h'
    | fields _ _ htype' => exact absurd htype' (htype _)
    | outline hv' =>
      cases hv.symm.trans hv'
      exact ⟨rfl, rfl⟩

end Unique

/-- A request has one answer. -/
theorem Request.Answers.unique (h : r.Answers m s) (h' : r.Answers m' s') : m = m' ∧ s = s' := by
  revert m' s'
  refine h.induct (P := fun r m s => ∀ {m' s'}, r.Answers m' s' → m = m' ∧ s = s') ?_
  intro r m s _ hstep m' s' h'
  exact hstep.unique (fun q m s m' s' hq hq' => hq.2 hq') h'.step

end QueryRelay.Mapping
