import QueryRelay.Proofs.Mapping.Trees
import QueryRelay.Proofs.Outcome

/-!
# Steps of mapping

When a step of mapping gives a result, and which: sequences, references that are followed, cells
that are taken and filled. Main statement: what stands for an absent field is always there, takes
new cells only, and shows the tree that the type has for absence.
-/

namespace QueryRelay.Mapping

open Mapped (Shows Kept)
open Value (Identified resolve)

variable {α β : Type} {s s' : State}

/-! ## Sequences -/

/-- A sequence gives a result exactly when its first part gives one from which the second does. -/
theorem bind_eq_ok {a : Mapper α} {f : α → Mapper β} {r : β × State} :
    (a >>= f) s = .ok r ↔ ∃ x s₁, a s = .ok (x, s₁) ∧ f x s₁ = .ok r := by
  constructor
  · intro h
    obtain ⟨⟨x, s₁⟩, hx, hr⟩ := Outcome.bind_eq_ok.mp h
    exact ⟨x, s₁, hx, hr⟩
  · rintro ⟨x, s₁, hx, hr⟩
    exact Outcome.bind_eq_ok.mpr ⟨(x, s₁), hx, hr⟩

/-- A step that only gives a result leaves the state as it is. -/
theorem pure_eq_ok {x : α} {r : α × State} : (pure x : Mapper α) s = .ok r ↔ (x, s) = r :=
  Outcome.pure_eq_ok

/-- Inside a part a step gives what it gives. -/
theorem inside_eq_ok {step : PathStep} {a : Mapper α} {r : α × State} :
    inside step a s = .ok r ↔ a s = .ok r := by
  rw [inside]
  cases a s with
  | ok r' => rfl
  | error f => constructor <;> intro h <;> cases h

/-- A conversion gives the converted result and leaves the state as it is. -/
theorem convert_eq_ok {result : Except MappingFault α} {wrap : α → Mapped} {m : Mapped} :
    convert result wrap s = .ok (m, s') ↔ result.toOption.map wrap = some m ∧ s' = s := by
  cases result with
  | error f =>
    constructor
    · intro h
      cases h
    · rintro ⟨h, -⟩
      cases h
  | ok x =>
    rw [convert, pure_eq_ok, Prod.mk.injEq, eq_comm (a := s)]
    simp [Except.toOption]

/-- Following a value gives what it stands for. -/
theorem follow_eq_ok {ctx : Context} {v w : Value} :
    follow ctx v s = .ok (w, s') ↔ resolve ctx.records v = some w ∧ s' = s := by
  have hpure {u : Value} : (pure u : Mapper Value) s = .ok (w, s') ↔ some u = some w ∧ s' = s := by
    rw [pure_eq_ok, Prod.mk.injEq, Option.some.injEq, eq_comm (a := s)]
  cases v with
  | ref id =>
    rw [follow, resolve]
    cases h : Value.findRecord ctx.records id with
    | none =>
      constructor
      · intro h
        cases h
      · rintro ⟨h, -⟩
        cases h
    | some r => exact hpure
  | _ => exact hpure

/-- An entry that is looked up stands in the list. -/
theorem mem_of_lookup_eq_some {α β : Type} [BEq α] [LawfulBEq α] {entries : List (α × β)} {a : α}
    {b : β} (h : entries.lookup a = some b) : (a, b) ∈ entries := by
  obtain ⟨before, after, rfl, -⟩ := List.lookup_eq_some_iff.mp h
  exact List.mem_append_right _ (List.mem_cons_self ..)

/-! ## Cells -/

/-- A new cell is the next one. -/
theorem reserve_eq : reserve s = .ok (s.heap.length, { s with heap := s.heap ++ [none] }) := rfl

/-- Filling the cell that was taken last. -/
theorem set_append_none (heap : Heap) (added : Heap) (m : Mapped) :
    (heap ++ none :: added).set heap.length (some m) = heap ++ some m :: added := by
  rw [List.set_append_right _ _ (Nat.le_refl _), Nat.sub_self, List.set_cons_zero]

/-- A result put into a new cell. -/
theorem allocate_eq (content : Mapped) : allocate content s =
    .ok (.shared s.heap.length, { s with heap := s.heap ++ [some content] }) := by
  rw [← set_append_none]
  rfl

/-! ## Absent fields -/

/-- A result that is given at once takes no cells. -/
theorem pure_shows {m tree : Mapped} (h : ∀ heap, Shows heap m tree) (s : State) :
    ∃ m' added, (pure m : Mapper Mapped) s = .ok (m', { s with heap := s.heap ++ added }) ∧
      Shows (s.heap ++ added) m' tree := by
  refine ⟨m, [], ?_, h _⟩
  rw [List.append_nil]
  rfl

/-- What stands for nothing is always there, takes new cells only, and shows its tree. -/
theorem default_eq (types : RecordTargets) (fuel : Nat) (t : Target) (s : State) :
    ∃ m added, default types fuel t s = .ok (m, { s with heap := s.heap ++ added }) ∧
      Shows (s.heap ++ added) m (defaultTree types fuel t) := by
  induction fuel generalizing t s with
  | zero =>
    cases t with
    | list t => exact pure_shows (fun _ => .items .nil) s
    | _ => exact pure_shows (fun _ => .leaf (by trivial)) s
  | succ fuel ih =>
    cases t with
    | list t => exact pure_shows (fun _ => .items .nil) s
    | boxed t => exact ih t s
    | shared t =>
      obtain ⟨m, added, hm, hshows⟩ := ih t s
      have hkept : Kept (s.heap ++ added) (s.heap ++ (added ++ [some m])) :=
        Mapped.kept_of_prefix ⟨[some m], List.append_assoc ..⟩
      refine ⟨.shared (s.heap ++ added).length, added ++ [some m], ?_, ?_⟩
      · rw [← List.append_assoc]
        exact bind_eq_ok.mpr ⟨m, _, hm, allocate_eq m⟩
      · refine .shared ?_ (hshows.mono hkept)
        rw [← List.append_assoc, List.getElem?_append_right (Nat.le_refl _), Nat.sub_self]
        rfl
    | record name =>
      have hfields (fields : List (String × Target)) (s : State) : ∃ entries added,
          (fields.mapM fun f => return (f.1, ← default types fuel f.2) : Mapper _) s =
            .ok (entries, { s with heap := s.heap ++ added }) ∧
          List.Forall₂ (fun x y => x.1 = y.1 ∧ Shows (s.heap ++ added) x.2 y.2) entries
            (fields.map fun f => (f.1, defaultTree types fuel f.2)) := by
        induction fields generalizing s with
        | nil => exact ⟨[], [], by rw [List.append_nil]; rfl, .nil⟩
        | cons f rest ihrest =>
          obtain ⟨m, added, hm, hshows⟩ := ih f.2 s
          obtain ⟨entries, others, hentries, hrest⟩ := ihrest { s with heap := s.heap ++ added }
          refine ⟨(f.1, m) :: entries, added ++ others, ?_, ?_⟩
          · rw [List.mapM_cons, ← List.append_assoc]
            refine bind_eq_ok.mpr ⟨(f.1, m), _, bind_eq_ok.mpr ⟨m, _, hm, rfl⟩, ?_⟩
            exact bind_eq_ok.mpr ⟨entries, _, hentries, rfl⟩
          · rw [← List.append_assoc]
            exact .cons ⟨rfl, hshows.mono (Mapped.kept_of_prefix ⟨others, rfl⟩)⟩ hrest
      rw [default, defaultTree]
      rcases types.get? name with _ | fields | _
      · exact pure_shows (fun _ => .leaf (by trivial)) s
      · obtain ⟨entries, added, hentries, hshows⟩ := hfields fields s
        exact ⟨.record entries, added, bind_eq_ok.mpr ⟨entries, _, hentries, rfl⟩, .fields hshows⟩
      · exact pure_shows (fun _ => .leaf (by trivial)) s
    | _ => exact pure_shows (fun _ => .leaf (by trivial)) s

/-- What stands for an absent field, if anything does, is always there, takes new cells only, and
shows its tree. -/
theorem missing_eq {types : RecordTargets} {t : Target} {action : Mapper Mapped}
    (h : missing types t = some action) (s : State) :
    ∃ m tree added, missingTree types t = some tree ∧
      action s = .ok (m, { s with heap := s.heap ++ added }) ∧ Shows (s.heap ++ added) m tree := by
  have hdefault {t : Target} (htree : missingTree types t = some (defaultTree types defaultDepth t))
      (haction : some (default types defaultDepth t) = some action) :
      ∃ m tree added, missingTree types t = some tree ∧
        action s = .ok (m, { s with heap := s.heap ++ added }) ∧
          Shows (s.heap ++ added) m tree := by
    cases haction
    obtain ⟨m, added, hm, hshows⟩ := default_eq types defaultDepth t s
    exact ⟨m, _, added, htree, hm, hshows⟩
  induction t with
  | boxed t ih => exact ih h
  | timestamp | rawRecord | enum | shared => cases h
  | _ => exact hdefault rfl h

/-- Something stands for an absent field exactly when there is a tree for it. -/
theorem missing_isSome (types : RecordTargets) (t : Target) :
    (missing types t).isSome = (missingTree types t).isSome := by
  induction t with
  | boxed t ih => exact ih
  | _ => rfl

/-! ## Fields -/

/-- Build one field of a record, or what stands for its absence. -/
def buildField (ctx : Context) (fuel : Nat) (source : List (String × Value))
    (f : String × Target) : Mapper Mapped :=
  match Fields.lookup? source f.1 with
  | some v => inside (.field f.1) (build ctx fuel f.2 v)
  | none =>
    match missing ctx.types f.2 with
    | some action => action
    | none => fail (.missingField f.1)

/-- The fields of a record are built one by one. -/
theorem buildFields_cons (ctx : Context) (fuel : Nat) (source : List (String × Value))
    (f : String × Target) (rest : List (String × Target)) :
    buildFields ctx (fuel + 1) source (f :: rest) = do
      let content ← buildField ctx fuel source f
      return (f.1, content) :: (← buildFields ctx fuel source rest) := by
  rw [buildFields, buildField]
  cases Fields.lookup? source f.1 with
  | some v => rfl
  | none => cases missing ctx.types f.2 <;> rfl

end QueryRelay.Mapping
