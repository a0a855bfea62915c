import Mathlib.Data.List.Forall2
import Mathlib.Data.List.Zip

/-!
# Traversals, call by call

A traversal runs an action on the elements of a list, one after the other. The action may keep a
state: what it was called with, and what it answered, is a list of calls, each of which starts in
the state in which the one before it ended. An action that may also fail is called up to its first
failure.
-/

namespace QueryRelay

variable {σ ε α β γ : Type}

/-- A traversal of named elements keeps the names and puts what comes out of the elements beside
them. -/
theorem mapM_named_eq {m : Type → Type} [Monad m] [LawfulMonad m] (f : α → m β)
    (rows : List (γ × α)) :
    (rows.mapM fun row => return (row.1, ← f row.2)) =
      (rows.map Prod.fst).zip <$> (rows.map Prod.snd).mapM f := by
  induction rows with
  | nil => simp
  | cons row rows ih =>
    rw [List.mapM_cons, ih]
    simp only [List.map_cons, List.mapM_cons, bind_assoc, pure_bind, map_bind, bind_map_left,
      map_pure, List.zip_cons_cons]

/-- Calls of an action one after the other, from a state to a state: each is an argument with the
answer to it. -/
inductive Answers (f : α → StateM σ β) : σ → List (α × β) → σ → Prop
  /-- Without calls the state stays. -/
  | nil (s : σ) : Answers f s [] s
  /-- A call, and the others from the state that it ends in. -/
  | cons {s s' s'' : σ} {x : α} {y : β} {calls : List (α × β)} (h : (f x).run s = (y, s'))
      (hrest : Answers f s' calls s'') : Answers f s ((x, y) :: calls) s''

namespace Answers

variable {f : α → StateM σ β} {s s' s'' : σ} {calls calls' : List (α × β)}

/-- Calls can be followed by others. -/
theorem append (h : Answers f s calls s') (h' : Answers f s' calls' s'') :
    Answers f s (calls ++ calls') s'' := by
  induction h with
  | nil => exact h'
  | cons hx _ ih => exact .cons hx (ih h')

/-- One call. -/
theorem single (f : α → StateM σ β) (s : σ) (x : α) :
    Answers f s [(x, ((f x).run s).1)] ((f x).run s).2 :=
  .cons rfl (.nil _)

end Answers

/-- A traversal calls its action on the elements in order, once each, and gives the answers. -/
theorem exists_answers_mapM (f : α → StateM σ β) (xs : List α) (s : σ) :
    ∃ calls s', (xs.mapM f).run s = (calls.map Prod.snd, s') ∧ calls.map Prod.fst = xs ∧
      Answers f s calls s' := by
  induction xs generalizing s with
  | nil => exact ⟨[], s, rfl, rfl, .nil s⟩
  | cons x xs ih =>
    obtain ⟨calls, s', hrun, rfl, hcalls⟩ := ih ((f x).run s).2
    refine ⟨(x, ((f x).run s).1) :: calls, s', ?_, rfl, .cons rfl hcalls⟩
    rw [List.mapM_cons, StateT.run_bind]
    exact congrArg (fun r => (((f x).run s).1 :: r.1, r.2)) hrun

/-- How far a traversal gets whose action may fail: through all elements, or through those before
the first one that fails, with its error. -/
inductive Reaches : List α → List (α × Except ε β) → Except ε (List β) → Prop
  /-- Every call gave a value. -/
  | all (pairs : List (α × β)) :
      Reaches (pairs.map Prod.fst) (pairs.map fun p => (p.1, .ok p.2)) (.ok (pairs.map Prod.snd))
  /-- The calls before gave values, this one failed and is the last. -/
  | stopped (before : List (α × β)) (x : α) (after : List α) (e : ε) :
      Reaches (before.map Prod.fst ++ x :: after)
        (before.map (fun p => (p.1, .ok p.2)) ++ [(x, .error e)]) (.error e)

/-- One more element before the others gives one more call before theirs. -/
theorem Reaches.cons {xs : List α} {calls : List (α × Except ε β)} {outcome : Except ε (List β)}
    (x : α) (y : β) (h : Reaches xs calls outcome) :
    Reaches (x :: xs) ((x, .ok y) :: calls) (outcome.map (y :: ·)) := by
  cases h with
  | all pairs => exact .all ((x, y) :: pairs)
  | stopped before x' after e => exact .stopped ((x, y) :: before) x' after e

/-- A traversal through all elements gives one value for each. -/
theorem Reaches.length_eq {xs : List α} {calls : List (α × Except ε β)} {ys : List β}
    (h : Reaches xs calls (.ok ys)) : ys.length = xs.length := by
  cases h
  rw [List.length_map, List.length_map]

/-- A traversal whose action may fail calls it on the elements in order, once each, up to the first
one that fails. -/
theorem exists_reaches_mapM (f : α → ExceptT ε (StateM σ) β) (xs : List α) (s : σ) :
    ∃ calls s' outcome, (xs.mapM f).run.run s = (outcome, s') ∧
      Answers (fun x => (f x).run) s calls s' ∧ Reaches xs calls outcome := by
  induction xs generalizing s with
  | nil => exact ⟨[], s, .ok [], rfl, .nil s, .all []⟩
  | cons x xs ih =>
    rcases hx : (f x).run.run s with ⟨e | y, t⟩
    · refine ⟨[(x, .error e)], t, .error e, ?_, .cons hx (.nil t), .stopped [] x xs e⟩
      rw [List.mapM_cons, ExceptT.run_bind, StateT.run_bind, hx]
      rfl
    · obtain ⟨calls, s', outcome, hrun, hcalls, hreach⟩ := ih t
      refine ⟨(x, .ok y) :: calls, s', outcome.map (y :: ·), ?_, .cons hx hcalls,
        hreach.cons x y⟩
      rw [List.mapM_cons, ExceptT.run_bind, StateT.run_bind, hx]
      change (xs.mapM f >>= fun ys => pure (y :: ys)).run.run t = _
      rw [ExceptT.run_bind, StateT.run_bind, hrun]
      cases outcome <;> rfl

end QueryRelay
