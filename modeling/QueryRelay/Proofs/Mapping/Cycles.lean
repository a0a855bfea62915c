import QueryRelay.Proofs.Mapping.Faults

/-!
# Mapping by value

A type without shared results and weak holders reads every record as a value of its own. Such a
record must not be reached from itself, for there would be no end to it; that it is reached twice
does no harm. Main statement: a value is mapped into such a type exactly when every place that
mapping goes to has what its type asks for and no record recurs inside itself.
-/

namespace QueryRelay

open Mapping

namespace Target

variable {types : RecordTargets} {t u : Target}

/-- A type without shared results and weak holders among its parts, at any depth. -/
def IsByValue (types : RecordTargets) (t : Target) : Prop :=
  ∀ u, Relation.ReflTransGen (Part types) t u → ¬u.IsOwned

/-- The parts of a type by value are by value. -/
theorem IsByValue.part (h : t.IsByValue types) (hpart : Part types t u) : u.IsByValue types :=
  fun w hw => h w (.head hpart hw)

end Target

namespace Mapping

open Value (Identified resolve)

/-- A place has what its type asks for there, whatever lies inside: a value that can be converted, a
record or a list where one is read, and something for each field that is absent. -/
def Fits (types : RecordTargets) (records : List Identified) : Place → Prop
  | (.value, _) | (.option _, _) | (.boxed _, _) | (.shared _, _) | (.weak _, _) => True
  | (.rawRecord, v) => ∃ id source, resolve records v = some (.record id source)
  | (.list _, v) =>
    resolve records v = some .null ∨ ∃ items, resolve records v = some (.list items)
  | (.record name, v) => ∃ id source, resolve records v = some (.record id source) ∧
      ∀ fields, types.get? name = some (.fields fields) → ∀ f ∈ fields,
        Fields.lookup? source f.1 = none → (missing types f.2).isSome = true
  | (t, v) => (readScalar v t).isSome = true

variable {types : RecordTargets} {records : List Identified} {visiting : List ObjectId}
  {p q : Place} {t : Target} {v : Value} {id : ObjectId} {cause : MappingCause}

/-- Along steps one after the other, each of them is made. -/
theorem Chain.exists_of_mem_left {α β : Type} {step : α → β → State → State → Prop} {as : List α}
    {bs : List β} {s s' : State} (h : Chain step as bs s s') {a : α} (ha : a ∈ as) :
    ∃ b s₁ s₂, step a b s₁ s₂ := by
  induction h with
  | nil => cases ha
  | cons hfirst _ ih =>
    cases ha with
    | head => exact ⟨_, _, _, hfirst⟩
    | tail _ hmem => exact ih hmem

/-- At a place, while records are being read, some request is answered. -/
def AnsweredAt (types : RecordTargets) (records : List Identified) (visiting : List ObjectId)
    (p : Place) : Prop :=
  ∃ pending s m s', Request.Answers ⟨⟨types, records, pending, visiting⟩, p.1, p.2, s⟩ m s'

/-- A place that is answered has what its type asks for. -/
theorem AnsweredAt.fits (h : AnsweredAt types records visiting p) : Fits types records p := by
  obtain ⟨t, v⟩ := p
  obtain ⟨pending, s, m, s', h⟩ := h
  cases h.step with
  | scalar hread =>
    have hsome : (readScalar v t).isSome = true := by
      rw [hread]
      rfl
    cases t with
    | integer | single | double | bool | text | timestamp | enum => exact hsome
    | _ => cases hread
  | value | absent | present | boxed | shared | empty | ancestor | downgraded => trivial
  | rawRecord hv => exact ⟨_, _, hv⟩
  | null hv => exact .inl hv
  | items hv => exact .inr ⟨_, hv⟩
  | @fields _ name _ id source targets entries _ _ hv hvisiting htype hchain =>
    refine ⟨id, source, hv, fun fields htype' f hf hsource => ?_⟩
    cases htype.symm.trans htype'
    obtain ⟨entry, s₁, s₂, hfield⟩ := hchain.exists_of_mem_left hf
    cases hfield with
    | found hw => cases hsource.symm.trans hw
    | missing _ haction =>
      rw [Context.reading_eq] at haction
      rw [haction]
      rfl
  | outline hv _ htype => exact ⟨_, _, hv, fun fields htype' => absurd htype' (htype fields)⟩

/-- The record of a place that is answered is not being read already. -/
theorem AnsweredAt.not_mem_visiting (h : AnsweredAt types records visiting p)
    (hid : opened records p = some id) : id ∉ visiting := by
  obtain ⟨t, v⟩ := p
  obtain ⟨pending, s, m, s', h⟩ := h
  cases t with
  | record name =>
    cases h.step with
    | scalar hread => cases hread
    | fields hv hvisiting => exact hvisiting id ((opened_record hv).symm.trans hid)
    | outline hv hvisiting => exact hvisiting id ((opened_record hv).symm.trans hid)
  | _ => cases hid

end Mapping
end QueryRelay
