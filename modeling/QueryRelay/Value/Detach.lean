import QueryRelay.Value.Basic

/-!
# Self-contained elements

A reference inside one element of a list may stand for a record that another element holds.
`Value.detach` makes each element self-contained: the first such reference in an element becomes a
copy of its record, identity included, and later ones stay references. Inside a copy, a record that
the element already holds becomes a reference in turn. A reference that no record of the list
answers stays as it is.
-/

namespace QueryRelay.Value

/-- A record that carries an identity. -/
structure Identified where
  /-- The identity. -/
  id : ObjectId
  /-- The fields of the record. -/
  fields : List (String × Value)
deriving Inhabited

mutual

/-- The records with an identity in a value, a record before those inside it. -/
def identified : Value → List Identified
  | .list items => identifiedItems items
  | .record id fields =>
    (match id with
      | some i => [⟨i, fields⟩]
      | none => []) ++ identifiedFields fields
  | _ => []
termination_by structural v => v

/-- The records with an identity in the items of a list. -/
def identifiedItems : List Value → List Identified
  | [] => []
  | v :: rest => identified v ++ identifiedItems rest
termination_by structural items => items

/-- The records with an identity in the fields of a record. -/
def identifiedFields : List (String × Value) → List Identified
  | [] => []
  | (_, v) :: rest => identified v ++ identifiedFields rest
termination_by structural fields => fields

end

/-- The identities that records of a value carry. -/
def ids (v : Value) : List ObjectId := v.identified.map Identified.id

/-- The first record of an identity. -/
def findRecord (records : List Identified) (id : ObjectId) : Option Identified :=
  records.find? fun r => r.id == id

/-- What to put in the place of a reference, given the identities that the element holds so far,
and those that it holds then. -/
abbrev RefStep := ObjectId → List ObjectId → Value × List ObjectId

mutual

/-- Walk a value and treat its references by a step. Inside a copied record, a record whose
identity the element already holds becomes a reference. -/
def walkRefs (step : RefStep) (copied : Bool) (held : List ObjectId) : Value → Value × List ObjectId
  | .ref id => step id held
  | .list items =>
    let (items, held) := walkItems step copied held items
    (.list items, held)
  | .record none fields =>
    let (fields, held) := walkFields step copied held fields
    (.record none fields, held)
  | .record (some id) fields =>
    if copied && held.contains id then (.ref id, held)
    else
      let (fields, held) := walkFields step copied (if copied then id :: held else held) fields
      (.record (some id) fields, held)
  | v => (v, held)
termination_by structural v => v

/-- Walk the items of a list from left to right. -/
def walkItems (step : RefStep) (copied : Bool) (held : List ObjectId) :
    List Value → List Value × List ObjectId
  | [] => ([], held)
  | v :: rest =>
    let (v, held) := walkRefs step copied held v
    let (rest, held) := walkItems step copied held rest
    (v :: rest, held)
termination_by structural items => items

/-- Walk the fields of a record in order. -/
def walkFields (step : RefStep) (copied : Bool) (held : List ObjectId) :
    List (String × Value) → List (String × Value) × List ObjectId
  | [] => ([], held)
  | (name, v) :: rest =>
    let (v, held) := walkRefs step copied held v
    let (rest, held) := walkFields step copied held rest
    ((name, v) :: rest, held)
termination_by structural fields => fields

end

/-- Copy the record that a reference stands for, unless the element holds it or no record answers.
A copy inside a copy is of another record, so copies nest at most as deep as there are records,
which is what the depth bounds. -/
def copyRecord (records : List Identified) : Nat → RefStep
  | 0, id, held => (.ref id, held)
  | depth + 1, id, held =>
    if held.contains id then (.ref id, held)
    else
      match findRecord records id with
      | none => (.ref id, held)
      | some r =>
        let (fields, held) := walkFields (copyRecord records depth) true (id :: held) r.fields
        (.record (some id) fields, held)

/-- Make one element self-contained, given all records with an identity. -/
def detachElement (records : List Identified) (v : Value) : Value :=
  (walkRefs (copyRecord records records.length) false v.ids v).1

/-- Make each element of a list self-contained. -/
def detach (items : List Value) : List Value :=
  items.map (detachElement (identifiedItems items))

end QueryRelay.Value
