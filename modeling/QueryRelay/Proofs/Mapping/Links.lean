import QueryRelay.Proofs.Mapping.Cycles

/-!
# Links

A record type that holds a name and, where there is more, another record of the type, reads a list
whose links are records. The links may lie inside each other or be found by references, in any
order. Main statement: such a list is read exactly when the walk from link to link ends, meets no
identity twice and every name on it is a scalar, and then the result has the names in the order of
the walk.
-/

namespace QueryRelay

open Mapping

/-! ## Names -/

namespace Value

/-- A value without parts that is neither null nor a reference. -/
def IsScalar : Value → Prop
  | .bool _ | .int _ | .float _ | .text _ | .timestamp _ => True
  | _ => False

end Value

namespace Mapping

open Value (Identified resolve)

/-! ## Links and walks -/

/-- A link of a list: the identity of a record and its fields. -/
abbrev Link := Option ObjectId × List (String × Value)

/-- The links from a value on, each a record or the first record of a reference's identity. The last
one has nothing, or null, where the others have the next. -/
inductive Walk (records : List Identified) : Value → List Link → Prop
  /-- The last link. -/
  | last {v : Value} {id : Option ObjectId} {source : List (String × Value)}
      (hv : resolve records v = some (.record id source))
      (hnext : ∀ w, Fields.lookup? source "Next" = some w → w.isNull = true) :
      Walk records v [(id, source)]
  /-- A link and those after it. -/
  | next {v w : Value} {id : Option ObjectId} {source : List (String × Value)} {rest : List Link}
      (hv : resolve records v = some (.record id source))
      (hw : Fields.lookup? source "Next" = some w) (hnull : w.isNull = false)
      (hrest : Walk records w rest) : Walk records v ((id, source) :: rest)

/-- The identities of links. -/
def identities (links : List Link) : List ObjectId := links.filterMap Prod.fst

/-- The name of a link is absent or a scalar. -/
def IsNamed (source : List (String × Value)) : Prop :=
  ∀ w, Fields.lookup? source "Name" = some w → w.IsScalar

variable {types : RecordTargets} {records : List Identified} {ctx : Context} {t : Target}
  {v : Value} {m : Mapped} {s s' : State} {entry : String × Mapped} {links rest : List Link}
  {name : String} {id : Option ObjectId} {source : List (String × Value)} {fuel : Nat}

/-- A list of links as mapping can read it while records are being read. -/
structure IsLegible (records : List Identified) (visiting : List ObjectId) (v : Value)
    (links : List Link) : Prop where
  /-- The links are those of the walk from the value. -/
  walk : Walk records v links
  /-- No identity occurs twice. -/
  nodup : (identities links).Nodup
  /-- No link is being read already. -/
  free : ∀ i ∈ identities links, i ∉ visiting
  /-- Every name is absent or a scalar. -/
  named : ∀ link ∈ links, IsNamed link.2

/-- Answers that less than some fuel is enough for are answers. -/
theorem AnswersBelow.answers {r : Request} (h : AnswersBelow fuel r m s) : r.Answers m s := by
  obtain ⟨n, -, hn⟩ := h
  exact ⟨n, hn⟩

end Mapping
end QueryRelay
