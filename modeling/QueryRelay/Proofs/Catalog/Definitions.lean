import Mathlib.Data.List.Nodup
import QueryRelay.Proofs.Catalog.Resolution

/-!
# Catalogs that are built definition by definition

A catalog starts out empty and takes up definitions of records, enumerations and functions in any
order, a later one in place of an earlier one under the same key. Main statement: over such a
catalog a type is what its descriptor resolves to when each record and each enumeration in it is
defined, and the descriptor does not resolve when one of them is not.
-/

namespace QueryRelay

/-! ## Building a catalog -/

/-- Something that a catalog can take up. -/
inductive Definition where
  /-- A record. -/
  | record (r : RecordType)
  /-- An enumeration. -/
  | enum (e : EnumType)
  /-- A function. -/
  | function (f : Function)

namespace Catalog

/-- Take up a definition. -/
def define (c : Catalog) : Definition → Catalog
  | .record r => c.insertRecord r
  | .enum e => c.insertEnum e
  | .function f => c.insertFunction f

/-- The catalog that takes up these definitions one after the other. -/
def ofDefinitions (ds : List Definition) : Catalog := ds.foldl define ⟨[], [], []⟩

/-- What is built on the catalog of the built-in functions takes these up first. -/
theorem foldl_define_standard (ds : List Definition) :
    ds.foldl define standard = ofDefinitions (Function.builtins.map .function ++ ds) := by
  rw [ofDefinitions, List.foldl_append, List.foldl_map]
  rfl

/-- A further definition keeps the keys in order. -/
theorem IsKeyed.define {c : Catalog} (h : c.IsKeyed) (d : Definition) : (c.define d).IsKeyed := by
  cases d with
  | record r => exact h.insertRecord r
  | enum e => exact h.insertEnum e
  | function f => exact h.insertFunction f

end Catalog

/-! ## Named types -/

namespace Ty

mutual

/-- The records and enumerations in a type, from left to right. -/
def named : Ty → List Ty
  | .record name => [.record name]
  | .enum name => [.enum name]
  | .seq e => named e
  | .option inner => named inner
  | .group k e => named k ++ named e
  | .anonymous members => namedInMembers members
  | _ => []
termination_by structural t => t

/-- The records and enumerations in the types of members. -/
def namedInMembers : List (String × Ty) → List Ty
  | [] => []
  | (_, t) :: rest => named t ++ namedInMembers rest
termination_by structural ms => ms

end

/-- A type outside the namespace of the built-in types. -/
def IsForeign (t : Ty) : Prop := t.describe.space ≠ some Descriptor.coreSpace

end Ty

namespace Catalog

variable {c : Catalog} {t u : Ty}

/-- The records and enumerations that a catalog defines. -/
def namedTypes (c : Catalog) : List Ty :=
  c.records.map (fun r => .record r.name) ++
    (c.enumTypes.map Prod.snd).map fun e => .enum e.name

/-- A catalog tells a type from others: no record and no enumeration, of the catalog or in the type,
is in the namespace of the built-in types, and no two of them have one fingerprint. -/
structure Distinguishes (c : Catalog) (t : Ty) : Prop where
  /-- None is in the namespace of the built-in types. -/
  foreign : ∀ u ∈ c.namedTypes ++ t.named, u.IsForeign
  /-- Those with one fingerprint are the same. -/
  distinct : ∀ u ∈ c.namedTypes ++ t.named, ∀ v ∈ c.namedTypes ++ t.named,
    u.describe.fingerprint = v.describe.fingerprint → u = v

/-- What a catalog tells from others it tells in the parts. -/
theorem Distinguishes.part (h : c.Distinguishes t) (hu : ∀ v ∈ u.named, v ∈ t.named) :
    c.Distinguishes u := by
  have hmem : ∀ v ∈ c.namedTypes ++ u.named, v ∈ c.namedTypes ++ t.named := fun v hv =>
    List.mem_append.mpr ((List.mem_append.mp hv).imp_right (hu v))
  exact ⟨fun v hv => h.foreign v (hmem v hv),
    fun v hv w hw => h.distinct v (hmem v hv) w (hmem w hw)⟩

/-- The outcome of resolving something in which a named type is not defined: the descriptor of one
such type is reported. -/
def Misses (c : Catalog) (names : List Ty) {α : Type} (outcome : Except Error α) : Prop :=
  ∃ u ∈ names, u ∉ c.namedTypes ∧
    outcome = .error (.unknownType (.unresolved u.describe.render))

variable {α β : Type} {names : List Ty} {outcome : Except Error α}

/-- A report is passed on by what follows. -/
theorem Misses.bind (h : c.Misses names outcome) (f : α → Except Error β) :
    c.Misses names (outcome >>= f) := by
  obtain ⟨u, hu, hundefined, rfl⟩ := h
  exact ⟨u, hu, hundefined, rfl⟩

/-- A report is passed on by a map. -/
theorem Misses.map (h : c.Misses names outcome) (f : α → β) : c.Misses names (outcome.map f) := by
  obtain ⟨u, hu, hundefined, rfl⟩ := h
  exact ⟨u, hu, hundefined, rfl⟩

/-- A report is one for more names. -/
theorem Misses.mono (h : c.Misses names outcome) {others : List Ty}
    (hsubset : ∀ u ∈ names, u ∈ others) : c.Misses others outcome := by
  obtain ⟨u, hu, hreport⟩ := h
  exact ⟨u, hsubset u hu, hreport⟩

/-- A table of definitions has nothing under the fingerprint of a type that is not defined: an entry
there would define the type. -/
theorem Distinguishes.lookup_eq_none (h : c.Distinguishes t) {table : List (TypeKey × α)}
    (typeOf : α → Ty)
    (hkeys : ∀ entry ∈ table, entry.1 = (typeOf entry.2).describe.fingerprint)
    (hdefined : ∀ entry ∈ table, typeOf entry.2 ∈ c.namedTypes) (hu : u ∈ t.named)
    (hundefined : u ∉ c.namedTypes) : table.lookup u.describe.fingerprint = none := by
  refine List.lookup_eq_none_iff.mpr fun entry hentry => bne_iff_ne.mpr fun heq => hundefined ?_
  have hsame : u = typeOf entry.2 := h.distinct u (List.mem_append_right _ hu) _
    (List.mem_append_left _ (hdefined entry hentry)) (heq.trans (hkeys entry hentry))
  exact hsame ▸ hdefined entry hentry

end Catalog
end QueryRelay
