import QueryRelay.Proofs.Outcome
import QueryRelay.Proofs.Types.Normal

/-!
# Resolving descriptors

A catalog that was built by entering definitions keeps each one under the fingerprint of its own
type, and no two under one fingerprint. Main statement: a descriptor of a type whose names such a
catalog knows, all of them outside the namespace of the built-in types, resolves to the normal form
of the type.
-/

namespace QueryRelay

/-- A look-up finds the only entry of its key. -/
theorem lookup_eq_some_of_mem {κ α : Type} [BEq κ] [LawfulBEq κ] {table : List (κ × α)} {key : κ}
    {value : α} (hdistinct : (table.map Prod.fst).Nodup) (hmem : (key, value) ∈ table) :
    table.lookup key = some value := by
  induction table with
  | nil => cases hmem
  | cons entry rest ih =>
    obtain ⟨k, v⟩ := entry
    rw [List.map_cons, List.nodup_cons] at hdistinct
    rw [List.lookup_cons]
    rcases List.mem_cons.mp hmem with heq | hmem
    · cases heq
      rw [beq_self_eq_true]
    · have hne : key ≠ k := by
        intro heq
        exact hdistinct.1 (List.mem_map.mpr ⟨(key, value), hmem, heq⟩)
      rw [beq_false_of_ne hne]
      exact ih hdistinct.2 hmem

namespace Catalog

/-- Each definition stands under the fingerprint of its own type, and no two under one. -/
structure IsKeyed (c : Catalog) : Prop where
  /-- Records stand under their fingerprints. -/
  recordKeys : ∀ entry ∈ c.recordTypes, entry.1 = (Ty.record entry.2.name).describe.fingerprint
  /-- No two records share one. -/
  recordsDistinct : (c.recordTypes.map Prod.fst).Nodup
  /-- Enumerations stand under their fingerprints. -/
  enumKeys : ∀ entry ∈ c.enumTypes, entry.1 = (Ty.enum entry.2.name).describe.fingerprint
  /-- No two enumerations share one. -/
  enumsDistinct : (c.enumTypes.map Prod.fst).Nodup

/-- Entering a definition leaves one under its key. -/
theorem enter_keys_nodup {κ α : Type} [BEq κ] [LawfulBEq κ] (key : κ) (value : α)
    {table : List (κ × α)} (h : (table.map Prod.fst).Nodup) :
    ((enter key value table).map Prod.fst).Nodup := by
  rw [enter, List.map_cons, List.nodup_cons]
  constructor
  · intro hmem
    obtain ⟨entry, hentry, heq⟩ := List.mem_map.mp hmem
    have hne := (List.mem_filter.mp hentry).2
    rw [heq] at hne
    simp at hne
  · exact h.sublist (List.filter_sublist.map Prod.fst)

/-- What holds of an entered definition and of those before it holds of all. -/
theorem forall_mem_enter {κ α : Type} [BEq κ] {P : κ × α → Prop} {key : κ} {value : α}
    {table : List (κ × α)} (hnew : P (key, value)) (hold : ∀ entry ∈ table, P entry) :
    ∀ entry ∈ enter key value table, P entry := by
  intro entry hentry
  rcases List.mem_cons.mp hentry with rfl | hentry
  · exact hnew
  · exact hold entry (List.mem_filter.mp hentry).1

/-- Defining a record keeps the keys in order. -/
theorem IsKeyed.insertRecord {c : Catalog} (h : c.IsKeyed) (r : RecordType) :
    (c.insertRecord r).IsKeyed where
  recordKeys := by
    rw [Catalog.insertRecord]
    refine forall_mem_enter ?_ h.recordKeys
    dsimp only
  recordsDistinct := enter_keys_nodup _ _ h.recordsDistinct
  enumKeys := h.enumKeys
  enumsDistinct := h.enumsDistinct

/-- Defining an enumeration keeps the keys in order. -/
theorem IsKeyed.insertEnum {c : Catalog} (h : c.IsKeyed) (e : EnumType) :
    (c.insertEnum e).IsKeyed where
  recordKeys := h.recordKeys
  recordsDistinct := h.recordsDistinct
  enumKeys := by
    rw [Catalog.insertEnum]
    refine forall_mem_enter ?_ h.enumKeys
    dsimp only
  enumsDistinct := enter_keys_nodup _ _ h.enumsDistinct

/-- Defining a function keeps the keys in order. -/
theorem IsKeyed.insertFunction {c : Catalog} (h : c.IsKeyed) (f : Function) :
    (c.insertFunction f).IsKeyed :=
  ⟨h.recordKeys, h.recordsDistinct, h.enumKeys, h.enumsDistinct⟩

/-- Defining functions keeps the keys in order. -/
theorem IsKeyed.insertFunctions {c : Catalog} (h : c.IsKeyed) (fs : List Function) :
    (fs.foldl Catalog.insertFunction c).IsKeyed := by
  induction fs generalizing c with
  | nil => exact h
  | cons f rest ih => exact ih (h.insertFunction f)

/-- The keys of the empty catalog are in order. -/
theorem empty_isKeyed : (⟨[], [], []⟩ : Catalog).IsKeyed where
  recordKeys := List.forall_mem_nil _
  recordsDistinct := List.nodup_nil
  enumKeys := List.forall_mem_nil _
  enumsDistinct := List.nodup_nil

/-- The keys of the catalog of the built-in functions are in order. -/
theorem standard_isKeyed : standard.IsKeyed := empty_isKeyed.insertFunctions _

/-- A record of the catalog is found by its name. -/
theorem IsKeyed.record?_eq_some {c : Catalog} (h : c.IsKeyed) {r : RecordType}
    (hr : r ∈ c.records) : c.record? r.name = some r := by
  obtain ⟨⟨key, r'⟩, hmem, heq⟩ := List.mem_map.mp hr
  cases heq
  have hkey := h.recordKeys _ hmem
  dsimp only at hkey
  rw [record?, ← hkey]
  exact lookup_eq_some_of_mem h.recordsDistinct hmem

/-- An enumeration of the catalog is found by its name. -/
theorem IsKeyed.enum?_eq_some {c : Catalog} (h : c.IsKeyed) {e : EnumType}
    (he : e ∈ c.enumTypes.map Prod.snd) : c.enum? e.name = some e := by
  obtain ⟨⟨key, e'⟩, hmem, heq⟩ := List.mem_map.mp he
  cases heq
  have hkey := h.enumKeys _ hmem
  dsimp only at hkey
  rw [enum?, ← hkey]
  exact lookup_eq_some_of_mem h.enumsDistinct hmem

/-- A name outside the namespace of the built-in types. -/
def IsForeign (name : String) : Prop := (splitQualified name).1 ≠ some Descriptor.coreSpace

/-- A record of this name is registered, outside the namespace of the built-in types. -/
def HasRecord (c : Catalog) (name : String) : Prop :=
  IsForeign name ∧ ∃ r ∈ c.records, r.name = name

/-- An enumeration of this name is registered, outside the namespace of the built-in types. -/
def HasEnum (c : Catalog) (name : String) : Prop :=
  IsForeign name ∧ ∃ e ∈ c.enumTypes.map Prod.snd, e.name = name

end Catalog

namespace Ty

mutual

/-- A catalog knows a type when every record and enumeration in it is registered. -/
def Known (c : Catalog) : Ty → Prop
  | .record name => c.HasRecord name
  | .enum name => c.HasEnum name
  | .seq e => Known c e
  | .option inner => Known c inner
  | .group k e => Known c k ∧ Known c e
  | .anonymous members => MembersKnown c members
  | _ => True
termination_by structural t => t

/-- A catalog knows members when it knows their types. -/
def MembersKnown (c : Catalog) : List (String × Ty) → Prop
  | [] => True
  | (_, t) :: rest => Known c t ∧ MembersKnown c rest
termination_by structural ms => ms

end

/-- A catalog knows members when it knows the type of each. -/
theorem membersKnown_iff {c : Catalog} {ms : List (String × Ty)} :
    MembersKnown c ms ↔ ∀ m ∈ ms, m.2.Known c := by
  induction ms with
  | nil => simp [MembersKnown]
  | cons m rest ih =>
    obtain ⟨name, t⟩ := m
    simp [MembersKnown, ih]

end Ty

namespace Catalog

attribute [local simp] resolve resolveArg resolveMembers

/-- The mark for null counts after all else. -/
theorem resolve_marked (c : Catalog) (d : Descriptor) :
    ∃ base : Except Error Ty,
      c.resolve d = (base.map fun t => if d.isNullable then t.optional else t) ∧
        c.resolve d.nullable = base.map Ty.optional := by
  obtain ⟨name, space, args, isCollection, isEnum, isNullable, members⟩ := d
  refine ⟨_, by rw [resolve.eq_def], ?_⟩
  rw [Descriptor.nullable, resolve.eq_def]
  rfl

/-- The mark for null goes through resolution. -/
theorem resolve_nullable (c : Catalog) (d : Descriptor) :
    c.resolve d.nullable = (c.resolve d).map Ty.optional := by
  obtain ⟨base, hplain, hmarked⟩ := resolve_marked c d
  rw [hmarked, hplain, Outcome.map_map]
  congr 1
  funext t
  cases d.isNullable with
  | false => rfl
  | true => exact (Ty.optional_optional t).symm

/-- The descriptor of a foreign name resolves to what the catalog has under its fingerprint. -/
theorem resolve_named (c : Catalog) {d : Descriptor} (hspace : d.space ≠ some Descriptor.coreSpace)
    (hnull : d.isNullable = false) : c.resolve d = c.resolveNamed d := by
  obtain ⟨name, space, args, isCollection, isEnum, isNullable, members⟩ := d
  dsimp only at hspace hnull
  subst hnull
  rw [resolve.eq_def]
  simp only [if_neg hspace]
  exact Outcome.map_id _

/-- A registered record is what its descriptor resolves to. -/
theorem IsKeyed.resolve_record {c : Catalog} (hc : c.IsKeyed) {name : String}
    (h : c.HasRecord name) : c.resolve (Ty.record name).describe = .ok (.record name) := by
  obtain ⟨hforeign, r, hr, rfl⟩ := h
  have hspace : (Ty.describeName r.name).space ≠ some Descriptor.coreSpace := hforeign
  rw [Ty.describe, resolve_named c hspace rfl]
  have hfound := hc.record?_eq_some hr
  rw [record?, Ty.describe] at hfound
  have hplain : (Ty.describeName r.name).isEnum = false := rfl
  rw [resolveNamed, hplain, hfound]
  rfl

/-- A registered enumeration is what its descriptor resolves to. -/
theorem IsKeyed.resolve_enum {c : Catalog} (hc : c.IsKeyed) {name : String}
    (h : c.HasEnum name) : c.resolve (Ty.enum name).describe = .ok (.enum name) := by
  obtain ⟨hforeign, e, he, rfl⟩ := h
  have hspace : (Ty.describeName e.name).enumeration.space ≠ some Descriptor.coreSpace := hforeign
  rw [Ty.describe, resolve_named c hspace rfl]
  have hfound := hc.enum?_eq_some he
  rw [enum?, Ty.describe] at hfound
  have hmark : (Ty.describeName e.name).enumeration.isEnum = true := rfl
  rw [resolveNamed, hmark, hfound]
  rfl

/-- The descriptor of a collection resolves to sequences of what that of its elements does. -/
theorem resolve_sequence (c : Catalog) (element : Descriptor) :
    c.resolve element.sequence = (c.resolve element).map Ty.seq := by
  simp only [Descriptor.sequence, Descriptor.core, Descriptor.plain, resolve, resolveArg, if_true]
  exact Outcome.map_id _

/-- The descriptor of groups resolves key first. -/
theorem resolve_grouping (c : Catalog) (key element : Descriptor) :
    c.resolve (Descriptor.grouping key element) =
      do return .group (← c.resolve key) (← c.resolve element) := by
  simp only [Descriptor.grouping, Descriptor.core, Descriptor.plain, resolve, resolveArg, if_true]
  exact Outcome.map_id _

/-- The descriptor of a projection resolves member by member. -/
theorem resolve_anonymous (c : Catalog) (members : List (String × Descriptor)) :
    c.resolve (Descriptor.anonymous members) = (c.resolveMembers members).map Ty.anonymous := by
  simp only [Descriptor.anonymous, Descriptor.core, Descriptor.plain, resolve, if_true]
  exact Outcome.map_id _

/-- Members resolve when each of them does. -/
theorem resolveMembers_describe {c : Catalog} {ms : List (String × Ty)}
    (h : ∀ m ∈ ms, c.resolve m.2.describe = .ok m.2.normal) :
    c.resolveMembers (Ty.describeMembers ms) = .ok (Ty.normalMembers ms) := by
  induction ms with
  | nil => rfl
  | cons m rest ih =>
    obtain ⟨name, t⟩ := m
    rw [Ty.describeMembers, resolveMembers, h (name, t) (List.mem_cons_self ..),
      ih fun m hm => h m (List.mem_cons_of_mem _ hm)]
    rfl

/-- A concrete type that the catalog knows is, up to repeated marks for null, what its descriptor
resolves to. -/
theorem IsKeyed.resolve_describe {c : Catalog} (hc : c.IsKeyed) {t : Ty} (hknown : t.Known c)
    (hconcrete : t.isConcrete = true) : c.resolve t.describe = .ok t.normal := by
  induction t with
  | unit | bool | int | float | text | timestamp | dynamic => rfl
  | infer => cases hconcrete
  | record name => exact hc.resolve_record hknown
  | enum name => exact hc.resolve_enum hknown
  | seq e ih =>
    rw [Ty.describe, resolve_sequence, ih hknown hconcrete]
    rfl
  | option inner ih =>
    rw [Ty.describe, resolve_nullable, ih hknown hconcrete, Ty.normal]
    rfl
  | group k e ihk ihe =>
    rw [Ty.isConcrete, Bool.and_eq_true] at hconcrete
    rw [Ty.describe, resolve_grouping, ihk hknown.1 hconcrete.1, ihe hknown.2 hconcrete.2]
    rfl
  | anonymous members ih =>
    have hms := resolveMembers_describe fun m hm =>
      ih m hm (Ty.membersKnown_iff.mp hknown m hm)
        ((Ty.membersConcrete_iff members).mp hconcrete m hm)
    rw [Ty.describe, resolve_anonymous, hms]
    rfl

end Catalog
end QueryRelay
