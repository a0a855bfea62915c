import Mathlib.Data.List.Perm.Basic
import QueryRelay.DataFile
import QueryRelay.Proofs.Catalog.Order

/-!
# Data files in any order

The declarations of a data file may stand in any order. All names are defined before any field is
resolved, so what a field resolves to does not depend on what stands before it, and the definitions
take the places that their names hold. Main statement: two data files with the same declarations,
in any two orders, and the same rows are both accepted or both refused, and what they give answers
every question alike.
-/

namespace QueryRelay

/-- A traversal in another order gives the same values in another order. -/
theorem Outcome.mapM_perm {ε α β : Type} {f : α → Except ε β} {xs xs' : List α} {ys : List β}
    (hperm : xs.Perm xs') (h : xs.mapM f = .ok ys) : ∃ ys', xs'.mapM f = .ok ys' ∧ ys.Perm ys' := by
  obtain ⟨ys', hys', hperm'⟩ := List.perm_comp_forall₂ hperm.symm (Outcome.mapM_eq_ok.mp h)
  exact ⟨ys', Outcome.mapM_eq_ok.mpr hys', hperm'.symm⟩

namespace DataFile

variable {c c' : Catalog} {f g : DataFile}

/-- The key of a declared record. -/
def recordKey (r : RecordDeclaration) : TypeKey := (Ty.record r.name).describe.fingerprint

/-- The key of a declared enumeration. -/
def enumKey (e : EnumType) : TypeKey := (Ty.enum e.name).describe.fingerprint

/-- Two data files differ at most in the order of their declarations, which have distinct keys. -/
structure Reorders (f g : DataFile) : Prop where
  /-- The same records are declared. -/
  records : f.records.Perm g.records
  /-- The same enumerations are declared. -/
  enums : f.enums.Perm g.enums
  /-- The rows are the same. -/
  rows : f.rows = g.rows
  /-- No two records have one key. -/
  recordsDistinct : (f.records.map recordKey).Nodup
  /-- No two enumerations have one key. -/
  enumsDistinct : (f.enums.map enumKey).Nodup

/-- The order may be taken back. -/
theorem Reorders.symm (h : Reorders f g) : Reorders g f where
  records := h.records.symm
  enums := h.enums.symm
  rows := h.rows.symm
  recordsDistinct := (h.records.map recordKey).nodup_iff.mp h.recordsDistinct
  enumsDistinct := (h.enums.map enumKey).nodup_iff.mp h.enumsDistinct

/-- A declaration stands for the same record over catalogs that answer alike. -/
theorem recordType_congr (h : c.Alike c') (r : RecordDeclaration) :
    recordType c r = recordType c' r := by
  have hfield (field type : String) : fieldType c r.name field type =
      fieldType c' r.name field type := by
    simp only [fieldType, h.resolve_eq]
  simp only [recordType, hfield]

/-- A declared record keeps its name. -/
theorem recordType_name {r : RecordDeclaration} {t : RecordType} (h : recordType c r = .ok t) :
    t.name = r.name := by
  obtain ⟨fields, -, ht⟩ := Outcome.bind_eq_ok.mp h
  cases ht
  rfl

/-- Resolved records stand under the keys that their declarations have. -/
theorem recordKeys_eq {declared : List RecordDeclaration} {records : List RecordType}
    (h : List.Forall₂ (fun r t => recordType c r = .ok t) declared records) :
    declared.map recordKey = records.map fun t => (Ty.record t.name).describe.fingerprint := by
  induction h with
  | nil => rfl
  | cons hhead _ ih => rw [List.map_cons, List.map_cons, ih, recordType_name hhead, recordKey]

/-- The catalog of the names alone. -/
def nameCatalog (f : DataFile) : Catalog :=
  f.records.foldl (fun c r => c.insertRecord ⟨r.name, []⟩)
    (f.enums.foldl Catalog.insertEnum .standard)

/-- The catalog of a data file is that of the names with the resolved records in their places. -/
theorem catalog_eq_ok : f.catalog = .ok c ↔ ∃ records,
    f.records.mapM (recordType f.nameCatalog) = .ok records ∧
      c = records.foldl Catalog.insertRecord f.nameCatalog := by
  rw [catalog, Outcome.bind_eq_ok]
  simp only [Outcome.pure_eq_ok, eq_comm (b := c)]
  rfl

/-- The names may be defined in any order. -/
theorem Reorders.nameCatalog (h : Reorders f g) : f.nameCatalog.Alike g.nameCatalog := by
  have henums := Catalog.Alike.foldl_perm (fun h => h.insertEnum)
    (fun c _ _ => Catalog.Alike.insertEnum_comm c) h.enums h.enumsDistinct (.refl .standard)
  exact Catalog.Alike.foldl_perm (fun h r => h.insertRecord ⟨r.name, []⟩)
    (fun c _ _ => Catalog.Alike.insertRecord_comm c) h.records h.recordsDistinct henums

/-- Where one order of the declarations makes a catalog, the other makes one that answers alike. -/
theorem Reorders.catalog (h : Reorders f g) (hf : f.catalog = .ok c) :
    ∃ c', g.catalog = .ok c' ∧ c.Alike c' := by
  obtain ⟨records, hrecords, rfl⟩ := catalog_eq_ok.mp hf
  have hsame : recordType f.nameCatalog = recordType g.nameCatalog :=
    funext (recordType_congr h.nameCatalog)
  rw [hsame] at hrecords
  obtain ⟨records', hrecords', hperm⟩ := Outcome.mapM_perm h.records hrecords
  have hdistinct := recordKeys_eq (Outcome.mapM_eq_ok.mp hrecords) ▸ h.recordsDistinct
  exact ⟨_, catalog_eq_ok.mpr ⟨records', hrecords', rfl⟩,
    Catalog.Alike.foldl_perm (fun h => h.insertRecord)
      (fun c _ _ => Catalog.Alike.insertRecord_comm c) hperm hdistinct h.nameCatalog⟩

/-- Rows are the same over catalogs that answer alike. -/
theorem typedRows_congr (h : c.Alike c') (name : String) (rows : List Document) :
    typedRows c name rows = typedRows c' name rows := by
  rw [typedRows, typedRows, h.record?_eq]

/-- A data file is accepted when its declarations make a catalog over which its rows are loaded. -/
theorem build_eq_ok {store : Store} : f.build = .ok (c, store) ↔ f.catalog = .ok c ∧
    f.rows.foldlM (fun (s : Store) t => return s.insert t.1 (← typedRows c t.1 t.2)) Store.empty =
      .ok store := by
  rw [build, Outcome.bind_eq_ok]
  constructor
  · rintro ⟨c', hc', h⟩
    obtain ⟨store', hstore', h⟩ := Outcome.bind_eq_ok.mp h
    cases h
    exact ⟨hc', hstore'⟩
  · rintro ⟨hc, hstore⟩
    exact ⟨c, hc, Outcome.bind_eq_ok.mpr ⟨store, hstore, rfl⟩⟩

/-- Where one order of the declarations is accepted, the other is too, with the same rows and a
catalog that answers alike. -/
theorem Reorders.build (h : Reorders f g) {store : Store} (hf : f.build = .ok (c, store)) :
    ∃ c', g.build = .ok (c', store) ∧ c.Alike c' := by
  obtain ⟨hcatalog, hstore⟩ := build_eq_ok.mp hf
  obtain ⟨c', hcatalog', halike⟩ := h.catalog hcatalog
  have hrows : typedRows c = typedRows c' := by
    funext name rows
    exact typedRows_congr halike name rows
  rw [h.rows, hrows] at hstore
  exact ⟨c', build_eq_ok.mpr ⟨hcatalog', hstore⟩, halike⟩

/-- The order of the declarations of a data file does not count, also where fields refer to one
another or to records that are declared later: one order is accepted when another is, both give the
same rows, and their catalogs answer every question alike. -/
theorem build_reorder (h : Reorders f g) :
    ((∃ c store, f.build = .ok (c, store)) ↔ ∃ c store, g.build = .ok (c, store)) ∧
      ∀ c store c' store', f.build = .ok (c, store) → g.build = .ok (c', store') →
        (∀ name, c.record? name = c'.record? name) ∧ (∀ name, c.enum? name = c'.enum? name) ∧
        (∀ d, c.resolve d = c'.resolve d) ∧
        (∀ t member, c.memberType? t member = c'.memberType? t member) ∧
        (∀ declaring name, c.function? declaring name = c'.function? declaring name) ∧
        store = store' := by
  constructor
  · constructor
    · rintro ⟨c, store, hf⟩
      obtain ⟨c', hg, -⟩ := h.build hf
      exact ⟨c', store, hg⟩
    · rintro ⟨c, store, hg⟩
      obtain ⟨c', hf, -⟩ := h.symm.build hg
      exact ⟨c', store, hf⟩
  · intro c store c' store' hf hg
    obtain ⟨c'', hg', halike⟩ := h.build hf
    cases hg.symm.trans hg'
    exact ⟨halike.record?_eq, halike.enum?_eq, halike.resolve_eq, halike.memberType?_eq,
      halike.function?_eq, rfl⟩

/-- A data file with two records that refer to each other and to an enumeration. -/
def tree : DataFile where
  records := [⟨"a.Leaf", [("Branch", "a.Branch?")]⟩,
    ⟨"a.Branch", [("Leaf", "a.Leaf"), ("Color", "enum a.Color")]⟩]
  enums := [⟨"a.Color", ["Red"]⟩, ⟨"a.Size", ["Small"]⟩]
  rows := [("a.Leaf", [.object [("Branch", .null)]])]

/-- The data file is accepted with its records swapped, and with its enumerations. -/
theorem tree_reordered_accepted :
    let swapped : DataFile := ⟨tree.records.reverse, tree.enums.reverse, tree.rows⟩
    tree.build.isOk = true ∧ ∃ c store, swapped.build = .ok (c, store) := by
  intro swapped
  have haccepted : tree.build.isOk = true := by decide +kernel
  have hreorders : Reorders tree swapped :=
    ⟨tree.records.reverse_perm.symm, tree.enums.reverse_perm.symm, rfl, by decide +kernel,
      by decide +kernel⟩
  refine ⟨haccepted, (build_reorder hreorders).1.mp ?_⟩
  cases h : tree.build with
  | ok result => exact ⟨result.1, result.2, rfl⟩
  | error e =>
    rw [h] at haccepted
    cases haccepted

end DataFile
end QueryRelay
