import QueryRelay.Proofs.DataFile.Rows
import QueryRelay.Proofs.Pointwise

/-!
# Declared points in time

Paths of declared fields lead from a row through nested records and sequences. Main statement: what
decides whether rows are loaded, and what they hold, are the texts one step below a row. A text at
a declared point in time that lies deeper is not looked at: it stays a text, whatever it says.
-/

namespace QueryRelay.DataFile

variable {c : Catalog} {f : DataFile} {v w : Value} {name : String}

/-! ## Declared positions -/

/-- A path of declared fields leads from a value of a type to a value inside it, through nested
records, sequences and types that may be null. -/
inductive Declares (c : Catalog) : Ty → Value → List PathStep → Ty → Value → Prop
  | here (t : Ty) (v : Value) : Declares c t v [] t v
  | field {t u t' : Ty} {record field : String} {r : RecordType} {id : Option ObjectId}
      {row : Fields Value} {v w : Value} {path : List PathStep} (ht : t.unwrapped = .record record)
      (hr : c.record? record = some r) (hfield : (field, u) ∈ r.fields)
      (hv : Fields.get? row field = some v) (h : Declares c u v path t' w) :
      Declares c t (.record id row) (.field field :: path) t' w
  | item {t e t' : Ty} {items : List Value} {index : Nat} {v w : Value} {path : List PathStep}
      (ht : t.unwrapped = .seq e) (hv : items[index]? = some v) (h : Declares c e v path t' w) :
      Declares c t (.list items) (.element index :: path) t' w

/-- A path into a record starts at one of its declared fields. -/
theorem declares_record_iff {r : RecordType} (hr : c.record? name = some r) {step : PathStep}
    {path : List PathStep} {t : Ty} : Declares c (.record name) v (step :: path) t w ↔
      ∃ id row field u x, v = .record id row ∧ step = .field field ∧ (field, u) ∈ r.fields ∧
        Fields.get? row field = some x ∧ Declares c u x path t w := by
  constructor
  · rintro (_ | ⟨ht, hr', hfield, hv, h⟩ | ⟨ht, -, -⟩)
    · cases ht
      rw [hr] at hr'
      cases hr'
      exact ⟨_, _, _, _, _, rfl, rfl, hfield, hv, h⟩
    · cases ht
  · rintro ⟨id, row, field, u, x, rfl, rfl, hfield, hx, h⟩
    exact .field rfl hr hfield hx h

/-- Nothing lies inside a text or a point in time. -/
theorem Declares.path_eq_nil {t u : Ty} {path : List PathStep} (h : Declares c t v path u w)
    (hv : (∃ s, v = .text s) ∨ ∃ m, v = .timestamp m) : path = [] := by
  cases h with
  | here => rfl
  | field | item => rcases hv with ⟨s, hs⟩ | ⟨m, hm⟩ <;> contradiction

/-- Deeper than one step below a row, what is loaded is what was there. -/
theorem LoadsRow.declares_iff {r : RecordType} (hr : c.record? name = some r)
    (h : LoadsRow r v w) {path : List PathStep} (hpath : 2 ≤ path.length) {u : Ty} {x : Value} :
    Declares c (.record name) w path u x ↔ Declares c (.record name) v path u x := by
  obtain ⟨first, second, rest, rfl⟩ : ∃ first second rest, path = first :: second :: rest := by
    match path, hpath with
    | first :: second :: rest, _ => exact ⟨first, second, rest, rfl⟩
  cases h with
  | other => rfl
  | record id hfields =>
    rw [declares_record_iff hr, declares_record_iff hr]
    constructor
    · rintro ⟨id, row, field, t, y, hrow, hstep, hfield, hy, hdeep⟩
      cases hrow
      obtain ⟨y', hy', hloads⟩ := hfields.source hy
      cases hloads with
      | moment => cases hdeep.path_eq_nil (.inr ⟨_, rfl⟩)
      | kept => exact ⟨_, _, field, t, y, rfl, hstep, hfield, hy', hdeep⟩
    · rintro ⟨id, row, field, t, y, hrow, hstep, hfield, hy, hdeep⟩
      cases hrow
      obtain ⟨y', hy', hloads⟩ := hfields.target hy
      cases hloads with
      | moment => cases hdeep.path_eq_nil (.inl ⟨_, rfl⟩)
      | kept => exact ⟨_, _, field, t, y, rfl, hstep, hfield, hy', hdeep⟩

/-- One step below a row, no text is left at a declared point in time. -/
theorem LoadsRow.not_text {r : RecordType} (hr : c.record? name = some r) (h : LoadsRow r v w)
    {step : PathStep} {u : Ty} {s : String} (hu : u.unwrapped = .timestamp) :
    ¬Declares c (.record name) w [step] u (.text s) := by
  rw [declares_record_iff hr]
  rintro ⟨id, row, field, t, x, rfl, -, hfield, hx, hhere⟩
  cases hhere
  cases h with
  | other hother => exact hother _ _ rfl
  | record id hfields =>
    obtain ⟨v, -, hloads⟩ := hfields.source hx
    exact hloads.of_text.2 ⟨u, hfield, hu⟩

/-- The rows of a record are loaded exactly when it is declared and each text at a declared point
in time one step below a row is one. -/
theorem exists_typedRows_iff {documents : List Document} :
    (∃ rows, typedRows c name documents = .ok rows) ↔ (∃ r, c.record? name = some r) ∧
      ∀ d ∈ documents, ∀ step u s,
        Declares c (.record name) (.ofDocument d) [step] u (.text s) →
          u.unwrapped = .timestamp → ∃ m, Timestamp.readStrict s = .ok m := by
  constructor
  · rintro ⟨rows, h⟩
    obtain ⟨r, hr, hrows⟩ := typedRows_eq_ok.mp h
    refine ⟨⟨r, hr⟩, fun d hd step u s hdeclares hu => ?_⟩
    obtain ⟨row, -, hrow⟩ := exists_mem_of_forall₂ hrows hd
    obtain ⟨id, fields, field, t, x, hrecord, -, hfield, hx, hhere⟩ :=
      (declares_record_iff hr).mp hdeclares
    cases hhere
    have hloads := typedRow_ok hrow
    rw [hrecord] at hloads
    cases hloads with
    | other hother => exact absurd rfl (hother _ _)
    | record _ hfields =>
      obtain ⟨w, -, hw⟩ := hfields.target hx
      obtain ⟨m, hm, -⟩ := hw.of_moment ⟨u, hfield, hu⟩
      exact ⟨m, hm⟩
  · rintro ⟨⟨r, hr⟩, h⟩
    cases hrows : typedRows c name documents with
    | ok rows => exact ⟨rows, rfl⟩
    | error e =>
      obtain ⟨d, hd, id, row, field, s, hrow, ⟨u, hfield, hu⟩, hs, hread⟩ :=
        (typedRows_error hrows).2 r hr
      obtain ⟨m, hm⟩ := h d hd (.field field) u s
        ((declares_record_iff hr).mpr ⟨id, row, field, u, _, hrow, rfl, hfield, hs, .here ..⟩) hu
      exact absurd hm (hread m)

/-- Over its catalog a data file gives the tables that are loaded. -/
theorem build_eq (hc : f.catalog = .ok c) :
    f.build = (f.rows.foldlM (loadTable c) Store.empty).map fun store => (c, store) := by
  rw [build, hc]
  cases h : f.rows.foldlM (loadTable c) Store.empty with
  | ok store => exact congrArg (· >>= fun store => pure (c, store)) h
  | error e => exact congrArg (· >>= fun store => pure (c, store)) h

/-- What rows are loaded over a catalog, and what becomes of the texts at declared points in time.
They are loaded exactly when their records are declared and each such text one step below a row is a
point in time, and the fault is one of setting up otherwise. One step below a loaded row no text is
left at a declared point in time; deeper down a loaded row is what the document says, texts
included. -/
theorem build_rows (hc : f.catalog = .ok c) :
    ((∃ store, f.build = .ok (c, store)) ∨ ∃ fault, f.build = .error (.setup fault)) ∧
    ((∃ store, f.build = .ok (c, store)) ↔ ∀ t ∈ f.rows, (∃ r, c.record? t.1 = some r) ∧
      ∀ d ∈ t.2, ∀ step u s, Declares c (.record t.1) (.ofDocument d) [step] u (.text s) →
        u.unwrapped = .timestamp → ∃ m, Timestamp.readStrict s = .ok m) ∧
    ∀ store name rows, f.build = .ok (c, store) → store.elements (.record name) = .ok rows →
      ∃ documents, (name, documents) ∈ f.rows ∧ List.Forall₂ (fun d row => ∀ path u,
        (path.length = 1 → u.unwrapped = .timestamp →
          ∀ s, ¬Declares c (.record name) row path u (.text s)) ∧
        (2 ≤ path.length → ∀ w, Declares c (.record name) row path u w ↔
          Declares c (.record name) (.ofDocument d) path u w)) documents rows := by
  rw [build_eq hc]
  cases hload : f.rows.foldlM (loadTable c) Store.empty with
  | ok store =>
    obtain ⟨hall, hget⟩ := loadTables_ok hload
    refine ⟨.inl ⟨store, rfl⟩, ?_, ?_⟩
    · exact iff_of_true ⟨store, rfl⟩ fun t ht => exists_typedRows_iff.mp (hall t ht)
    · intro store' name rows hstore hrows
      cases hstore
      rw [Store.elements] at hrows
      split at hrows
      next rows' hrows' =>
        cases hrows
        rcases hget name rows hrows' with ⟨documents, hmem, htyped⟩ | hempty
        · obtain ⟨r, hr, hforall⟩ := typedRows_eq_ok.mp htyped
          refine ⟨documents, hmem, hforall.imp fun d row hrow path u => ⟨?_, ?_⟩⟩
          · intro hpath hu s
            obtain ⟨step, rfl⟩ := List.length_eq_one_iff.mp hpath
            exact (typedRow_ok hrow).not_text hr hu
          · exact fun hpath w => (typedRow_ok hrow).declares_iff hr hpath
        · cases hempty
      next => cases hrows
  | error e =>
    obtain ⟨t, ht, herror⟩ := loadTables_error hload
    obtain ⟨⟨fault, rfl⟩, -⟩ := typedRows_error herror
    refine ⟨.inr ⟨fault, rfl⟩, iff_of_false (fun ⟨_, h⟩ => nomatch h) fun hall => ?_, nofun⟩
    obtain ⟨rows, hrows⟩ := exists_typedRows_iff.mpr (hall t ht)
    rw [herror] at hrows
    cases hrows

/-! ## A nested text -/

/-- A record with a point in time that holds a further record of its type. -/
def node : RecordType := ⟨"a.Node", [("At", .timestamp), ("Next", .record "a.Node")]⟩

/-- The catalog with this record. -/
def nodeNames : Catalog := Catalog.standard.insertRecord ⟨node.name, []⟩

/-- A row with a text at the point in time of its nested record. -/
def nestedRow : Value := .record none [("Next", .record none [("At", .text "2024-05-01T08:30:00Z")])]

/-- A data file with this record and this row. -/
def nestedFile : DataFile where
  records := [⟨"a.Node", [("At", "core.DateTime"), ("Next", "a.Node")]⟩]
  enums := []
  rows := [("a.Node", [.object [("Next", .object [("At", .text "2024-05-01T08:30:00Z")])]])]

/-- The record is found under its name. -/
theorem nodeNames_record? : (nodeNames.insertRecord node).record? "a.Node" = some node := by
  rw [Catalog.record?, Catalog.insertRecord, Catalog.lookup_enter]
  exact if_pos (beq_self_eq_true _)

/-- The record is what its declaration stands for. -/
theorem node_recordType : recordType nodeNames ⟨"a.Node", [("At", "core.DateTime"),
    ("Next", "a.Node")]⟩ = .ok node := by
  have hforeign : (splitQualified "a.Node").1 ≠ some Descriptor.coreSpace := by decide +kernel
  have hkeyed : nodeNames.IsKeyed := Catalog.standard_isKeyed.insertRecord _
  have hnext : nodeNames.resolve (Ty.record "a.Node").describe = .ok (.record "a.Node") :=
    hkeyed.resolve_record ⟨hforeign, ⟨"a.Node", []⟩, List.mem_cons_self .., rfl⟩
  have hat : nodeNames.resolve Ty.timestamp.describe = .ok .timestamp :=
    hkeyed.resolve_describe trivial rfl
  have hreadNext : Descriptor.read "a.Node" = .ok (Ty.record "a.Node").describe := by rfl
  have hreadAt : Descriptor.read "core.DateTime" = .ok Ty.timestamp.describe := by rfl
  simp only [recordType, fieldType, List.mapM_cons, List.mapM_nil, hreadAt, hreadNext, bind,
    Except.bind, hat, hnext]
  rfl

/-- The catalog of the data file. -/
theorem nestedFile_catalog : nestedFile.catalog = .ok (nodeNames.insertRecord node) :=
  catalog_eq_ok.mpr ⟨[node], Outcome.mapM_eq_ok.mpr (.cons node_recordType .nil), rfl⟩

/-- The row is loaded as it is. -/
theorem nestedFile_build : nestedFile.build =
    .ok (nodeNames.insertRecord node, ⟨[("a.Node", [nestedRow])]⟩) := by
  have hrows : typedRows (nodeNames.insertRecord node) "a.Node"
      [.object [("Next", .object [("At", .text "2024-05-01T08:30:00Z")])]] = .ok [nestedRow] := by
    rw [typedRows, nodeNames_record?]
    rfl
  rw [build_eq nestedFile_catalog, nestedFile, List.foldlM_cons, loadTable, hrows]
  rfl

/-- The data file is accepted: one step below its row no text is at a declared point in time. -/
theorem nestedFile_accepted :
    ∃ store, nestedFile.build = .ok (nodeNames.insertRecord node, store) := by
  refine (build_rows nestedFile_catalog).2.1.mpr (List.forall_mem_singleton.mpr
    ⟨⟨node, nodeNames_record?⟩, List.forall_mem_singleton.mpr fun step u s h _ => ?_⟩)
  obtain ⟨id, row, field, t, x, hrow, -, -, hx, hhere⟩ :=
    (declares_record_iff nodeNames_record?).mp h
  cases hhere
  cases hrow
  have hmem := Fields.mem_of_get?_eq_some hx
  cases List.mem_singleton.mp hmem

/-- A text is left at a declared point in time of a loaded row. -/
theorem nested_text_left : ¬∀ (f : DataFile) (c : Catalog) (store : Store),
    f.build = .ok (c, store) → ∀ name rows, store.elements (.record name) = .ok rows →
      ∀ row ∈ rows, ∀ path u w, Declares c (.record name) row path u w →
        u.unwrapped = .timestamp → ∀ s, w ≠ .text s := by
  intro h
  have hat : Declares (nodeNames.insertRecord node) (.record "a.Node") nestedRow
      [.field "Next", .field "At"] .timestamp (.text "2024-05-01T08:30:00Z") :=
    .field rfl nodeNames_record? (List.mem_cons_of_mem _ (List.mem_singleton_self _)) rfl
      (.field rfl nodeNames_record? (List.mem_cons_self ..) rfl (.here ..))
  exact h nestedFile _ _ nestedFile_build "a.Node" [nestedRow] rfl nestedRow
    (List.mem_singleton_self _) _ _ _ hat rfl "2024-05-01T08:30:00Z" rfl

end QueryRelay.DataFile
