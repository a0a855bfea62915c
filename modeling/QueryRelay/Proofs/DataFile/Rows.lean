import QueryRelay.Proofs.DataFile.Order
import QueryRelay.Proofs.Fields

/-!
# Loading rows

Rows are loaded over a catalog. A text in a field that is declared as a point in time, or as one
that may be null, is read as one; all else is kept as the document has it. What is loaded is told
field by field, row by row and table by table, and a fault is traced back to the text that is no
point in time.
-/

namespace QueryRelay

namespace Outcome

variable {ε α β : Type}

/-- A traversal fails with the fault of one of its steps. -/
theorem exists_of_mapM_eq_error {f : α → Except ε β} {xs : List α} {e : ε}
    (h : xs.mapM f = .error e) : ∃ x ∈ xs, f x = .error e := by
  induction xs with
  | nil => cases h
  | cons x xs ih =>
    rw [List.mapM_cons] at h
    cases hx : f x with
    | error e' =>
      rw [hx] at h
      cases h
      exact ⟨x, List.mem_cons_self .., hx⟩
    | ok y =>
      cases hrest : xs.mapM f with
      | error e' =>
        rw [hx, hrest] at h
        cases h
        obtain ⟨x', hx', he⟩ := ih hrest
        exact ⟨x', List.mem_cons_of_mem x hx', he⟩
      | ok ys =>
        rw [hx, hrest] at h
        cases h

end Outcome

namespace DataFile

variable {c : Catalog} {f : DataFile} {declared : Fields Ty} {row row' : Fields Value}
  {v w : Value} {name : String}

/-! ## One field -/

/-- What a value is loaded as, where a point in time may be declared: a text there is read as one,
and every other value is kept. -/
inductive Loads (isMoment : Prop) : Value → Value → Prop
  | moment {s : String} {m : Timestamp} (h : isMoment) (hread : Timestamp.readStrict s = .ok m) :
      Loads isMoment (.text s) (.timestamp m)
  | kept {v : Value} (h : isMoment → ∀ s, v ≠ .text s) : Loads isMoment v v

/-- A text that is left is one that was there, where no point in time is declared. -/
theorem Loads.of_text {p : Prop} {s : String} (h : Loads p v (.text s)) : v = .text s ∧ ¬p := by
  cases h with
  | kept h => exact ⟨rfl, fun hp => h hp s rfl⟩

/-- A text where a point in time is declared reads as one. -/
theorem Loads.of_moment {p : Prop} {s : String} (h : Loads p (.text s) w) (hp : p) :
    ∃ m, Timestamp.readStrict s = .ok m ∧ w = .timestamp m := by
  cases h with
  | moment _ hread => exact ⟨_, hread, rfl⟩
  | kept h => exact absurd rfl (h hp s)

/-- Two readings in a row load as one. -/
theorem Loads.trans {p q : Prop} {u : Value} (h : Loads p u v) (h' : Loads q v w) :
    Loads (p ∨ q) u w := by
  cases h with
  | moment hp hread =>
    cases h' with
    | kept _ => exact .moment (.inl hp) hread
  | kept h =>
    cases h' with
    | moment hq hread => exact .moment (.inr hq) hread
    | kept h' => exact .kept fun hpq => hpq.elim h h'

/-- The text of a field that is loaded reads as a point in time, if the field holds those. -/
theorem typedField_ok {record : String} {t : Ty} (h : typedField record t name v = .ok w) :
    Loads (t.unwrapped = .timestamp) v w := by
  unfold typedField at h
  split at h
  · split at h
    · cases h
      exact .moment ‹_› ‹_›
    · cases h
  · cases h
    rename_i hother
    exact .kept fun ht s hs => hother s ht hs

/-- A field that is not loaded holds a text that is no point in time, though it is declared. -/
theorem typedField_error {record : String} {t : Ty} {e : Error}
    (h : typedField record t name v = .error e) : t.unwrapped = .timestamp ∧ ∃ s, v = .text s ∧
      (∀ m, Timestamp.readStrict s ≠ .ok m) ∧
        ∃ cause, e = .setup (.rowTimestamp record name cause) := by
  unfold typedField at h
  split at h
  · rename_i s ht
    split at h
    · cases h
    · cases h
      rename_i hread
      refine ⟨ht, s, rfl, fun m hm => ?_, _, rfl⟩
      rw [hm] at hread
      cases hread
  · cases h

/-! ## The fields of a row -/

/-- A field is declared as a point in time, or as one that may be null. -/
def IsMoment (declared : Fields Ty) (name : String) : Prop :=
  ∃ t, (name, t) ∈ declared ∧ t.unwrapped = .timestamp

/-- A field is declared by the first declaration or by another one. -/
theorem isMoment_cons {field : String × Ty} : IsMoment (field :: declared) name ↔
    (name = field.1 ∧ field.2.unwrapped = .timestamp) ∨ IsMoment declared name := by
  constructor
  · rintro ⟨t, hmem, ht⟩
    rcases List.mem_cons.mp hmem with rfl | hmem
    · exact .inl ⟨rfl, ht⟩
    · exact .inr ⟨t, hmem, ht⟩
  · rintro (⟨rfl, ht⟩ | ⟨t, hmem, ht⟩)
    · exact ⟨field.2, List.mem_cons_self .., ht⟩
    · exact ⟨t, List.mem_cons_of_mem _ hmem, ht⟩

/-- Nothing is declared without a declaration. -/
theorem not_isMoment_nil : ¬IsMoment [] name := fun ⟨_, hmem, _⟩ => nomatch hmem

/-- A field is declared by a declaration. -/
theorem isMoment_singleton {field : String × Ty} :
    IsMoment [field] name ↔ name = field.1 ∧ field.2.unwrapped = .timestamp := by
  rw [isMoment_cons, or_iff_left not_isMoment_nil]

/-- Fields that are loaded from others: under the same names, and one by one. -/
structure LoadsFields (declared : Fields Ty) (row row' : Fields Value) : Prop where
  /-- The names stay. -/
  names : row'.map Prod.fst = row.map Prod.fst
  /-- What stands under a name is loaded. -/
  values : ∀ name, Option.Rel (Loads (IsMoment declared name)) (Fields.get? row name)
    (Fields.get? row' name)

/-- What is found under a name has been loaded from something under it. -/
theorem LoadsFields.source (h : LoadsFields declared row row')
    (hw : Fields.get? row' name = some w) :
    ∃ v, Fields.get? row name = some v ∧ Loads (IsMoment declared name) v w := by
  have hvalues := h.values name
  rw [hw] at hvalues
  cases hv : Fields.get? row name with
  | none => rw [hv] at hvalues; cases hvalues
  | some v =>
    rw [hv] at hvalues
    cases hvalues with
    | some hvw => exact ⟨v, rfl, hvw⟩

/-- What stands under a name is loaded as something. -/
theorem LoadsFields.target (h : LoadsFields declared row row')
    (hv : Fields.get? row name = some v) :
    ∃ w, Fields.get? row' name = some w ∧ Loads (IsMoment declared name) v w := by
  have hvalues := h.values name
  rw [hv] at hvalues
  cases hw : Fields.get? row' name with
  | none => rw [hw] at hvalues; cases hvalues
  | some w =>
    rw [hw] at hvalues
    cases hvalues with
    | some hvw => exact ⟨w, rfl, hvw⟩

/-- One step of loading: the field of one declaration, if the row has it. -/
def typedStep (record : String) (row : Fields Value) (field : String × Ty) :
    Except Error (Fields Value) :=
  match Fields.get? row field.1 with
  | some v => return Fields.insert row field.1 (← typedField record field.2 field.1 v)
  | none => .ok row

/-- Replacing a value where it stands keeps the names. -/
theorem insert_names (hv : Fields.get? row name = some v) (w : Value) :
    (Fields.insert row name w).map Prod.fst = row.map Prod.fst := by
  induction row with
  | nil => cases hv
  | cons entry rest ih =>
    obtain ⟨other, old⟩ := entry
    rw [Fields.get?] at hv
    rw [Fields.insert]
    split at hv
    · rw [if_pos ‹_›, List.map_cons, List.map_cons]
    · rw [if_neg ‹_›, List.map_cons, List.map_cons, ih hv]

/-- A step loads the field of its declaration. -/
theorem typedStep_ok {record : String} {field : String × Ty}
    (h : typedStep record row field = .ok row') : LoadsFields [field] row row' := by
  have hother {name : String} (hne : name ≠ field.1) (x : Option Value) :
      Option.Rel (Loads (IsMoment [field] name)) x x := by
    cases x with
    | none => exact .none
    | some v => exact .some (.kept fun hmoment => absurd (isMoment_singleton.mp hmoment).1 hne)
  rw [typedStep] at h
  split at h
  next v hv =>
    obtain ⟨w, hw, h⟩ := Outcome.bind_eq_ok.mp h
    cases h
    refine ⟨insert_names hv w, fun name => ?_⟩
    by_cases hname : name = field.1
    · subst hname
      rw [hv, Fields.get?_insert_self]
      have hiff : IsMoment [field] field.1 ↔ field.2.unwrapped = .timestamp := by
        rw [isMoment_singleton, and_iff_right rfl]
      rw [propext hiff]
      exact .some (typedField_ok hw)
    · rw [Fields.get?_insert_of_ne _ _ hname]
      exact hother hname _
  next hv =>
    cases h
    refine ⟨rfl, fun name => ?_⟩
    by_cases hname : name = field.1
    · rw [hname, hv]
      exact .none
    · exact hother hname _

/-- Loading in two parts is loading. -/
theorem LoadsFields.trans {field : String × Ty} {row'' : Fields Value}
    (h : LoadsFields [field] row row') (h' : LoadsFields declared row' row'') :
    LoadsFields (field :: declared) row row'' := by
  refine ⟨h'.names.trans h.names, fun name => ?_⟩
  have hiff : IsMoment (field :: declared) name ↔
      IsMoment [field] name ∨ IsMoment declared name := by
    rw [isMoment_cons, isMoment_singleton]
  rw [propext hiff]
  have hfirst := h.values name
  have hsecond := h'.values name
  revert hfirst hsecond
  generalize Fields.get? row name = x
  generalize Fields.get? row' name = y
  generalize Fields.get? row'' name = z
  rintro (hxy | _) (hyz | _)
  · exact .some (hxy.trans hyz)
  · exact .none

/-- The fields of a row that is loaded. -/
theorem typedFields_ok {record : String}
    (h : declared.foldlM (typedStep record) row = .ok row') : LoadsFields declared row row' := by
  induction declared generalizing row with
  | nil =>
    cases h
    refine ⟨rfl, fun name => ?_⟩
    cases Fields.get? row' name with
    | none => exact .none
    | some v => exact .some (.kept fun hmoment => absurd hmoment not_isMoment_nil)
  | cons field rest ih =>
    rw [List.foldlM_cons] at h
    obtain ⟨middle, hstep, hrest⟩ := Outcome.bind_eq_ok.mp h
    exact (typedStep_ok hstep).trans (ih hrest)

/-- A row that is not loaded has a text that is no point in time in a field that is declared as
one, and the fault names the record and the field. -/
theorem typedFields_error {record : String} {e : Error}
    (h : declared.foldlM (typedStep record) row = .error e) :
    ∃ name s, IsMoment declared name ∧ Fields.get? row name = some (.text s) ∧
      (∀ m, Timestamp.readStrict s ≠ .ok m) ∧
        ∃ cause, e = .setup (.rowTimestamp record name cause) := by
  induction declared generalizing row with
  | nil => cases h
  | cons field rest ih =>
    rw [List.foldlM_cons] at h
    cases hstep : typedStep record row field with
    | error e' =>
      rw [hstep] at h
      cases h
      rw [typedStep] at hstep
      split at hstep
      next v hv =>
        cases hfield : typedField record field.2 field.1 v with
        | ok w => rw [hfield] at hstep; cases hstep
        | error e' =>
          rw [hfield] at hstep
          cases hstep
          obtain ⟨ht, s, rfl, hread, hcause⟩ := typedField_error hfield
          exact ⟨field.1, s, isMoment_cons.mpr (.inl ⟨rfl, ht⟩), hv, hread, hcause⟩
      next => cases hstep
    | ok middle =>
      rw [hstep] at h
      obtain ⟨name, s, hmoment, hs, hread, hcause⟩ := ih h
      obtain ⟨v, hv, hloads⟩ := (typedStep_ok hstep).source hs
      obtain ⟨rfl, -⟩ := hloads.of_text
      exact ⟨name, s, isMoment_cons.mpr (.inr hmoment), hv, hread, hcause⟩

/-! ## Rows -/

/-- What a row is loaded as: a record field by field, and anything else as it is. -/
inductive LoadsRow (r : RecordType) : Value → Value → Prop
  | record (id : Option ObjectId) {row row' : Fields Value} (h : LoadsFields r.fields row row') :
      LoadsRow r (.record id row) (.record id row')
  | other {v : Value} (h : ∀ id row, v ≠ .record id row) : LoadsRow r v v

/-- A row that is loaded. -/
theorem typedRow_ok {r : RecordType} (h : typedRow r v = .ok w) : LoadsRow r v w := by
  unfold typedRow at h
  split at h
  · obtain ⟨row', hrow, h⟩ := Outcome.bind_eq_ok.mp h
    cases h
    exact .record _ (typedFields_ok hrow)
  · cases h
    exact .other ‹_›

/-- A row that is not loaded is a record with a text that is no point in time in a field that is
declared as one. -/
theorem typedRow_error {r : RecordType} {e : Error} (h : typedRow r v = .error e) :
    ∃ id row name s, v = .record id row ∧ IsMoment r.fields name ∧
      Fields.get? row name = some (.text s) ∧ (∀ m, Timestamp.readStrict s ≠ .ok m) ∧
        ∃ cause, e = .setup (.rowTimestamp r.name name cause) := by
  unfold typedRow at h
  split at h
  next id row =>
    cases hrow : r.fields.foldlM (typedStep r.name) row with
    | ok row' =>
      have hsame : (pure (Value.record id row') : Except Error Value) = .error e :=
        (congrArg (· >>= fun row => pure (Value.record id row)) hrow).symm.trans h
      cases hsame
    | error e' =>
      have hsame : (.error e' : Except Error Value) = .error e :=
        (congrArg (· >>= fun row => pure (Value.record id row)) hrow).symm.trans h
      cases hsame
      obtain ⟨name, s, hfault⟩ := typedFields_error hrow
      exact ⟨id, row, name, s, rfl, hfault⟩
  next => cases h

/-- The rows of a record that are loaded. -/
theorem typedRows_eq_ok {documents : List Document} {rows : List Value} :
    typedRows c name documents = .ok rows ↔ ∃ r, c.record? name = some r ∧
      List.Forall₂ (fun d row => typedRow r (.ofDocument d) = .ok row) documents rows := by
  rw [typedRows]
  cases c.record? name with
  | none =>
    constructor
    · intro h
      cases h
    · rintro ⟨r, h, -⟩
      cases h
  | some r => simp [Outcome.mapM_eq_ok]

/-- The rows of a record that are not loaded: the record is not declared, or one of its rows has a
text that is no point in time in a field that is declared as one. The fault is one of setting up. -/
theorem typedRows_error {documents : List Document} {e : Error}
    (h : typedRows c name documents = .error e) : (∃ fault, e = .setup fault) ∧
      ∀ r, c.record? name = some r → ∃ d ∈ documents, ∃ id row field s,
        Value.ofDocument d = .record id row ∧ IsMoment r.fields field ∧
          Fields.get? row field = some (.text s) ∧ ∀ m, Timestamp.readStrict s ≠ .ok m := by
  rw [typedRows] at h
  split at h
  next hnone =>
    cases h
    refine ⟨⟨_, rfl⟩, fun r hr => ?_⟩
    rw [hnone] at hr
    cases hr
  next r hr =>
    obtain ⟨d, hd, herror⟩ := Outcome.exists_of_mapM_eq_error h
    obtain ⟨id, row, field, s, hrow, hmoment, hs, hread, cause, rfl⟩ := typedRow_error herror
    refine ⟨⟨_, rfl⟩, fun r' hr' => ?_⟩
    rw [hr] at hr'
    cases hr'
    exact ⟨d, hd, id, row, field, s, hrow, hmoment, hs, hread⟩

/-! ## Tables -/

/-- Load the rows of one record. -/
def loadTable (c : Catalog) (s : Store) (t : String × List Document) : Except Error Store :=
  return s.insert t.1 (← typedRows c t.1 t.2)

/-- The tables of a store: those that have been loaded into it, and those that were there. -/
theorem loadTables_ok {tables : Fields (List Document)} {s s' : Store}
    (h : tables.foldlM (loadTable c) s = .ok s') :
    (∀ t ∈ tables, ∃ rows, typedRows c t.1 t.2 = .ok rows) ∧
      ∀ name rows, Fields.get? s'.tables name = some rows →
        (∃ documents, (name, documents) ∈ tables ∧ typedRows c name documents = .ok rows) ∨
          Fields.get? s.tables name = some rows := by
  induction tables generalizing s with
  | nil =>
    cases h
    exact ⟨List.forall_mem_nil _, fun name rows hrows => .inr hrows⟩
  | cons t rest ih =>
    rw [List.foldlM_cons] at h
    obtain ⟨middle, hstep, hrest⟩ := Outcome.bind_eq_ok.mp h
    obtain ⟨loaded, hloaded, hpure⟩ := Outcome.bind_eq_ok.mp hstep
    cases hpure
    obtain ⟨hall, hget⟩ := ih hrest
    refine ⟨List.forall_mem_cons.mpr ⟨⟨loaded, hloaded⟩, hall⟩, fun name rows hrows => ?_⟩
    rcases hget name rows hrows with ⟨documents, hmem, hdocuments⟩ | hbefore
    · exact .inl ⟨documents, List.mem_cons_of_mem t hmem, hdocuments⟩
    · rw [Store.insert] at hbefore
      by_cases hname : name = t.1
      · subst hname
        rw [Fields.get?_insert_self] at hbefore
        cases hbefore
        exact .inl ⟨t.2, List.mem_cons_self .., hloaded⟩
      · rw [Fields.get?_insert_of_ne _ _ hname] at hbefore
        exact .inr hbefore

/-- Tables that are not loaded: the rows of one of them are not. -/
theorem loadTables_error {tables : Fields (List Document)} {s : Store} {e : Error}
    (h : tables.foldlM (loadTable c) s = .error e) :
    ∃ t ∈ tables, typedRows c t.1 t.2 = .error e := by
  induction tables generalizing s with
  | nil => cases h
  | cons t rest ih =>
    rw [List.foldlM_cons] at h
    cases hrows : typedRows c t.1 t.2 with
    | error e' =>
      rw [loadTable, hrows] at h
      cases h
      exact ⟨t, List.mem_cons_self .., hrows⟩
    | ok rows =>
      rw [loadTable, hrows] at h
      obtain ⟨t', ht', herror⟩ := ih h
      exact ⟨t', List.mem_cons_of_mem t ht', herror⟩

end DataFile
end QueryRelay
