import QueryRelay.Proofs.Eval.Heredity
import QueryRelay.Proofs.Executor.Results
import QueryRelay.Proofs.Value.Answers

/-!
# References in what an executor emits

The rows of a table answer the references between them, but a query may drop the row with the record
that another row refers to, and nothing puts it back. What holds of every query is that references
and records with an identity stem from the rows of the tables. Main statements: an executor without
hooks emits only references to records of the tables, streamed elements answer their references
exactly when the collected ones do, and a query that only rearranges a table emits no reference that
it does not answer.
-/

namespace QueryRelay

/-! ## Tables and expressions over them -/

namespace DataSource

/-- Each table answers the references in its rows. -/
def Answered (data : DataSource) : Prop :=
  ∀ t rows, data t = .ok rows → (Value.list rows).Answered

/-- A record with an identity in the rows of some table. -/
def Holds (data : DataSource) (r : Value.Identified) : Prop :=
  ∃ t rows, data t = .ok rows ∧ r ∈ (Value.list rows).identified

/-- A record of some table has the identity. -/
def Carries (data : DataSource) (id : ObjectId) : Prop := ∃ r, data.Holds r ∧ r.id = id

/-- Records with one identity are equal, within a table and across tables. -/
def SameRecords (data : DataSource) : Prop :=
  ∀ r s, data.Holds r → data.Holds s → r.id = s.id → r.fields = s.fields

variable {data : DataSource}

/-- What is read by the normal forms of types is answered when each table is. -/
theorem Answered.normal (h : data.Answered) : data.normal.Answered := fun t => h t.normal

/-- A record that is read by the normal form of a type is in a table. -/
theorem Holds.of_normal {r : Value.Identified} (h : data.normal.Holds r) : data.Holds r := by
  obtain ⟨t, hrows⟩ := h
  exact ⟨t.normal, hrows⟩

/-- An identity that is read by the normal form of a type is one in a table. -/
theorem Carries.of_normal {id : ObjectId} (h : data.normal.Carries id) : data.Carries id := by
  obtain ⟨r, hr, hid⟩ := h
  exact ⟨r, hr.of_normal, hid⟩

end DataSource

namespace Expr

variable {data : DataSource} {e : Expr} {v : Value}

/-- At its root an expression adds nothing of what is found in the rows that it reads: a constant
has nothing of the kind, and a function takes what its result has from its arguments. -/
def AddsNoneAt {α : Type} (found : Value → List α) : Expr → Prop
  | .constant v _ | .captured _ _ v => found v = []
  | .call f _ => ∀ args v, f.run args = .ok v → ∀ x ∈ found v, ∃ arg ∈ args, x ∈ found arg
  | _ => True

/-- A condition on what is found in the rows that an expression reads holds of what is found in its
value. -/
theorem found_of_evaluate {α : Type} {found : Value → List α} {S : α → Prop}
    (hhereditary : Value.Hereditary fun v => ∀ x ∈ found v, S x)
    (hrows : ∀ t rows, data t = .ok rows → ∀ row ∈ rows, ∀ x ∈ found row, S x)
    (hnone : e.Every (AddsNoneAt found)) (hv : e.evaluate data = .ok v) : ∀ x ∈ found v, S x := by
  have hbrings : e.Every (BringsAt (fun v => ∀ x ∈ found v, S x) data) := by
    intro p hp
    have hat := hnone p hp
    cases p with
    | constant w t | captured name t w =>
      intro x hx
      have hempty : found w = [] := hat
      rw [hempty] at hx
      cases hx
    | source t => exact hrows t
    | call f args =>
      intro vs hvs w hw x hx
      obtain ⟨arg, harg, hx⟩ := hat vs w hw x hx
      exact hvs arg harg x hx
    | _ => trivial
  exact evaluate_hereditary hhereditary hbrings hv

/-- The references in the value of an expression name records of the tables. -/
theorem refs_of_evaluate (hdata : data.Answered) (hnone : e.Every (AddsNoneAt Value.refs))
    (hv : e.evaluate data = .ok v) : ∀ id ∈ v.refs, data.Carries id := by
  refine found_of_evaluate (Value.hereditary_refs data.Carries) ?_ hnone hv
  intro t rows hrows row hrow id hid
  have hlist : id ∈ (Value.list rows).refs :=
    Value.mem_refs_of_mem_children (v := .list rows) hrow hid
  obtain ⟨r, hr, hrid⟩ := Value.mem_ids.mp (hdata t rows hrows id hlist)
  exact ⟨r, ⟨t, rows, hrows, hr⟩, hrid⟩

/-- The records with an identity in the value of an expression are records of the tables. -/
theorem identified_of_evaluate (hnone : e.Every (AddsNoneAt Value.identified))
    (hv : e.evaluate data = .ok v) : ∀ r ∈ v.identified, data.Holds r := by
  refine found_of_evaluate (Value.hereditary_identified data.Holds) ?_ hnone hv
  intro t rows hrows row hrow r hr
  exact ⟨t, rows, hrows, Value.mem_identified_of_mem_children (v := .list rows) hrow hr⟩

end Expr

/-! ## What is emitted -/

namespace Executor

variable {c : Catalog} {data : DataSource} {admits : Expr.LocalTest} {e : Expr} {x : TypedPlan}

/-- The records of a planned expression are split from its value, which reads the tables by the
normal forms of their types. -/
theorem records_eq_ok_iff (hregular : c.RegularFor e) (hplan : e.planTyped c admits = .ok x)
    {r : Records} :
    (ofCatalog c data).records x.plan = .ok r ↔
      ∃ v, e.evaluate data.normal = .ok v ∧ ⟨split v, x.plan.type.isCollection⟩ = r := by
  obtain ⟨h, hbind, -, hvalues⟩ := exists_toExpr_agree hregular hplan
  rw [records_ofCatalog, hbind, Outcome.map_eq_ok]
  exact exists_congr fun v => and_congr_left' (hvalues data v).symm

/-- A record of a value is a part of it, or the value itself. -/
theorem mem_split {v w : Value} (hw : w ∈ split v) : w = v ∨ w ∈ v.children := by
  cases v with
  | list items => exact .inr hw
  | null => cases hw
  | _ => exact .inl (List.mem_singleton.mp hw)

/-- A reference in the records of a value is one in the value. -/
theorem refs_of_split {v : Value} {id : ObjectId} (hid : id ∈ (Value.list (split v)).refs) :
    id ∈ v.refs := by
  obtain ⟨w, hw, hown⟩ := Value.mem_refsOfItems.mp hid
  rcases mem_split hw with rfl | hw
  · exact hown
  · exact Value.mem_refs_of_mem_children hw hown

/-- A record with an identity in the records of a value is one in the value. -/
theorem identified_of_split {v : Value} {r : Value.Identified}
    (hr : r ∈ (Value.list (split v)).identified) : r ∈ v.identified := by
  obtain ⟨w, hw, hown⟩ := Value.mem_identifiedItems.mp hr
  rcases mem_split hw with rfl | hw
  · exact hown
  · exact Value.mem_identified_of_mem_children hw hown

/-- Records with one identity that an executor emits are equal when those of the tables are. -/
theorem records_sameRecords (hregular : c.RegularFor e) (hplan : e.planTyped c admits = .ok x)
    (hdata : data.SameRecords) (hnone : e.Every (Expr.AddsNoneAt Value.identified)) {r : Records}
    (hr : (ofCatalog c data).records x.plan = .ok r) : (Value.list r.records).SameRecords := by
  obtain ⟨v, hv, rfl⟩ := (records_eq_ok_iff hregular hplan).mp hr
  have hholds (s : Value.Identified) (hs : s ∈ (Value.list (split v)).identified) :
      data.Holds s := (Expr.identified_of_evaluate hnone hv s (identified_of_split hs)).of_normal
  exact fun s hs s' hs' => hdata s s' (hholds s hs) (hholds s' hs')

/-- What an executor gives for one value has references of the records only. -/
theorem refs_of_execute {y : Executor} {a : Plan} {v : Value} (hv : y.execute a = .ok v) :
    ∃ r, y.records a = .ok r ∧ ∀ id ∈ v.refs, id ∈ (Value.list r.records).refs := by
  obtain ⟨r, hr, hdone⟩ := Outcome.bind_eq_ok.mp hv
  refine ⟨r, hr, ?_⟩
  rw [← Outcome.pure_eq_ok.mp hdone]
  split
  · exact fun _ hid => hid
  · cases r.records with
    | nil => exact fun _ hid => nomatch hid
    | cons w rest => exact fun _ hid => List.mem_append_left _ hid

/-- The elements of a stream are the detached records. -/
theorem mem_stream {y : Executor} {signal : Signal} {a : Plan} {v : Value}
    (hv : .ok v ∈ y.stream signal a) :
    ∃ r, y.records a = .ok r ∧ v ∈ Value.detach r.records := by
  rw [stream] at hv
  split at hv
  · next r hr =>
    obtain ⟨-, -, hr⟩ := Outcome.bind_eq_ok.mp hr
    obtain ⟨w, hw, heq⟩ := List.mem_map.mp hv
    cases heq
    exact ⟨r, hr, hw⟩
  · cases List.mem_singleton.mp hv

/-- Unless it was called off, a stream has the detached records as elements. -/
theorem stream_eq {y : Executor} {a : Plan} {r : Records} (hr : y.records a = .ok r) :
    y.stream .clear a = (Value.detach r.records).map .ok := by
  have hrun : (do Signal.clear.check; y.records a : Except Error Records) = .ok r := hr
  rw [stream, hrun]

/-- The elements of a stream answer their references exactly when the records, taken together,
answer theirs. -/
theorem stream_answered_iff {y : Executor} {a : Plan} {r : Records} (hr : y.records a = .ok r) :
    (∀ v, .ok v ∈ y.stream .clear a → v.Answered) ↔ (Value.list r.records).Answered := by
  rw [← Value.detach_answered_iff, stream_eq hr]
  constructor
  · exact fun h v hv => h v (List.mem_map_of_mem hv)
  · intro h v hv
    obtain ⟨w, hw, heq⟩ := List.mem_map.mp hv
    cases heq
    exact h _ hw

end Executor

/-! ## Queries that rearrange a table -/

/-- A query that has all rows of a table as its elements: the table, sorted and with the paths to
follow in any way. -/
inductive Expr.Rearranges (t : Ty) : Expr → Prop
  /-- The table. -/
  | source : Rearranges t (.source t)
  /-- A sort by a key. -/
  | sorted (isFirst : Bool) (direction : SortDirection) {e : Expr} (rest : List Expr)
      (h : Rearranges t e) : Rearranges t (.query (Plan.sortVerb isFirst direction) (e :: rest))
  /-- A path to follow. -/
  | included {verb : QueryVerb} (hverb : verb = .include ∨ verb = .thenInclude) {e : Expr}
      (rest : List Expr) (h : Rearranges t e) : Rearranges t (.query verb (e :: rest))

/-- A value that is a list of all rows of a table. -/
def DataSource.Lists (data : DataSource) (t : Ty) (v : Value) : Prop :=
  ∃ rows vs, data t = .ok rows ∧ v = .list vs ∧ vs.Perm rows

namespace Expr.Rearranges

variable {data : DataSource} {t : Ty} {e : Expr}

/-- A query that rearranges a table lists all of its rows, and so does the source of the sort that
it ends. -/
theorem meaning_lists (h : Rearranges t e) :
    (∀ scope v, (e.meaning data).value scope = .ok v → data.Lists t v) ∧
      ∀ ch, (e.meaning data).chain = .ok ch → ∀ scope v, ch.source scope = .ok v →
        data.Lists t v := by
  induction h with
  | source =>
    refine ⟨fun scope v hv => ?_, fun _ h => nomatch h⟩
    obtain ⟨rows, hrows, rfl⟩ := Outcome.map_eq_ok.mp hv
    exact ⟨rows, rows, hrows, rfl, .refl _⟩
  | @sorted isFirst direction e rest _ ih =>
    have hchain : ∀ ch, Meaning.sortChain (Plan.sortVerb isFirst direction)
        (meanings data (e :: rest)) = .ok ch → ∀ scope v, ch.source scope = .ok v →
          data.Lists t v := by
      intro ch hch scope v hv
      cases rest with
      | nil => cases hch
      | cons key rest =>
        rcases Meaning.sortChain_source hch with hown | ⟨ch', hch', hkept⟩
        · exact ih.1 scope v (hown ▸ hv)
        · exact ih.2 ch' hch' scope v (hkept ▸ hv)
    refine ⟨fun scope v hv => ?_, hchain⟩
    change Meaning.query _ (meanings data (e :: rest)) scope = .ok v at hv
    rw [Meaning.query_sortVerb] at hv
    -- What is sorted is the source of the whole chain, not the sorted value that the key refines.
    obtain ⟨ch, hch, hsorted⟩ := Outcome.bind_eq_ok.mp hv
    obtain ⟨w, items, vs, hw, hitems, rfl, hsort⟩ := Meaning.sorted_perm hsorted
    obtain ⟨rows, ws, hrows, rfl, hperm⟩ := hchain ch hch scope w hw
    cases hitems
    exact ⟨rows, vs, hrows, rfl, hsort.trans hperm⟩
  | @included verb hverb e rest _ ih =>
    refine ⟨fun scope v hv => ?_, fun ch hch => ?_⟩
    · rcases hverb with rfl | rfl <;> exact ih.1 scope v hv
    · change Meaning.sortChain verb (meanings data (e :: rest)) = .ok ch at hch
      obtain ⟨isFirst, direction, rfl⟩ := Meaning.exists_sortVerb hch
      rcases hverb with hverb | hverb <;> cases isFirst <;> cases direction <;> cases hverb

end Expr.Rearranges

/-- A list of all rows of a table answers its references when the table does. -/
theorem DataSource.Lists.answered {data : DataSource} {t : Ty} {v : Value} (h : data.Lists t v)
    (hdata : data.Answered) : v.Answered := by
  obtain ⟨rows, vs, hrows, rfl, hperm⟩ := h
  intro id hid
  obtain ⟨w, hw, hid⟩ := Value.mem_refsOfItems.mp hid
  have hrow : id ∈ (Value.list rows).refs :=
    Value.mem_refsOfItems.mpr ⟨w, hperm.mem_iff.mp hw, hid⟩
  obtain ⟨r, hr, hrid⟩ := Value.mem_ids.mp (hdata t rows hrows id hrow)
  obtain ⟨w, hw, hr⟩ := Value.mem_identifiedItems.mp hr
  exact Value.mem_ids.mpr
    ⟨r, Value.mem_identifiedItems.mpr ⟨w, hperm.mem_iff.mpr hw, hr⟩, hrid⟩

/-- The records of a query that rearranges a table answer their references, taken together and each
streamed element by itself. -/
theorem Executor.records_answered {c : Catalog} {data : DataSource} {admits : Expr.LocalTest}
    {e : Expr} {x : TypedPlan} {t : Ty} {r : Records} (hregular : c.RegularFor e)
    (hplan : e.planTyped c admits = .ok x) (hdata : data.Answered) (he : e.Rearranges t)
    (hr : (ofCatalog c data).records x.plan = .ok r) :
    (Value.list r.records).Answered ∧
      ∀ v, .ok v ∈ (ofCatalog c data).stream .clear x.plan → v.Answered := by
  obtain ⟨v, hv, rfl⟩ := (records_eq_ok_iff hregular hplan).mp hr
  have hlists : data.normal.Lists t v := he.meaning_lists.1 [] v hv
  have hanswered := hlists.answered hdata.normal
  obtain ⟨rows, vs, -, rfl, -⟩ := hlists
  exact ⟨hanswered, (stream_answered_iff hr).mpr hanswered⟩

/-! ## A small example -/

/-- A catalog of one record, of which one field may hold a record of the same kind. -/
def Catalog.staff : Catalog :=
  Catalog.standard.insertRecord ⟨"app.Person",
    [("Name", .text), ("Age", .int), ("Boss", .option (.record "app.Person"))]⟩

/-- A store of two rows, of which the second refers to the first. -/
def Store.staff : Store :=
  Store.empty.insert "app.Person"
    [.record (some ⟨1⟩) [("Name", .text "Ann"), ("Age", .int 50), ("Boss", .null)],
      .record none [("Name", .text "Bob"), ("Age", .int 20), ("Boss", .ref ⟨1⟩)]]

/-- The table, filtered by one of its fields. -/
def Expr.juniors : Expr :=
  .query .filter [.source (.record "app.Person"), .lambda [("p", .infer)]
    (.binary .lt (.member (.parameter "p" .infer) "Age") (.constant (.int 30) .int))]

/-- The rows of the store answer the references between them. -/
theorem Store.staff_answered : DataSource.Answered Store.staff.elements := by
  intro t rows h
  cases t with
  | record name =>
    by_cases hname : name = "app.Person"
    · subst hname
      cases h
      intro id hid
      exact hid
    · rw [elements, staff, insert, empty, Fields.insert, Fields.get?, if_neg (Ne.symm hname)] at h
      cases h
  | _ => cases h

/-- The record is registered. -/
theorem Catalog.staff_hasRecord : Catalog.staff.HasRecord "app.Person" :=
  ⟨by unfold Catalog.IsForeign; decide, _, List.mem_cons_self .., rfl⟩

/-- The types of the fields are known. -/
theorem Catalog.staff_fields :
    ∀ r ∈ Catalog.staff.records, ∀ field ∈ r.fields, Ty.Known Catalog.staff field.2 := by
  have hrecords : Catalog.staff.records = [⟨"app.Person",
      [("Name", .text), ("Age", .int), ("Boss", .option (.record "app.Person"))]⟩] := rfl
  rw [hrecords]
  refine List.forall_mem_singleton.mpr (List.forall_mem_cons.mpr ⟨trivial, ?_⟩)
  refine List.forall_mem_cons.mpr ⟨trivial, List.forall_mem_singleton.mpr ?_⟩
  exact staff_hasRecord

/-- The catalog fits the filtered table. -/
theorem Catalog.staff_regularFor_juniors : Catalog.staff.RegularFor Expr.juniors where
  keyed := Catalog.standard_isKeyed.insertRecord _
  fields := staff_fields
  declared := by
    simp only [Expr.Declares, Expr.Every, Expr.juniors, Expr.parts, Expr.allParts,
      Expr.declaredTypes, List.forall_mem_cons, List.forall_mem_append, List.map_cons,
      List.map_nil, List.not_mem_nil, false_imp_iff, implies_true, and_true, true_and, Ty.Known]
    exact staff_hasRecord
  functions := by
    simp only [Expr.Every, Expr.juniors, Expr.parts, Expr.allParts, Expr.function?,
      List.forall_mem_cons, List.forall_mem_append, List.not_mem_nil, false_imp_iff, implies_true,
      and_true, reduceCtorEq]

/-- Its constant has no references. -/
theorem Expr.juniors_addsNoRefs : Expr.juniors.Every (Expr.AddsNoneAt Value.refs) := by
  simp only [Every, juniors, parts, allParts, AddsNoneAt, List.forall_mem_cons,
    List.forall_mem_append, List.not_mem_nil, false_imp_iff, implies_true, and_true, true_and]
  rfl

/-! ## References in an answer -/

/-- A reference in an answer names a record of the tables. In a streamed element it is answered by
a record of the element itself, or by none of the records that the executor emits. -/
theorem Executor.execute_stream_refs {c : Catalog} {data : DataSource} {admits : Expr.LocalTest}
    {e : Expr} {x : TypedPlan} (hregular : c.RegularFor e) (hplan : e.planTyped c admits = .ok x)
    (hdata : data.Answered) (hnone : e.Every (Expr.AddsNoneAt Value.refs)) :
    (∀ v, (ofCatalog c data).execute x.plan = .ok v → ∀ id ∈ v.refs, data.Carries id) ∧
      ∀ signal y, .ok y ∈ (ofCatalog c data).stream signal x.plan → ∀ id ∈ y.refs,
        id ∈ y.ids ∨ data.Carries id ∧ ∀ r, (ofCatalog c data).records x.plan = .ok r →
          id ∉ (Value.list r.records).ids := by
  have hrecords {r : Records} (hr : (ofCatalog c data).records x.plan = .ok r) :
      ∀ id ∈ (Value.list r.records).refs, data.Carries id := by
    obtain ⟨v, hv, rfl⟩ := (records_eq_ok_iff hregular hplan).mp hr
    exact fun id hid =>
      (Expr.refs_of_evaluate hdata.normal hnone hv id (refs_of_split hid)).of_normal
  constructor
  · intro v hv id hid
    obtain ⟨r, hr, hrefs⟩ := refs_of_execute hv
    exact hrecords hr id (hrefs id hid)
  · intro signal y hy id hid
    obtain ⟨r, hr, hy⟩ := mem_stream hy
    obtain ⟨v, hv, rfl⟩ := List.mem_map.mp hy
    refine ((Value.drawnFrom_detachElement hv).answered id hid).imp_right fun hout => ?_
    refine ⟨hrecords hr id ?_, fun r' hr' => ?_⟩
    · exact (Value.mentions_of_detachElement hv hid).resolve_right hout
    · cases hr.symm.trans hr'
      exact hout

/-- The reference in the filtered table names a record of the table. -/
theorem juniors_execute_stream_refs :
    ∃ x, Expr.juniors.planTyped Catalog.staff (fun _ => true) = .ok x ∧
      (Executor.ofCatalog Catalog.staff Store.staff.elements).execute x.plan = .ok (.list
        [.record none [("Name", .text "Bob"), ("Age", .int 20), ("Boss", .ref ⟨1⟩)]]) ∧
          DataSource.Carries Store.staff.elements ⟨1⟩ := by
  obtain ⟨hexecute, -⟩ := Executor.execute_stream_refs Catalog.staff_regularFor_juniors
    (rfl : Expr.juniors.planTyped Catalog.staff (fun _ => true) = .ok _)
    Store.staff_answered Expr.juniors_addsNoRefs
  exact ⟨_, rfl, rfl, hexecute _ rfl ⟨1⟩ (List.mem_singleton_self _)⟩

/-- The row with the record that another one refers to is filtered out, and neither the list nor
the streamed element answers the reference that is left. -/
theorem juniors_not_answered :
    DataSource.Answered Store.staff.elements ∧ Expr.juniors.Every (Expr.AddsNoneAt Value.refs) ∧
      ∃ x v w, Expr.juniors.planTyped Catalog.staff (fun _ => true) = .ok x ∧
        (Executor.ofCatalog Catalog.staff Store.staff.elements).execute x.plan = .ok v ∧
          ¬ v.Answered ∧
            (Executor.ofCatalog Catalog.staff Store.staff.elements).stream .clear x.plan =
              [.ok w] ∧ ¬ w.Answered := by
  refine ⟨Store.staff_answered, Expr.juniors_addsNoRefs, _, _, _, rfl, rfl, ?_, rfl, ?_⟩
  · exact fun h => absurd (h ⟨1⟩ (List.mem_singleton_self _)) (List.not_mem_nil)
  · exact fun h => absurd (h ⟨1⟩ (List.mem_singleton_self _)) (List.not_mem_nil)

end QueryRelay
