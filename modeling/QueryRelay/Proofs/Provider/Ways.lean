import QueryRelay.Proofs.Executor.Emission
import QueryRelay.Proofs.Plan.Constants
import QueryRelay.Proofs.Value.Copying
import QueryRelay.Provider.Basic

/-!
# One executor, two ways

An executor can serve a provider in two ways: it gives one value, or a stream of elements that the
provider puts together again. Main statement: where no references are involved, both ways give the
same result of a query for a collection, and of a query for one value when the executor has exactly
one record. Of no record the first way makes null and the second a fault, and of several records
the first way takes the first one and the second none.
-/

namespace QueryRelay

/-! ## Values without references -/

namespace Value

/-- Values without references are self-contained. -/
theorem detach_eq_self {items : List Value} (h : ∀ v ∈ items, v.refs = []) :
    detach items = items := by
  rw [detach, List.map_congr_left (g := id), List.map_id]
  intro v hv
  refine detachElement_eq_self fun id hid => ?_
  rw [h v hv] at hid
  cases hid

/-- That there are no references is hereditary. -/
theorem hereditary_refs_eq_nil : Hereditary fun v => v.refs = [] := by
  simpa only [List.eq_nil_iff_forall_not_mem] using hereditary_refs fun _ => False

end Value

/-! ## Streams of records -/

namespace Elements

/-- Values are collected as they are. -/
theorem collect_values (vs : List Value) : (finite (vs.map .ok)).collect = .ok vs := by
  rw [collect, Outcome.mapM_eq_ok, List.forall₂_map_left_iff, List.forall₂_same]
  exact fun _ _ => rfl

/-- The only element is there when there is exactly one value. -/
theorem single_values (vs : List Value) : (finite (vs.map .ok)).single =
    match vs with
    | [] => .error .emptyStream
    | [v] => .ok v
    | _ => .error .multipleElements := by
  match vs with
  | [] => rfl
  | [v] => rfl
  | v :: w :: rest => rfl

end Elements

namespace Executor

variable {c : Catalog} {data : DataSource} {cat : Catalog} {admits : Expr.LocalTest} {e : Expr}
  {a : Plan}

/-- Without references in the rows, in the values that an expression carries and in what functions
make of such values, there are none in the records. -/
theorem records_refs_eq_nil {r : Records}
    (hrows : ∀ t rows, data t = .ok rows → ∀ row ∈ rows, row.refs = [])
    (he : e.Every (Expr.CarriesAt fun v => v.refs = [])) (hc : c.Keeps fun v => v.refs = [])
    (hplan : e.plan cat admits = .ok a) (hr : (ofCatalog c data).records a = .ok r) :
    ∀ w ∈ r.records, w.refs = [] := by
  rw [records_ofCatalog] at hr
  obtain ⟨v, hv, rfl⟩ := Outcome.map_eq_ok.mp hr
  obtain ⟨h, hbind, hv⟩ := Outcome.bind_eq_ok.mp hv
  have hvalue := evaluate_toExpr_hereditary Value.hereditary_refs_eq_nil hrows he hc hplan hbind hv
  intro w hw
  rcases mem_split hw with rfl | hw
  · exact hvalue
  · exact Value.hereditary_refs_eq_nil.part hvalue hw

/-- The stream of records without references. -/
theorem stream_eq_records {x : Executor} {r : Records} (hr : x.records a = .ok r)
    (h : ∀ w ∈ r.records, w.refs = []) : x.stream .clear a = r.records.map .ok := by
  rw [stream_eq hr, Value.detach_eq_self h]

/-- The stream of a plan that cannot be run. -/
theorem stream_eq_error {x : Executor} {fault : Error} (hr : x.records a = .error fault) :
    x.stream .clear a = [.error fault] := by
  have hrun : (do Signal.clear.check; x.records a : Except Error Records) = .error fault := hr
  rw [stream, hrun]

/-- What an executor gives for one value, by its records. -/
theorem executeUnless_clear (x : Executor) (a : Plan) :
    x.executeUnless .clear a = (x.records a).map fun r =>
      if r.isCollection then .list r.records else r.records.headD .null := by
  change (x.records a >>= fun r => _) = _
  cases x.records a <;> rfl

/-- The records are marked as the plan is. -/
theorem isCollection_of_records {r : Records} (hr : (ofCatalog c data).records a = .ok r) :
    r.isCollection = a.type.isCollection := by
  rw [records_ofCatalog] at hr
  obtain ⟨v, -, rfl⟩ := Outcome.map_eq_ok.mp hr
  rfl

end Executor

/-! ## Providers of one way -/

namespace QueryProvider

/-- A provider whose only way is the stream of an executor. -/
def ofStream (c : Catalog) (admits : Expr.LocalTest) (x : Executor) : QueryProvider :=
  ⟨c, admits, none, none, some fun a => .finite (x.stream .clear a)⟩

/-- A provider whose only way is the one value of an executor. -/
def ofValue (c : Catalog) (admits : Expr.LocalTest) (x : Executor) : QueryProvider :=
  ⟨c, admits, none, some (x.executeUnless .clear), none⟩

variable {c cat : Catalog} {data : DataSource} {admits : Expr.LocalTest} {x : Executor} {e : Expr}
  {t : ResultType} {a : Plan} {r : Records}

/-- Unless it is called off, a provider with a way to await values plans, awaits and maps. -/
theorem executeAwaited_clear {p : QueryProvider}
    (h : (p.awaited.isNone && p.streamed.isNone) = false) :
    p.executeAwaited t .clear e = p.planFor t e >>= fun a => p.await a >>= fun v => t.map v := by
  rw [executeAwaited, h]
  rfl

/-- The result by way of the value: the records as a list, or the first of them. -/
theorem executeAwaited_ofValue (hplan : (ofValue cat admits x).planFor t e = .ok a)
    (hr : x.records a = .ok r) (hcollection : r.isCollection = a.type.isCollection) :
    (ofValue cat admits x).executeAwaited t .clear e =
      t.map (if a.type.isCollection then .list r.records else r.records.headD .null) := by
  have hawait : (ofValue cat admits x).await a =
      .ok (if a.type.isCollection then .list r.records else r.records.headD .null) := by
    change x.executeUnless .clear a = _
    rw [Executor.executeUnless_clear, hr, ← hcollection]
    rfl
  rw [executeAwaited_clear rfl, hplan]
  exact congrArg (· >>= fun v => t.map v) hawait

/-- The result by way of a stream without references: the records as a list, or the only one of
them. -/
theorem executeAwaited_ofStream (hplan : (ofStream cat admits x).planFor t e = .ok a)
    (hr : x.records a = .ok r) (hfree : ∀ w ∈ r.records, w.refs = []) :
    (ofStream cat admits x).executeAwaited t .clear e =
      (if a.type.isCollection then .ok (.list r.records)
        else (Elements.finite (r.records.map .ok)).single) >>= fun v => t.map v := by
  have hawait : (ofStream cat admits x).await a =
      if a.type.isCollection then .ok (.list r.records)
      else (Elements.finite (r.records.map .ok)).single := by
    change (if a.type.isCollection then (Elements.finite (x.stream .clear a)).collect.map .list
      else (Elements.finite (x.stream .clear a)).single) = _
    rw [Executor.stream_eq_records hr hfree, Elements.collect_values]
    rfl
  rw [executeAwaited_clear rfl, hplan]
  exact congrArg (· >>= fun v => t.map v) hawait

/-- Both ways fail alike when the query cannot be planned. -/
theorem executeAwaited_of_planFor_error {fault : Error}
    (hplan : (ofValue cat admits x).planFor t e = .error fault) :
    (ofStream cat admits x).executeAwaited t .clear e =
      (ofValue cat admits x).executeAwaited t .clear e := by
  have hstream : (ofStream cat admits x).planFor t e = .error fault := hplan
  rw [executeAwaited_clear rfl, executeAwaited_clear rfl, hplan, hstream]
  rfl

/-- Both ways fail alike when the executor does. -/
theorem executeAwaited_of_records_error {fault : Error}
    (hplan : (ofValue cat admits x).planFor t e = .ok a) (hr : x.records a = .error fault) :
    (ofStream cat admits x).executeAwaited t .clear e =
      (ofValue cat admits x).executeAwaited t .clear e := by
  have hstream : (ofStream cat admits x).planFor t e = .ok a := hplan
  have hvalueAwait : (ofValue cat admits x).await a = .error fault := by
    change x.executeUnless .clear a = _
    rw [Executor.executeUnless_clear, hr]
    rfl
  have hstreamAwait : (ofStream cat admits x).await a = .error fault := by
    change (if a.type.isCollection then (Elements.finite (x.stream .clear a)).collect.map .list
      else (Elements.finite (x.stream .clear a)).single) = _
    rw [Executor.stream_eq_error hr]
    split <;> rfl
  rw [executeAwaited_clear rfl, executeAwaited_clear rfl, hplan, hstream]
  change ((ofStream cat admits x).await a >>= _) = ((ofValue cat admits x).await a >>= _)
  rw [hvalueAwait, hstreamAwait]

/-- What is planned for a result type is planned. -/
theorem plan_of_planFor {p : QueryProvider} (h : p.planFor t e = .ok a) :
    e.plan p.catalog p.admits = .ok a := by
  obtain ⟨b, hplan, h⟩ := Outcome.bind_eq_ok.mp h
  obtain ⟨-, -, h⟩ := Outcome.bind_eq_ok.mp h
  cases h
  exact hplan

/-- Over rows without references, and of an expression that brings none in, both ways of an executor
without hooks give the same when the query is for a collection or has exactly one record, and when
it fails. A query for one value of which there is no record fails by way of the stream, and gives
what null is mapped to by way of the value; if there are several records, it fails by way of the
stream, and gives what the first one is mapped to by way of the value. -/
theorem executeAwaited_ofStream_ofValue (cat : Catalog) (admits : Expr.LocalTest) (t : ResultType)
    (hrows : ∀ s rows, data s = .ok rows → ∀ row ∈ rows, row.refs = [])
    (he : e.Every (Expr.CarriesAt fun v => v.refs = [])) (hc : c.Keeps fun v => v.refs = []) :
    let x := Executor.ofCatalog c data
    let byStream := (ofStream cat admits x).executeAwaited t .clear e
    let byValue := (ofValue cat admits x).executeAwaited t .clear e
    ((∀ a r, e.plan cat admits = .ok a → x.records a = .ok r →
        a.type.isCollection = true ∨ r.records.length = 1) → byStream = byValue) ∧
      ∀ a r, (ofValue cat admits x).planFor t e = .ok a → x.records a = .ok r →
        a.type.isCollection = false →
          (r.records = [] → byStream = .error .emptyStream ∧ byValue = t.map .null) ∧
          (2 ≤ r.records.length →
            byStream = .error .multipleElements ∧ byValue = t.map (r.records.headD .null)) := by
  intro x byStream byValue
  have hfree {a : Plan} {r : Records} (hplan : (ofValue cat admits x).planFor t e = .ok a)
      (hr : x.records a = .ok r) : ∀ w ∈ r.records, w.refs = [] :=
    Executor.records_refs_eq_nil hrows he hc (plan_of_planFor hplan) hr
  have hvalue {a : Plan} {r : Records} (hplan : (ofValue cat admits x).planFor t e = .ok a)
      (hr : x.records a = .ok r) : byValue = t.map _ :=
    executeAwaited_ofValue hplan hr (Executor.isCollection_of_records hr)
  have hstream {a : Plan} {r : Records} (hplan : (ofValue cat admits x).planFor t e = .ok a)
      (hr : x.records a = .ok r) : byStream = _ >>= fun v => t.map v :=
    executeAwaited_ofStream hplan hr (hfree hplan hr)
  constructor
  · intro hone
    cases hplan : (ofValue cat admits x).planFor t e with
    | error fault => exact executeAwaited_of_planFor_error hplan
    | ok a =>
      cases hr : x.records a with
      | error fault => exact executeAwaited_of_records_error hplan hr
      | ok r =>
        rw [hvalue hplan hr, hstream hplan hr, Elements.single_values]
        rcases hone a r (plan_of_planFor hplan) hr with hcollection | hlength
        · rw [hcollection]
          rfl
        · obtain ⟨v, hv⟩ := List.length_eq_one_iff.mp hlength
          rw [hv]
          cases a.type.isCollection <;> rfl
  · intro a r hplan hr hscalar
    rw [hvalue hplan hr, hstream hplan hr, hscalar, Elements.single_values]
    constructor
    · intro hnone
      rw [hnone]
      exact ⟨rfl, rfl⟩
    · intro hseveral
      match hrecords : r.records, hseveral with
      | v :: w :: rest, _ => exact ⟨rfl, rfl⟩

/-- A null where an integer could be. -/
def noNumber : Expr := .constant .null (.option .int)

/-- The rows of the small store have no references. -/
theorem people_refs (s : Ty) (rows : List Value) (h : Store.people.elements s = .ok rows) :
    ∀ row ∈ rows, row.refs = [] := by
  cases s with
  | record name =>
    by_cases hname : name = "app.Person"
    · subst hname
      cases h
      exact List.forall_mem_singleton.mpr rfl
    · rw [Store.elements, Store.people, Store.insert, Store.empty, Fields.insert, Fields.get?,
        if_neg (Ne.symm hname)] at h
      cases h
  | _ => cases h

/-- The filtered table is the same list both ways, and a null is a null by way of the value and a
fault by way of the stream. -/
theorem adults_executeAwaited :
    let x := Executor.ofCatalog Catalog.people Store.people.elements
    let byStream := (ofStream Catalog.people (fun _ => true) x).executeAwaited
    let byValue := (ofValue Catalog.people (fun _ => true) x).executeAwaited
    byStream ⟨[], .list .value⟩ .clear Expr.adults =
        byValue ⟨[], .list .value⟩ .clear Expr.adults ∧
      byStream ⟨[], .option .value⟩ .clear noNumber = .error .emptyStream ∧
      byValue ⟨[], .option .value⟩ .clear noNumber = .ok ⟨.absent, []⟩ := by
  intro x byStream byValue
  have hc : Catalog.people.Keeps fun v => v.refs = [] :=
    Catalog.keeps_standard Value.hereditary_refs_eq_nil
  have hadults : Expr.adults.Every (Expr.CarriesAt fun v => v.refs = []) := by
    simp only [Expr.Every, Expr.adults, Expr.parts, Expr.allParts, Expr.CarriesAt,
      List.forall_mem_cons, List.forall_mem_append, List.not_mem_nil, false_imp_iff, implies_true,
      and_true, true_and]
    rfl
  have hnull : noNumber.Every (Expr.CarriesAt fun v => v.refs = []) :=
    Expr.every_iff.mpr ⟨rfl, List.forall_mem_nil _⟩
  have hlist := (executeAwaited_ofStream_ofValue Catalog.people (fun _ => true) ⟨[], .list .value⟩
    people_refs hadults hc).1
  have hone := (executeAwaited_ofStream_ofValue Catalog.people (fun _ => true)
    ⟨[], .option .value⟩ people_refs hnull hc).2 _ _ rfl rfl rfl
  refine ⟨hlist ?_, (hone.1 rfl).1, (hone.1 rfl).2⟩
  intro a r hplan _
  cases hplan.symm.trans (rfl : Expr.adults.plan Catalog.people (fun _ => true) = .ok _)
  exact .inl rfl

/-- A record and a reference to it, as the elements of a constant. -/
def recordTwice : Expr := .constant (.list [.record (some ⟨1⟩) [], .ref ⟨1⟩]) (.seq .dynamic)

/-- Two numbers as one constant of a type that is left open. -/
def twoAsOne : Expr := .constant (.list [.int 1, .int 2]) .dynamic

/-- Over a source without rows the two ways differ: in a null, in a list that refers to one of its
own records, and in a list where one value was wanted. -/
theorem executeAwaited_differs :
    let x := Executor.ofCatalog Catalog.standard Store.empty.elements
    let byStream := (ofStream Catalog.standard (fun _ => true) x).executeAwaited
    let byValue := (ofValue Catalog.standard (fun _ => true) x).executeAwaited
    (∀ s rows, Store.empty.elements s = .ok rows → rows = []) ∧
    (byValue ⟨[], .option (.integer .int64)⟩ .clear noNumber = .ok ⟨.absent, []⟩ ∧
      byStream ⟨[], .option (.integer .int64)⟩ .clear noNumber = .error .emptyStream) ∧
    (byValue ⟨[], .list .value⟩ .clear recordTwice =
        .ok ⟨.list [.value (.record (some ⟨1⟩) []), .value (.ref ⟨1⟩)], []⟩ ∧
      byStream ⟨[], .list .value⟩ .clear recordTwice =
        .ok ⟨.list [.value (.record (some ⟨1⟩) []), .value (.record (some ⟨1⟩) [])], []⟩) ∧
    byValue ⟨[], .value⟩ .clear twoAsOne = .ok ⟨.value (.int 1), []⟩ ∧
      byStream ⟨[], .value⟩ .clear twoAsOne = .error .multipleElements := by
  intro x byStream byValue
  refine ⟨fun s rows h => ?_, ⟨rfl, rfl⟩, ⟨rfl, rfl⟩, rfl, rfl⟩
  cases s <;> cases h

end QueryProvider

end QueryRelay
