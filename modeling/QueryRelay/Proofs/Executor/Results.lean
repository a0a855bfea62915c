import QueryRelay.Executor
import QueryRelay.Proofs.Plan.Translation

/-!
# Results of an executor

An executor splits the value of an expression into records by what it is, and puts them together
again by what the static type of the expression says: a list for a collection, else one record or
null. Main statement: of a planned expression an executor without hooks gives the value itself
exactly when the value is a list just in case its static type is one of collections.
-/

namespace QueryRelay

/-! ## Collections among types and values -/

/-- Whether values are collections: sequences, groups, and these with null as a further value. -/
def Ty.isCollection : Ty → Bool
  | .seq _ | .group _ _ => true
  | .option inner => isCollection inner
  | _ => false

/-- The descriptor of a type has the mark for collections that the type has. -/
theorem Ty.describe_isCollection : ∀ t : Ty, t.describe.isCollection = t.isCollection
  | .option inner => describe_isCollection inner
  | .unit | .bool | .int | .float | .text | .timestamp | .record _ | .enum _ | .seq _ | .group _ _
  | .anonymous _ | .dynamic | .infer => rfl

/-- Whether this is a list. -/
def Value.isList : Value → Bool
  | .list _ => true
  | _ => false

/-! ## Splitting and putting together -/

namespace Executor

/-- The records of a value, put together as a collection or as one value. -/
def shape (isCollection : Bool) (v : Value) : Value :=
  if isCollection then .list (split v) else (split v).headD .null

/-- The first record of a list is not the list. -/
theorem headD_ne_list (items : List Value) : items.headD .null ≠ .list items := by
  cases items with
  | nil => exact Value.noConfusion
  | cons v rest =>
    intro h
    have hsize := congrArg sizeOf h
    simp only [List.headD_cons, Value.list.sizeOf_spec, List.cons.sizeOf_spec] at hsize
    omega

/-- A value keeps its shape when it is a list exactly if a collection is wanted. -/
theorem shape_eq_self_iff {isCollection : Bool} {v : Value} :
    shape isCollection v = v ↔ v.isList = isCollection := by
  cases isCollection with
  | true => cases v <;> simp [shape, split, Value.isList]
  | false =>
    cases v with
    | list items => simpa [shape, split, Value.isList] using headD_ne_list items
    | _ => simp [shape, split, Value.isList]

/-- An executor without hooks binds the plan, evaluates, and splits the value. -/
theorem records_ofCatalog (c : Catalog) (data : DataSource) (a : Plan) :
    (ofCatalog c data).records a = (a.toExpr c >>= fun h => h.evaluate data).map fun v =>
      ⟨split v, a.type.isCollection⟩ := by
  have hrecords : (ofCatalog c data).records a = (a.toExpr c >>= fun h =>
      h.evaluate data >>= fun v => .ok ⟨split v, a.type.isCollection⟩) := rfl
  rw [hrecords]
  cases a.toExpr c with
  | error e => rfl
  | ok h =>
    change (h.evaluate data >>= fun v => _) = (h.evaluate data).map _
    cases h.evaluate data <;> rfl

/-- An executor without hooks binds the plan, evaluates, and shapes the value. -/
theorem execute_ofCatalog {c : Catalog} {data : DataSource} {a : Plan} {h : Expr} {v : Value}
    (hbind : a.toExpr c = .ok h) (hvalue : h.evaluate data = .ok v) :
    (ofCatalog c data).execute a = .ok (shape a.type.isCollection v) := by
  have hresult : (a.toExpr c >>= fun h => h.evaluate data) = .ok v :=
    Outcome.bind_eq_ok.mpr ⟨h, hbind, hvalue⟩
  rw [execute, records_ofCatalog, hresult]
  rfl

end Executor

/-! ## Executing a plan -/

/-- A planned expression is bound again to one that has the values that the original has by the
normal forms of types, and its plan has the descriptor of the static type. -/
theorem exists_toExpr_agree {c : Catalog} {admits : Expr.LocalTest} {e : Expr} {x : TypedPlan}
    (hregular : c.RegularFor e) (hplan : e.planTyped c admits = .ok x) :
    ∃ h, x.plan.toExpr c = .ok h ∧ x.plan.type = x.type.describe ∧
      ∀ data : DataSource, Outcome.Agree (e.evaluate data.normal) (h.evaluate data) := by
  obtain ⟨e', hfreeze, hplanned⟩ := planTyped_eq_ok.mp hplan
  obtain ⟨h, hbind, hvalues⟩ := hplanned.exists_toExpr_agree hregular hfreeze
  exact ⟨h, hbind, hplanned.type_eq, fun data => hvalues data.normal data fun _ _ => .refl _⟩

/-- A planned expression is bound again, and of the plan an executor without hooks gives the value
of the expression that comes back in the shape that the static type asks for: of a collection the
items of a list, nothing for null, or else the value as the only item; otherwise the first item of a
list, or the value. That is the value itself exactly when the value is a list just in case the
static type is one of collections. -/
theorem execute_planTyped {c : Catalog} {admits : Expr.LocalTest} {e : Expr} {x : TypedPlan}
    (hregular : c.RegularFor e) (hplan : e.planTyped c admits = .ok x) :
    ∃ h, x.plan.toExpr c = .ok h ∧ ∀ data v, h.evaluate data = .ok v →
      (Executor.ofCatalog c data).execute x.plan = .ok (Executor.shape x.type.isCollection v) ∧
        (Executor.shape x.type.isCollection v = v ↔ v.isList = x.type.isCollection) := by
  obtain ⟨h, hbind, htype, -⟩ := exists_toExpr_agree hregular hplan
  refine ⟨h, hbind, fun data v hvalue => ⟨?_, Executor.shape_eq_self_iff⟩⟩
  rw [Executor.execute_ofCatalog hbind hvalue, htype, Ty.describe_isCollection]

/-- The filtered table is a list of the type of a sequence, and comes out as it is. -/
theorem adults_execute_planTyped :
    ∃ x, Expr.adults.planTyped Catalog.people (fun _ => true) = .ok x ∧
      (Executor.ofCatalog Catalog.people Store.people.elements).execute x.plan =
        .ok (.list [.record none [("Name", .text "Ann"), ("Age", .int 30)]]) := by
  obtain ⟨h, hbind, hvalues⟩ := execute_planTyped Catalog.people_regularFor
    (rfl : Expr.adults.planTyped Catalog.people (fun _ => true) = .ok _)
  have hh := Except.ok.inj (hbind.symm.trans rfl)
  subst hh
  obtain ⟨hexecute, hshape⟩ := hvalues Store.people.elements _ rfl
  exact ⟨_, rfl, hexecute.trans (congrArg _ (hshape.mpr rfl))⟩

/-- No numbers, as a constant of the type of sequences with null as a further value. -/
def Expr.noNumbers : Expr := .constant .null (.option (.seq .int))

/-- Of a null that stands for a collection an executor gives the empty list, and not the null that
is the value of the expression. -/
theorem noNumbers_execute_planTyped :
    Catalog.standard.RegularFor Expr.noNumbers ∧
      ∃ x h, Expr.noNumbers.planTyped Catalog.standard (fun _ => true) = .ok x ∧
        x.plan.toExpr Catalog.standard = .ok h ∧
          h.evaluate Store.empty.elements = .ok .null ∧
            (Executor.ofCatalog Catalog.standard Store.empty.elements).execute x.plan =
              .ok (.list []) ∧
                (Executor.ofCatalog Catalog.standard Store.empty.elements).execute x.plan ≠
                  .ok .null := by
  refine ⟨Catalog.standard_regularFor ?_ ?_, _, _, rfl, rfl, rfl, rfl, ?_⟩
  · simp only [Expr.Declares, Expr.Every, Expr.noNumbers, Expr.parts, Expr.declaredTypes,
      List.forall_mem_cons, List.not_mem_nil, false_imp_iff, implies_true, and_true, Ty.Known]
  · simp only [Expr.Every, Expr.noNumbers, Expr.parts, Expr.function?, List.forall_mem_cons,
      List.not_mem_nil, false_imp_iff, implies_true, and_true]
  · intro h
    cases h

end QueryRelay
