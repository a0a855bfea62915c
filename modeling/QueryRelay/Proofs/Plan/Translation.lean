import QueryRelay.Proofs.Plan.Rebinding

/-!
# Planning and binding again

The passes together: freezing, planning, and binding the plan to the catalog again. Main statements:
the expression that comes back has the values of the one that went in, read by the normal forms of
types, and, as long as no type marks null twice in a row, planning it gives the same plan.
-/

namespace QueryRelay

open Ty (IsNormal Known known_hereditary isNormal_hereditary)

/-- The data source that answers for each type as another one does for its normal form. -/
def DataSource.normal (data : DataSource) : DataSource := fun t => data t.normal

/-- A data source that answers alike for the element types of the tables of an expression and for
their normal forms, as one does that answers by the resource of the elements. -/
def Expr.ReadsAlike (data : DataSource) (e : Expr) : Prop :=
  ∀ t, .source t ∈ e.parts → Outcome.Agree (data t.normal) (data t)

/-- A store has rows for the names of records only, which are normal types. -/
theorem Store.readsAlike (s : Store) (e : Expr) : e.ReadsAlike s.elements := by
  intro t _
  cases t with
  | record name => exact .refl _
  | option inner =>
    rw [Ty.normal]
    cases inner.normal <;> exact .faults _ _
  | _ => exact .faults _ _

/-- What a catalog knows and has of an expression it knows and has of what freezing leaves. -/
theorem Catalog.RegularFor.frozen {c : Catalog} {e e' : Expr} {admits : Expr.LocalTest}
    (h : c.RegularFor e) (he : e.freeze c admits = .ok e') :
    TypesIn (Known c) [] [] e' ∧ c.Calls e' := by
  refine ⟨⟨Expr.declares_of_freeze (known_hereditary c) h.fields h.declared he,
    List.forall_mem_nil _, List.forall_mem_nil _⟩, ?_⟩
  refine Expr.every_of_freeze (fun p p' hsame hp => ?_) (fun p t v _ _ f hf => ?_) h.functions he
  · rw [hsame.sameRoot.function?]
    exact hp
  · cases hf

/-- An expression with a plan has something left after freezing that has the plan. -/
theorem plan_eq_ok {c : Catalog} {admits : Expr.LocalTest} {e : Expr} {a : Plan} :
    e.plan c admits = .ok a ↔
      ∃ e' t, e.freeze c admits = .ok e' ∧ Planned c [] [] e' a t := by
  rw [Expr.plan, Outcome.map_eq_ok]
  constructor
  · rintro ⟨⟨p, t⟩, hplan, rfl⟩
    obtain ⟨e', he', hplanned⟩ := planTyped_eq_ok.mp hplan
    exact ⟨e', t, he', hplanned⟩
  · rintro ⟨e', t, he', hplanned⟩
    exact ⟨⟨a, t⟩, planTyped_eq_ok.mpr ⟨e', he', hplanned⟩, rfl⟩

/-! ## A small example -/

/-- A catalog of one record. -/
def Catalog.people : Catalog :=
  Catalog.standard.insertRecord ⟨"app.Person", [("Name", .text), ("Age", .int)]⟩

/-- A store of one row. -/
def Store.people : Store :=
  Store.empty.insert "app.Person" [.record none [("Name", .text "Ann"), ("Age", .int 30)]]

/-- A table, filtered by one of its fields. -/
def Expr.adults : Expr :=
  .query .filter [.source (.record "app.Person"), .lambda [("p", .infer)]
    (.binary .ge (.member (.parameter "p" .infer) "Age") (.captured "limit" .int (.int 18)))]

/-- The record is registered. -/
theorem Catalog.people_hasRecord : Catalog.people.HasRecord "app.Person" :=
  ⟨by unfold Catalog.IsForeign; decide, _, List.mem_cons_self .., rfl⟩

/-- No record of the catalog has a field of a compound type. -/
theorem Catalog.people_fields {P : Ty → Prop} (htext : P .text) (hint : P .int) :
    ∀ r ∈ Catalog.people.records, ∀ field ∈ r.fields, P field.2 := by
  have hrecords : Catalog.people.records =
      [⟨"app.Person", [("Name", .text), ("Age", .int)]⟩] := rfl
  rw [hrecords]
  exact List.forall_mem_singleton.mpr
    (List.forall_mem_cons.mpr ⟨htext, List.forall_mem_singleton.mpr hint⟩)

/-- The expression declares the record, integers, and a type that is yet to be given. -/
theorem Expr.adults_declares {P : Ty → Prop} (hrecord : P (.record "app.Person")) (hint : P .int)
    (hinfer : P .infer) : Expr.adults.Declares P := by
  simp only [Declares, Every, adults, parts, allParts, declaredTypes, List.forall_mem_cons,
    List.forall_mem_append, List.map_cons, List.map_nil, List.not_mem_nil, false_imp_iff,
    implies_true, and_true, true_and]
  exact ⟨hrecord, hinfer, hinfer, hint⟩

/-- The catalog fits the expression. -/
theorem Catalog.people_regularFor : Catalog.people.RegularFor Expr.adults where
  keyed := Catalog.standard_isKeyed.insertRecord _
  fields := people_fields trivial trivial
  declared := Expr.adults_declares people_hasRecord trivial trivial
  functions := by
    simp only [Expr.Every, Expr.adults, Expr.parts, Expr.allParts, Expr.function?,
      List.forall_mem_cons, List.forall_mem_append, List.not_mem_nil, false_imp_iff, implies_true,
      and_true, reduceCtorEq]

/-! ## Meaning -/

/-- The plan of what freezing leaves of an expression is bound again to an expression that has the
values of the original, over every data source in which its tables stand under their normal
types. -/
theorem Planned.exists_toExpr_agree {c : Catalog} {admits : Expr.LocalTest} {e e' : Expr} {a : Plan}
    {t : Ty} (hregular : c.RegularFor e) (hfreeze : e.freeze c admits = .ok e')
    (hplanned : Planned c [] [] e' a t) :
    ∃ h, a.toExpr c = .ok h ∧ ∀ data data', e.ReadsAs Ty.normal data data' →
      Outcome.Agree (e.evaluate data) (h.evaluate data') := by
  obtain ⟨htypes, hcalls⟩ := hregular.frozen hfreeze
  obtain ⟨h, hrebound⟩ := hplanned.exists_rebound hregular.keyed hregular.fields htypes hcalls
  refine ⟨h, hrebound.bind, fun data data' hdata => ?_⟩
  -- Freezing keeps the types of tables, so what it leaves reads the normal ones already.
  have hfrozen : Meaning.Agree (e.meaning data) (e'.meaning data'.normal) :=
    (Expr.rewrites_of_freeze hfreeze).agree hdata
  have hbound : Meaning.Agree (e'.meaning data'.normal) (h.meaning data') :=
    hrebound.rewrites.agree fun _ _ => .refl _
  exact (hfrozen.value []).trans (hbound.value [])

/-- Planning preserves meaning: the plan of an expression is bound again to a regular catalog, and
over every data source the expression that comes back has exactly the values that the original has
over the data source that answers by the normal forms of types. So it has those of the original over
the data source itself, if that answers alike for element types that differ only in repeated marks
for null. -/
theorem toExpr_plan_evaluate {c : Catalog} {admits : Expr.LocalTest} {e : Expr} {a : Plan}
    (hregular : c.RegularFor e) (hplan : e.plan c admits = .ok a) :
    ∃ h, a.toExpr c = .ok h ∧ ∀ data v,
      (h.evaluate data = .ok v ↔ e.evaluate data.normal = .ok v) ∧
        (e.ReadsAlike data → (h.evaluate data = .ok v ↔ e.evaluate data = .ok v)) := by
  obtain ⟨e', t, hfreeze, hplanned⟩ := plan_eq_ok.mp hplan
  obtain ⟨h, hbind, hvalues⟩ := hplanned.exists_toExpr_agree hregular hfreeze
  refine ⟨h, hbind, fun data v => ⟨?_, fun halike => ?_⟩⟩
  · exact (hvalues data.normal data fun _ _ => .refl _).symm v
  · exact (hvalues data data fun t ht => (halike t ht).symm).symm v

/-- The filtered table that comes back has the row that the original has. -/
theorem adults_toExpr_plan_evaluate :
    ∃ a h, Expr.adults.plan Catalog.people (fun _ => true) = .ok a ∧
      a.toExpr Catalog.people = .ok h ∧ h.evaluate Store.people.elements =
        .ok (.list [.record none [("Name", .text "Ann"), ("Age", .int 30)]]) := by
  obtain ⟨h, hbind, hvalues⟩ := toExpr_plan_evaluate Catalog.people_regularFor
    (rfl : Expr.adults.plan Catalog.people (fun _ => true) = .ok _)
  exact ⟨_, h, rfl, hbind,
    ((hvalues Store.people.elements _).2 (Store.people.readsAlike _)).mpr rfl⟩

/-- The catalog of the built-in functions fits an expression that calls none, if it knows the types
that are declared. -/
theorem Catalog.standard_regularFor {e : Expr} (hdeclared : e.Declares (Known standard))
    (hcalls : e.Every fun p => p.function? = none) : standard.RegularFor e where
  keyed := standard_isKeyed
  fields := List.forall_mem_nil _
  declared := hdeclared
  functions := by
    intro p hp f hf
    cases (hcalls p hp).symm.trans hf

/-- A table of integers of which each may be null twice over. -/
def Expr.doubtfulInts : Expr := .source (.option (.option .int))

/-- A data source with one row for that table, and none for any other. -/
def DataSource.doubtfulInt : DataSource
  | .option (.option .int) => .ok [.int 1]
  | _ => .ok []

/-- A table whose type marks null twice comes back as the one whose type marks it once, and a data
source may tell the two apart. -/
theorem doubtfulInts_toExpr_plan_evaluate :
    Catalog.standard.RegularFor Expr.doubtfulInts ∧
      ∃ a h, Expr.doubtfulInts.plan Catalog.standard (fun _ => true) = .ok a ∧
        a.toExpr Catalog.standard = .ok h ∧
          Expr.doubtfulInts.evaluate DataSource.doubtfulInt = .ok (.list [.int 1]) ∧
            h.evaluate DataSource.doubtfulInt = .ok (.list []) := by
  refine ⟨Catalog.standard_regularFor ?_ ?_, _, _, rfl, rfl, rfl, rfl⟩
  · simp only [Expr.Declares, Expr.Every, Expr.doubtfulInts, Expr.parts, Expr.declaredTypes,
      List.forall_mem_cons, List.not_mem_nil, false_imp_iff, implies_true, and_true, Known]
  · simp only [Expr.Every, Expr.doubtfulInts, Expr.parts, Expr.function?, List.forall_mem_cons,
      List.not_mem_nil, false_imp_iff, implies_true, and_true]

/-! ## Planning again -/

/-- Planning undoes binding: as long as no type that an expression depends on marks null twice in a
row, the expression that its plan is bound to has that same plan. -/
theorem plan_toExpr_plan {c : Catalog} {e h : Expr} {a : Plan} (hregular : c.RegularFor e)
    (hfields : c.HasNormalFields) (hnormal : e.Declares IsNormal)
    (hplan : e.plan c (fun _ => true) = .ok a) (hbind : a.toExpr c = .ok h) :
    h.plan c (fun _ => true) = .ok a := by
  obtain ⟨e', t, hfreeze, hplanned⟩ := plan_eq_ok.mp hplan
  obtain ⟨htypes, hcalls⟩ := hregular.frozen hfreeze
  obtain ⟨h', hrebound⟩ := hplanned.exists_rebound hregular.keyed hregular.fields htypes hcalls
  have heq : h' = h := Except.ok.inj (hrebound.bind.symm.trans hbind)
  subst heq
  have htypes' : TypesIn IsNormal [] [] e' :=
    ⟨Expr.declares_of_freeze isNormal_hereditary hfields hnormal hfreeze, List.forall_mem_nil _,
      List.forall_mem_nil _⟩
  have hfrozen := (Expr.isFrozen_of_rewrites hrebound.rewrites
    (Expr.isFrozen_of_freeze hfreeze).1).1
  exact plan_eq_ok.mpr ⟨h', t, hfrozen.freeze_eq c _, hrebound.planned hfields htypes'⟩

/-- The filtered table that comes back is planned alike. -/
theorem adults_plan_toExpr_plan :
    ∃ a h, Expr.adults.plan Catalog.people (fun _ => true) = .ok a ∧
      a.toExpr Catalog.people = .ok h ∧ h.plan Catalog.people (fun _ => true) = .ok a := by
  refine ⟨_, _, rfl, rfl, ?_⟩
  exact plan_toExpr_plan Catalog.people_regularFor (Catalog.people_fields rfl rfl)
    (Expr.adults_declares rfl rfl rfl) rfl rfl

/-- A conditional with one branch whose type marks null twice. -/
def Expr.twiceOptional : Expr :=
  .lambda [("x", .option (.option .dynamic)), ("y", .dynamic)]
    (.conditional (.parameter "y" .dynamic) (.parameter "x" .infer) (.parameter "y" .dynamic))

/-- A type that marks null twice is not told from one that marks it once, and the two can meet
another type in different ways: the expression that comes back is planned otherwise. -/
theorem twiceOptional_plan_toExpr_plan :
    Catalog.standard.RegularFor Expr.twiceOptional ∧
      ∃ a h, Expr.twiceOptional.plan Catalog.standard (fun _ => true) = .ok a ∧
        a.toExpr Catalog.standard = .ok h ∧ h.plan Catalog.standard (fun _ => true) ≠ .ok a := by
  refine ⟨Catalog.standard_regularFor ?_ ?_, _, _, rfl, rfl, ?_⟩
  · simp only [Expr.Declares, Expr.Every, Expr.twiceOptional, Expr.parts, Expr.declaredTypes,
      List.forall_mem_cons, List.forall_mem_append, List.map_cons, List.map_nil, List.not_mem_nil,
      false_imp_iff, implies_true, and_true, Known]
  · simp only [Expr.Every, Expr.twiceOptional, Expr.parts, Expr.function?, List.forall_mem_cons,
      List.forall_mem_append, List.not_mem_nil, false_imp_iff, implies_true, and_true]
  · intro heq
    have hmarked := congrArg (fun x => x.toOption.map fun p => p.type.isNullable) heq
    revert hmarked
    decide

end QueryRelay
