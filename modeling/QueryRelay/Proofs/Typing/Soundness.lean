import QueryRelay.Proofs.Plan.Translation
import QueryRelay.Proofs.Typing.Queries
import QueryRelay.Proofs.Typing.Records

/-!
# Static types are right about values

Planning and evaluation walk an expression independently of each other. An expression whose parts
behave as declared has a meaning that fits its static type, by induction on the rules of the static
type. Main statement: a value conforms to the static type that planning gives, unless a count was
read off a group of which the record stores something else under that name.
-/

namespace QueryRelay

/-- In every scope of the types, a value of the expression conforms to the type. -/
def Expr.ConformsIn (c : Catalog) (counted : Prop) (data : DataSource) (types : TypeScope)
    (e : Expr) (t : Ty) : Prop :=
  ∀ values, ScopeConforms c counted values types → ∀ v, (e.meaning data).value values = .ok v →
    v.ConformsWith c counted t

namespace Expr

/-- The values of several expressions. -/
theorem mapM_meanings_eq_ok {data : DataSource} {es : List Expr} {values : Scope}
    {vs : List Value} : ((meanings data es).mapM fun m => m.value values) = .ok vs ↔
      List.Forall₂ (fun e v => (e.meaning data).value values = .ok v) es vs := by
  rw [meanings_eq_map, List.mapM_map, Outcome.mapM_eq_ok]
  rfl

/-- The values of named expressions, under their names. -/
theorem forall₂_of_mapM_memberMeanings {data : DataSource} {bs : List (String × Expr)}
    {values : Scope} {entries : List (String × Value)}
    (h : ((memberMeanings data bs).mapM fun m => return (m.1, ← m.2.value values)) = .ok entries) :
    List.Forall₂ (fun b x => x.1 = b.1 ∧ (b.2.meaning data).value values = .ok x.2) bs
      entries := by
  rw [memberMeanings_eq_map, List.mapM_map, Outcome.mapM_eq_ok] at h
  refine h.imp fun b x hstep => ?_
  obtain ⟨v, hv, hdone⟩ := Outcome.bind_eq_ok.mp hstep
  cases hdone
  exact ⟨rfl, hv⟩

/-- Items whose values conform to a type make a sequence of the type. -/
theorem conforms_of_items {c : Catalog} {counted : Prop} {data : DataSource} {types : TypeScope}
    {items : List Expr} {t : Ty}
    (hitems : ∀ item ∈ items, item.ConformsIn c counted data types t) {values : Scope}
    (hvalues : ScopeConforms c counted values types) {v : Value}
    (hv : (do return .list (← (meanings data items).mapM fun m => m.value values)) =
      (.ok v : Except Error Value)) : v.ConformsWith c counted (.seq t) := by
  obtain ⟨vs, hvs, hdone⟩ := Outcome.bind_eq_ok.mp hv
  cases hdone
  rw [mapM_meanings_eq_ok] at hvs
  refine .seq fun w hw => ?_
  obtain ⟨item, hitem, hvalue⟩ := exists_of_forall₂_of_mem hvs hw
  exact hitems item hitem values hvalues w hvalue

end Expr

/-- What the rules of the static type take on trust about an expression: that declared values have
the declared types, that parameters leave their types to the context, that members are distinct,
and that operands and branches of which either can be the value differ in marks for null only. -/
def Typing.BehavesAt (c : Catalog) (counted : Prop) (data : DataSource) (types : TypeScope) :
    Expr → Prop
  | .constant v t | .captured _ t v => v.ConformsWith c counted t
  | .lambda params _ => ∀ p ∈ params, p.2 = .infer
  | .binary .coalesce l r | .conditional _ l r =>
    ∀ s t, HasType c types [] l s → HasType c types [] r t → s.erased = t.erased
  | .call f _ => ∀ args v, f.run args = .ok v → v.ConformsWith c counted f.returns
  | .object members => (members.map Prod.fst).Nodup
  | .array t items | .list t items => ∀ item ∈ items, item.ConformsIn c counted data types t
  | .construct t bindings => ∃ name r, t = .record name ∧ c.record? name = some r ∧
      ∀ b ∈ bindings, ∃ u, r.fields.get? b.1 = some u ∧ b.2.ConformsIn c counted data types u
  | _ => True

/-- A count is read off a group: a member that the catalog types as an integer, and that the record
of a group has only if it happens to store one. -/
def Typing.ReadsGroupCount (c : Catalog) (types : TypeScope) (p : Expr) : Prop :=
  ∃ target s k e, p = .member target "Count" ∧ HasType c types [] target s ∧ s.erased = .group k e

/-- Parameters without types of their own have the types that they are bound to. -/
theorem Draft.parameters_infer {params : List (String × Ty)} {bound : List Ty}
    {ps : List (Parameter × Ty)} (hinfer : ∀ p ∈ params, p.2 = .infer)
    (h : parameters params bound = .ok ps) :
    ps.map (fun p => (p.1.name, p.2)) = (params.map Prod.fst).zip bound := by
  induction params generalizing bound ps with
  | nil =>
    cases h
    rfl
  | cons p rest ih =>
    obtain ⟨name, declared⟩ := p
    obtain ⟨hp, hrest⟩ := List.forall_mem_cons.mp hinfer
    cases hp
    obtain ⟨t, ps', ht, -, hps', rfl⟩ := parameters_cons_eq_ok.mp h
    cases bound with
    | nil => cases ht
    | cons b bound =>
      cases ht
      rw [List.map_cons, List.map_cons, List.zip_cons_cons, ih hrest hps', List.tail_cons]

namespace HasType

variable {c : Catalog} {counted : Prop} {data : DataSource} {types : TypeScope} {bound : List Ty}
  {e : Expr} {t : Ty}

/-- An expression that is no lambda and no query operator fits its type when its values conform. -/
theorem fits_plain {value : Scope → Except Error Value}
    (hmeaning : e.meaning data = Expr.plainMeaning e value)
    (hvalue : ∀ values, ScopeConforms c counted values types → ∀ v, value values = .ok v →
      v.ConformsWith c counted t) : (e.meaning data).Fits c counted types (bound, t) := by
  rw [hmeaning]
  refine ⟨hvalue, ?_, ?_⟩
  · intro _ _ _ _ _ h
    cases h
  · intro _ h
    cases h

/-- An expression whose parts behave as declared fits its static type. -/
theorem fits (hapart : c.FieldsApart)
    (hrows : ∀ t rows, data t = .ok rows → ∀ row ∈ rows, row.ConformsWith c counted t)
    (h : HasType c types bound e t)
    (hbehaves : ∀ types' p, Typing.Visits c types bound e types' p →
      Typing.BehavesAt c counted data types' p ∧ (counted ∨ ¬ Typing.ReadsGroupCount c types' p)) :
    (e.meaning data).Fits c counted types (bound, t) := by
  induction h with
  | constant v t =>
    refine fits_plain rfl fun values _ w hw => ?_
    cases hw
    exact (hbehaves _ _ (.here ..)).1
  | captured name t v =>
    refine fits_plain rfl fun values _ w hw => ?_
    cases hw
    exact (hbehaves _ _ (.here ..)).1
  | source t =>
    refine fits_plain rfl fun values _ v hv => ?_
    obtain ⟨rows, hdata, rfl⟩ := Outcome.map_eq_ok.mp hv
    exact .seq (hrows t rows hdata)
  | @parameter types name declared t hscope =>
    refine fits_plain rfl fun values hvalues v hv => ?_
    cases hfound : List.lookup name values with
    | none =>
      rw [hfound] at hv
      cases hv
    | some w =>
      rw [hfound] at hv
      cases hv
      exact hvalues.lookup hfound hscope
  | member hs htype ih =>
    refine fits_plain rfl fun values hvalues v hv => ?_
    have hcount := (hbehaves _ _ (.here ..)).2
    have htarget := ih fun _ _ hp => hbehaves _ _ (.member _ hp)
    obtain ⟨w, hw, hmember⟩ := Outcome.bind_eq_ok.mp hv
    refine (htarget.value values hvalues w hw).typeOfMember (hcount.imp_right ?_) htype hmember
    rintro hfree ⟨rfl, k, e, hgroup⟩
    exact hfree ⟨_, _, k, e, rfl, hs, hgroup⟩
  | unary _ htype ih =>
    refine fits_plain rfl fun values hvalues v hv => ?_
    have hoperand := ih fun _ _ hp => hbehaves _ _ (.unary _ hp)
    obtain ⟨w, hw, hresult⟩ := Outcome.bind_eq_ok.mp hv
    exact UnaryOp.apply_conforms htype (hoperand.value values hvalues w hw) hresult
  | @binary types op l r s t u hl hr htype ihl ihr =>
    refine fits_plain rfl fun values hvalues v hv => ?_
    have hleft := ihl fun _ _ hp => hbehaves _ _ (.binary op (.inl rfl) hp)
    have hright := ihr fun _ _ hp => hbehaves _ _ (.binary op (.inr rfl) hp)
    refine BinaryOp.applyIn_conforms htype (hleft.value values hvalues)
      (hright.value values hvalues) (fun hop => ?_) hv
    subst hop
    exact (hbehaves _ _ (.here ..)).1 s t hl hr
  | @conditional types test l r s t u hl hr htype ihl ihr =>
    refine fits_plain rfl fun values hvalues v hv => ?_
    have hleft := ihl fun _ _ hp => hbehaves _ _ (.conditional test (.inl rfl) hp)
    have hright := ihr fun _ _ hp => hbehaves _ _ (.conditional test (.inr rfl) hp)
    have herased : s.erased = t.erased := (hbehaves _ _ (.here ..)).1 s t hl hr
    obtain ⟨w, -, hbranch⟩ := Outcome.bind_eq_ok.mp hv
    obtain ⟨b, -, hvalue⟩ := Outcome.bind_eq_ok.mp hbranch
    refine Value.ConformsWith.unify htype herased ?_
    cases b with
    | true => exact .inl (hleft.value values hvalues v hvalue)
    | false => exact .inr (hright.value values hvalues v hvalue)
  | @lambda types bound params ps body t harity hparams _ ih =>
    have hinfer : ∀ p ∈ params, p.2 = .infer := (hbehaves _ _ (.here ..)).1
    have hbody := ih fun _ _ hp => hbehaves _ _ (.lambda hparams hp)
    refine ⟨?_, ?_, ?_⟩
    · intro _ _ _ h
      cases h
    · intro values hvalues args hargs v hv
      rw [Expr.meaning] at hv
      dsimp only at hv
      split at hv
      · refine hbody.value _ ?_ v hv
        rw [TypeScope.extend, Draft.parameters_infer hinfer hparams]
        exact hvalues.bind hargs _
      · cases hv
    · intro _ h
      cases h
  | @query types verb operands extra t hoperands hsignature hcount ih =>
    have hms : List.Forall₂ (Meaning.Fits c counted types)
        ((operands.map Prod.fst).map (Expr.meaning data)) (operands.map Prod.snd) := by
      rw [List.map_map, List.forall₂_map_left_iff, List.forall₂_map_right_iff, List.forall₂_same]
      intro x hx
      exact ih x hx fun _ _ hp => hbehaves _ _ (.query hoperands hsignature hcount hx hp)
    have hmeanings : Expr.meanings data (operands.map Prod.fst ++ extra) =
        (operands.map Prod.fst).map (Expr.meaning data) ++ extra.map (Expr.meaning data) := by
      rw [Expr.meanings_eq_map, List.map_append]
    refine ⟨?_, ?_, ?_⟩
    · intro values hvalues v hv
      change Meaning.query verb (Expr.meanings data _) values = .ok v at hv
      rw [hmeanings] at hv
      refine Meaning.query_conforms hsignature hms ?_ hvalues hv
      rw [List.length_map, List.length_map]
      exact hcount
    · intro _ _ _ _ _ h
      cases h
    · intro ch hch values hvalues v hv
      change Meaning.sortChain verb (Expr.meanings data _) = .ok ch at hch
      rw [hmeanings] at hch
      exact Meaning.sortChain_fits hsignature hms hch hvalues hv
  | call f args =>
    refine fits_plain rfl fun values _ v hv => ?_
    obtain ⟨ws, -, hresult⟩ := Outcome.bind_eq_ok.mp hv
    exact (hbehaves _ _ (.here ..)).1 ws v hresult
  | @object types members hmembers ih =>
    refine fits_plain rfl fun values hvalues v hv => ?_
    obtain ⟨entries, hentries, hdone⟩ := Outcome.bind_eq_ok.mp hv
    cases hdone
    have hnodup : ((members.map fun m => (m.1, m.2.1)).map Prod.fst).Nodup :=
      (hbehaves _ _ (.here ..)).1
    rw [List.map_map] at hnodup
    have hforall := Expr.forall₂_of_mapM_memberMeanings hentries
    rw [List.forall₂_map_left_iff] at hforall
    have hfits : ∀ m ∈ members, (m.2.1.meaning data).Fits c counted types ([], m.2.2) := by
      intro m hm
      exact ih m hm fun _ _ hp => hbehaves _ _ (.object (List.mem_map_of_mem hm) hp)
    refine Value.conforms_anonymous ?_ ?_
    · rw [List.forall₂_map_right_iff]
      refine ((List.forall₂_and_left ..).mpr ⟨hfits, hforall⟩).flip.imp fun x m hxm => ?_
      exact ⟨hxm.2.1, hxm.1.value values hvalues x.2 hxm.2.2⟩
    · rw [List.map_map]
      exact hnodup
  | array t items =>
    have hitems : ∀ item ∈ items, item.ConformsIn c counted data _ t := (hbehaves _ _ (.here ..)).1
    refine fits_plain rfl fun values hvalues v hv => ?_
    exact Expr.conforms_of_items hitems hvalues hv
  | list t items =>
    have hitems : ∀ item ∈ items, item.ConformsIn c counted data _ t := (hbehaves _ _ (.here ..)).1
    refine fits_plain rfl fun values hvalues v hv => ?_
    exact Expr.conforms_of_items hitems hvalues hv
  | construct t bindings =>
    refine fits_plain rfl fun values hvalues v hv => ?_
    obtain ⟨entries, hentries, hdone⟩ := Outcome.bind_eq_ok.mp hv
    cases hdone
    obtain ⟨name, r, rfl, hr, hbindings⟩ := (hbehaves _ _ (.here ..)).1
    have hforall := Expr.forall₂_of_mapM_memberMeanings hentries
    refine Value.conforms_record hapart hr fun x hx => ?_
    obtain ⟨b, hb, hname, hvalue⟩ := exists_of_forall₂_of_mem hforall hx
    obtain ⟨u, hu, hconforms⟩ := hbindings b hb
    exact ⟨u, hname ▸ hu, hconforms values hvalues x.2 hvalue⟩

end HasType

/-- A value of an expression conforms to the static type that planning gives it. The fields of a
record type differ in more than case, the rows of a table conform to its type, and the parts of the
expression behave as declared. A count that is read off a group is whatever the record of the group
stores under that name. So either the expression reads none, and `counted` may be false, or rows,
constants and results of functions store no wrong one, and `counted` may be true. -/
theorem planTyped_evaluate_conforms {c : Catalog} {counted : Prop} {data : DataSource}
    {admits : Expr.LocalTest} {e : Expr} {x : TypedPlan} {v : Value} (hapart : c.FieldsApart)
    (hrows : ∀ t rows, data t = .ok rows → ∀ row ∈ rows, row.ConformsWith c counted t)
    (hbehaves : ∀ types p, Typing.Visits c [] [] e types p →
      Typing.BehavesAt c counted data types p)
    (hcount : counted ∨ ∀ types p, Typing.Visits c [] [] e types p →
      ¬ Typing.ReadsGroupCount c types p)
    (hplan : e.planTyped c admits = .ok x) (hvalue : e.evaluate data = .ok v) :
    v.ConformsWith c counted x.type := by
  obtain ⟨e', hfreeze, hplanned⟩ := planTyped_eq_ok.mp hplan
  have htype : HasType c [] [] e x.type := hasType_of_freeze hfreeze hplanned
  have hfits := htype.fits hapart hrows fun types p hp =>
    ⟨hbehaves types p hp, hcount.imp_right fun h => h types p hp⟩
  exact hfits.value [] .nil v hvalue

/-- The fields of the record differ in more than case. -/
theorem Catalog.people_fieldsApart : Catalog.people.FieldsApart := by
  have hrecords : Catalog.people.records =
      [⟨"app.Person", [("Name", .text), ("Age", .int)]⟩] := rfl
  rw [FieldsApart, hrecords, List.forall_mem_singleton]
  simp only [List.forall_mem_cons, List.not_mem_nil, false_imp_iff, implies_true, and_true]
  exact ⟨⟨trivial, fun h => absurd h (by decide)⟩, fun h => absurd h (by decide)⟩

/-- The row conforms to the record. -/
theorem Store.people_conforms {counted : Prop} : ∀ t rows, Store.people.elements t = .ok rows →
    ∀ row ∈ rows, row.ConformsWith Catalog.people counted t := by
  intro t rows h
  cases t with
  | record name =>
    by_cases hname : name = "app.Person"
    · subst hname
      cases h
      refine List.forall_mem_singleton.mpr (.record fun r hr => ?_)
      cases hr
      refine List.forall_mem_cons.mpr ⟨?_, List.forall_mem_singleton.mpr ?_⟩
      · intro w hw
        cases hw
        exact .text "Ann"
      · intro w hw
        cases hw
        exact .int 30
    · rw [elements, people, insert, empty, Fields.insert, Fields.get?, if_neg (Ne.symm hname)] at h
      cases h
  | _ => cases h

/-- The parts of the filtered table behave as declared. -/
theorem Expr.adults_behaves (data : DataSource) : ∀ types p,
    Typing.Visits Catalog.people [] [] Expr.adults types p →
      Typing.BehavesAt Catalog.people False data types p := by
  intro types p hp
  have hparts : Expr.adults.Every fun p => Typing.BehavesAt Catalog.people False data types p := by
    simp only [Every, adults, parts, allParts, Typing.BehavesAt, List.forall_mem_cons,
      List.forall_mem_append, List.not_mem_nil, false_imp_iff, implies_true, and_true, true_and]
    exact .int 18
  exact hparts p hp.mem_parts

/-- The only member in the filtered table is an age. -/
theorem Expr.adults_readsNoCount : ∀ types p,
    Typing.Visits Catalog.people [] [] Expr.adults types p →
      ¬ Typing.ReadsGroupCount Catalog.people types p := by
  rintro types p hp ⟨target, s, k, e, rfl, -, -⟩
  have hparts := hp.mem_parts
  simp [adults, parts, allParts] at hparts

/-- The counts of the groups of a table. -/
def Expr.tallies : Expr :=
  .query .select
    [.query .groupBy [.source (.record "app.Person"),
      .lambda [("p", .infer)] (.member (.parameter "p" .infer) "Age")],
    .lambda [("g", .infer)] (.member (.parameter "g" .infer) "Count")]

/-- The parts of the counts of the groups behave as declared. -/
theorem Expr.tallies_behaves (data : DataSource) : ∀ types p,
    Typing.Visits Catalog.people [] [] Expr.tallies types p →
      Typing.BehavesAt Catalog.people True data types p := by
  intro types p hp
  have hparts : Expr.tallies.Every fun p => Typing.BehavesAt Catalog.people True data types p := by
    simp only [Every, tallies, parts, allParts, Typing.BehavesAt, List.forall_mem_cons,
      List.forall_mem_append, List.not_mem_nil, false_imp_iff, implies_true, and_true]
  exact hparts p hp.mem_parts

/-- What the filtered table gives conforms to its static type, the sequences of the record. It reads
no count; and the counts of the groups, which store none, conform to the type of integers. -/
theorem adults_planTyped_evaluate_conforms :
    (∃ x v, Expr.adults.planTyped Catalog.people (fun _ => true) = .ok x ∧
      Expr.adults.evaluate Store.people.elements = .ok v ∧
      x.type = .seq (.record "app.Person") ∧ v.Conforms Catalog.people x.type) ∧
    ∃ x v, Expr.tallies.planTyped Catalog.people (fun _ => true) = .ok x ∧
      Expr.tallies.evaluate Store.people.elements = .ok v ∧
      x.type = .seq .int ∧ v.ConformsWith Catalog.people True x.type := by
  refine ⟨⟨_, _, rfl, rfl, rfl, ?_⟩, _, _, rfl, rfl, rfl, ?_⟩
  · exact planTyped_evaluate_conforms Catalog.people_fieldsApart Store.people_conforms
      (Expr.adults_behaves _) (.inr Expr.adults_readsNoCount)
      (rfl : Expr.adults.planTyped Catalog.people (fun _ => true) = .ok _)
      (rfl : Expr.adults.evaluate Store.people.elements = .ok _)
  · exact planTyped_evaluate_conforms Catalog.people_fieldsApart Store.people_conforms
      (Expr.tallies_behaves _) (.inl trivial)
      (rfl : Expr.tallies.planTyped Catalog.people (fun _ => true) = .ok _)
      (rfl : Expr.tallies.evaluate Store.people.elements = .ok _)

/-- The count of a group that stores a text under that name. -/
def Expr.storedCount : Expr :=
  .member (.constant (.record none [("Key", .int 1), ("Elements", .list []), ("Count", .text "x")])
    (.group .int .int)) "Count"

/-- Every part of the expression behaves as declared, and the text that is read has the static type
of integers. -/
theorem storedCount_planTyped_evaluate :
    Catalog.standard.FieldsApart ∧
      (∀ t rows, Store.empty.elements t = .ok rows →
        ∀ row ∈ rows, row.Conforms Catalog.standard t) ∧
      (∀ types p, Typing.Visits Catalog.standard [] [] Expr.storedCount types p →
        Typing.BehavesAt Catalog.standard False Store.empty.elements types p) ∧
      ∃ x v, Expr.storedCount.planTyped Catalog.standard (fun _ => true) = .ok x ∧
        Expr.storedCount.evaluate Store.empty.elements = .ok v ∧
          ¬ v.Conforms Catalog.standard x.type := by
  refine ⟨?_, ?_, fun types p hp => ?_, _, _, rfl, rfl, nofun⟩
  · intro r hr
    cases hr
  · intro t rows h
    cases t <;> cases h
  · have hparts : Expr.storedCount.Every fun p =>
        Typing.BehavesAt Catalog.standard False Store.empty.elements types p := by
      simp only [Expr.Every, Expr.storedCount, Expr.parts, Typing.BehavesAt, List.forall_mem_cons,
        List.not_mem_nil, false_imp_iff, implies_true, and_true, true_and]
      exact Value.conforms_group_iff.mpr
        ⟨⟨_, rfl, .int 1⟩, _, rfl, .seq (List.forall_mem_nil _)⟩
    exact hparts p hp.mem_parts

end QueryRelay
