import QueryRelay.Proofs.Plan.Judgment
import QueryRelay.Proofs.Typing.Judgment
import QueryRelay.Proofs.Typing.Operations

/-!
# Query operators on values of a type

A meaning fits a type when its values, its results on arguments of the types that its parameters are
bound to and the source of the sort that it ends conform to the type, in every scope of conforming
values. Main statement: a query operator has values of the type of its signature when its operands
fit theirs.
-/

namespace QueryRelay

/-- In scope are values of the types in scope. -/
def ScopeConforms (c : Catalog) (counted : Prop) (values : Scope) (types : TypeScope) : Prop :=
  List.Forall₂ (fun x y => x.1 = y.1 ∧ x.2.ConformsWith c counted y.2) values types

namespace ScopeConforms

variable {c : Catalog} {counted : Prop} {values : Scope} {types : TypeScope}

/-- A parameter has a value of its type. -/
theorem lookup (h : ScopeConforms c counted values types) {name : String} {v : Value} {t : Ty}
    (hv : List.lookup name values = some v) (ht : List.lookup name types = some t) :
    v.ConformsWith c counted t := by
  induction h with
  | nil => cases hv
  | @cons x y _ _ hxy _ ih =>
    obtain ⟨n, w⟩ := x
    obtain ⟨n', u⟩ := y
    obtain ⟨rfl, hw⟩ := hxy
    rw [List.lookup_cons] at hv ht
    cases hname : name == n with
    | true =>
      rw [hname] at hv ht
      cases hv
      cases ht
      exact hw
    | false =>
      rw [hname] at hv ht
      exact ih hv ht

/-- Arguments of types are values in scope under the names of parameters. -/
theorem zip {args : List Value} {bound : List Ty}
    (h : List.Forall₂ (Value.ConformsWith c counted) args bound) (names : List String) :
    ScopeConforms c counted (names.zip args) (names.zip bound) := by
  induction h generalizing names with
  | nil =>
    rw [List.zip_nil_right, List.zip_nil_right]
    exact .nil
  | cons hv _ ih =>
    cases names with
    | nil => exact .nil
    | cons n rest => exact .cons ⟨rfl, hv⟩ (ih rest)

/-- Binding parameters to arguments of their types keeps a scope right. -/
theorem bind (h : ScopeConforms c counted values types) {args : List Value} {bound : List Ty}
    (hargs : List.Forall₂ (Value.ConformsWith c counted) args bound) (names : List String) :
    ScopeConforms c counted (values.bind names args) ((names.zip bound).reverse ++ types) :=
  List.rel_append (List.rel_reverse (zip hargs names)) h

end ScopeConforms

/-- A meaning is right about an operand: the types that its parameters are bound to, and its own
type. -/
structure Meaning.Fits (c : Catalog) (counted : Prop) (types : TypeScope) (m : Meaning)
    (o : Operand) : Prop where
  /-- Its values conform to the type. -/
  value : ∀ values, ScopeConforms c counted values types → ∀ v, m.value values = .ok v →
    v.ConformsWith c counted o.2
  /-- Its results on conforming arguments conform to the type. -/
  apply : ∀ values, ScopeConforms c counted values types → ∀ args,
    List.Forall₂ (Value.ConformsWith c counted) args o.1 → ∀ v, m.apply values args = .ok v →
      v.ConformsWith c counted o.2
  /-- The source of the sort that it ends conforms to the type. -/
  chain : ∀ ch, m.chain = .ok ch → ∀ values, ScopeConforms c counted values types →
    ∀ v, ch.source values = .ok v → v.ConformsWith c counted o.2

namespace Meaning

variable {c : Catalog} {counted : Prop} {types : TypeScope} {values : Scope} {m : Meaning}
  {s e e' u t : Ty}

/-- The elements of a fitting meaning conform to the element type. -/
theorem Fits.elements (h : m.Fits c counted types ([], s)) (helement : s.element? = some e)
    (hvalues : ScopeConforms c counted values types) {items : List Value}
    (hitems : m.elements values = .ok items) : ∀ v ∈ items, v.ConformsWith c counted e := by
  obtain ⟨v, hv, hitems⟩ := Outcome.bind_eq_ok.mp hitems
  exact (h.value values hvalues v hv).elements helement hitems

/-- The image of a conforming element conforms to the type of the images. -/
theorem Fits.image (h : m.Fits c counted types ([e], u))
    (hvalues : ScopeConforms c counted values types) {v w : Value} (hv : v.ConformsWith c counted e)
    (hw : m.apply values [v] = .ok w) : w.ConformsWith c counted u :=
  h.apply values hvalues [v] (.cons hv .nil) w hw

/-- The image of a pair of conforming elements conforms to the type of the images. -/
theorem Fits.imagePair (h : m.Fits c counted types ([e, e'], u))
    (hvalues : ScopeConforms c counted values types) {v v' w : Value}
    (hv : v.ConformsWith c counted e) (hv' : v'.ConformsWith c counted e')
    (hw : m.apply values [v, v'] = .ok w) : w.ConformsWith c counted u :=
  h.apply values hvalues [v, v'] (.cons hv (.cons hv' .nil)) w hw

/-- Only a sort operator ends a chain. -/
theorem exists_sortVerb {verb : QueryVerb} {ms : List Meaning} {ch : SortChain}
    (h : sortChain verb ms = .ok ch) :
    ∃ isFirst direction, verb = Plan.sortVerb isFirst direction := by
  rcases ms with _ | ⟨m, _ | ⟨m', ms⟩⟩
  · cases h
  · cases h
  · cases verb with
    | orderBy => exact ⟨true, .ascending, rfl⟩
    | orderByDescending => exact ⟨true, .descending, rfl⟩
    | thenBy => exact ⟨false, .ascending, rfl⟩
    | thenByDescending => exact ⟨false, .descending, rfl⟩
    | _ => cases h

/-- A sort keeps the source of the chain that it refines, or starts one with its own source. -/
theorem sortChain_source {isFirst : Bool} {direction : SortDirection} {source key : Meaning}
    {rest : List Meaning} {ch : SortChain}
    (h : sortChain (Plan.sortVerb isFirst direction) (source :: key :: rest) = .ok ch) :
    ch.source = source.value ∨ ∃ ch', source.chain = .ok ch' ∧ ch.source = ch'.source := by
  cases isFirst with
  | true =>
    left
    cases direction <;> cases h <;> rfl
  | false =>
    right
    cases direction <;> obtain ⟨ch', hch', rfl⟩ := Outcome.map_eq_ok.mp h <;>
      exact ⟨ch', hch', rfl⟩

/-- The chain that a sort ends has a source of the type of its own source. -/
theorem sortChain_conforms {isFirst : Bool} {direction : SortDirection} {source key : Meaning}
    {rest : List Meaning} {ch : SortChain} (hsource : source.Fits c counted types ([], s))
    (hch : sortChain (Plan.sortVerb isFirst direction) (source :: key :: rest) = .ok ch)
    (hvalues : ScopeConforms c counted values types) {v : Value} (hv : ch.source values = .ok v) :
    v.ConformsWith c counted s := by
  rcases sortChain_source hch with hown | ⟨ch', hch', hkept⟩
  · rw [hown] at hv
    exact hsource.value values hvalues v hv
  · rw [hkept] at hv
    exact hsource.chain ch' hch' values hvalues v hv

variable {verb : QueryVerb} {operands : List Operand} {ms : List Meaning}

/-- The chain that a query operator ends has a source of the type of its signature. -/
theorem sortChain_fits (hsignature : verb.Signature operands t)
    (hms : List.Forall₂ (Fits c counted types) ms operands) {rest : List Meaning} {ch : SortChain}
    (hch : sortChain verb (ms ++ rest) = .ok ch) (hvalues : ScopeConforms c counted values types)
    {v : Value} (hv : ch.source values = .ok v) : v.ConformsWith c counted t := by
  obtain ⟨isFirst, direction, hverb⟩ := exists_sortVerb hch
  cases hsignature with
  | sort _ _ _ helement =>
    subst hverb
    obtain _ | ⟨hsource, _ | ⟨hkey, _⟩⟩ := hms
    exact sortChain_conforms hsource hch hvalues hv
  | _ => cases isFirst <;> cases direction <;> cases hverb

/-- A sort operator sorts the chain that it ends. -/
theorem query_sortVerb (isFirst : Bool) (direction : SortDirection) (ms : List Meaning) :
    query (Plan.sortVerb isFirst direction) ms values =
      sortChain (Plan.sortVerb isFirst direction) ms >>= fun ch => sorted ch values := by
  cases isFirst <;> cases direction <;> rfl

/-- The value of a sort has the elements of the source of its chain. -/
theorem sorted_conforms {ch : SortChain}
    (hsource : ∀ v, ch.source values = .ok v → v.ConformsWith c counted s)
    (helement : s.element? = some e) {v : Value} (hv : sorted ch values = .ok v) :
    v.ConformsWith c counted s := by
  obtain ⟨w, hw, hrest⟩ := Outcome.bind_eq_ok.mp hv
  obtain ⟨items, hitems, hsorted⟩ := Outcome.bind_eq_ok.mp hrest
  obtain ⟨vs, hvs, hdone⟩ := Outcome.bind_eq_ok.mp hsorted
  cases hdone
  have hconforms := (hsource w hw).elements helement hitems
  exact Value.conforms_list helement fun x hx =>
    hconforms x ((Sequence.sort_perm hvs).mem_iff.mp hx)

/-- The groups of conforming elements by conforming keys conform to the type of groups. -/
theorem groupBy_conforms {key : Selector} {image : Option Selector} {items vs : List Value}
    {k : Ty} (hkey : ∀ v ∈ items, ∀ w, key v = .ok w → w.ConformsWith c counted k)
    (himage : ∀ v ∈ items, ∀ w, image.getD .ok v = .ok w → w.ConformsWith c counted e)
    (h : Sequence.groupBy key image items = .ok vs) :
    (Value.list vs).ConformsWith c counted (.seq (.group k e)) := by
  obtain ⟨groups, hgroups, rfl⟩ := Sequence.groupBy_eq_ok hkey himage h
  refine .seq (List.forall_mem_map.mpr fun g hg => ?_)
  obtain ⟨hk, he⟩ := hgroups g hg
  exact .group rfl hk rfl (.seq he) fun _ => nofun

/-- The value of a query operator conforms to the type of its signature. -/
theorem query_conforms (hsignature : verb.Signature operands t)
    (hms : List.Forall₂ (Fits c counted types) ms operands) {rest : List Meaning}
    (hcount : operands.length = verb.operandCount (operands.length + rest.length))
    (hvalues : ScopeConforms c counted values types) {v : Value}
    (hv : query verb (ms ++ rest) values = .ok v) : v.ConformsWith c counted t := by
  cases hsignature with
  | filter helement htest =>
    obtain _ | ⟨hsource, _ | ⟨hpredicate, _ | _⟩⟩ := hms
    obtain ⟨items, hitems, hkeep⟩ := Outcome.bind_eq_ok.mp hv
    obtain ⟨kept, hkept, hdone⟩ := Outcome.bind_eq_ok.mp hkeep
    cases hdone
    have hconforms := hsource.elements helement hvalues hitems
    exact Value.conforms_list helement fun x hx =>
      hconforms x ((Sequence.keep_sublist hkept).subset hx)
  | select helement =>
    obtain _ | ⟨hsource, _ | ⟨hselector, _ | _⟩⟩ := hms
    obtain ⟨items, hitems, hselect⟩ := Outcome.bind_eq_ok.mp hv
    obtain ⟨m, hm, hmap⟩ := Outcome.bind_eq_ok.mp hselect
    cases hm
    obtain ⟨images, himages, hdone⟩ := Outcome.bind_eq_ok.mp hmap
    cases hdone
    have hconforms := hsource.elements helement hvalues hitems
    obtain ⟨pairs, rfl, rfl, hpairs⟩ := Outcome.mapM_eq_ok_iff_pairs.mp himages
    refine .seq (List.forall_mem_map.mpr fun z hz => ?_)
    exact hselector.image hvalues (hconforms z.1 (List.mem_map_of_mem hz)) (hpairs z hz)
  | selectMany helement himage =>
    obtain _ | ⟨hsource, _ | ⟨hselector, _ | _⟩⟩ := hms
    obtain ⟨items, hitems, hmap⟩ := Outcome.bind_eq_ok.mp hv
    obtain ⟨images, himages, hdone⟩ := Outcome.bind_eq_ok.mp hmap
    cases hdone
    have hconforms := hsource.elements helement hvalues hitems
    refine .seq (Sequence.flatMap_forall (fun x hx w hw ws hws => ?_) himages)
    exact (hselector.image hvalues (hconforms x hx) hw).elements himage hws
  | sort isFirst direction hverb helement =>
    subst hverb
    obtain _ | ⟨hsource, _ | ⟨hkey, _ | _⟩⟩ := hms
    rw [query_sortVerb] at hv
    obtain ⟨ch, hch, hresult⟩ := Outcome.bind_eq_ok.mp hv
    exact sorted_conforms (fun w hw => sortChain_conforms hsource hch hvalues hw) helement hresult
  | skip helement =>
    obtain _ | ⟨hsource, _ | _⟩ := hms
    obtain ⟨items, hitems, hrest⟩ := Outcome.bind_eq_ok.mp hv
    obtain ⟨m, -, hcounted⟩ := Outcome.bind_eq_ok.mp hrest
    obtain ⟨w, -, hcount⟩ := Outcome.bind_eq_ok.mp hcounted
    obtain ⟨n, -, hdone⟩ := Outcome.bind_eq_ok.mp hcount
    cases hdone
    have hconforms := hsource.elements helement hvalues hitems
    exact Value.conforms_list helement fun x hx => hconforms x (List.mem_of_mem_drop hx)
  | take helement =>
    obtain _ | ⟨hsource, _ | _⟩ := hms
    obtain ⟨items, hitems, hrest⟩ := Outcome.bind_eq_ok.mp hv
    obtain ⟨m, -, hcounted⟩ := Outcome.bind_eq_ok.mp hrest
    obtain ⟨w, -, hcount⟩ := Outcome.bind_eq_ok.mp hcounted
    obtain ⟨n, -, hdone⟩ := Outcome.bind_eq_ok.mp hcount
    cases hdone
    have hconforms := hsource.elements helement hvalues hitems
    exact Value.conforms_list helement fun x hx => hconforms x (List.mem_of_mem_take hx)
  | groupBy helement =>
    obtain _ | ⟨hsource, _ | ⟨hkey, _ | _⟩⟩ := hms
    cases rest with
    | cons m rest =>
      simp only [List.length_cons, List.length_nil, QueryVerb.operandCount] at hcount
      omega
    | nil =>
      obtain ⟨items, hitems, hkeyed⟩ := Outcome.bind_eq_ok.mp hv
      obtain ⟨m, hm, hgroup⟩ := Outcome.bind_eq_ok.mp hkeyed
      cases hm
      obtain ⟨groups, hgroups, hdone⟩ := Outcome.bind_eq_ok.mp hgroup
      cases hdone
      have hconforms := hsource.elements helement hvalues hitems
      refine groupBy_conforms (fun x hx w hw => hkey.image hvalues (hconforms x hx) hw) ?_ hgroups
      intro x hx w hw
      cases hw
      exact hconforms x hx
  | groupByElement helement =>
    obtain _ | ⟨hsource, _ | ⟨hkey, _ | ⟨himage, _ | _⟩⟩⟩ := hms
    obtain ⟨items, hitems, hkeyed⟩ := Outcome.bind_eq_ok.mp hv
    obtain ⟨m, hm, hgroup⟩ := Outcome.bind_eq_ok.mp hkeyed
    cases hm
    obtain ⟨groups, hgroups, hdone⟩ := Outcome.bind_eq_ok.mp hgroup
    cases hdone
    have hconforms := hsource.elements helement hvalues hitems
    refine groupBy_conforms (fun x hx w hw => hkey.image hvalues (hconforms x hx) hw) ?_ hgroups
    exact fun x hx w hw => himage.image hvalues (hconforms x hx) hw
  | join helement hinner =>
    obtain _ | ⟨hsource, _ | ⟨hother, _ | ⟨hkey, _ | ⟨hkey', _ | ⟨hresult, _ | _⟩⟩⟩⟩⟩ := hms
    obtain ⟨outer, houter, hrest⟩ := Outcome.bind_eq_ok.mp hv
    obtain ⟨inner, hinners, hjoin⟩ := Outcome.bind_eq_ok.mp hrest
    obtain ⟨results, hresults, hdone⟩ := Outcome.bind_eq_ok.mp hjoin
    cases hdone
    have hconforms := hsource.elements helement hvalues houter
    have hconforms' := hother.elements hinner hvalues hinners
    refine .seq (Sequence.join_forall (fun o ho i hi w hw => ?_) hresults)
    exact hresult.imagePair hvalues (hconforms o ho) (hconforms' i hi) hw
  | «include» helement | thenInclude helement =>
    obtain _ | ⟨hsource, _ | _⟩ := hms
    exact hsource.value values hvalues v hv
  | aggregate helement hfunc hall =>
    obtain _ | ⟨hsource, _ | _⟩ := hms
    obtain ⟨items, hitems, hvalue⟩ := Outcome.bind_eq_ok.mp hv
    exact Sequence.aggregate_conforms_predicateResult hfunc
      (hsource.elements helement hvalues hitems) hvalue
  | aggregatePredicate helement hfunc htest =>
    obtain _ | ⟨hsource, _ | ⟨hpredicate, _ | _⟩⟩ := hms
    obtain ⟨items, hitems, hvalue⟩ := Outcome.bind_eq_ok.mp hv
    exact Sequence.aggregate_conforms_predicateResult hfunc
      (hsource.elements helement hvalues hitems) hvalue
  | aggregateElements helement hfunc ht =>
    obtain _ | ⟨hsource, _ | _⟩ := hms
    cases rest with
    | cons m rest =>
      simp only [List.length_cons, List.length_nil, QueryVerb.operandCount] at hcount
      omega
    | nil =>
      obtain ⟨items, hitems, hvalue⟩ := Outcome.bind_eq_ok.mp hv
      refine Sequence.aggregate_conforms_selectorResult ht ?_ hvalue
      intro x hx w hw
      cases hw
      exact hsource.elements helement hvalues hitems x hx
  | aggregateSelector helement hfunc ht =>
    obtain _ | ⟨hsource, _ | ⟨hselector, _ | _⟩⟩ := hms
    obtain ⟨items, hitems, hvalue⟩ := Outcome.bind_eq_ok.mp hv
    have hconforms := hsource.elements helement hvalues hitems
    refine Sequence.aggregate_conforms_selectorResult ht ?_ hvalue
    exact fun x hx w hw => hselector.image hvalues (hconforms x hx) hw

end Meaning

end QueryRelay
