import QueryRelay.Plan.Binding
import QueryRelay.Proofs.Outcome
import QueryRelay.Proofs.Plan.Shapes

/-!
# What binding asks of a plan

Plans come from outside, and binding one to a catalog is what validates it. It looks at every node:
binding succeeds exactly on the well-shaped plans whose descriptors stand for types of the catalog
and whose calls name functions of it. The one descriptor that it does not look at is the type of a
lambda.
-/

namespace QueryRelay

open Outcome (exists_bind_eq_ok exists_pure_eq_ok)

variable {c : Catalog}

attribute [local simp] Plan.toExpr Plan.toQuery Plan.toExprs Plan.toBindings Plan.toSortKeys
  Plan.parameterTypes

/-- A descriptor stands for a type. -/
def Catalog.Resolves (c : Catalog) (d : Descriptor) : Prop := ∃ t, c.resolve d = .ok t

namespace Plan

/-- The descriptors that a node carries, save the type of a lambda. -/
@[simp] def descriptors : Plan → List Descriptor
  | .constant _ t | .unary _ _ t | .binary _ _ _ t | .conditional _ _ _ t => [t]
  | .object _ _ t | .array _ t | .list _ t | .construct _ t => [t]
  | .member _ declaring _ t | .call declaring _ _ t => [declaring, t]
  | .lambda params _ _ => params.map Parameter.type
  | .parameter p => [p.type]
  | .sortKey _ _ => []
  | .query (.source element) t => [t, element]
  | .query _ t => [t]

/-- What the kind of a node asks of the catalog: a call names a function of the type that declares
it; the type of an array or a list is that of a collection. -/
@[simp] def SuitsAt (c : Catalog) : Plan → Prop
  | .call declaring name _ _ =>
    ∃ owner f, c.resolve declaring = .ok owner ∧ c.function? owner name = some f
  | .array _ t | .list _ t => ∃ type element, c.resolve t = .ok type ∧ type.element? = some element
  | _ => True

/-- A plan that a catalog has the types and the functions for. -/
structure KnownTo (c : Catalog) (p : Plan) : Prop where
  /-- The descriptors stand for types. -/
  types : ∀ q ∈ p.nodes, ∀ d ∈ q.descriptors, c.Resolves d
  /-- Functions are found, and items are those of a collection. -/
  nodes : ∀ q ∈ p.nodes, q.SuitsAt c

/-- Binding succeeds. -/
def Binds (c : Catalog) (p : Plan) : Prop := ∃ e, p.toExpr c = .ok e

/-- Binding succeeds on what a sort key sorts by. -/
def BindsAsKey (c : Catalog) : Plan → Prop
  | .sortKey key _ => Binds c key
  | _ => False

/-! ## One node -/

/-- Parameters are bound when their types are resolved. -/
theorem exists_parameterTypes {params : List Parameter} :
    (∃ ps, parameterTypes c params = .ok ps) ↔ ∀ p ∈ params, c.Resolves p.type := by
  induction params with
  | nil => simp
  | cons p rest ih =>
    simp only [parameterTypes, exists_bind_eq_ok, exists_pure_eq_ok, and_true, exists_and_right, ih,
      List.forall_mem_cons, Catalog.Resolves]

/-- Plans are bound together when each of them is. -/
theorem exists_toExprs {ps : List Plan} :
    (∃ es, toExprs c ps = .ok es) ↔ ∀ p ∈ ps, Binds c p := by
  induction ps with
  | nil => simp
  | cons p rest ih =>
    simp only [toExprs, exists_bind_eq_ok, exists_pure_eq_ok, and_true, exists_and_right, ih,
      List.forall_mem_cons, Binds]

/-- Named plans are bound together when each of them is. -/
theorem exists_toBindings {bs : List (String × Plan)} :
    (∃ es, toBindings c bs = .ok es) ↔ ∀ p ∈ bs.map Prod.snd, Binds c p := by
  induction bs with
  | nil => simp
  | cons b rest ih =>
    obtain ⟨name, p⟩ := b
    simp only [toBindings, exists_bind_eq_ok, exists_pure_eq_ok, and_true, exists_and_right, ih,
      List.map_cons, List.forall_mem_cons, Binds]

/-- Keys are bound together when each is a sort key and what it sorts by is bound. -/
theorem exists_toSortKeys {keys : List Plan} :
    (∃ ks, toSortKeys c keys = .ok ks) ↔ ∀ q ∈ keys, BindsAsKey c q := by
  induction keys with
  | nil => simp
  | cons q rest ih =>
    cases q with
    | sortKey key d =>
      simp only [toSortKeys, exists_bind_eq_ok, exists_pure_eq_ok, and_true, exists_and_right, ih,
        List.forall_mem_cons, BindsAsKey, Binds]
    | _ => simp [BindsAsKey]

/-- A count is bound when it is an integer. -/
theorem exists_countLiteral {n : UInt64} :
    (∃ e, countLiteral n = .ok e) ↔ (n.toNat : Int) ≤ Int64.maxValue.toInt := by
  have hmax : Int64.maxValue.toInt = 9223372036854775807 := rfl
  rw [hmax, countLiteral]
  split
  · next hlt => exact ⟨fun _ => by omega, fun _ => ⟨_, rfl⟩⟩
  · next hge =>
    constructor
    · rintro ⟨_, h⟩
      cases h
    · intro h
      omega

/-- The items of a collection have a type when the collection has one of that kind. -/
theorem exists_elementType {t : Descriptor} : (∃ element, elementType c t = .ok element) ↔
    ∃ type element, c.resolve t = .ok type ∧ type.element? = some element := by
  rw [elementType, exists_bind_eq_ok]
  refine exists_congr fun type => ?_
  cases type.element? with
  | none => simp
  | some element => simp [exists_pure_eq_ok]

/-- A sort key is bound to nothing. -/
theorem Binds.isSortKey {p : Plan} (h : Binds c p) : p.isSortKey = false := by
  obtain ⟨e, h⟩ := h
  cases p with
  | sortKey => cases h
  | _ => rfl

/-- Only a sort key is bound as one. -/
theorem BindsAsKey.isSortKey {p : Plan} (h : BindsAsKey c p) : p.isSortKey = true := by
  cases p with
  | sortKey => rfl
  | _ => cases h

/-- Binding asks of a sort that it has keys, and that they and what is sorted are bound. -/
theorem exists_toQuery_sort {s : Plan} {keys : List Plan} :
    (∃ e, toQuery c (.sort s keys) = .ok e) ↔
      keys ≠ [] ∧ Binds c s ∧ ∀ q ∈ keys, BindsAsKey c q := by
  rw [toQuery, exists_bind_eq_ok]
  cases keys with
  | nil => simp
  | cons key rest =>
    simp only [List.isEmpty_cons, Bool.false_eq_true, if_false, exists_bind_eq_ok,
      exists_pure_eq_ok, and_true, exists_toSortKeys, exists_and_right, ne_eq, reduceCtorEq,
      not_false_eq_true, true_and, Binds]

/-- Binding asks of a stage that its descriptors stand for types, that it is in shape, and that its
operands and keys are bound. -/
theorem binds_query {op : QueryOp Plan} {t : Descriptor} :
    Binds c (.query op t) ↔ (∀ d ∈ descriptors (.query op t), c.Resolves d) ∧
      ShapedAt (.query op t) ∧ (∀ q ∈ op.operands, Binds c q) ∧
        ∀ q ∈ op.keys, BindsAsKey c q := by
  simp only [Binds, Catalog.Resolves, toExpr, exists_bind_eq_ok, exists_and_right]
  cases op with
  | source | filter | project | join | «include» =>
    simp only [toQuery, exists_bind_eq_ok, exists_pure_eq_ok, exists_and_right, and_true]
    simp [QueryOp.children]
  | skip s n | take s n =>
    simp only [toQuery, exists_bind_eq_ok, exists_pure_eq_ok, exists_and_right, and_true,
      exists_countLiteral]
    simp [QueryOp.children, and_comm]
  | groupBy s k element =>
    cases element <;>
      simp only [toQuery, exists_bind_eq_ok, exists_pure_eq_ok, exists_and_right, and_true] <;>
      simp [QueryOp.children]
  | aggregate s func argument =>
    cases argument <;>
      simp only [toQuery, exists_bind_eq_ok, exists_pure_eq_ok, exists_and_right, and_true] <;>
      simp [QueryOp.children, and_comm]
  | sort s keys =>
    rw [exists_toQuery_sort]
    constructor
    · rintro ⟨htype, hne, hs, hkeys⟩
      exact ⟨List.forall_mem_singleton.mpr htype, ⟨hne, fun q hq => (hkeys q hq).isSortKey⟩,
        List.forall_mem_singleton.mpr hs, hkeys⟩
    · rintro ⟨htype, ⟨hne, -⟩, hs, hkeys⟩
      exact ⟨htype t (List.mem_singleton_self t), hne, hs s (List.mem_singleton_self s), hkeys⟩

/-- Binding asks of a call that the descriptor of its value and that of the declaring type stand for
types, that the latter has the function, and that the arguments are bound. -/
theorem binds_call {declaring : Descriptor} {name : String} {args : List Plan} {t : Descriptor} :
    Binds c (.call declaring name args t) ↔ c.Resolves t ∧
      (∃ owner f, c.resolve declaring = .ok owner ∧ c.function? owner name = some f) ∧
        ∀ q ∈ args, Binds c q := by
  simp only [Binds, toExpr, exists_bind_eq_ok]
  constructor
  · rintro ⟨owner, howner, type, htype, e, h⟩
    split at h
    · next f hf =>
      obtain ⟨es, hes, -⟩ := Outcome.bind_eq_ok.mp h
      exact ⟨⟨type, htype⟩, ⟨owner, f, howner, hf⟩, exists_toExprs.mp ⟨es, hes⟩⟩
    · cases h
  · rintro ⟨⟨type, htype⟩, ⟨owner, f, howner, hf⟩, hargs⟩
    obtain ⟨es, hes⟩ := exists_toExprs.mpr hargs
    refine ⟨owner, howner, type, htype, .call f es, ?_⟩
    rw [hf, hes]
    rfl

/-- Binding asks of an anonymous object that the descriptor stands for a type, that there is a value
for each name, and that the values are bound. -/
theorem binds_object {members : List String} {args : List Plan} {t : Descriptor} :
    Binds c (.object members args t) ↔
      c.Resolves t ∧ members.length = args.length ∧ ∀ q ∈ args, Binds c q := by
  simp only [Binds, toExpr, exists_bind_eq_ok, exists_and_right]
  refine and_congr_right fun _ => ?_
  split
  · next hlength =>
    simp only [exists_bind_eq_ok, exists_pure_eq_ok, and_true, exists_toExprs, hlength, true_and,
      Binds]
  · next hlength => simp [hlength]

/-- Binding asks of a node that it is no sort key, that its descriptors stand for types, that it is
in shape and suits the catalog, and that its operands and keys are bound. -/
theorem binds_iff {p : Plan} : Binds c p ↔ p.isSortKey = false ∧
    (∀ d ∈ p.descriptors, c.Resolves d) ∧ p.ShapedAt ∧ p.SuitsAt c ∧
      (∀ q ∈ p.operands, Binds c q) ∧ ∀ q ∈ p.sortKeys, BindsAsKey c q := by
  cases p with
  | constant | member | unary | binary | conditional | parameter =>
    simp only [Binds, Catalog.Resolves, toExpr, exists_bind_eq_ok, exists_pure_eq_ok,
      exists_and_right, and_true]
    simp [children, and_assoc]
  | lambda params body t =>
    simp only [Binds, toExpr, exists_bind_eq_ok, exists_pure_eq_ok, exists_and_right, and_true,
      exists_parameterTypes]
    simp [children]
  | construct bindings t =>
    simp only [Binds, Catalog.Resolves, toExpr, exists_bind_eq_ok, exists_pure_eq_ok,
      exists_and_right, and_true, exists_toBindings]
    simp [children]
  | call declaring name args t =>
    rw [binds_call]
    constructor
    · rintro ⟨ht, ⟨owner, f, howner, hf⟩, hargs⟩
      have hdeclaring : c.Resolves declaring := ⟨owner, howner⟩
      exact ⟨rfl, by simp [ht, hdeclaring], trivial, ⟨owner, f, howner, hf⟩, hargs, by simp⟩
    · rintro ⟨-, htypes, -, hf, hargs, -⟩
      exact ⟨htypes t (by simp), hf, hargs⟩
  | object members args t =>
    rw [binds_object]
    simp [children]
  | array items t | list items t =>
    simp only [Binds, toExpr, exists_bind_eq_ok, exists_pure_eq_ok, exists_and_right, and_true,
      exists_toExprs, exists_elementType]
    constructor
    · rintro ⟨⟨type, element, htype, helement⟩, hitems⟩
      have ht : c.Resolves t := ⟨type, htype⟩
      exact ⟨rfl, by simp [ht], trivial, ⟨type, element, htype, helement⟩, hitems, by simp⟩
    · rintro ⟨-, -, -, helement, hitems, -⟩
      exact ⟨helement, hitems⟩
  | sortKey key d => simp [Binds]
  | query op t =>
    rw [binds_query]
    simp

/-! ## The whole plan -/

/-- What binding asks of a node, apart from its sub-plans. -/
def AcceptedAt (c : Catalog) (p : Plan) : Prop :=
  (∀ q ∈ p.operands, q.isSortKey = false) ∧ p.ShapedAt ∧ (∀ d ∈ p.descriptors, c.Resolves d) ∧
    p.SuitsAt c

/-- A plan is bound, as it stands or as a key, exactly if its node is accepted and its direct
sub-plans are bound. -/
theorem binds_or_bindsAsKey_iff_children {p : Plan} : Binds c p ∨ BindsAsKey c p ↔
    p.AcceptedAt c ∧ ∀ q ∈ p.children, Binds c q ∨ BindsAsKey c q := by
  constructor
  · rintro (h | h)
    · obtain ⟨-, htypes, hshape, hsuits, hoperands, hkeys⟩ := binds_iff.mp h
      refine ⟨⟨fun q hq => (hoperands q hq).isSortKey, hshape, htypes, hsuits⟩, fun q hq => ?_⟩
      exact (mem_children.mp hq).imp (hoperands q) (hkeys q)
    · cases p with
      | sortKey key d =>
        refine ⟨⟨?_, trivial, List.forall_mem_nil _, trivial⟩, ?_⟩
        · exact List.forall_mem_singleton.mpr (Binds.isSortKey h)
        · exact List.forall_mem_singleton.mpr (.inl h)
      | _ => cases h
  · rintro ⟨⟨hunsorted, hshape, htypes, hsuits⟩, hchildren⟩
    -- Where no sort key may stand, what is bound is not bound as a key, and conversely.
    have hoperands : ∀ q ∈ p.operands, Binds c q := fun q hq =>
      (hchildren q (mem_children.mpr (.inl hq))).resolve_right fun h =>
        Bool.false_ne_true ((hunsorted q hq).symm.trans h.isSortKey)
    have hkeys : ∀ q ∈ p.sortKeys, BindsAsKey c q := fun q hq =>
      (hchildren q (mem_children.mpr (.inr hq))).resolve_left fun h =>
        Bool.false_ne_true (h.isSortKey.symm.trans (hshape.isSortKey hq))
    cases hroot : p.isSortKey with
    | false => exact .inl (binds_iff.mpr ⟨hroot, htypes, hshape, hsuits, hoperands, hkeys⟩)
    | true =>
      cases p with
      | sortKey key d => exact .inr (hoperands key (List.mem_singleton_self key))
      | _ => cases hroot

/-- A plan is bound, as it stands or as a key, exactly if all its nodes are accepted. -/
theorem binds_or_bindsAsKey_iff {p : Plan} :
    Binds c p ∨ BindsAsKey c p ↔ ∀ q ∈ p.nodes, q.AcceptedAt c := by
  induction p using Plan.induct with
  | node p ih =>
    rw [binds_or_bindsAsKey_iff_children, forall_mem_nodes]
    exact and_congr_right fun _ => forall₂_congr ih

/-- Main statement: binding succeeds exactly on the well-shaped plans that the catalog has the types
and the functions for. -/
theorem exists_toExpr_iff (c : Catalog) (p : Plan) :
    (∃ e, p.toExpr c = .ok e) ↔ p.WellShaped ∧ p.KnownTo c := by
  constructor
  · intro h
    have hnodes := binds_or_bindsAsKey_iff.mp (.inl h)
    refine ⟨⟨Binds.isSortKey h, fun q hq => ?_, fun q hq => ?_⟩, fun q hq => ?_, fun q hq => ?_⟩
    · exact (hnodes q hq).1
    · exact (hnodes q hq).2.1
    · exact (hnodes q hq).2.2.1
    · exact (hnodes q hq).2.2.2
  · rintro ⟨hshape, hknown⟩
    have hbinds : Binds c p ∨ BindsAsKey c p := binds_or_bindsAsKey_iff.mpr fun q hq =>
      ⟨hshape.operands q hq, hshape.nodes q hq, hknown.types q hq, hknown.nodes q hq⟩
    exact hbinds.resolve_right fun h =>
      Bool.false_ne_true (hshape.root.symm.trans h.isSortKey)

/-- A function without parameters that is said to have a type that nobody has defined. -/
def ghost : Plan :=
  .lambda [] (.constant (.int 1) (.core "Int64")) (.plain (some "no.such") "Ghost")

/-- Binding does not look at the type of a lambda: the function is bound to a catalog that lacks the
type it is said to have. -/
theorem ghost_toExpr :
    ghost.toExpr .standard = .ok (.lambda [] (.constant (.int 1) .int)) ∧
      ¬ Catalog.standard.Resolves ghost.type := by
  refine ⟨rfl, ?_⟩
  rintro ⟨t, h⟩
  cases h

end Plan
end QueryRelay
