import QueryRelay.Proofs.Expr.Nodes
import QueryRelay.Proofs.Expr.Rewriting
import QueryRelay.Proofs.Pointwise
import QueryRelay.Proofs.Types.Hereditary

/-!
# What freezing leaves of an expression

Freezing puts constants in the place of some closed sub-expressions and keeps every other node.
Conditions on declared types that are hereditary survive it, the tables and the functions are those
of the original, and what is left is a rewriting of the original. When every closed sub-expression
may be evaluated, none is left but the constants.
-/

namespace QueryRelay.Expr

/-- Induction over expressions by their direct sub-expressions. -/
theorem induct_children {motive : Expr → Prop}
    (h : ∀ e, (∀ q ∈ e.children, motive q) → motive e) (e : Expr) : motive e := by
  induction e with
  | constant | captured | source | parameter => exact h _ (List.forall_mem_nil _)
  | member target name ih => exact h _ (List.forall_mem_singleton.mpr ih)
  | unary op operand ih => exact h _ (List.forall_mem_singleton.mpr ih)
  | binary op l r ihl ihr =>
    exact h _ (List.forall_mem_cons.mpr ⟨ihl, List.forall_mem_singleton.mpr ihr⟩)
  | conditional t p q iht ihp ihq =>
    exact h _ (List.forall_mem_cons.mpr
      ⟨iht, List.forall_mem_cons.mpr ⟨ihp, List.forall_mem_singleton.mpr ihq⟩⟩)
  | lambda params body ih => exact h _ (List.forall_mem_singleton.mpr ih)
  | query verb args ih => exact h _ ih
  | call f args ih => exact h _ ih
  | array t items ih => exact h _ ih
  | list t items ih => exact h _ ih
  | object members ih => exact h _ (List.forall_mem_map.mpr ih)
  | construct t bindings ih => exact h _ (List.forall_mem_map.mpr ih)

/-! ## The root of an expression -/

/-- The types that the root of an expression declares. -/
def declaredTypes : Expr → List Ty
  | .constant _ t | .captured _ t _ | .source t | .parameter _ t => [t]
  | .lambda params _ => params.map Prod.snd
  | .call f _ => [f.declaring, f.returns]
  | .array t _ | .list t _ | .construct t _ => [t]
  | .member _ _ | .unary _ _ | .binary _ _ _ | .conditional _ _ _ | .query _ _ | .object _ => []

/-- A condition on all types that an expression declares. -/
def Declares (P : Ty → Prop) (e : Expr) : Prop := e.Every fun p => ∀ t ∈ p.declaredTypes, P t

/-- The function that the root of an expression calls. -/
def function? : Expr → Option Function
  | .call f _ => some f
  | _ => none

/-- Whether an expression is closed when its direct sub-expressions are. -/
def isClosedRoot : Expr → Bool
  | .source _ | .parameter _ _ | .lambda _ _ | .query _ _ => false
  | .call f _ => f.body.isSome
  | _ => true

/-- An expression is closed by its root and its direct sub-expressions. -/
theorem isClosed_iff {e : Expr} :
    e.isClosed = true ↔ e.isClosedRoot = true ∧ ∀ q ∈ e.children, q.isClosed = true := by
  cases e <;> simp only [isClosed, isClosedRoot, children, allClosed_iff, membersClosed_iff,
    List.forall_mem_map, List.forall_mem_cons, List.not_mem_nil, Bool.and_eq_true, and_assoc,
    false_imp_iff, implies_true, and_true, true_and, Bool.false_eq_true, false_and]

/-- What two expressions with the same root have in common. -/
structure SameRoot (e e' : Expr) : Prop where
  /-- They declare the same types. -/
  declaredTypes : e'.declaredTypes = e.declaredTypes
  /-- They call the same function. -/
  function? : e'.function? = e.function?
  /-- They are closed alike. -/
  isClosedRoot : e'.isClosedRoot = e.isClosedRoot
  /-- They are constants alike. -/
  isConstant : e'.isConstant = e.isConstant

/-- Expressions with the same node have the same root. -/
theorem SameNode.sameRoot {e e' : Expr} (h : SameNode e e') : SameRoot e e' := by
  cases h <;> exact ⟨rfl, rfl, rfl, rfl⟩

/-! ## Freezing step by step -/

/-- Replacing in several expressions is replacing in each. -/
theorem replaceAllM_eq_mapM (pick : Expr → Option (Except Error Expr)) (es : List Expr) :
    replaceAllM pick es = es.mapM (replaceM pick) := by
  induction es with
  | nil => rfl
  | cons e rest ih => rw [replaceAllM, ih, List.mapM_cons]

/-- Replacing in named expressions is replacing in each. -/
theorem replaceMembersM_eq_mapM (pick : Expr → Option (Except Error Expr))
    (bs : List (String × Expr)) :
    replaceMembersM pick bs = bs.mapM fun b => return (b.1, ← replaceM pick b.2) := by
  induction bs with
  | nil => rfl
  | cons b rest ih =>
    obtain ⟨name, e⟩ := b
    rw [replaceMembersM, ih, List.mapM_cons]
    cases replaceM pick e <;> rfl

/-- Where no action is picked for the root it is rebuilt. -/
theorem replaceM_of_none {pick : Expr → Option (Except Error Expr)} {e : Expr}
    (h : pick e = none) : replaceM pick e = e.mapChildrenM (replaceM pick) := by
  cases e <;> rw [replaceM, h] <;>
    simp only [mapChildrenM, replaceAllM_eq_mapM, replaceMembersM_eq_mapM]

/-- Where an action is picked for the root its result is the outcome. -/
theorem replaceM_of_some {pick : Expr → Option (Except Error Expr)} {e : Expr}
    {action : Except Error Expr} (h : pick e = some action) : replaceM pick e = action := by
  cases e <;> rw [replaceM, h]

/-- Freezing evaluates an expression as a whole, or freezes its direct sub-expressions. -/
theorem freeze_eq_ok_cases {c : Catalog} {admits : LocalTest} {e e' : Expr}
    (h : e.freeze c admits = .ok e') :
    e.isClosed = true ∧ e.toConstant c = .ok e' ∨
      isFreezable admits e = false ∧ e.mapChildrenM (freeze c admits) = .ok e' := by
  rw [freeze] at h
  cases hpick : isFreezable admits e with
  | true =>
    left
    rw [replaceM_of_some (if_pos hpick)] at h
    rw [isFreezable, Bool.and_eq_true, Bool.and_eq_true] at hpick
    exact ⟨hpick.1.2, h⟩
  | false =>
    right
    rw [replaceM_of_none (if_neg (by rw [hpick]; exact Bool.false_ne_true))] at h
    exact ⟨rfl, h⟩

/-- An expression that is not evaluated as a whole is rebuilt from frozen sub-expressions. -/
theorem freeze_eq_mapChildrenM {admits : LocalTest} {e : Expr} (h : isFreezable admits e = false)
    (c : Catalog) : e.freeze c admits = e.mapChildrenM (freeze c admits) := by
  rw [freeze, replaceM_of_none (if_neg (by rw [h]; exact Bool.false_ne_true))]
  rfl

/-- A closed expression that is evaluated turns into its value, of its static type. -/
theorem toConstant_eq_ok {c : Catalog} {e e' : Expr} :
    e.toConstant c = .ok e' ↔ ∃ t v, e.staticType c = .ok t ∧
      e.evaluate Store.empty.elements = .ok v ∧ e' = .constant v t := by
  rw [toConstant, Outcome.bind_eq_ok]
  constructor
  · rintro ⟨t, ht, h⟩
    obtain ⟨v, hv, h⟩ := Outcome.bind_eq_ok.mp h
    cases h
    exact ⟨t, v, ht, hv, rfl⟩
  · rintro ⟨t, v, ht, hv, rfl⟩
    exact ⟨t, ht, Outcome.bind_eq_ok.mpr ⟨v, hv, rfl⟩⟩

/-- A condition on every node survives freezing when it depends on the root alone and holds of the
constants that closed expressions turn into. -/
theorem every_of_freeze {P : Expr → Prop} {c : Catalog} {admits : LocalTest}
    (hroot : ∀ p p', SameNode p p' → P p → P p')
    (hconstant : ∀ (p : Expr) (t : Ty) (v : Value), p.Every P → p.staticType c = .ok t →
      P (.constant v t)) {e e' : Expr} (he : e.Every P) (h : e.freeze c admits = .ok e') :
    e'.Every P := by
  induction e using induct_children generalizing e' with
  | h e ih =>
    rcases freeze_eq_ok_cases h with ⟨-, h⟩ | ⟨-, h⟩
    · obtain ⟨t, v, ht, -, rfl⟩ := toConstant_eq_ok.mp h
      exact every_iff.mpr ⟨hconstant e t v he ht, List.forall_mem_nil _⟩
    · obtain ⟨hsame, hchildren⟩ := mapChildrenM_eq_ok.mp h
      obtain ⟨hpe, hqs⟩ := every_iff.mp he
      refine every_iff.mpr ⟨hroot e e' hsame hpe, fun q' hq' => ?_⟩
      obtain ⟨q, hq, hfreeze⟩ := exists_of_forall₂_of_mem hchildren hq'
      exact ih q hq (hqs q hq) hfreeze

/-- Named expressions have their static types one by one. -/
theorem memberTypes_eq_mapM (c : Catalog) (bs : List (String × Expr)) :
    memberTypes c bs = bs.mapM fun b => return (b.1, ← b.2.staticType c) := by
  induction bs with
  | nil => rfl
  | cons b rest ih =>
    obtain ⟨name, e⟩ := b
    rw [memberTypes, ih, List.mapM_cons]
    cases staticType c e <;> rfl

/-- A hereditary condition on declared types passes to the static type. -/
theorem staticType_of_declares {P : Ty → Prop} (hP : Ty.Hereditary P) {c : Catalog}
    (hfields : ∀ r ∈ c.records, ∀ field ∈ r.fields, P field.2) {e : Expr} {t : Ty}
    (he : e.Declares P) (h : e.staticType c = .ok t) : P t := by
  induction e generalizing t with
  | constant v u =>
    cases h
    exact (every_iff.mp he).1 _ (List.mem_singleton_self _)
  | captured name u v =>
    cases h
    exact (every_iff.mp he).1 _ (List.mem_singleton_self _)
  | source u =>
    cases h
    exact hP.seq.mpr ((every_iff.mp he).1 _ (List.mem_singleton_self _))
  | parameter name u =>
    cases h
    exact (every_iff.mp he).1 _ (List.mem_singleton_self _)
  | member target name ih =>
    obtain ⟨s, hs, h⟩ := Outcome.bind_eq_ok.mp h
    exact hP.typeOfMember hfields (ih ((every_iff.mp he).2 _ (List.mem_singleton_self _)) hs) h
  | unary op operand ih =>
    obtain ⟨s, hs, h⟩ := Outcome.bind_eq_ok.mp h
    exact hP.unary (ih ((every_iff.mp he).2 _ (List.mem_singleton_self _)) hs) h
  | binary op l r ihl ihr =>
    obtain ⟨s, hs, h⟩ := Outcome.bind_eq_ok.mp h
    obtain ⟨u, hu, h⟩ := Outcome.bind_eq_ok.mp h
    have hparts := (every_iff.mp he).2
    exact hP.binary (ihl (hparts l (by simp [children])) hs)
      (ihr (hparts r (by simp [children])) hu) h
  | conditional test l r _ ihl ihr =>
    obtain ⟨s, hs, h⟩ := Outcome.bind_eq_ok.mp h
    obtain ⟨u, hu, h⟩ := Outcome.bind_eq_ok.mp h
    have hparts := (every_iff.mp he).2
    exact hP.unify (ihl (hparts l (by simp [children])) hs)
      (ihr (hparts r (by simp [children])) hu) h
  | lambda params body _ =>
    cases h
    exact hP.dynamic
  | query verb args _ =>
    cases h
    exact hP.dynamic
  | call f args _ =>
    cases h
    exact (every_iff.mp he).1 _ (List.mem_cons_of_mem _ (List.mem_singleton_self _))
  | object members ih =>
    obtain ⟨ms, hms, rfl⟩ := Outcome.map_eq_ok.mp h
    rw [memberTypes_eq_mapM, Outcome.mapM_named_eq_ok_iff] at hms
    obtain ⟨zs, rfl, rfl, hzs⟩ := hms
    have hparts := (every_iff.mp he).2
    refine hP.anonymous.mpr (List.forall_mem_map.mpr fun z hz => ?_)
    refine ih (z.1, z.2.1) (List.mem_map_of_mem hz) (hparts _ ?_) (hzs z hz)
    rw [children, List.map_map]
    exact List.mem_map_of_mem hz
  | array u items _ =>
    cases h
    exact hP.seq.mpr ((every_iff.mp he).1 _ (List.mem_singleton_self _))
  | list u items _ =>
    cases h
    exact hP.seq.mpr ((every_iff.mp he).1 _ (List.mem_singleton_self _))
  | construct u bindings _ =>
    cases h
    exact (every_iff.mp he).1 _ (List.mem_singleton_self _)

/-- A hereditary condition on declared types survives freezing. -/
theorem declares_of_freeze {P : Ty → Prop} (hP : Ty.Hereditary P) {c : Catalog}
    (hfields : ∀ r ∈ c.records, ∀ field ∈ r.fields, P field.2) {admits : LocalTest} {e e' : Expr}
    (he : e.Declares P) (h : e.freeze c admits = .ok e') : e'.Declares P := by
  refine every_of_freeze (fun p p' hsame hp => ?_) (fun p t v hp ht => ?_) he h
  · rw [hsame.sameRoot.declaredTypes]
    exact hp
  · exact List.forall_mem_singleton.mpr (staticType_of_declares hP hfields hp ht)

/-- Expressions with the same node are rewritings when their direct sub-expressions are. -/
theorem SameNode.rewrites {e e' : Expr} (hnode : SameNode e e')
    (h : List.Forall₂ (Rewrites id) e.children e'.children) : Rewrites id e e' := by
  cases hnode with
  | constant v t => exact .evaluated t rfl rfl
  | captured name t v => exact .captured name t v
  | source t => exact .source t
  | parameter name t => exact .parameter name t t
  | member target target' name =>
    obtain _ | ⟨h, _⟩ := h
    exact .member name h
  | unary op operand operand' =>
    obtain _ | ⟨h, _⟩ := h
    exact .unary op h
  | binary op =>
    obtain _ | ⟨hl, _ | ⟨hr, _⟩⟩ := h
    exact .binary op hl hr
  | conditional =>
    obtain _ | ⟨ht, _ | ⟨hp, _ | ⟨hq, _⟩⟩⟩ := h
    exact .conditional ht hp hq
  | lambda params body body' =>
    obtain _ | ⟨h, _⟩ := h
    exact .lambda rfl h
  | query verb =>
    obtain ⟨pairs, rfl, rfl, hpairs⟩ := exists_pairs_of_forall₂ h
    have hquery := Rewrites.query verb pairs [] [] hpairs (.inl ⟨rfl, rfl⟩) (List.forall_mem_nil _)
    rw [List.append_nil, List.append_nil] at hquery
    exact hquery
  | call =>
    obtain ⟨pairs, rfl, rfl, hpairs⟩ := exists_pairs_of_forall₂ h
    exact .call pairs hpairs
  | array =>
    obtain ⟨pairs, rfl, rfl, hpairs⟩ := exists_pairs_of_forall₂ h
    exact .array pairs hpairs
  | list =>
    obtain ⟨pairs, rfl, rfl, hpairs⟩ := exists_pairs_of_forall₂ h
    exact .list pairs hpairs
  | object hnames =>
    obtain ⟨rows, rfl, rfl, hrows⟩ := exists_named_pairs_of_forall₂ hnames h
    exact .object rows hrows
  | construct t hnames =>
    obtain ⟨rows, rfl, rfl, hrows⟩ := exists_named_pairs_of_forall₂ hnames h
    exact .construct rows hrows

/-- Freezing rewrites an expression. -/
theorem rewrites_of_freeze {c : Catalog} {admits : LocalTest} {e e' : Expr}
    (h : e.freeze c admits = .ok e') : Rewrites id e e' := by
  induction e using induct_children generalizing e' with
  | h e ih =>
    rcases freeze_eq_ok_cases h with ⟨hclosed, h⟩ | ⟨-, h⟩
    · obtain ⟨t, v, -, hv, rfl⟩ := toConstant_eq_ok.mp h
      exact .evaluated t hclosed hv
    · obtain ⟨hnode, hchildren⟩ := mapChildrenM_eq_ok.mp h
      obtain ⟨pairs, hfst, hsnd, hpairs⟩ := exists_pairs_of_forall₂ hchildren
      rw [← hfst] at ih
      refine hnode.rewrites ?_
      rw [← hfst, ← hsnd]
      exact forall₂_map_of_forall fun z hz => ih z.1 (List.mem_map_of_mem hz) (hpairs z hz)

/-! ## Frozen expressions -/

/-- An expression whose closed sub-expressions are constants. -/
def IsFrozen (e : Expr) : Prop := e.Every fun p => p.isConstant = true ∨ p.isClosed = false

/-- Nothing is left to freeze when every closed sub-expression may be evaluated. -/
theorem isFrozen_of_freeze {c : Catalog} {e e' : Expr}
    (h : e.freeze c (fun _ => true) = .ok e') :
    e'.IsFrozen ∧ (e'.isClosed = true → e.isClosed = true) := by
  induction e using induct_children generalizing e' with
  | h e ih =>
    rcases freeze_eq_ok_cases h with ⟨hclosed, h⟩ | ⟨hpick, h⟩
    · obtain ⟨t, v, -, -, rfl⟩ := toConstant_eq_ok.mp h
      exact ⟨every_iff.mpr ⟨.inl rfl, List.forall_mem_nil _⟩, fun _ => hclosed⟩
    · obtain ⟨hnode, hchildren⟩ := mapChildrenM_eq_ok.mp h
      have hsame := hnode.sameRoot
      have hclosed : e'.isClosed = true → e.isClosed = true := by
        intro hclosed
        obtain ⟨hroot, hqs⟩ := isClosed_iff.mp hclosed
        refine isClosed_iff.mpr ⟨hsame.isClosedRoot ▸ hroot, fun q hq => ?_⟩
        have hflip : List.Forall₂ (fun q' q => q.freeze c (fun _ => true) = .ok q')
            e'.children e.children := hchildren.flip
        obtain ⟨q', hq', hfreeze⟩ := exists_of_forall₂_of_mem hflip hq
        exact (ih q hq hfreeze).2 (hqs q' hq')
      refine ⟨every_iff.mpr ⟨?_, fun q' hq' => ?_⟩, hclosed⟩
      · cases hconstant : e.isConstant with
        | true => exact .inl (hsame.isConstant ▸ hconstant)
        | false =>
          right
          rw [isFreezable, hconstant, Bool.not_false, Bool.true_and, Bool.and_true] at hpick
          rw [Bool.eq_false_iff]
          intro h'
          rw [hclosed h'] at hpick
          cases hpick
      · obtain ⟨q, hq, hfreeze⟩ := exists_of_forall₂_of_mem hchildren hq'
        exact (ih q hq hfreeze).1

/-- Freezing leaves a frozen expression as it is. -/
theorem IsFrozen.freeze_eq {e : Expr} (h : e.IsFrozen) (c : Catalog) (admits : LocalTest) :
    e.freeze c admits = .ok e := by
  induction e using induct_children with
  | h e ih =>
    obtain ⟨hroot, hqs⟩ := every_iff.mp h
    have hpick : isFreezable admits e = false := by
      rw [isFreezable]
      rcases hroot with hroot | hroot <;> rw [hroot]
      · rfl
      · rw [Bool.and_false, Bool.false_and]
    rw [freeze_eq_mapChildrenM hpick]
    exact mapChildrenM_eq_ok.mpr ⟨.refl e, List.forall₂_same.mpr fun q hq => ih q hq (hqs q hq)⟩

/-- A constant is frozen. -/
theorem isFrozen_of_isConstant {e : Expr} (h : e.isConstant = true) : e.IsFrozen := by
  cases e with
  | constant v t => exact every_iff.mpr ⟨.inl rfl, List.forall_mem_nil _⟩
  | _ => cases h

/-- An expression in the place of a frozen one that is no constant is frozen when its direct
sub-expressions are and it is closed only if the other is. -/
theorem IsFrozen.replace {e h : Expr} (he : e.IsFrozen) (hconstant : e.isConstant = false)
    (hclosed : h.isClosed = true → e.isClosed = true) (hchildren : ∀ q ∈ h.children, q.IsFrozen) :
    h.IsFrozen := by
  refine every_iff.mpr ⟨.inr ?_, hchildren⟩
  rw [Bool.eq_false_iff]
  intro hh
  rcases (every_iff.mp he).1 with h' | h'
  · rw [hconstant] at h'
    cases h'
  · rw [hclosed hh] at h'
    cases h'

/-- Rewriting keeps an expression frozen and closes nothing. -/
theorem isFrozen_of_rewrites {retype : Ty → Ty} {e h : Expr} (hr : Rewrites retype e h)
    (he : e.IsFrozen) :
    h.IsFrozen ∧ (h.isClosed = true → e.isClosed = true) := by
  induction hr with
  | evaluated t hclosed _ => exact ⟨isFrozen_of_isConstant rfl, fun _ => hclosed⟩
  | captured name t v => exact ⟨he, id⟩
  | source t =>
    have hopen : (source (retype t)).isClosed = true → (source t).isClosed = true :=
      fun h => by cases h
    exact ⟨he.replace rfl hopen (List.forall_mem_nil _), hopen⟩
  | parameter name t t' =>
    have hopen : (parameter name t').isClosed = true → (parameter name t).isClosed = true :=
      fun h => by cases h
    exact ⟨he.replace rfl hopen (List.forall_mem_nil _), hopen⟩
  | member name _ ih =>
    obtain ⟨hfrozen, hclosed⟩ := ih ((every_iff.mp he).2 _ (List.mem_singleton_self _))
    exact ⟨he.replace rfl hclosed (List.forall_mem_singleton.mpr hfrozen), hclosed⟩
  | unary op _ ih =>
    obtain ⟨hfrozen, hclosed⟩ := ih ((every_iff.mp he).2 _ (List.mem_singleton_self _))
    exact ⟨he.replace rfl hclosed (List.forall_mem_singleton.mpr hfrozen), hclosed⟩
  | @binary l l' r r' op _ _ ihl ihr =>
    obtain ⟨hl, hl'⟩ := ihl ((every_iff.mp he).2 _ (List.mem_cons_self ..))
    obtain ⟨hr, hr'⟩ := ihr ((every_iff.mp he).2 _ (List.mem_cons_of_mem _ (List.mem_cons_self ..)))
    have hclosed : (binary op l' r').isClosed = true → (binary op l r).isClosed = true := by
      rw [isClosed, isClosed, Bool.and_eq_true, Bool.and_eq_true]
      exact And.imp hl' hr'
    exact ⟨he.replace rfl hclosed (List.forall_mem_cons.mpr
      ⟨hl, List.forall_mem_singleton.mpr hr⟩), hclosed⟩
  | @conditional t t' l l' r r' _ _ _ iht ihl ihr =>
    have hparts := (every_iff.mp he).2
    obtain ⟨ht, ht'⟩ := iht (hparts _ (List.mem_cons_self ..))
    obtain ⟨hl, hl'⟩ := ihl (hparts _ (List.mem_cons_of_mem _ (List.mem_cons_self ..)))
    obtain ⟨hr, hr'⟩ := ihr (hparts _
      (List.mem_cons_of_mem _ (List.mem_cons_of_mem _ (List.mem_cons_self ..))))
    have hclosed : (conditional t' l' r').isClosed = true →
        (conditional t l r).isClosed = true := by
      rw [isClosed, isClosed, Bool.and_eq_true, Bool.and_eq_true, Bool.and_eq_true,
        Bool.and_eq_true]
      exact And.imp (And.imp ht' hl') hr'
    exact ⟨he.replace rfl hclosed (List.forall_mem_cons.mpr
      ⟨ht, List.forall_mem_cons.mpr ⟨hl, List.forall_mem_singleton.mpr hr⟩⟩), hclosed⟩
  | @lambda params params' body body' _ _ ih =>
    obtain ⟨hfrozen, -⟩ := ih ((every_iff.mp he).2 _ (List.mem_singleton_self _))
    have hopen : (lambda params' body').isClosed = true → (lambda params body).isClosed = true :=
      fun h => by cases h
    exact ⟨he.replace rfl hopen (List.forall_mem_singleton.mpr hfrozen), hopen⟩
  | @query verb pairs extra extra' _ _ hextra ih =>
    have hopen : (query verb (pairs.map Prod.snd ++ extra')).isClosed = true →
        (query verb (pairs.map Prod.fst ++ extra)).isClosed = true := fun h => by cases h
    refine ⟨he.replace rfl hopen fun q hq => ?_, hopen⟩
    rcases List.mem_append.mp hq with hq | hq
    · obtain ⟨z, hz, rfl⟩ := List.mem_map.mp hq
      exact (ih z hz ((every_iff.mp he).2 _
        (List.mem_append_left _ (List.mem_map_of_mem hz)))).1
    · exact isFrozen_of_isConstant (hextra q hq)
  | @thenInclude s s' extra old extra' _ hextra ih =>
    obtain ⟨hinclude, -⟩ := ih ((every_iff.mp he).2 _ (List.mem_cons_self ..))
    have hopen : (query .include (s' :: extra')).isClosed = true →
        (query .thenInclude (s :: extra)).isClosed = true := fun h => by cases h
    refine ⟨he.replace rfl hopen (List.forall_mem_cons.mpr ⟨?_, fun q hq => ?_⟩), hopen⟩
    · exact (every_iff.mp hinclude).2 _ (List.mem_cons_self ..)
    · exact isFrozen_of_isConstant (hextra q hq)
  | @call f pairs _ ih =>
    have hpairs : ∀ z ∈ pairs, z.2.IsFrozen ∧ (z.2.isClosed = true → z.1.isClosed = true) :=
      fun z hz => ih z hz ((every_iff.mp he).2 _ (List.mem_map_of_mem hz))
    have hclosed : (call f (pairs.map Prod.snd)).isClosed = true →
        (call f (pairs.map Prod.fst)).isClosed = true := by
      rw [isClosed_iff, isClosed_iff]
      exact And.imp id fun h => List.forall_mem_map.mpr fun z hz =>
        (hpairs z hz).2 (List.forall_mem_map.mp h z hz)
    exact ⟨he.replace rfl hclosed (List.forall_mem_map.mpr fun z hz => (hpairs z hz).1), hclosed⟩
  | @array t t' pairs _ ih =>
    have hpairs : ∀ z ∈ pairs, z.2.IsFrozen ∧ (z.2.isClosed = true → z.1.isClosed = true) :=
      fun z hz => ih z hz ((every_iff.mp he).2 _ (List.mem_map_of_mem hz))
    have hclosed : (array t' (pairs.map Prod.snd)).isClosed = true →
        (array t (pairs.map Prod.fst)).isClosed = true := by
      rw [isClosed_iff, isClosed_iff]
      exact And.imp id fun h => List.forall_mem_map.mpr fun z hz =>
        (hpairs z hz).2 (List.forall_mem_map.mp h z hz)
    exact ⟨he.replace rfl hclosed (List.forall_mem_map.mpr fun z hz => (hpairs z hz).1), hclosed⟩
  | @list t t' pairs _ ih =>
    have hpairs : ∀ z ∈ pairs, z.2.IsFrozen ∧ (z.2.isClosed = true → z.1.isClosed = true) :=
      fun z hz => ih z hz ((every_iff.mp he).2 _ (List.mem_map_of_mem hz))
    have hclosed : (list t' (pairs.map Prod.snd)).isClosed = true →
        (list t (pairs.map Prod.fst)).isClosed = true := by
      rw [isClosed_iff, isClosed_iff]
      exact And.imp id fun h => List.forall_mem_map.mpr fun z hz =>
        (hpairs z hz).2 (List.forall_mem_map.mp h z hz)
    exact ⟨he.replace rfl hclosed (List.forall_mem_map.mpr fun z hz => (hpairs z hz).1), hclosed⟩
  | @object members _ ih =>
    have hmembers : ∀ z ∈ members,
        z.2.2.IsFrozen ∧ (z.2.2.isClosed = true → z.2.1.isClosed = true) := by
      refine fun z hz => ih z hz ((every_iff.mp he).2 _ ?_)
      rw [children, List.map_map]
      exact List.mem_map_of_mem hz
    have hclosed : (object (members.map fun z => (z.1, z.2.2))).isClosed = true →
        (object (members.map fun z => (z.1, z.2.1))).isClosed = true := by
      rw [isClosed, isClosed, membersClosed_iff, membersClosed_iff]
      exact fun h => List.forall_mem_map.mpr fun z hz =>
        (hmembers z hz).2 (List.forall_mem_map.mp h z hz)
    refine ⟨he.replace rfl hclosed ?_, hclosed⟩
    rw [children, List.map_map]
    exact List.forall_mem_map.mpr fun z hz => (hmembers z hz).1
  | @construct t t' members _ ih =>
    have hmembers : ∀ z ∈ members,
        z.2.2.IsFrozen ∧ (z.2.2.isClosed = true → z.2.1.isClosed = true) := by
      refine fun z hz => ih z hz ((every_iff.mp he).2 _ ?_)
      rw [children, List.map_map]
      exact List.mem_map_of_mem hz
    have hclosed : (construct t' (members.map fun z => (z.1, z.2.2))).isClosed = true →
        (construct t (members.map fun z => (z.1, z.2.1))).isClosed = true := by
      rw [isClosed, isClosed, membersClosed_iff, membersClosed_iff]
      exact fun h => List.forall_mem_map.mpr fun z hz =>
        (hmembers z hz).2 (List.forall_mem_map.mp h z hz)
    refine ⟨he.replace rfl hclosed ?_, hclosed⟩
    rw [children, List.map_map]
    exact List.forall_mem_map.mpr fun z hz => (hmembers z hz).1

end QueryRelay.Expr
