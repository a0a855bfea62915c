import QueryRelay.Proofs.Plan.Judgment

/-!
# Drafts and the planning judgment

A draft gives a plan exactly when the rules of `Planned` derive it. The drafts of a query operator
are taken apart into operands, each with the types that its parameters are bound to.
-/

namespace QueryRelay

namespace Draft

/-- The plan of an expression in a scope whose parameters are bound to types, if to any. -/
def planIn (d : Draft) (scope : TypeScope) : List Ty → Except Error TypedPlan
  | [] => d.value scope
  | bound => d.lambda scope bound

/-- What is no lambda is planned as a value only. -/
theorem planIn_ofValue_eq_ok {e : Expr} {value : TypeScope → Except Error TypedPlan}
    {scope : TypeScope} {bound : List Ty} {x : TypedPlan} :
    (ofValue e value).planIn scope bound = .ok x ↔ bound = [] ∧ value scope = .ok x := by
  cases bound with
  | nil => exact (and_iff_right rfl).symm
  | cons b rest =>
    constructor
    · intro h
      cases h
    · rintro ⟨h, -⟩
      cases h

/-- A plan has the type that it is given. -/
theorem typed_eq_ok {t : Ty} {build : Descriptor → Plan} {x : TypedPlan} :
    typed t build = .ok x ↔ t.isConcrete = true ∧ x = ⟨build t.describe, t⟩ := by
  rw [typed, Outcome.bind_eq_ok]
  constructor
  · rintro ⟨d, hd, hx⟩
    obtain ⟨ht, rfl⟩ := Ty.toDescriptor_eq_ok.mp hd
    cases hx
    exact ⟨ht, rfl⟩
  · rintro ⟨ht, rfl⟩
    exact ⟨_, Ty.toDescriptor_eq_ok.mpr ⟨ht, rfl⟩, rfl⟩

/-- A predicate is a lambda whose body is a test. -/
theorem predicate_eq_ok {p : Argument} {element : Ty} {scope : TypeScope} {plan : Plan} :
    predicate p element scope = .ok plan ↔
      ∃ t, p.2.lambda scope [element] = .ok ⟨plan, t⟩ ∧ isTest t = true := by
  rw [predicate, Outcome.bind_eq_ok]
  constructor
  · rintro ⟨x, hx, h⟩
    split at h
    · rename_i htest
      cases h
      exact ⟨x.type, hx, htest⟩
    · cases h
  · rintro ⟨t, hx, htest⟩
    refine ⟨⟨plan, t⟩, hx, ?_⟩
    rw [if_pos htest]
    rfl

/-- Only a sort is refined, by the key at its end. -/
theorem refineSort_eq_ok {verb : QueryVerb} {source key : Plan} {op : QueryOp Plan} :
    refineSort verb source key = .ok op ↔
      ∃ s keys type, source = .query (.sort s keys) type ∧ op = .sort s (keys ++ [key]) := by
  constructor
  · intro h
    unfold refineSort at h
    split at h
    · rename_i s keys type
      cases h
      exact ⟨s, keys, type, rfl, rfl⟩
    · cases h
  · rintro ⟨s, keys, type, rfl, rfl⟩
    rfl

end Draft

namespace Expr

/-- Expressions are drafted one by one. -/
theorem draftAll_eq_map (c : Catalog) (es : List Expr) : draftAll c es = es.map (draft c) := by
  induction es with
  | nil => rfl
  | cons e rest ih => rw [draftAll, ih, List.map_cons]

/-- Named expressions are drafted one by one. -/
theorem draftMembers_eq_map (c : Catalog) (bs : List (String × Expr)) :
    draftMembers c bs = bs.map fun b => (b.1, draft c b.2) := by
  induction bs with
  | nil => rfl
  | cons b rest ih =>
    obtain ⟨name, e⟩ := b
    rw [draftMembers, ih, List.map_cons]

/-- The arguments of a query operator with their drafts. -/
theorem zip_draftAll (c : Catalog) (args : List Expr) :
    args.zip (draftAll c args) = args.map fun e => (e, draft c e) := by
  rw [draftAll_eq_map]
  induction args with
  | nil => rfl
  | cons e rest ih => rw [List.map_cons, List.zip_cons_cons, ih, List.map_cons]

/-- A piece that the draft of its expression gives. -/
def Drafted (c : Catalog) (scope : TypeScope) (x : Piece) : Prop :=
  (draft c x.expr).planIn scope x.bound = .ok ⟨x.plan, x.type⟩

/-- The arguments of a query operator are drafted operands, in its signature, before further ones,
and build a stage. -/
inductive StageDrafted (c : Catalog) (scope : TypeScope) (verb : QueryVerb) :
    List Expr → QueryOp Plan → Ty → Prop
  /-- Operands come first. -/
  | intro (operands : List Piece) (extra : List Expr) {op : QueryOp Plan} {t : Ty}
      (hoperands : ∀ x ∈ operands, Drafted c scope x)
      (hsignature : verb.Signature (operands.map Piece.operand) t)
      (hbuilds : verb.Builds (operands.map Piece.plan) extra op) :
      StageDrafted c scope verb (operands.map Piece.expr ++ extra) op t

section Stages

variable {c : Catalog} {scope : TypeScope} {s f g : Expr} {p q : Plan} {u v w : Ty}

/-- A source alone is a drafted operand. -/
theorem forall_drafted_one (hs : Drafted c scope ⟨[], s, p, u⟩) :
    ∀ x ∈ [(⟨[], s, p, u⟩ : Piece)], Drafted c scope x :=
  List.forall_mem_cons.mpr ⟨hs, List.forall_mem_nil _⟩

/-- A source and a lambda over one type are drafted operands. -/
theorem forall_drafted_two (hs : Drafted c scope ⟨[], s, p, u⟩)
    (hf : (draft c f).lambda scope [w] = .ok ⟨q, v⟩) :
    ∀ x ∈ [(⟨[], s, p, u⟩ : Piece), ⟨[w], f, q, v⟩], Drafted c scope x :=
  List.forall_mem_cons.mpr ⟨hs, List.forall_mem_cons.mpr ⟨hf, List.forall_mem_nil _⟩⟩

/-- A source and two lambdas over one type are drafted operands. -/
theorem forall_drafted_three {q' : Plan} {v' : Ty} (hs : Drafted c scope ⟨[], s, p, u⟩)
    (hf : (draft c f).lambda scope [w] = .ok ⟨q, v⟩)
    (hg : (draft c g).lambda scope [w] = .ok ⟨q', v'⟩) :
    ∀ x ∈ [(⟨[], s, p, u⟩ : Piece), ⟨[w], f, q, v⟩, ⟨[w], g, q', v'⟩], Drafted c scope x :=
  List.forall_mem_cons.mpr ⟨hs, List.forall_mem_cons.mpr
    ⟨hf, List.forall_mem_cons.mpr ⟨hg, List.forall_mem_nil _⟩⟩⟩

end Stages

/-- A stage is built from drafted operands. -/
theorem stageDrafted_of_eq_ok {c : Catalog} {scope : TypeScope} {verb : QueryVerb} {s : Expr}
    {rest : List Expr} {p : Plan} {u element : Ty} {op : QueryOp Plan} {t : Ty}
    (hs : Drafted c scope ⟨[], s, p, u⟩) (helement : u.element? = some element)
    (hstage : Draft.stage verb ((s :: rest).map fun e => (e, draft c e)) scope ⟨p, u⟩ element =
      .ok (op, t)) : StageDrafted c scope verb (s :: rest) op t := by
  cases verb with
  | filter =>
    obtain ⟨a, ha, h⟩ := Outcome.bind_eq_ok.mp hstage
    rcases rest with _ | ⟨f, rest⟩ <;> cases ha
    obtain ⟨q, hq, h⟩ := Outcome.bind_eq_ok.mp h
    cases h
    obtain ⟨test, hlambda, htest⟩ := Draft.predicate_eq_ok.mp hq
    exact .intro _ rest (forall_drafted_two hs hlambda) (.filter helement htest) .filter
  | select =>
    obtain ⟨x, hx, h⟩ := Outcome.bind_eq_ok.mp hstage
    obtain ⟨a, ha, hf⟩ := Outcome.bind_eq_ok.mp hx
    rcases rest with _ | ⟨f, rest⟩ <;> cases ha
    cases h
    exact .intro _ rest (forall_drafted_two hs hf) (.select helement) .select
  | selectMany =>
    obtain ⟨x, hx, h⟩ := Outcome.bind_eq_ok.mp hstage
    obtain ⟨a, ha, hf⟩ := Outcome.bind_eq_ok.mp hx
    rcases rest with _ | ⟨f, rest⟩ <;> cases ha
    split at h <;> cases h
    rename_i inner hinner
    exact .intro _ rest (forall_drafted_two hs hf) (.selectMany helement hinner) .selectMany
  | orderBy =>
    obtain ⟨x, hx, h⟩ := Outcome.bind_eq_ok.mp hstage
    obtain ⟨a, ha, hf⟩ := Outcome.bind_eq_ok.mp hx
    rcases rest with _ | ⟨f, rest⟩ <;> cases ha
    cases h
    exact .intro _ rest (forall_drafted_two hs hf) (.sort true .ascending rfl helement)
      (.orderBy .ascending rfl)
  | orderByDescending =>
    obtain ⟨x, hx, h⟩ := Outcome.bind_eq_ok.mp hstage
    obtain ⟨a, ha, hf⟩ := Outcome.bind_eq_ok.mp hx
    rcases rest with _ | ⟨f, rest⟩ <;> cases ha
    cases h
    exact .intro _ rest (forall_drafted_two hs hf) (.sort true .descending rfl helement)
      (.orderBy .descending rfl)
  | thenBy =>
    obtain ⟨x, hx, h⟩ := Outcome.bind_eq_ok.mp hstage
    obtain ⟨a, ha, hf⟩ := Outcome.bind_eq_ok.mp hx
    rcases rest with _ | ⟨f, rest⟩ <;> cases ha
    obtain ⟨op', hop, h⟩ := Outcome.bind_eq_ok.mp h
    cases h
    obtain ⟨inner, keys, type, rfl, rfl⟩ := Draft.refineSort_eq_ok.mp hop
    exact .intro _ rest (forall_drafted_two hs hf) (.sort false .ascending rfl helement)
      (.thenBy .ascending rfl)
  | thenByDescending =>
    obtain ⟨x, hx, h⟩ := Outcome.bind_eq_ok.mp hstage
    obtain ⟨a, ha, hf⟩ := Outcome.bind_eq_ok.mp hx
    rcases rest with _ | ⟨f, rest⟩ <;> cases ha
    obtain ⟨op', hop, h⟩ := Outcome.bind_eq_ok.mp h
    cases h
    obtain ⟨inner, keys, type, rfl, rfl⟩ := Draft.refineSort_eq_ok.mp hop
    exact .intro _ rest (forall_drafted_two hs hf) (.sort false .descending rfl helement)
      (.thenBy .descending rfl)
  | skip =>
    obtain ⟨a, ha, h⟩ := Outcome.bind_eq_ok.mp hstage
    rcases rest with _ | ⟨f, rest⟩ <;> cases ha
    obtain ⟨n, hn, h⟩ := Outcome.bind_eq_ok.mp h
    cases h
    exact .intro _ (f :: rest) (forall_drafted_one hs) (.skip helement) (.skip hn)
  | take =>
    obtain ⟨a, ha, h⟩ := Outcome.bind_eq_ok.mp hstage
    rcases rest with _ | ⟨f, rest⟩ <;> cases ha
    obtain ⟨n, hn, h⟩ := Outcome.bind_eq_ok.mp h
    cases h
    exact .intro _ (f :: rest) (forall_drafted_one hs) (.take helement) (.take hn)
  | groupBy =>
    obtain ⟨x, hx, h⟩ := Outcome.bind_eq_ok.mp hstage
    obtain ⟨a, ha, hf⟩ := Outcome.bind_eq_ok.mp hx
    rcases rest with _ | ⟨f, _ | ⟨g, rest⟩⟩ <;> cases ha
    · cases h
      exact .intro _ [] (forall_drafted_two hs hf) (.groupBy helement) .groupBy
    · obtain ⟨y, hg, h⟩ := Outcome.bind_eq_ok.mp h
      cases h
      exact .intro _ rest (forall_drafted_three hs hf hg) (.groupByElement helement)
        .groupByElement
  | join =>
    obtain ⟨a, ha, h⟩ := Outcome.bind_eq_ok.mp hstage
    obtain ⟨i, hinner, h⟩ := Outcome.bind_eq_ok.mp h
    split at h
    · cases h
    · rename_i inner hinnerElement
      obtain ⟨x, hx, h⟩ := Outcome.bind_eq_ok.mp h
      obtain ⟨b, hb, hok⟩ := Outcome.bind_eq_ok.mp hx
      obtain ⟨y, hy, h⟩ := Outcome.bind_eq_ok.mp h
      obtain ⟨b', hb', hik⟩ := Outcome.bind_eq_ok.mp hy
      obtain ⟨z, hz, h⟩ := Outcome.bind_eq_ok.mp h
      obtain ⟨b'', hb'', hr⟩ := Outcome.bind_eq_ok.mp hz
      cases h
      rcases rest with _ | ⟨e₁, _ | ⟨e₂, _ | ⟨e₃, _ | ⟨e₄, rest⟩⟩⟩⟩
      · cases ha
      · cases hb
      · cases hb'
      · cases hb''
      · cases ha
        cases hb
        cases hb'
        cases hb''
        exact .intro [⟨[], s, p, u⟩, ⟨[], e₁, i.plan, i.type⟩, ⟨[element], e₂, x.plan, x.type⟩,
          ⟨[inner], e₃, y.plan, y.type⟩, ⟨[element, inner], e₄, z.plan, z.type⟩] rest
          (List.forall_mem_cons.mpr ⟨hs, List.forall_mem_cons.mpr ⟨hinner, List.forall_mem_cons.mpr
            ⟨hok, List.forall_mem_cons.mpr ⟨hik, List.forall_mem_cons.mpr
              ⟨hr, List.forall_mem_nil _⟩⟩⟩⟩⟩)
          (.join helement hinnerElement) .join
  | «include» =>
    obtain ⟨a, ha, h⟩ := Outcome.bind_eq_ok.mp hstage
    rcases rest with _ | ⟨f, rest⟩ <;> cases ha
    obtain ⟨path, hnav, h⟩ := Outcome.bind_eq_ok.mp h
    cases h
    exact .intro _ (f :: rest) (forall_drafted_one hs) (.include helement) (.include hnav)
  | thenInclude =>
    unfold Draft.stage at hstage
    dsimp only at hstage
    split at hstage
    · rename_i inner path type
      obtain ⟨a, ha, h⟩ := Outcome.bind_eq_ok.mp hstage
      rcases rest with _ | ⟨f, rest⟩ <;> cases ha
      obtain ⟨tail, hpath, h⟩ := Outcome.bind_eq_ok.mp h
      cases h
      exact .intro _ (f :: rest) (forall_drafted_one hs) (.thenInclude helement)
        (.thenInclude hpath)
    · cases hstage
  | aggregate func =>
    obtain ⟨⟨argument, type⟩, hargument, h⟩ := Outcome.bind_eq_ok.mp hstage
    cases h
    cases hfunc : func.takesPredicate with
    | true =>
      rw [Draft.aggregate.eq_def, if_pos hfunc] at hargument
      obtain ⟨q, hq, h⟩ := Outcome.bind_eq_ok.mp hargument
      split at h
      · cases h
      · rename_i hall
        cases h
        rcases rest with _ | ⟨f, rest⟩
        · cases hq
          exact .intro _ [] (forall_drafted_one hs)
            (.aggregate helement hfunc fun heq => hall ⟨heq, rfl⟩) .aggregate
        · obtain ⟨q', hq', h⟩ := Outcome.bind_eq_ok.mp hq
          cases h
          obtain ⟨test, hlambda, htest⟩ := Draft.predicate_eq_ok.mp hq'
          exact .intro _ rest (forall_drafted_two hs hlambda)
            (.aggregatePredicate helement hfunc htest) .aggregateArgument
    | false =>
      rw [Draft.aggregate.eq_def, if_neg (by rw [hfunc]; exact Bool.false_ne_true)] at hargument
      rcases rest with _ | ⟨f, rest⟩
      · obtain ⟨t', ht, h⟩ := Outcome.bind_eq_ok.mp hargument
        cases h
        exact .intro _ [] (forall_drafted_one hs) (.aggregateElements helement hfunc ht) .aggregate
      · obtain ⟨x, hx, h⟩ := Outcome.bind_eq_ok.mp hargument
        obtain ⟨t', ht, h⟩ := Outcome.bind_eq_ok.mp h
        cases h
        exact .intro _ rest (forall_drafted_two hs hx) (.aggregateSelector helement hfunc ht)
          .aggregateArgument

/-- Pieces are known by their operands, up to expressions and plans: first the source. -/
theorem exists_pieces_cons {xs : List Piece} {b : List Ty} {t : Ty} {rest : List Operand}
    (h : xs.map Piece.operand = (b, t) :: rest) :
    ∃ e p tail, xs = ⟨b, e, p, t⟩ :: tail ∧ tail.map Piece.operand = rest := by
  obtain ⟨⟨b', e, p, t'⟩, tail, rfl, hx, htail⟩ := List.map_eq_cons_iff.mp h
  cases hx
  exact ⟨e, p, tail, rfl, htail⟩

/-- One piece of one operand. -/
theorem exists_pieces_one {xs : List Piece} {b : List Ty} {t : Ty}
    (h : xs.map Piece.operand = [(b, t)]) : ∃ e p, xs = [⟨b, e, p, t⟩] := by
  obtain ⟨e, p, tail, rfl, htail⟩ := exists_pieces_cons h
  rw [List.map_eq_nil_iff.mp htail]
  exact ⟨e, p, rfl⟩

/-- Two pieces of two operands. -/
theorem exists_pieces_two {xs : List Piece} {b b' : List Ty} {t t' : Ty}
    (h : xs.map Piece.operand = [(b, t), (b', t')]) :
    ∃ e p e' p', xs = [⟨b, e, p, t⟩, ⟨b', e', p', t'⟩] := by
  obtain ⟨e, p, tail, rfl, htail⟩ := exists_pieces_cons h
  obtain ⟨e', p', rfl⟩ := exists_pieces_one htail
  exact ⟨e, p, e', p', rfl⟩

/-- Three pieces of three operands. -/
theorem exists_pieces_three {xs : List Piece} {b b' b'' : List Ty} {t t' t'' : Ty}
    (h : xs.map Piece.operand = [(b, t), (b', t'), (b'', t'')]) :
    ∃ e p e' p' e'' p'', xs = [⟨b, e, p, t⟩, ⟨b', e', p', t'⟩, ⟨b'', e'', p'', t''⟩] := by
  obtain ⟨e, p, tail, rfl, htail⟩ := exists_pieces_cons h
  obtain ⟨e', p', e'', p'', rfl⟩ := exists_pieces_two htail
  exact ⟨e, p, e', p', e'', p'', rfl⟩

/-- The stage of drafted operands is built. -/
theorem StageDrafted.eq_ok {c : Catalog} {scope : TypeScope} {verb : QueryVerb} {args : List Expr}
    {op : QueryOp Plan} {t : Ty} (h : StageDrafted c scope verb args op t) :
    ∃ s rest p u element, args = s :: rest ∧ (draft c s).value scope = .ok ⟨p, u⟩ ∧
      u.element? = some element ∧
      Draft.stage verb (args.map fun e => (e, draft c e)) scope ⟨p, u⟩ element = .ok (op, t) := by
  obtain ⟨operands, extra, hoperands, hsignature, hbuilds⟩ := h
  generalize hsig : operands.map Piece.operand = signature at hsignature
  cases hsignature with
  | filter helement htest =>
    obtain ⟨s, p, f, q, rfl⟩ := exists_pieces_two hsig
    rw [List.forall_mem_cons, List.forall_mem_cons] at hoperands
    obtain ⟨hs, hf, -⟩ := hoperands
    cases hbuilds with
    | filter =>
      refine ⟨s, _, p, _, _, rfl, hs, helement, ?_⟩
      exact Outcome.bind_eq_ok.mpr ⟨_, rfl, Outcome.bind_eq_ok.mpr
        ⟨_, Draft.predicate_eq_ok.mpr ⟨_, hf, htest⟩, rfl⟩⟩
    | orderBy direction hverb | thenBy direction hverb => cases direction <;> cases hverb
  | select helement =>
    obtain ⟨s, p, f, q, rfl⟩ := exists_pieces_two hsig
    rw [List.forall_mem_cons, List.forall_mem_cons] at hoperands
    obtain ⟨hs, hf, -⟩ := hoperands
    cases hbuilds with
    | select =>
      refine ⟨s, _, p, _, _, rfl, hs, helement, ?_⟩
      exact Outcome.bind_eq_ok.mpr ⟨_, hf, rfl⟩
    | orderBy direction hverb | thenBy direction hverb => cases direction <;> cases hverb
  | selectMany helement himage =>
    obtain ⟨s, p, f, q, rfl⟩ := exists_pieces_two hsig
    rw [List.forall_mem_cons, List.forall_mem_cons] at hoperands
    obtain ⟨hs, hf, -⟩ := hoperands
    cases hbuilds with
    | selectMany =>
      refine ⟨s, _, p, _, _, rfl, hs, helement, ?_⟩
      refine Outcome.bind_eq_ok.mpr ⟨_, hf, ?_⟩
      dsimp only
      rw [himage]
      rfl
    | orderBy direction hverb | thenBy direction hverb => cases direction <;> cases hverb
  | sort isFirst direction hverb helement =>
    obtain ⟨s, p, f, q, rfl⟩ := exists_pieces_two hsig
    rw [List.forall_mem_cons, List.forall_mem_cons] at hoperands
    obtain ⟨hs, hf, -⟩ := hoperands
    refine ⟨s, _, p, _, _, rfl, hs, helement, ?_⟩
    subst hverb
    cases isFirst <;> cases direction <;> cases hbuilds
    all_goals
      rename_i direction hverb
      cases direction <;> cases hverb <;> exact Outcome.bind_eq_ok.mpr ⟨_, hf, rfl⟩
  | skip helement =>
    obtain ⟨s, p, rfl⟩ := exists_pieces_one hsig
    rw [List.forall_mem_cons] at hoperands
    cases hbuilds with
    | skip hcount =>
      refine ⟨s, _, p, _, _, rfl, hoperands.1, helement, ?_⟩
      exact Outcome.bind_eq_ok.mpr ⟨_, rfl, Outcome.bind_eq_ok.mpr ⟨_, hcount, rfl⟩⟩
  | take helement =>
    obtain ⟨s, p, rfl⟩ := exists_pieces_one hsig
    rw [List.forall_mem_cons] at hoperands
    cases hbuilds with
    | take hcount =>
      refine ⟨s, _, p, _, _, rfl, hoperands.1, helement, ?_⟩
      exact Outcome.bind_eq_ok.mpr ⟨_, rfl, Outcome.bind_eq_ok.mpr ⟨_, hcount, rfl⟩⟩
  | groupBy helement =>
    obtain ⟨s, p, f, q, rfl⟩ := exists_pieces_two hsig
    rw [List.forall_mem_cons, List.forall_mem_cons] at hoperands
    obtain ⟨hs, hf, -⟩ := hoperands
    cases hbuilds with
    | groupBy =>
      refine ⟨s, _, p, _, _, rfl, hs, helement, ?_⟩
      exact Outcome.bind_eq_ok.mpr ⟨_, hf, rfl⟩
    | orderBy direction hverb | thenBy direction hverb => cases direction <;> cases hverb
  | groupByElement helement =>
    obtain ⟨s, p, f, q, g, r, rfl⟩ := exists_pieces_three hsig
    rw [List.forall_mem_cons, List.forall_mem_cons, List.forall_mem_cons] at hoperands
    obtain ⟨hs, hf, hg, -⟩ := hoperands
    cases hbuilds
    refine ⟨s, _, p, _, _, rfl, hs, helement, ?_⟩
    exact Outcome.bind_eq_ok.mpr ⟨_, hf, Outcome.bind_eq_ok.mpr ⟨_, hg, rfl⟩⟩
  | join helement hinner =>
    obtain ⟨s, p, tail, rfl, hsig'⟩ := exists_pieces_cons hsig
    obtain ⟨i, pi, tail', rfl, hsig''⟩ := exists_pieces_cons hsig'
    obtain ⟨f, q, g, r, k, m, rfl⟩ := exists_pieces_three hsig''
    simp only [List.forall_mem_cons] at hoperands
    obtain ⟨hs, hi, hf, hg, hk, -⟩ := hoperands
    cases hbuilds
    refine ⟨s, _, p, _, _, rfl, hs, helement, ?_⟩
    refine Outcome.bind_eq_ok.mpr ⟨_, rfl, Outcome.bind_eq_ok.mpr ⟨_, hi, ?_⟩⟩
    dsimp only
    rw [hinner]
    exact Outcome.bind_eq_ok.mpr ⟨_, hf, Outcome.bind_eq_ok.mpr ⟨_, hg,
      Outcome.bind_eq_ok.mpr ⟨_, hk, rfl⟩⟩⟩
  | «include» helement =>
    obtain ⟨s, p, rfl⟩ := exists_pieces_one hsig
    rw [List.forall_mem_cons] at hoperands
    cases hbuilds with
    | «include» hpath =>
      refine ⟨s, _, p, _, _, rfl, hoperands.1, helement, ?_⟩
      exact Outcome.bind_eq_ok.mpr ⟨_, rfl, Outcome.bind_eq_ok.mpr ⟨_, hpath, rfl⟩⟩
  | thenInclude helement =>
    obtain ⟨s, p, rfl⟩ := exists_pieces_one hsig
    rw [List.forall_mem_cons] at hoperands
    cases hbuilds with
    | thenInclude hpath =>
      refine ⟨s, _, _, _, _, rfl, hoperands.1, helement, ?_⟩
      exact Outcome.bind_eq_ok.mpr ⟨_, rfl, Outcome.bind_eq_ok.mpr ⟨_, hpath, rfl⟩⟩
  | aggregate helement hfunc hall =>
    obtain ⟨s, p, rfl⟩ := exists_pieces_one hsig
    rw [List.forall_mem_cons] at hoperands
    cases hbuilds with
    | aggregate =>
      refine ⟨s, _, p, _, _, rfl, hoperands.1, helement, ?_⟩
      refine Outcome.bind_eq_ok.mpr ⟨(none, _), ?_, rfl⟩
      rw [Draft.aggregate.eq_def, if_pos hfunc]
      refine Outcome.bind_eq_ok.mpr ⟨none, rfl, ?_⟩
      rw [if_neg fun h => hall h.1]
      rfl
  | aggregatePredicate helement hfunc htest =>
    obtain ⟨s, p, f, q, rfl⟩ := exists_pieces_two hsig
    rw [List.forall_mem_cons, List.forall_mem_cons] at hoperands
    obtain ⟨hs, hf, -⟩ := hoperands
    cases hbuilds with
    | aggregateArgument =>
      refine ⟨s, _, p, _, _, rfl, hs, helement, ?_⟩
      refine Outcome.bind_eq_ok.mpr ⟨(some q, _), ?_, rfl⟩
      rw [Draft.aggregate.eq_def, if_pos hfunc]
      refine Outcome.bind_eq_ok.mpr ⟨some q, ?_, ?_⟩
      · exact Outcome.bind_eq_ok.mpr ⟨q, Draft.predicate_eq_ok.mpr ⟨_, hf, htest⟩, rfl⟩
      · rw [if_neg fun h => Bool.false_ne_true h.2]
        rfl
    | orderBy direction hverb | thenBy direction hverb => cases direction <;> cases hverb
  | aggregateElements helement hfunc ht =>
    obtain ⟨s, p, rfl⟩ := exists_pieces_one hsig
    rw [List.forall_mem_cons] at hoperands
    cases hbuilds with
    | aggregate =>
      refine ⟨s, _, p, _, _, rfl, hoperands.1, helement, ?_⟩
      refine Outcome.bind_eq_ok.mpr ⟨(none, _), ?_, rfl⟩
      rw [Draft.aggregate.eq_def, if_neg (by rw [hfunc]; exact Bool.false_ne_true)]
      exact Outcome.bind_eq_ok.mpr ⟨_, ht, rfl⟩
  | aggregateSelector helement hfunc ht =>
    obtain ⟨s, p, f, q, rfl⟩ := exists_pieces_two hsig
    rw [List.forall_mem_cons, List.forall_mem_cons] at hoperands
    obtain ⟨hs, hf, -⟩ := hoperands
    cases hbuilds with
    | aggregateArgument =>
      refine ⟨s, _, p, _, _, rfl, hs, helement, ?_⟩
      refine Outcome.bind_eq_ok.mpr ⟨(some q, _), ?_, rfl⟩
      rw [Draft.aggregate.eq_def, if_neg (by rw [hfunc]; exact Bool.false_ne_true)]
      exact Outcome.bind_eq_ok.mpr ⟨_, hf, Outcome.bind_eq_ok.mpr ⟨_, ht, rfl⟩⟩
    | orderBy direction hverb | thenBy direction hverb => cases direction <;> cases hverb

/-- The draft of a query gives the stage of its drafted operands. -/
theorem query_eq_ok {c : Catalog} {scope : TypeScope} {verb : QueryVerb} {args : List Expr}
    {x : TypedPlan} :
    Draft.query verb (args.map fun e => (e, draft c e)) scope = .ok x ↔
      ∃ op t, StageDrafted c scope verb args op t ∧ t.isConcrete = true ∧
        x = ⟨.query op t.describe, t⟩ := by
  constructor
  · intro h
    cases args with
    | nil => cases h
    | cons s rest =>
      obtain ⟨⟨p, u⟩, hs, h⟩ := Outcome.bind_eq_ok.mp h
      dsimp only at h
      split at h
      · cases h
      · rename_i element helement
        obtain ⟨⟨op, t⟩, hstage, h⟩ := Outcome.bind_eq_ok.mp h
        obtain ⟨ht, rfl⟩ := Draft.typed_eq_ok.mp h
        exact ⟨op, t, stageDrafted_of_eq_ok hs helement hstage, ht, rfl⟩
  · rintro ⟨op, t, hdrafted, ht, rfl⟩
    obtain ⟨s, rest, p, u, element, rfl, hs, helement, hstage⟩ := hdrafted.eq_ok
    refine Outcome.bind_eq_ok.mpr ⟨⟨p, u⟩, hs, ?_⟩
    dsimp only
    rw [helement]
    exact Outcome.bind_eq_ok.mpr ⟨(op, t), hstage, Draft.typed_eq_ok.mpr ⟨ht, rfl⟩⟩

/-- Several values are drafted when each of them is. -/
theorem mapM_value_eq_ok {c : Catalog} {scope : TypeScope} {es : List Expr}
    {xs : List TypedPlan} :
    ((draftAll c es).mapM fun d => d.value scope) = .ok xs ↔
      ∃ pieces : List Piece, pieces.map Piece.expr = es ∧ pieces.map Piece.typed = xs ∧
        ∀ x ∈ pieces, (draft c x.expr).value scope = .ok x.typed := by
  rw [draftAll_eq_map, List.mapM_map]
  refine Outcome.mapM_eq_ok_iff_exists ?_
  intro e x
  constructor
  · intro h
    exact ⟨⟨[], e, x.plan, x.type⟩, rfl, rfl, h⟩
  · rintro ⟨z, rfl, rfl, h⟩
    exact h

/-- Named values are drafted when each of them is. -/
theorem mapM_members_eq_ok {c : Catalog} {scope : TypeScope} {bs : List (String × Expr)}
    {xs : List (String × TypedPlan)} :
    ((draftMembers c bs).mapM fun d => return (d.1, ← d.2.value scope)) = .ok xs ↔
      ∃ members : List (String × Piece), members.map (fun m => (m.1, m.2.expr)) = bs ∧
        members.map (fun m => (m.1, m.2.typed)) = xs ∧
        ∀ m ∈ members, (draft c m.2.expr).value scope = .ok m.2.typed := by
  rw [draftMembers_eq_map, List.mapM_map]
  refine Outcome.mapM_eq_ok_iff_exists ?_
  rintro ⟨name, e⟩ x
  constructor
  · intro h
    obtain ⟨y, hy, h⟩ := Outcome.bind_eq_ok.mp h
    cases h
    exact ⟨(name, ⟨[], e, y.plan, y.type⟩), rfl, rfl, hy⟩
  · rintro ⟨⟨name', z⟩, hz, rfl, h⟩
    cases hz
    exact Outcome.bind_eq_ok.mpr ⟨_, h, rfl⟩

/-- Bindings are drafted when each of them is and its name is a member. -/
theorem mapM_bindings_eq_ok {c : Catalog} {scope : TypeScope} {t : Ty} {bs : List (String × Expr)}
    {xs : List (String × Plan)} :
    ((draftMembers c bs).mapM fun d => do
      let _ ← c.typeOfMember t d.1
      return (d.1, (← d.2.value scope).plan)) = .ok xs ↔
      ∃ bindings : List (String × Piece), bindings.map (fun b => (b.1, b.2.expr)) = bs ∧
        bindings.map (fun b => (b.1, b.2.plan)) = xs ∧
        ∀ b ∈ bindings, (∃ u, c.typeOfMember t b.1 = .ok u) ∧
          (draft c b.2.expr).value scope = .ok b.2.typed := by
  rw [draftMembers_eq_map, List.mapM_map]
  refine Outcome.mapM_eq_ok_iff_exists ?_
  rintro ⟨name, e⟩ x
  constructor
  · intro h
    obtain ⟨u, hu, h⟩ := Outcome.bind_eq_ok.mp h
    obtain ⟨y, hy, h⟩ := Outcome.bind_eq_ok.mp h
    cases h
    exact ⟨(name, ⟨[], e, y.plan, y.type⟩), rfl, rfl, ⟨u, hu⟩, hy⟩
  · rintro ⟨⟨name', z⟩, hz, rfl, ⟨u, hu⟩, h⟩
    cases hz
    exact Outcome.bind_eq_ok.mpr ⟨u, hu, Outcome.bind_eq_ok.mpr ⟨_, h, rfl⟩⟩

/-- The draft of a lambda gives a plan from the draft of its body. -/
theorem ofLambda_eq_ok {e : Expr} {params : List (String × Ty)} {body : Draft} {scope : TypeScope}
    {bound : List Ty} {x : TypedPlan} :
    Draft.ofLambda e params body scope bound = .ok x ↔
      (bound = [] ∨ bound.length = params.length) ∧ ∃ ps p t,
        Draft.parameters params bound = .ok ps ∧
        body.value (scope.extend ps) = .ok ⟨p, t⟩ ∧ t.isConcrete = true ∧
        x = ⟨.lambda (ps.map Prod.fst) p t.describe, t⟩ := by
  have harity : (!bound.isEmpty && bound.length != params.length) = true ↔
      ¬(bound = [] ∨ bound.length = params.length) := by
    rw [Bool.and_eq_true, Bool.not_eq_true', List.isEmpty_eq_false_iff, bne_iff_ne, not_or]
  constructor
  · intro h
    rw [Draft.ofLambda] at h
    split at h
    · cases h
    · rename_i hmatch
      obtain ⟨ps, hps, h⟩ := Outcome.bind_eq_ok.mp h
      obtain ⟨⟨p, t⟩, hbody, h⟩ := Outcome.bind_eq_ok.mp h
      obtain ⟨d, hd, h⟩ := Outcome.bind_eq_ok.mp h
      obtain ⟨ht, rfl⟩ := Ty.toDescriptor_eq_ok.mp hd
      cases h
      exact ⟨not_not.mp (mt harity.mpr hmatch), ps, p, t, hps, hbody, ht, rfl⟩
  · rintro ⟨hmatch, ps, p, t, hps, hbody, ht, rfl⟩
    rw [Draft.ofLambda, if_neg fun h => harity.mp h hmatch]
    exact Outcome.bind_eq_ok.mpr ⟨ps, hps, Outcome.bind_eq_ok.mpr ⟨⟨p, t⟩, hbody,
      Outcome.bind_eq_ok.mpr ⟨_, Ty.toDescriptor_eq_ok.mpr ⟨ht, rfl⟩, rfl⟩⟩⟩

/-- A draft gives a plan only by the rules. -/
theorem planned_of_planIn {c : Catalog} {e : Expr} {scope : TypeScope} {bound : List Ty} {p : Plan}
    {t : Ty} (h : (draft c e).planIn scope bound = .ok ⟨p, t⟩) : Planned c scope bound e p t := by
  induction e generalizing scope bound p t with
  | lambda params body ih =>
    have hlambda : Draft.ofLambda (.lambda params body) params (draft c body) scope bound =
        .ok ⟨p, t⟩ := by
      cases bound <;> exact h
    obtain ⟨harity, ps, q, u, hps, hbody, hu, hx⟩ := ofLambda_eq_ok.mp hlambda
    cases hx
    exact .lambda harity hps (ih hbody) hu
  | constant v u =>
    obtain ⟨rfl, hvalue⟩ := Draft.planIn_ofValue_eq_ok.mp h
    obtain ⟨ht, hx⟩ := Draft.typed_eq_ok.mp hvalue
    cases hx
    exact .constant v ht
  | captured name u v =>
    obtain ⟨rfl, hvalue⟩ := Draft.planIn_ofValue_eq_ok.mp h
    cases hvalue
  | source u =>
    obtain ⟨rfl, hvalue⟩ := Draft.planIn_ofValue_eq_ok.mp h
    obtain ⟨d, hd, h⟩ := Outcome.bind_eq_ok.mp hvalue
    obtain ⟨hu, rfl⟩ := Ty.toDescriptor_eq_ok.mp hd
    obtain ⟨-, hx⟩ := Draft.typed_eq_ok.mp h
    cases hx
    exact .source hu
  | parameter name u =>
    obtain ⟨rfl, hvalue⟩ := Draft.planIn_ofValue_eq_ok.mp h
    split at hvalue
    · rename_i type hscope
      obtain ⟨ht, hx⟩ := Draft.typed_eq_ok.mp hvalue
      cases hx
      exact .parameter u hscope ht
    · cases hvalue
  | member target name ih =>
    obtain ⟨rfl, hvalue⟩ := Draft.planIn_ofValue_eq_ok.mp h
    obtain ⟨x, htarget, h⟩ := Outcome.bind_eq_ok.mp hvalue
    obtain ⟨type, htype, h⟩ := Outcome.bind_eq_ok.mp h
    obtain ⟨d, hd, h⟩ := Outcome.bind_eq_ok.mp h
    obtain ⟨hs, rfl⟩ := Ty.toDescriptor_eq_ok.mp hd
    obtain ⟨ht, hx⟩ := Draft.typed_eq_ok.mp h
    cases hx
    exact .member (ih htarget) htype hs ht
  | unary op operand ih =>
    obtain ⟨rfl, hvalue⟩ := Draft.planIn_ofValue_eq_ok.mp h
    obtain ⟨x, hoperand, h⟩ := Outcome.bind_eq_ok.mp hvalue
    obtain ⟨type, htype, h⟩ := Outcome.bind_eq_ok.mp h
    obtain ⟨ht, hx⟩ := Draft.typed_eq_ok.mp h
    cases hx
    exact .unary (ih hoperand) htype ht
  | binary op l r ihl ihr =>
    obtain ⟨rfl, hvalue⟩ := Draft.planIn_ofValue_eq_ok.mp h
    obtain ⟨x, hl, h⟩ := Outcome.bind_eq_ok.mp hvalue
    obtain ⟨y, hr, h⟩ := Outcome.bind_eq_ok.mp h
    obtain ⟨type, htype, h⟩ := Outcome.bind_eq_ok.mp h
    obtain ⟨ht, hx⟩ := Draft.typed_eq_ok.mp h
    cases hx
    exact .binary (ihl hl) (ihr hr) htype ht
  | conditional test l r ihtest ihl ihr =>
    obtain ⟨rfl, hvalue⟩ := Draft.planIn_ofValue_eq_ok.mp h
    obtain ⟨x, htest, h⟩ := Outcome.bind_eq_ok.mp hvalue
    obtain ⟨y, hl, h⟩ := Outcome.bind_eq_ok.mp h
    obtain ⟨z, hr, h⟩ := Outcome.bind_eq_ok.mp h
    obtain ⟨type, htype, h⟩ := Outcome.bind_eq_ok.mp h
    obtain ⟨ht, hx⟩ := Draft.typed_eq_ok.mp h
    cases hx
    exact .conditional (ihtest htest) (ihl hl) (ihr hr) htype ht
  | query verb args ih =>
    obtain ⟨rfl, hvalue⟩ := Draft.planIn_ofValue_eq_ok.mp h
    rw [zip_draftAll] at hvalue
    obtain ⟨op, u, hdrafted, hu, hx⟩ := query_eq_ok.mp hvalue
    cases hx
    obtain ⟨operands, extra, hoperands, hsignature, hbuilds⟩ := hdrafted
    refine .query operands (fun x hx => ih x.expr ?_ (hoperands x hx)) hsignature hbuilds hu
    exact List.mem_append_left _ (List.mem_map_of_mem hx)
  | call f args ih =>
    obtain ⟨rfl, hvalue⟩ := Draft.planIn_ofValue_eq_ok.mp h
    obtain ⟨xs, hxs, h⟩ := Outcome.bind_eq_ok.mp hvalue
    obtain ⟨d, hd, h⟩ := Outcome.bind_eq_ok.mp h
    obtain ⟨hdeclaring, rfl⟩ := Ty.toDescriptor_eq_ok.mp hd
    obtain ⟨ht, hx⟩ := Draft.typed_eq_ok.mp h
    cases hx
    obtain ⟨pieces, rfl, rfl, hpieces⟩ := mapM_value_eq_ok.mp hxs
    rw [List.map_map]
    exact .call pieces (fun x hx => ih _ (List.mem_map_of_mem hx) (hpieces x hx)) hdeclaring ht
  | object members ih =>
    obtain ⟨rfl, hvalue⟩ := Draft.planIn_ofValue_eq_ok.mp h
    obtain ⟨xs, hxs, h⟩ := Outcome.bind_eq_ok.mp hvalue
    obtain ⟨ht, hx⟩ := Draft.typed_eq_ok.mp h
    cases hx
    obtain ⟨pieces, rfl, rfl, hpieces⟩ := mapM_members_eq_ok.mp hxs
    rw [List.map_map, List.map_map]
    refine .object pieces (fun m hm => ih _ (List.mem_map_of_mem hm) (hpieces m hm)) ?_ ht
    rw [List.map_map]
    rfl
  | array u items ih =>
    obtain ⟨rfl, hvalue⟩ := Draft.planIn_ofValue_eq_ok.mp h
    obtain ⟨xs, hxs, h⟩ := Outcome.bind_eq_ok.mp hvalue
    obtain ⟨ht, hx⟩ := Draft.typed_eq_ok.mp h
    cases hx
    obtain ⟨pieces, rfl, rfl, hpieces⟩ := mapM_value_eq_ok.mp hxs
    rw [List.map_map]
    exact .array pieces (fun x hx => ih _ (List.mem_map_of_mem hx) (hpieces x hx)) ht
  | list u items ih =>
    obtain ⟨rfl, hvalue⟩ := Draft.planIn_ofValue_eq_ok.mp h
    obtain ⟨xs, hxs, h⟩ := Outcome.bind_eq_ok.mp hvalue
    obtain ⟨ht, hx⟩ := Draft.typed_eq_ok.mp h
    cases hx
    obtain ⟨pieces, rfl, rfl, hpieces⟩ := mapM_value_eq_ok.mp hxs
    rw [List.map_map]
    exact .list pieces (fun x hx => ih _ (List.mem_map_of_mem hx) (hpieces x hx)) ht
  | construct u bindings ih =>
    obtain ⟨rfl, hvalue⟩ := Draft.planIn_ofValue_eq_ok.mp h
    obtain ⟨xs, hxs, h⟩ := Outcome.bind_eq_ok.mp hvalue
    obtain ⟨ht, hx⟩ := Draft.typed_eq_ok.mp h
    cases hx
    obtain ⟨pieces, rfl, rfl, hpieces⟩ := mapM_bindings_eq_ok.mp hxs
    exact .construct pieces
      (fun b hb => ih _ (List.mem_map_of_mem hb) (hpieces b hb).2)
      (fun b hb => (hpieces b hb).1) ht

end Expr

/-- What the rules derive a draft gives. -/
theorem Planned.planIn_eq_ok {c : Catalog} {e : Expr} {scope : TypeScope} {bound : List Ty}
    {p : Plan} {t : Ty} (h : Planned c scope bound e p t) :
    (e.draft c).planIn scope bound = .ok ⟨p, t⟩ := by
  induction h with
  | constant v ht => exact Draft.typed_eq_ok.mpr ⟨ht, rfl⟩
  | source ht =>
    exact Outcome.bind_eq_ok.mpr ⟨_, Ty.toDescriptor_eq_ok.mpr ⟨ht, rfl⟩,
      Draft.typed_eq_ok.mpr ⟨ht, rfl⟩⟩
  | @parameter scope name declared t hscope ht =>
    refine Draft.planIn_ofValue_eq_ok.mpr ⟨rfl, ?_⟩
    rw [hscope]
    exact Draft.typed_eq_ok.mpr ⟨ht, rfl⟩
  | member _ htype hs ht ih =>
    exact Outcome.bind_eq_ok.mpr ⟨_, ih, Outcome.bind_eq_ok.mpr ⟨_, htype,
      Outcome.bind_eq_ok.mpr ⟨_, Ty.toDescriptor_eq_ok.mpr ⟨hs, rfl⟩,
        Draft.typed_eq_ok.mpr ⟨ht, rfl⟩⟩⟩⟩
  | unary _ htype ht ih =>
    exact Outcome.bind_eq_ok.mpr ⟨_, ih, Outcome.bind_eq_ok.mpr ⟨_, htype,
      Draft.typed_eq_ok.mpr ⟨ht, rfl⟩⟩⟩
  | binary _ _ htype hu ihl ihr =>
    exact Outcome.bind_eq_ok.mpr ⟨_, ihl, Outcome.bind_eq_ok.mpr ⟨_, ihr,
      Outcome.bind_eq_ok.mpr ⟨_, htype, Draft.typed_eq_ok.mpr ⟨hu, rfl⟩⟩⟩⟩
  | conditional _ _ _ htype hv ihtest ihl ihr =>
    exact Outcome.bind_eq_ok.mpr ⟨_, ihtest, Outcome.bind_eq_ok.mpr ⟨_, ihl,
      Outcome.bind_eq_ok.mpr ⟨_, ihr, Outcome.bind_eq_ok.mpr ⟨_, htype,
        Draft.typed_eq_ok.mpr ⟨hv, rfl⟩⟩⟩⟩⟩
  | @lambda scope bound params ps body p t harity hparams _ ht ih =>
    have hlambda : Draft.ofLambda (.lambda params body) params (body.draft c) scope bound =
        .ok ⟨.lambda (ps.map Prod.fst) p t.describe, t⟩ :=
      Expr.ofLambda_eq_ok.mpr ⟨harity, ps, p, t, hparams, ih, ht, rfl⟩
    cases bound <;> exact hlambda
  | @query scope verb operands extra op t _ hsignature hbuilds ht ih =>
    refine Draft.planIn_ofValue_eq_ok.mpr ⟨rfl, ?_⟩
    rw [Expr.zip_draftAll]
    exact Expr.query_eq_ok.mpr ⟨op, t, .intro operands extra ih hsignature hbuilds, ht, rfl⟩
  | @call scope f args _ hdeclaring ht ih =>
    refine Outcome.bind_eq_ok.mpr ⟨args.map Piece.typed,
      Expr.mapM_value_eq_ok.mpr ⟨args, rfl, rfl, ih⟩, ?_⟩
    refine Outcome.bind_eq_ok.mpr ⟨_, Ty.toDescriptor_eq_ok.mpr ⟨hdeclaring, rfl⟩, ?_⟩
    rw [List.map_map]
    exact Draft.typed_eq_ok.mpr ⟨ht, rfl⟩
  | @object scope members _ t heq ht ih =>
    refine Outcome.bind_eq_ok.mpr ⟨members.map fun m => (m.1, m.2.typed),
      Expr.mapM_members_eq_ok.mpr ⟨members, rfl, rfl, ih⟩, ?_⟩
    rw [List.map_map, List.map_map, List.map_map]
    subst heq
    exact Draft.typed_eq_ok.mpr ⟨ht, rfl⟩
  | @array scope t items _ ht ih =>
    refine Outcome.bind_eq_ok.mpr ⟨items.map Piece.typed,
      Expr.mapM_value_eq_ok.mpr ⟨items, rfl, rfl, ih⟩, ?_⟩
    rw [List.map_map]
    exact Draft.typed_eq_ok.mpr ⟨ht, rfl⟩
  | @list scope t items _ ht ih =>
    refine Outcome.bind_eq_ok.mpr ⟨items.map Piece.typed,
      Expr.mapM_value_eq_ok.mpr ⟨items, rfl, rfl, ih⟩, ?_⟩
    rw [List.map_map]
    exact Draft.typed_eq_ok.mpr ⟨ht, rfl⟩
  | @construct scope t bindings _ hmembers ht ih =>
    refine Outcome.bind_eq_ok.mpr ⟨bindings.map fun b => (b.1, b.2.plan),
      Expr.mapM_bindings_eq_ok.mpr ⟨bindings, rfl, rfl, fun b hb => ⟨hmembers b hb, ih b hb⟩⟩, ?_⟩
    exact Draft.typed_eq_ok.mpr ⟨ht, rfl⟩

/-- The draft of an expression gives exactly the plans that the rules derive. -/
theorem planIn_eq_ok_iff {c : Catalog} {e : Expr} {scope : TypeScope} {bound : List Ty} {p : Plan}
    {t : Ty} : (e.draft c).planIn scope bound = .ok ⟨p, t⟩ ↔ Planned c scope bound e p t :=
  ⟨Expr.planned_of_planIn, Planned.planIn_eq_ok⟩

/-- An expression is planned when what freezing leaves of it is planned without parameters. -/
theorem planTyped_eq_ok {c : Catalog} {admits : Expr.LocalTest} {e : Expr} {p : Plan} {t : Ty} :
    e.planTyped c admits = .ok ⟨p, t⟩ ↔
      ∃ e', e.freeze c admits = .ok e' ∧ Planned c [] [] e' p t := by
  rw [Expr.planTyped, Outcome.bind_eq_ok]
  constructor
  · rintro ⟨e', he', h⟩
    exact ⟨e', he', planIn_eq_ok_iff.mp h⟩
  · rintro ⟨e', he', h⟩
    exact ⟨e', he', planIn_eq_ok_iff.mpr h⟩

end QueryRelay
