import QueryRelay.Proofs.Plan.Drafting

/-!
# The source of a planned operator

A query operator has a plan only if its first argument has one, as a value with elements: the plan
of the operator is a stage that is built on the plan of this source.
-/

namespace QueryRelay

/-- The first operand of a query operator is its source, which has elements. -/
theorem QueryVerb.Signature.exists_source {verb : QueryVerb} {operands : List Operand} {t : Ty}
    (h : verb.Signature operands t) :
    ∃ s element rest, operands = ([], s) :: rest ∧ s.element? = some element := by
  cases h <;> exact ⟨_, _, _, rfl, ‹_›⟩

/-- The plan of a query operator over a source is a stage that is built on the plan of the source
and the plans of further operands, before arguments beyond. -/
inductive PlannedOn (c : Catalog) (scope : TypeScope) (verb : QueryVerb) (s : Expr) :
    List Expr → Plan → Ty → Prop
  /-- The source is planned, and so is every operand. -/
  | intro {p : Plan} {u t : Ty} {op : QueryOp Plan} (operands : List Piece) (extra : List Expr)
      (hsource : Planned c scope [] s p u)
      (hoperands : ∀ x ∈ operands, Planned c scope x.bound x.expr x.plan x.type)
      (hsignature : verb.Signature (([], u) :: operands.map Piece.operand) t)
      (hbuilds : verb.Builds (p :: operands.map Piece.plan) extra op) :
      PlannedOn c scope verb s (operands.map Piece.expr ++ extra) (.query op t.describe) t

/-- A planned query operator has a planned source. -/
theorem Planned.plannedOn {c : Catalog} {scope : TypeScope} {bound : List Ty} {verb : QueryVerb}
    {s : Expr} {args : List Expr} {a : Plan} {t : Ty}
    (h : Planned c scope bound (.query verb (s :: args)) a t) :
    PlannedOn c scope verb s args a t := by
  generalize he : Expr.query verb (s :: args) = e at h
  cases h with
  | query operands hoperands hsignature hbuilds ht =>
    obtain ⟨hverb, hargs⟩ := Expr.query.inj he
    subst hverb
    obtain ⟨u, element, rest, hrest, -⟩ := hsignature.exists_source
    obtain ⟨e, p, tail, rfl, rfl⟩ := Expr.exists_pieces_cons hrest
    obtain ⟨rfl, rfl⟩ := List.cons.inj hargs
    obtain ⟨hsource, htail⟩ := List.forall_mem_cons.mp hoperands
    exact .intro tail _ hsource htail hsignature hbuilds
  | _ => cases he

end QueryRelay
