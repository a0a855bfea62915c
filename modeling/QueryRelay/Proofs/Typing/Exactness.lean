import QueryRelay.Proofs.Eval.Sequences
import QueryRelay.Proofs.Typing.Operations

/-!
# Where operator types are exact

An operator on constants of two types, and the two branches of a conditional: when the result
conforms to the type that the rule gives. It always does, but in two places, and there exactly when
one operand conforms to the type of the other: the choice of a value that is not null takes the type
of one operand without a look at the other, and a conditional takes a branch of optional untyped
data for a literal null.
-/

namespace QueryRelay

/-! ## Equality of types -/

namespace Ty

/-- Members are equal as lists when each has the name of the other and an equal type. -/
theorem equalMembers_iff {ms ns : List (String × Ty)}
    (h : ∀ m ∈ ms, ∀ u, m.2.equals u = true ↔ m.2 = u) : equalMembers ms ns = true ↔ ms = ns := by
  induction ms generalizing ns with
  | nil => cases ns <;> simp [equalMembers]
  | cons m ms ih =>
    obtain ⟨hm, hms⟩ := List.forall_mem_cons.mp h
    cases ns with
    | nil => simp [equalMembers]
    | cons n ns => simp [equalMembers, hm, ih hms, Prod.ext_iff]

/-- Equality of types is equality. -/
theorem equals_iff {s t : Ty} : s.equals t = true ↔ s = t := by
  induction s generalizing t with
  | anonymous ms ih =>
    cases t with
    | anonymous ns => simp [equals, equalMembers_iff fun m hm u => ih m hm]
    | _ => simp [equals]
  | seq e ih => cases t <;> simp [equals, ih]
  | option inner ih => cases t <;> simp [equals, ih]
  | group k e ihk ihe => cases t <;> simp [equals, ihk, ihe]
  | _ => cases t <;> simp [equals]

instance : LawfulBEq Ty where
  eq_of_beq h := equals_iff.mp h
  rfl := equals_iff.mpr rfl

end Ty

variable {c : Catalog} {counted : Prop} {data : DataSource} {a b v : Value} {s t u : Ty}

/-! ## The choice of a value that is not null -/

/-- The choice between two constants is the left one unless it is null. -/
theorem Expr.evaluate_coalesce :
    (Expr.binary .coalesce (.constant a s) (.constant b t)).evaluate data =
      .ok (if a.isNull then b else a) := by
  cases a <;> rfl

/-- The choice between two constants conforms to the type of the right operand behind an optional
left one when the left operand does, and to the type of the left operand otherwise when the right
one does in its place. -/
theorem BinaryOp.conforms_coalesce_iff (ha : a.ConformsWith c counted s)
    (hb : b.ConformsWith c counted t) (hu : BinaryOp.coalesce.resultType s t = .ok u) :
    (if a.isNull then b else a).ConformsWith c counted u ↔
      if s.isOption then a.ConformsWith c counted t
      else a = .null → b.ConformsWith c counted s := by
  cases hu
  by_cases hnull : a = .null
  · subst hnull
    change (if true = true then b else Value.null).ConformsWith c counted _ ↔ _
    rw [if_pos rfl]
    split
    · exact iff_of_true hb (.null t)
    · exact ⟨fun h _ => h, fun h => h rfl⟩
  · rw [if_neg (by cases a <;> simp [Value.isNull] at hnull ⊢)]
    split
    · rfl
    · exact iff_of_true ha fun h => absurd h hnull

/-- An operator on two constants gives a value of its result type; the choice of a value that is not
null does exactly when the operand that it takes conforms to the type of the other. -/
theorem BinaryOp.evaluate_conforms_iff {op : BinaryOp} (ha : a.ConformsWith c counted s)
    (hb : b.ConformsWith c counted t) (hu : op.resultType s t = .ok u)
    (hv : (Expr.binary op (.constant a s) (.constant b t)).evaluate data = .ok v) :
    v.ConformsWith c counted u ↔
      (op = .coalesce → if s.isOption then a.ConformsWith c counted t
        else a = .null → b.ConformsWith c counted s) := by
  by_cases hop : op = .coalesce
  · subst hop
    rw [Expr.evaluate_coalesce] at hv
    cases hv
    rw [conforms_coalesce_iff ha hb hu]
    exact ⟨fun h _ => h, fun h => h rfl⟩
  · refine iff_of_true ?_ fun h => absurd h hop
    refine applyIn_conforms hu ?_ ?_ (fun h => absurd h hop) hv
    · rintro _ ⟨⟩
      exact ha
    · rintro _ ⟨⟩
      exact hb

/-! ## Branches -/

/-- A value of one branch conforms to the common type, unless its type is that of a literal null and
the value is none: then it has to conform to the type of the other branch. -/
theorem Value.conforms_unify_iff (ha : a.ConformsWith c counted s) (hb : b.ConformsWith c counted t)
    (hu : Ty.unify s t = .ok u) :
    (a.ConformsWith c counted u ↔ (s = .null → a.ConformsWith c counted t)) ∧
      (b.ConformsWith c counted u ↔ (t = .null → b.ConformsWith c counted s)) := by
  rw [Ty.unify] at hu
  split at hu
  · rename_i heq
    obtain rfl := eq_of_beq heq
    cases hu
    exact ⟨iff_of_true ha fun _ => ha, iff_of_true hb fun _ => hb⟩
  rename_i hne
  rw [beq_iff_eq] at hne
  split at hu
  · rename_i hs
    obtain rfl := eq_of_beq hs
    cases hu
    rw [conforms_optional_iff, conforms_optional_iff]
    exact ⟨⟨fun h _ => h, fun h => h rfl⟩, iff_of_true hb fun ht => absurd ht.symm hne⟩
  rename_i hs
  rw [beq_iff_eq] at hs
  split at hu
  · rename_i ht
    obtain rfl := eq_of_beq ht
    cases hu
    rw [conforms_optional_iff, conforms_optional_iff]
    exact ⟨iff_of_true ha fun hs' => absurd hs' hs, ⟨fun h _ => h, fun h => h rfl⟩⟩
  rename_i ht
  rw [beq_iff_eq] at ht
  -- Neither is the type of a literal null: both branches conform.
  suffices a.ConformsWith c counted u ∧ b.ConformsWith c counted u from
    ⟨iff_of_true this.1 fun h => absurd h hs, iff_of_true this.2 fun h => absurd h ht⟩
  split at hu
  · rename_i hoption
    obtain rfl := eq_of_beq hoption
    cases hu
    exact ⟨conforms_optional_iff.mpr (conforms_option_iff.mp ha), conforms_optional_iff.mpr hb⟩
  · split at hu
    · rename_i hoption
      obtain rfl := eq_of_beq hoption
      cases hu
      exact ⟨conforms_optional_iff.mpr ha, conforms_optional_iff.mpr (conforms_option_iff.mp hb)⟩
    · split at hu <;> cases hu
      exact ⟨.dynamic a, .dynamic b⟩

/-! ## All operators -/

/-- Main statement: on constants of two types, an operator on one operand gives a value of its
result type, and so does one on two operands but for the choice of a value that is not null, which
does exactly when the operand that it takes conforms to the type of the other; each branch conforms
to the common type of two branches, but one whose type is that of a literal null does exactly when
it conforms to the type of the other branch. -/
theorem operator_types_exact (c : Catalog) (data : DataSource) {a b : Value} {s t : Ty}
    (ha : a.Conforms c s) (hb : b.Conforms c t) :
    (∀ (op : UnaryOp) u v, op.resultType s = .ok u →
      (Expr.unary op (.constant a s)).evaluate data = .ok v → v.Conforms c u) ∧
    (∀ (op : BinaryOp) u v, op.resultType s t = .ok u →
      (Expr.binary op (.constant a s) (.constant b t)).evaluate data = .ok v →
      (v.Conforms c u ↔
        (op = .coalesce → if s.isOption then a.Conforms c t else a = .null → b.Conforms c s))) ∧
    ∀ u, Ty.unify s t = .ok u →
      (a.Conforms c u ↔ (s = .null → a.Conforms c t)) ∧
      (b.Conforms c u ↔ (t = .null → b.Conforms c s)) := by
  refine ⟨?_, ?_, ?_⟩
  · intro op u v hu hv
    exact op.apply_conforms hu ha hv
  · intro op u v hu hv
    exact op.evaluate_conforms_iff ha hb hu hv
  · intro u hu
    exact Value.conforms_unify_iff ha hb hu

/-- Operators over two integers and over an optional integer and null: a sum, a choice, and a
conditional. -/
theorem operator_types_exact_ints :
    (∃ v, (Expr.binary .add (.constant (.int 1) .int) (.constant (.int 2) .int)).evaluate
      Store.empty.elements = .ok v ∧ v.Conforms Catalog.standard .int) ∧
    (∃ v, (Expr.binary .coalesce (.constant (.int 1) (.option .int))
      (.constant .null .int)).evaluate Store.empty.elements = .ok v ∧
        v.Conforms Catalog.standard .int) ∧
    (Value.int 1).Conforms Catalog.standard (.option .int) := by
  have hone : (Value.int 1).Conforms Catalog.standard .int := .int 1
  have hsum := operator_types_exact Catalog.standard Store.empty.elements hone (.int 2)
  have hchoice :=
    operator_types_exact Catalog.standard Store.empty.elements hone.option (.null .int)
  refine ⟨⟨_, rfl, ?_⟩, ⟨_, rfl, ?_⟩, ?_⟩
  · exact (hsum.2.1 .add .int _ rfl rfl).mpr nofun
  · exact (hchoice.2.1 .coalesce .int _ rfl rfl).mpr fun _ => hone
  · exact (hchoice.2.2 (.option .int) rfl).1.mpr nofun

/-- The choice between an integer that may be null and a text has the type of texts and gives the
integer; a conditional between optional untyped data and a text has the type of optional texts,
also when the untyped data is an integer. -/
theorem operator_types_fail :
    (∃ v, BinaryOp.coalesce.resultType (.option .int) .text = .ok .text ∧
      (Value.int 1).Conforms Catalog.standard (.option .int) ∧
      (Value.text "x").Conforms Catalog.standard .text ∧
      (Expr.binary .coalesce (.constant (.int 1) (.option .int))
        (.constant (.text "x") .text)).evaluate Store.empty.elements = .ok v ∧
      ¬ v.Conforms Catalog.standard .text) ∧
    (Value.int 5).Conforms Catalog.standard .null ∧
    Ty.unify .null .text = .ok (.option .text) ∧
    ¬ (Value.int 5).Conforms Catalog.standard (.option .text) := by
  refine ⟨⟨.int 1, rfl, .option (.int 1), .text "x", rfl, nofun⟩, .option (.dynamic _), rfl, ?_⟩
  intro h
  cases h with
  | option h => cases h

end QueryRelay
