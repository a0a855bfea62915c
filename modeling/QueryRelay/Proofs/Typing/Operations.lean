import QueryRelay.Eval.Meaning
import QueryRelay.Proofs.Eval.Sequences
import QueryRelay.Proofs.Typing.Conforms

/-!
# Operators on values of a type

The static type of an operator or of an aggregate is right about its values: over operands that
conform to the types that the rule reads, a result conforms to the type that the rule gives. The
common type of two branches is right when the branches differ in marks for null only.
-/

namespace QueryRelay

variable {c : Catalog} {counted : Prop}

/-! ## Branches -/

/-- Types that are equal up to marks for null have a common type that is equal to them up to marks
for null, or untyped. -/
theorem Ty.unify_erased {t u w : Ty} (h : Ty.unify t u = .ok w) (heq : t.erased = u.erased) :
    w = .dynamic ∨ w.erased = t.erased := by
  rw [Ty.unify] at h
  split at h
  · cases h
    exact .inr rfl
  · split at h
    · cases h
      exact .inr ((Ty.erased_optional u).trans heq.symm)
    · split at h
      · cases h
        exact .inr (Ty.erased_optional t)
      · split at h
        · cases h
          exact .inr ((Ty.erased_optional u).trans heq.symm)
        · split at h
          · cases h
            exact .inr (Ty.erased_optional t)
          · split at h
            · cases h
              exact .inl rfl
            · cases h

/-- A value of either branch conforms to the common type. -/
theorem Value.ConformsWith.unify {v : Value} {t u w : Ty} (hw : Ty.unify t u = .ok w)
    (heq : t.erased = u.erased) (h : v.ConformsWith c counted t ∨ v.ConformsWith c counted u) :
    v.ConformsWith c counted w := by
  have ht : v.ConformsWith c counted t := h.elim id fun hu => hu.of_erased_eq heq.symm
  rcases Ty.unify_erased hw heq with rfl | herased
  · exact .dynamic v
  · exact ht.of_erased_eq herased.symm

/-! ## Numbers -/

namespace Ty

/-- The numeric types. -/
theorem isNumeric_iff {t : Ty} :
    t.isNumeric = true ↔ t.unwrapped = .int ∨ t.unwrapped = .float := by
  rw [isNumeric]
  cases t.unwrapped <;> simp

/-- The type of untyped data is the only one. -/
theorem isDynamic_iff {t : Ty} : t.isDynamic = true ↔ t = .dynamic := by
  cases t <;> simp [isDynamic]

/-- The type of texts is the only one. -/
theorem isText_iff {t : Ty} : t.isText = true ↔ t = .text := by
  cases t <;> simp [isText]

end Ty

namespace Value

variable {v w : Value} {s t u : Ty}

/-- A value of the type of integers is null or an integer. -/
theorem conforms_int_iff : v.ConformsWith c counted .int ↔ v = .null ∨ ∃ n, v = .int n := by
  constructor
  · intro h
    cases h with
    | null => exact .inl rfl
    | int n => exact .inr ⟨n, rfl⟩
  · rintro (rfl | ⟨n, rfl⟩)
    · exact .null _
    · exact .int n

/-- A value of the type of floating-point numbers is null or a number of either kind. -/
theorem conforms_float_iff :
    v.ConformsWith c counted .float ↔ v = .null ∨ (∃ n, v = .int n) ∨ ∃ x, v = .float x := by
  constructor
  · intro h
    cases h with
    | null => exact .inl rfl
    | widened n => exact .inr (.inl ⟨n, rfl⟩)
    | float x => exact .inr (.inr ⟨x, rfl⟩)
  · rintro (rfl | ⟨n, rfl⟩ | ⟨x, rfl⟩)
    · exact .null _
    · exact .widened n
    · exact .float x

/-- An integer conforms wherever a floating-point number does. -/
theorem ConformsWith.widen (h : v.ConformsWith c counted .int) :
    v.ConformsWith c counted .float := by
  rcases conforms_int_iff.mp h with rfl | ⟨n, rfl⟩
  · exact .null _
  · exact .widened n

/-- Every integer conforms to every numeric type. -/
theorem conforms_of_isNumeric (ht : t.isNumeric = true) (n : Int64) :
    (Value.int n).ConformsWith c counted t := by
  rw [← conforms_unwrapped_iff]
  rcases Ty.isNumeric_iff.mp ht with h | h
  · rw [h]
    exact .int n
  · rw [h]
    exact .widened n

/-- A number is no text, and neither is null. -/
theorem ConformsWith.isText_eq_false (h : v.ConformsWith c counted .float) :
    BinaryOp.isText v = false := by
  rcases conforms_float_iff.mp h with rfl | ⟨n, rfl⟩ | ⟨x, rfl⟩ <;> rfl

end Value

open Value (conforms_int_iff conforms_float_iff conforms_optional_iff conforms_unwrapped_iff)

/-! ## Operators -/

/-- The result of an operator on one operand conforms to its result type. -/
theorem UnaryOp.apply_conforms {op : UnaryOp} {v w : Value} {s t : Ty}
    (htype : op.resultType s = .ok t) (hv : v.ConformsWith c counted s) (hw : op.apply v = .ok w) :
    w.ConformsWith c counted t := by
  cases op with
  | not =>
    cases htype
    cases v with
    | null =>
      cases hw
      exact .null _
    | bool b =>
      cases hw
      exact .bool _
    | _ => cases hw
  | negate =>
    rw [UnaryOp.resultType] at htype
    split at htype <;> cases htype
    rename_i hnumber
    rcases Bool.or_eq_true_iff.mp hnumber with hnumeric | hdynamic
    · cases v with
      | null =>
        cases hw
        exact .null _
      | int n =>
        rw [UnaryOp.apply] at hw
        split at hw <;> cases hw
        exact Value.conforms_of_isNumeric hnumeric _
      | float x =>
        cases hw
        rw [← conforms_unwrapped_iff] at hv ⊢
        rcases Ty.isNumeric_iff.mp hnumeric with h | h
        · rw [h] at hv
          cases hv
        · rw [h]
          exact .float _
      | _ => cases hw
    · rw [Ty.isDynamic_iff.mp hdynamic]
      exact .dynamic w

namespace BinaryOp

variable {op : BinaryOp} {l r x : Value} {s t u : Ty}

/-- A result that fits is an integer. -/
theorem checked_eq_ok {n : Int} (h : op.checked n = .ok x) : ∃ m, x = .int m := by
  rw [checked] at h
  split at h <;> cases h
  exact ⟨_, rfl⟩

/-- Arithmetic on integers gives an integer. -/
theorem onInts_eq_ok {m n : Int} (h : op.onInts m n = .ok x) : ∃ k, x = .int k := by
  cases op with
  | add | sub | mul => exact checked_eq_ok h
  | div =>
    rw [onInts] at h
    split at h
    · cases h
    · exact checked_eq_ok h
  | rem =>
    rw [onInts] at h
    split at h
    · cases h
    · obtain ⟨_, -, hrem⟩ := Outcome.bind_eq_ok.mp h
      exact checked_eq_ok hrem
  | _ => cases h

/-- Arithmetic on floating-point numbers gives one. -/
theorem onFloats_eq_ok {a b : Binary64} (h : op.onFloats a b = .ok x) : ∃ y, x = .float y := by
  cases op with
  | add | sub | mul | div | rem =>
    cases h
    exact ⟨_, rfl⟩
  | _ => cases h

/-- Arithmetic on numbers gives a number. -/
theorem onNumbers_conforms (h : op.onNumbers l r = .ok x) : x.ConformsWith c counted .float := by
  rw [onNumbers.eq_def] at h
  split at h
  · obtain ⟨k, rfl⟩ := onInts_eq_ok h
    exact .widened k
  · split at h
    · obtain ⟨y, rfl⟩ := onFloats_eq_ok h
      exact .float y
    · cases h

/-- Arithmetic on values that are no texts gives a number, or null. -/
theorem arithmetic_conforms (hl : isText l = false) (hr : isText r = false)
    (h : op.arithmetic l r = .ok x) : x.ConformsWith c counted .float := by
  rw [arithmetic, hl, hr] at h
  split at h
  · cases h
    exact .null _
  · rw [if_neg (by simp)] at h
    exact onNumbers_conforms h

/-- Arithmetic on integers and null gives an integer, or null. -/
theorem arithmetic_conforms_int (hl : l.ConformsWith c counted .int)
    (hr : r.ConformsWith c counted .int) (h : op.arithmetic l r = .ok x) :
    x.ConformsWith c counted .int := by
  rcases conforms_int_iff.mp hl with rfl | ⟨m, rfl⟩
  · cases h
    exact .null _
  · rcases conforms_int_iff.mp hr with rfl | ⟨n, rfl⟩
    · cases h
      exact .null _
    · rw [arithmetic, if_neg (by simp [Value.isNull]), if_neg (by simp [isText])] at h
      obtain ⟨k, rfl⟩ := onInts_eq_ok h
      exact .int k

/-- Addition with a text or null on one side gives a text, or null. -/
theorem arithmetic_conforms_text
    (hlr : l.ConformsWith c counted .text ∨ r.ConformsWith c counted .text)
    (h : add.arithmetic l r = .ok x) : x.ConformsWith c counted .text := by
  rw [arithmetic] at h
  split at h
  · cases h
    exact .null _
  · rename_i hnull
    have htext : isText l || isText r := by
      rcases hlr with hl | hr
      · cases hl with
        | null => exact absurd rfl hnull
        | text s => rfl
      · cases hr with
        | null => exact absurd (Bool.or_true _) hnull
        | text s => exact Bool.or_true _
    rw [if_pos ⟨rfl, htext⟩] at h
    cases h
    exact .text _

/-- The result of arithmetic conforms to the type that arithmetic has on the operand types. -/
theorem arithmetic_conforms_type (ht : s.arithmetic? t = some u) (hl : l.ConformsWith c counted s)
    (hr : r.ConformsWith c counted t) (h : op.arithmetic l r = .ok x) :
    x.ConformsWith c counted u := by
  unfold Ty.arithmetic? at ht
  split at ht <;> cases ht
  · exact .dynamic x
  · exact .dynamic x
  · exact arithmetic_conforms_int hl hr h
  · exact arithmetic_conforms hl.widen.isText_eq_false hr.isText_eq_false h
  · exact arithmetic_conforms hl.isText_eq_false hr.widen.isText_eq_false h
  · exact arithmetic_conforms hl.isText_eq_false hr.isText_eq_false h

/-- The result of an arithmetic operator conforms to its result type. -/
theorem arithmetic_conforms_resultType (hcomparison : op.isComparison = false)
    (hlogical : op.isLogical = false) (hcoalesce : op ≠ .coalesce)
    (htype : op.resultType s t = .ok u) (hl : l.ConformsWith c counted s)
    (hr : r.ConformsWith c counted t) (h : op.arithmetic l r = .ok x) :
    x.ConformsWith c counted u := by
  rw [resultType, hcomparison, hlogical, if_neg (by decide), if_neg hcoalesce] at htype
  rw [← conforms_unwrapped_iff] at hl hr
  split at htype
  · rename_i htext
    obtain ⟨rfl, htext⟩ := htext
    cases htype
    refine arithmetic_conforms_text ?_ h
    rcases Bool.or_eq_true_iff.mp htext with htext | htext
    · exact .inl (Ty.isText_iff.mp htext ▸ hl)
    · exact .inr (Ty.isText_iff.mp htext ▸ hr)
  · split at htype <;> cases htype
    rename_i t' ht'
    have hx := arithmetic_conforms_type ht' hl hr h
    split
    · exact conforms_optional_iff.mpr hx
    · exact hx

/-- A comparison or a connective gives a truth value. -/
theorem applyIn_eq_ok_of_bool {left right : Scope → Except Error Value} {scope : Scope}
    (hop : (op.isComparison || op.isLogical) = true) (h : op.applyIn left right scope = .ok x) :
    ∃ b, x = .bool b := by
  obtain ⟨v, -, hv⟩ := Outcome.bind_eq_ok.mp h
  cases op with
  | eq | ne | lt | le | gt | ge =>
    obtain ⟨w, -, hw⟩ := Outcome.bind_eq_ok.mp hv
    cases hw
    exact ⟨_, rfl⟩
  | and =>
    obtain ⟨b, -, hb⟩ := Outcome.bind_eq_ok.mp hv
    cases b with
    | true =>
      obtain ⟨w, -, hw⟩ := Outcome.bind_eq_ok.mp hb
      obtain ⟨b', -, hb'⟩ := Outcome.bind_eq_ok.mp hw
      cases hb'
      exact ⟨_, rfl⟩
    | false =>
      cases hb
      exact ⟨_, rfl⟩
  | or =>
    obtain ⟨b, -, hb⟩ := Outcome.bind_eq_ok.mp hv
    cases b with
    | true =>
      cases hb
      exact ⟨_, rfl⟩
    | false =>
      obtain ⟨w, -, hw⟩ := Outcome.bind_eq_ok.mp hb
      obtain ⟨b', -, hb'⟩ := Outcome.bind_eq_ok.mp hw
      cases hb'
      exact ⟨_, rfl⟩
  | _ => cases hop

/-- The result of an operator on two operands conforms to its result type; the operands of a choice
of a value that is not null differ in marks for null only. -/
theorem applyIn_conforms {left right : Scope → Except Error Value} {scope : Scope}
    (htype : op.resultType s t = .ok u) (hl : ∀ v, left scope = .ok v → v.ConformsWith c counted s)
    (hr : ∀ v, right scope = .ok v → v.ConformsWith c counted t)
    (hcoalesce : op = .coalesce → s.erased = t.erased) (h : op.applyIn left right scope = .ok x) :
    x.ConformsWith c counted u := by
  by_cases hop : (op.isComparison || op.isLogical) = true
  · obtain ⟨b, rfl⟩ := applyIn_eq_ok_of_bool hop h
    rw [resultType, if_pos hop] at htype
    cases htype
    exact .bool b
  · obtain ⟨hcomparison, hlogical⟩ := Bool.or_eq_false_iff.mp (Bool.not_eq_true _ ▸ hop)
    obtain ⟨v, hv, hx⟩ := Outcome.bind_eq_ok.mp h
    by_cases hop' : op = .coalesce
    · subst hop'
      have herased := hcoalesce rfl
      cases htype
      have heither : x.ConformsWith c counted s ∨ x.ConformsWith c counted t := by
        dsimp only at hx
        split at hx
        · exact .inr (hr x hx)
        · cases hx
          exact .inl (hl _ hv)
      split
      · exact heither.elim (fun hs => hs.of_erased_eq herased) id
      · exact heither.elim id fun ht => ht.of_erased_eq herased.symm
    · have harithmetic : ∃ w, right scope = .ok w ∧ op.arithmetic v w = .ok x := by
        cases op with
        | add | sub | mul | div | rem => exact Outcome.bind_eq_ok.mp hx
        | coalesce => exact absurd rfl hop'
        | and | or => cases hlogical
        | _ => cases hcomparison
      obtain ⟨w, hw, hx⟩ := harithmetic
      exact arithmetic_conforms_resultType hcomparison hlogical hop' htype (hl v hv) (hr w hw) hx

end BinaryOp

/-! ## Aggregates -/

namespace Sequence

variable {items : List Value} {v : Value} {element image t : Ty} {argument : Option Selector}

/-- A sum is a number. -/
theorem sum_conforms (h : sum items = .ok v) : v.ConformsWith c counted .float := by
  rw [sum] at h
  split at h
  · obtain ⟨n, -, rfl⟩ := Outcome.map_eq_ok.mp h
    exact .widened _
  · obtain ⟨x, -, rfl⟩ := Outcome.map_eq_ok.mp h
    exact .float x

/-- A sum of integers is an integer. -/
theorem sum_conforms_int (hitems : ∀ w ∈ items, ∃ n, w = Value.int n) (h : sum items = .ok v) :
    v.ConformsWith c counted .int := by
  have hints : ∃ ns, items.mapM Value.asInt? = some ns := by
    clear h
    induction items with
    | nil => exact ⟨[], rfl⟩
    | cons w rest ih =>
      obtain ⟨⟨n, rfl⟩, hrest⟩ := List.forall_mem_cons.mp hitems
      obtain ⟨ns, hns⟩ := ih hrest
      exact ⟨n :: ns, by rw [List.mapM_cons, hns]; rfl⟩
  obtain ⟨ns, hns⟩ := hints
  rw [sum, hns] at h
  obtain ⟨n, -, rfl⟩ := Outcome.map_eq_ok.mp h
  exact .int _

/-- The value of an aggregate with an optional predicate conforms to its result type. -/
theorem aggregate_conforms_predicateResult {func : Aggregate} (hfunc : func.takesPredicate = true)
    (hitems : ∀ w ∈ items, w.ConformsWith c counted element)
    (h : aggregate func argument items = .ok v) :
    v.ConformsWith c counted (func.predicateResult element) := by
  have hqualifying {vs : List Value} (hvs : qualifying argument items = .ok vs) :
      ∀ w ∈ vs, w.ConformsWith c counted element :=
    fun w hw => hitems w ((qualifying_sublist hvs).subset hw)
  cases func with
  | count =>
    obtain ⟨vs, -, rfl⟩ := Outcome.map_eq_ok.mp h
    exact .int _
  | any | all =>
    obtain ⟨vs, -, rfl⟩ := Outcome.map_eq_ok.mp h
    exact .bool _
  | first =>
    obtain ⟨vs, hvs, hv⟩ := Outcome.bind_eq_ok.mp h
    cases vs with
    | nil => cases hv
    | cons w rest =>
      cases hv
      exact hqualifying hvs _ (List.mem_cons_self ..)
  | firstOrDefault =>
    obtain ⟨vs, hvs, rfl⟩ := Outcome.map_eq_ok.mp h
    refine conforms_optional_iff.mpr ?_
    cases vs with
    | nil => exact .null _
    | cons w rest => exact hqualifying hvs _ (List.mem_cons_self ..)
  | single =>
    obtain ⟨vs, hvs, hv⟩ := Outcome.bind_eq_ok.mp h
    rcases only_eq_ok hv with hmem | hfault
    · exact hqualifying hvs v hmem
    · cases hfault
  | singleOrDefault =>
    obtain ⟨vs, hvs, hv⟩ := Outcome.bind_eq_ok.mp h
    refine conforms_optional_iff.mpr ?_
    rcases only_eq_ok hv with hmem | hnull
    · exact hqualifying hvs v hmem
    · cases hnull
      exact .null _
  | _ => cases hfunc

/-- The value of an aggregate with an optional selector conforms to its result type over the type of
the images. -/
theorem aggregate_conforms_selectorResult {func : Aggregate}
    (htype : func.selectorResult image = .ok t)
    (himage : ∀ w ∈ items, ∀ x, argument.getD .ok w = .ok x → x.ConformsWith c counted image)
    (h : aggregate func argument items = .ok v) : v.ConformsWith c counted t := by
  have hpresent {vs : List Value} (hvs : present argument items = .ok vs) :
      ∀ w ∈ vs, w.ConformsWith c counted image ∧ w.isNull = false := present_forall himage hvs
  cases func with
  | min =>
    cases htype
    obtain ⟨vs, hvs, hv⟩ := Outcome.bind_eq_ok.mp h
    exact (hpresent hvs v (least_mem (orFault_eq_ok hv))).1
  | max =>
    cases htype
    obtain ⟨vs, hvs, hv⟩ := Outcome.bind_eq_ok.mp h
    exact (hpresent hvs v (greatest_mem (orFault_eq_ok hv))).1
  | sum =>
    obtain ⟨vs, hvs, hv⟩ := Outcome.bind_eq_ok.mp h
    rw [Aggregate.selectorResult] at htype
    split at htype <;> cases htype
    rename_i hnumber
    rcases Bool.or_eq_true_iff.mp hnumber with hnumeric | hdynamic
    · rcases Ty.isNumeric_iff.mp hnumeric with hint | hfloat
      · rw [hint]
        refine sum_conforms_int (fun w hw => ?_) hv
        obtain ⟨hconforms, hnull⟩ := hpresent hvs w hw
        rw [← conforms_unwrapped_iff, hint] at hconforms
        rcases conforms_int_iff.mp hconforms with rfl | hn
        · cases hnull
        · exact hn
      · rw [hfloat]
        exact sum_conforms hv
    · rw [Ty.isDynamic_iff.mp hdynamic]
      exact .dynamic v
  | average =>
    rw [Aggregate.selectorResult] at htype
    split at htype <;> cases htype
    obtain ⟨vs, -, hv⟩ := Outcome.bind_eq_ok.mp h
    rw [average] at hv
    split at hv
    · cases hv
    · obtain ⟨x, -, rfl⟩ := Outcome.map_eq_ok.mp hv
      exact .float _
  | _ => cases htype

end Sequence
end QueryRelay
