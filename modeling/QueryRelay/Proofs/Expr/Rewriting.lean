import QueryRelay.Expr.Freeze
import QueryRelay.Proofs.Eval.Agreement
import QueryRelay.Proofs.Expr.Parts

/-!
# Rewriting expressions

What freezing does to an expression, and what planning and binding a plan again do to it: closed
sub-expressions turn into their values, declared types change, arguments that are not read come and
go, and a chain of includes becomes one. Main statement: an expression agrees in its meaning with a
rewritten one, the first over one data source and the second over another in which the rows of its
tables stand under their changed types.
-/

namespace QueryRelay.Expr

/-- The steps of rewriting, one for each kind of expression, besides the evaluation of a closed
one. The element types of tables change as `retype` says. -/
inductive Rewrites (retype : Ty → Ty) : Expr → Expr → Prop
  /-- A closed expression turns into a constant. -/
  | evaluated {e : Expr} {v : Value} (t : Ty) (hclosed : e.isClosed = true)
      (hvalue : e.evaluate Store.empty.elements = .ok v) : Rewrites retype e (.constant v t)
  /-- A captured value stays. -/
  | captured (name : String) (t : Ty) (v : Value) :
      Rewrites retype (.captured name t v) (.captured name t v)
  /-- A table may turn into that of another element type. -/
  | source (t : Ty) : Rewrites retype (.source t) (.source (retype t))
  /-- A parameter may declare another type. -/
  | parameter (name : String) (t t' : Ty) : Rewrites retype (.parameter name t) (.parameter name t')
  /-- The target of a member. -/
  | member {e e' : Expr} (name : String) (h : Rewrites retype e e') :
      Rewrites retype (.member e name) (.member e' name)
  /-- The operand of an operator. -/
  | unary {e e' : Expr} (op : UnaryOp) (h : Rewrites retype e e') :
      Rewrites retype (.unary op e) (.unary op e')
  /-- The operands of an operator. -/
  | binary {l l' r r' : Expr} (op : BinaryOp) (hl : Rewrites retype l l')
      (hr : Rewrites retype r r') : Rewrites retype (.binary op l r) (.binary op l' r')
  /-- The parts of a conditional. -/
  | conditional {t t' l l' r r' : Expr} (ht : Rewrites retype t t') (hl : Rewrites retype l l')
      (hr : Rewrites retype r r') : Rewrites retype (.conditional t l r) (.conditional t' l' r')
  /-- The body of a lambda, whose parameters keep their names. -/
  | lambda {params params' : List (String × Ty)} {body body' : Expr}
      (hparams : params'.map Prod.fst = params.map Prod.fst) (hbody : Rewrites retype body body') :
      Rewrites retype (.lambda params body) (.lambda params' body')
  /-- The arguments of a query operator that are read; of those beyond, the new ones are
  constants. -/
  | query (verb : QueryVerb) (pairs : List (Expr × Expr)) (extra extra' : List Expr)
      (h : ∀ z ∈ pairs, Rewrites retype z.1 z.2)
      (hreads : extra = [] ∧ extra' = [] ∨ Meaning.reads verb ≤ pairs.length)
      (hextra : ∀ x ∈ extra', x.isConstant = true) :
      Rewrites retype (.query verb (pairs.map Prod.fst ++ extra))
        (.query verb (pairs.map Prod.snd ++ extra'))
  /-- A further include joins the include that its source turns into. -/
  | thenInclude {s s' : Expr} (extra old extra' : List Expr)
      (h : Rewrites retype s (.query .include (s' :: old)))
      (hextra : ∀ x ∈ extra', x.isConstant = true) :
      Rewrites retype (.query .thenInclude (s :: extra)) (.query .include (s' :: extra'))
  /-- The arguments of a call. -/
  | call {f : Function} (pairs : List (Expr × Expr)) (h : ∀ z ∈ pairs, Rewrites retype z.1 z.2) :
      Rewrites retype (.call f (pairs.map Prod.fst)) (.call f (pairs.map Prod.snd))
  /-- The members of an anonymous object. -/
  | object (members : List (String × Expr × Expr))
      (h : ∀ z ∈ members, Rewrites retype z.2.1 z.2.2) :
      Rewrites retype (.object (members.map fun z => (z.1, z.2.1)))
        (.object (members.map fun z => (z.1, z.2.2)))
  /-- The items of an array. -/
  | array {t t' : Ty} (pairs : List (Expr × Expr)) (h : ∀ z ∈ pairs, Rewrites retype z.1 z.2) :
      Rewrites retype (.array t (pairs.map Prod.fst)) (.array t' (pairs.map Prod.snd))
  /-- The items of a list. -/
  | list {t t' : Ty} (pairs : List (Expr × Expr)) (h : ∀ z ∈ pairs, Rewrites retype z.1 z.2) :
      Rewrites retype (.list t (pairs.map Prod.fst)) (.list t' (pairs.map Prod.snd))
  /-- The values that a record is made of. -/
  | construct {t t' : Ty} (bindings : List (String × Expr × Expr))
      (h : ∀ z ∈ bindings, Rewrites retype z.2.1 z.2.2) :
      Rewrites retype (.construct t (bindings.map fun z => (z.1, z.2.1)))
        (.construct t' (bindings.map fun z => (z.1, z.2.2)))

/-! ## Meanings of lists of expressions -/

/-- Expressions have their meanings one by one. -/
theorem meanings_eq_map (data : DataSource) (es : List Expr) :
    meanings data es = es.map (meaning data) := by
  induction es with
  | nil => rfl
  | cons e rest ih => rw [meanings, ih, List.map_cons]

/-- Named expressions have their meanings one by one. -/
theorem memberMeanings_eq_map (data : DataSource) (bs : List (String × Expr)) :
    memberMeanings data bs = bs.map fun b => (b.1, meaning data b.2) := by
  induction bs with
  | nil => rfl
  | cons b rest ih =>
    obtain ⟨name, e⟩ := b
    rw [memberMeanings, ih, List.map_cons]

/-- Expressions are closed when each of them is. -/
theorem allClosed_iff {es : List Expr} : allClosed es = true ↔ ∀ e ∈ es, e.isClosed = true := by
  induction es with
  | nil => simp [allClosed]
  | cons e rest ih => simp [allClosed, ih]

/-- Named expressions are closed when each of them is. -/
theorem membersClosed_iff {bs : List (String × Expr)} :
    membersClosed bs = true ↔ ∀ b ∈ bs, b.2.isClosed = true := by
  induction bs with
  | nil => simp [membersClosed]
  | cons b rest ih =>
    obtain ⟨name, e⟩ := b
    simp [membersClosed, ih]

/-! ## Closed expressions -/

/-- Expressions that are no lambda and no query operator and have the same values agree. -/
theorem plainMeaning_agree {e e' : Expr} {f g : Scope → Except Error Value}
    (h : ∀ scope, Outcome.Agree (f scope) (g scope)) :
    Meaning.Agree (plainMeaning e f) (plainMeaning e' g) where
  value := h
  apply _ _ := .faults _ _
  chain := .faults _ _

/-- Expressions with equal values have equal lists of them. -/
theorem mapM_value_congr {data data' : DataSource} {scope scope' : Scope} {es : List Expr}
    (h : ∀ e ∈ es, (meaning data e).value scope = (meaning data' e).value scope') :
    ((meanings data es).mapM fun m => m.value scope) =
      (meanings data' es).mapM fun m => m.value scope' := by
  rw [meanings_eq_map, meanings_eq_map, List.mapM_map, List.mapM_map]
  exact Outcome.mapM_congr h

/-- Named expressions with equal values have equal lists of them. -/
theorem mapM_named_congr {data data' : DataSource} {scope scope' : Scope}
    {bs : List (String × Expr)}
    (h : ∀ b ∈ bs, (meaning data b.2).value scope = (meaning data' b.2).value scope') :
    ((memberMeanings data bs).mapM fun m => return (m.1, ← m.2.value scope)) =
      (memberMeanings data' bs).mapM fun m => return (m.1, ← m.2.value scope') := by
  rw [memberMeanings_eq_map, memberMeanings_eq_map, List.mapM_map, List.mapM_map]
  refine Outcome.mapM_congr fun b hb => ?_
  dsimp only [Function.comp_apply]
  rw [h b hb]

/-- The value of a closed expression depends neither on the data nor on the scope. -/
theorem value_of_isClosed {e : Expr} (h : e.isClosed = true) (data data' : DataSource)
    (scope scope' : Scope) : (meaning data e).value scope = (meaning data' e).value scope' := by
  induction e with
  | constant v t => rfl
  | captured name t v => rfl
  | source t => cases h
  | parameter name t => cases h
  | lambda params body ih => cases h
  | query verb args ih => cases h
  | member target name ih =>
    rw [isClosed] at h
    simp only [meaning, plainMeaning]
    rw [ih h]
  | unary op operand ih =>
    rw [isClosed] at h
    simp only [meaning, plainMeaning]
    rw [ih h]
  | binary op l r ihl ihr =>
    rw [isClosed, Bool.and_eq_true] at h
    simp only [meaning, plainMeaning, BinaryOp.applyIn]
    rw [ihl h.1, ihr h.2]
  | conditional t p q iht ihp ihq =>
    rw [isClosed, Bool.and_eq_true, Bool.and_eq_true] at h
    simp only [meaning, plainMeaning]
    rw [iht h.1.1, ihp h.1.2, ihq h.2]
  | call f args ih =>
    rw [isClosed, Bool.and_eq_true, allClosed_iff] at h
    simp only [meaning, plainMeaning]
    rw [mapM_value_congr fun e he => ih e he (h.2 e he)]
  | array t items ih =>
    rw [isClosed, allClosed_iff] at h
    simp only [meaning, plainMeaning]
    rw [mapM_value_congr fun e he => ih e he (h e he)]
  | list t items ih =>
    rw [isClosed, allClosed_iff] at h
    simp only [meaning, plainMeaning]
    rw [mapM_value_congr fun e he => ih e he (h e he)]
  | object members ih =>
    rw [isClosed, membersClosed_iff] at h
    simp only [meaning, plainMeaning]
    rw [mapM_named_congr fun b hb => ih b hb (h b hb)]
  | construct t bindings ih =>
    rw [isClosed, membersClosed_iff] at h
    simp only [meaning, plainMeaning]
    rw [mapM_named_congr fun b hb => ih b hb (h b hb)]

/-- A closed expression is neither a lambda nor a query operator. -/
theorem meaning_of_isClosed {e : Expr} (h : e.isClosed = true) (data : DataSource) :
    meaning data e = plainMeaning e (meaning data e).value := by
  cases e with
  | lambda params body => cases h
  | query verb args => cases h
  | _ => rfl

/-- A closed expression agrees with its value as a constant. -/
theorem agree_of_isClosed {e : Expr} {v : Value} (hclosed : e.isClosed = true)
    (hvalue : e.evaluate Store.empty.elements = .ok v) (data : DataSource) (t : Ty) :
    Meaning.Agree (meaning data e) (meaning data (.constant v t)) := by
  rw [meaning_of_isClosed hclosed]
  refine plainMeaning_agree fun scope => ?_
  rw [value_of_isClosed hclosed data Store.empty.elements scope []]
  rw [evaluate] at hvalue
  rw [hvalue]

/-! ## Agreement -/

/-- Named values agree when each of them does. -/
theorem mapM_named_agree {members : List (String × Expr × Expr)} {data data' : DataSource}
    (h : ∀ z ∈ members, Meaning.Agree (meaning data z.2.1) (meaning data' z.2.2)) (scope : Scope) :
    Outcome.Agree
      ((memberMeanings data (members.map fun z => (z.1, z.2.1))).mapM fun m =>
        return (m.1, ← m.2.value scope))
      ((memberMeanings data' (members.map fun z => (z.1, z.2.2))).mapM fun m =>
        return (m.1, ← m.2.value scope)) := by
  rw [memberMeanings_eq_map, memberMeanings_eq_map, List.map_map, List.map_map]
  refine .mapM ?_
  rw [List.forall₂_map_left_iff, List.forall₂_map_right_iff, List.forall₂_same]
  intro z hz
  exact ((h z hz).value scope).bind fun _ => .refl _

/-- Values agree when each of them does. -/
theorem mapM_agree {pairs : List (Expr × Expr)} {data data' : DataSource}
    (h : ∀ z ∈ pairs, Meaning.Agree (meaning data z.1) (meaning data' z.2)) (scope : Scope) :
    Outcome.Agree ((meanings data (pairs.map Prod.fst)).mapM fun m => m.value scope)
      ((meanings data' (pairs.map Prod.snd)).mapM fun m => m.value scope) := by
  rw [meanings_eq_map, meanings_eq_map, List.map_map, List.map_map]
  refine .mapM ?_
  rw [List.forall₂_map_left_iff, List.forall₂_map_right_iff, List.forall₂_same]
  intro z hz
  exact (h z hz).value scope

/-- The arguments that a query operator reads agree when those paired do. -/
theorem getElem?_agree {pairs : List (Expr × Expr)} {extra extra' : List Expr}
    {data data' : DataSource} {n : Nat}
    (h : ∀ z ∈ pairs, Meaning.Agree (meaning data z.1) (meaning data' z.2))
    (hreads : extra = [] ∧ extra' = [] ∨ n ≤ pairs.length) {i : Nat} (hi : i < n) :
    Option.Rel Meaning.Agree (meanings data (pairs.map Prod.fst ++ extra))[i]?
      (meanings data' (pairs.map Prod.snd ++ extra'))[i]? := by
  rw [meanings_eq_map, meanings_eq_map, List.getElem?_map, List.getElem?_map]
  by_cases hlt : i < pairs.length
  · rw [List.getElem?_append_left (by rw [List.length_map]; exact hlt),
      List.getElem?_append_left (by rw [List.length_map]; exact hlt), List.getElem?_map,
      List.getElem?_map, List.getElem?_eq_getElem hlt]
    exact .some (h _ (List.getElem_mem hlt))
  · rcases hreads with ⟨rfl, rfl⟩ | hreads
    · have hnone : pairs[i]? = none := List.getElem?_eq_none (by omega)
      rw [List.append_nil, List.append_nil, List.getElem?_map, List.getElem?_map, hnone]
      exact .none
    · omega

/-- The rows of the tables of an expression, once their element types have changed as `retype` says,
stand in another data source. -/
def ReadsAs (retype : Ty → Ty) (data data' : DataSource) (e : Expr) : Prop :=
  ∀ t, .source t ∈ e.parts → Outcome.Agree (data t) (data' (retype t))

/-- What stands elsewhere of an expression stands there of each direct sub-expression. -/
theorem ReadsAs.child {retype : Ty → Ty} {data data' : DataSource} {e q : Expr}
    (h : ReadsAs retype data data' e) (hq : q ∈ e.children) : ReadsAs retype data data' q :=
  fun t ht => h t (mem_parts.mpr (.inr ⟨q, hq, ht⟩))

/-- An expression agrees with a rewritten one over a data source in which its tables stand. -/
theorem Rewrites.agree {retype : Ty → Ty} {e h : Expr} (hr : Rewrites retype e h)
    {data data' : DataSource} (hdata : ReadsAs retype data data' e) :
    Meaning.Agree (meaning data e) (meaning data' h) := by
  induction hr with
  | evaluated t hclosed hvalue => exact agree_of_isClosed hclosed hvalue data t
  | captured name t v => exact plainMeaning_agree fun _ => .refl _
  | source t => exact plainMeaning_agree fun _ => (hdata t (mem_parts_self _)).map _
  | parameter name t t' => exact plainMeaning_agree fun _ => .refl _
  | member name _ ih =>
    have h := ih (hdata.child (List.mem_cons_self ..))
    exact plainMeaning_agree fun scope => (h.value scope).bind fun _ => .refl _
  | unary op _ ih =>
    have h := ih (hdata.child (List.mem_cons_self ..))
    exact plainMeaning_agree fun scope => (h.value scope).bind fun _ => .refl _
  | binary op _ _ ihl ihr =>
    have hl := ihl (hdata.child (List.mem_cons_self ..))
    have hr := ihr (hdata.child (List.mem_cons_of_mem _ (List.mem_cons_self ..)))
    exact plainMeaning_agree fun scope => op.applyIn_agree (hl.value scope) (hr.value scope)
  | conditional _ _ _ iht ihl ihr =>
    have ht := iht (hdata.child (List.mem_cons_self ..))
    have hl := ihl (hdata.child (List.mem_cons_of_mem _ (List.mem_cons_self ..)))
    have hr := ihr (hdata.child (by simp [children]))
    refine plainMeaning_agree fun scope => (ht.value scope).bind fun v => ?_
    refine (Outcome.Agree.refl v.truth).bind fun b => ?_
    cases b with
    | true => exact hl.value scope
    | false => exact hr.value scope
  | @lambda params params' body body' hparams _ ih =>
    have hbody := ih (hdata.child (List.mem_cons_self ..))
    refine ⟨fun _ => .refl _, fun scope args => ?_, .faults _ _⟩
    have hlength : params'.length = params.length := by
      rw [← List.length_map (f := Prod.fst), hparams, List.length_map]
    simp only [meaning]
    rw [hlength, hparams]
    split
    · exact hbody.value _
    · exact .refl _
  | @query verb pairs extra extra' _ hreads _ ih =>
    have hpairs : ∀ z ∈ pairs, Meaning.Agree (meaning data z.1) (meaning data' z.2) :=
      fun z hz => ih z hz (hdata.child (List.mem_append_left _ (List.mem_map_of_mem hz)))
    refine ⟨fun scope => ?_, fun _ _ => .faults _ _, ?_⟩
    · exact Meaning.query_agree (fun i hi => getElem?_agree hpairs hreads hi) scope
    · by_cases htwo : Meaning.reads verb = 2
      · rw [htwo] at hreads
        exact Meaning.sortChain_agree fun i hi => getElem?_agree hpairs hreads hi
      · obtain ⟨f, hf⟩ := Meaning.sortChain_of_not_sort verb htwo
          (meanings data (pairs.map Prod.fst ++ extra))
        obtain ⟨f', hf'⟩ := Meaning.sortChain_of_not_sort verb htwo
          (meanings data' (pairs.map Prod.snd ++ extra'))
        simp only [meaning, hf, hf']
        exact .faults _ _
  | @thenInclude s s' extra old extra' _ _ ih =>
    have hs := ih (hdata.child (List.mem_cons_self ..))
    refine ⟨fun scope => hs.value scope, fun _ _ => .faults _ _, ?_⟩
    obtain ⟨f, hf⟩ := Meaning.sortChain_of_not_sort .thenInclude (by decide)
      (meanings data (s :: extra))
    obtain ⟨f', hf'⟩ := Meaning.sortChain_of_not_sort .include (by decide)
      (meanings data' (s' :: extra'))
    simp only [meaning, hf, hf']
    exact .faults _ _
  | @call f pairs _ ih =>
    have hpairs : ∀ z ∈ pairs, Meaning.Agree (meaning data z.1) (meaning data' z.2) :=
      fun z hz => ih z hz (hdata.child (List.mem_map_of_mem hz))
    exact plainMeaning_agree fun scope => (mapM_agree hpairs scope).bind fun _ => .refl _
  | @object members _ ih =>
    have hmembers : ∀ z ∈ members, Meaning.Agree (meaning data z.2.1) (meaning data' z.2.2) := by
      intro z hz
      refine ih z hz (hdata.child ?_)
      rw [children, List.map_map]
      exact List.mem_map_of_mem hz
    exact plainMeaning_agree fun scope => (mapM_named_agree hmembers scope).bind fun _ => .refl _
  | @array t t' pairs _ ih =>
    have hpairs : ∀ z ∈ pairs, Meaning.Agree (meaning data z.1) (meaning data' z.2) :=
      fun z hz => ih z hz (hdata.child (List.mem_map_of_mem hz))
    exact plainMeaning_agree fun scope => (mapM_agree hpairs scope).bind fun _ => .refl _
  | @list t t' pairs _ ih =>
    have hpairs : ∀ z ∈ pairs, Meaning.Agree (meaning data z.1) (meaning data' z.2) :=
      fun z hz => ih z hz (hdata.child (List.mem_map_of_mem hz))
    exact plainMeaning_agree fun scope => (mapM_agree hpairs scope).bind fun _ => .refl _
  | @construct t t' bindings _ ih =>
    have hmembers : ∀ z ∈ bindings, Meaning.Agree (meaning data z.2.1) (meaning data' z.2.2) := by
      intro z hz
      refine ih z hz (hdata.child ?_)
      rw [children, List.map_map]
      exact List.mem_map_of_mem hz
    exact plainMeaning_agree fun scope => (mapM_named_agree hmembers scope).bind fun _ => .refl _

end QueryRelay.Expr
