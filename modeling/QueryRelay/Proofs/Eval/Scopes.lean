import QueryRelay.Proofs.Expr.Rewriting

/-!
# Scopes

An expression reads its scope only to look up its free parameters, the ones that no lambda in it
binds. Main statement: its meaning is the same in two scopes in which these have the same values,
so that a scope may be extended by parameters that are not free.
-/

namespace QueryRelay

/-! ## Fixing a scope -/

/-- A chain in one scope, whatever scope it is used in. -/
def SortChain.fix (c : SortChain) (scope : Scope) : SortChain where
  source _ := c.source scope
  keys := c.keys.map fun k => (fun _ => k.1 scope, k.2)

namespace Meaning

/-- A meaning in one scope, whatever scope it is used in. -/
def fix (m : Meaning) (scope : Scope) : Meaning where
  value _ := m.value scope
  apply _ := m.apply scope
  chain := m.chain.map fun c => c.fix scope

variable {m : Meaning} {ms : List Meaning} {scope scope' : Scope}

/-- Meanings that are the same in two scopes have the same value in both. -/
theorem value_eq_of_fix (h : m.fix scope = m.fix scope') : m.value scope = m.value scope' :=
  congrArg (fun n => n.value []) h

/-- Asking for an argument in one scope. -/
theorem argument_fix {β : Type} {operator : String} {i : Nat} {f g : Meaning → Except Error β}
    (h : ∀ m : Meaning, f (m.fix scope) = g m) :
    (argument operator (ms.map fun m => m.fix scope) i >>= f) = (argument operator ms i >>= g) := by
  rw [argument, argument, List.getElem?_map]
  cases ms[i]? with
  | none => rfl
  | some m => exact h m

/-- A sort operator over arguments in one scope ends the chain in this scope. -/
theorem sortChain_fix (verb : QueryVerb) (ms : List Meaning) (scope : Scope) :
    sortChain verb (ms.map fun m => m.fix scope) =
      (sortChain verb ms).map fun c => c.fix scope := by
  rcases ms with _ | ⟨source, _ | ⟨key, more⟩⟩
  · rfl
  · rfl
  · cases verb with
    | thenBy | thenByDescending =>
      rw [List.map_cons, List.map_cons]
      dsimp only [sortChain, fix]
      rw [Outcome.map_map, Outcome.map_map]
      simp only [SortChain.fix, List.map_append, List.map_cons, List.map_nil]
    | _ => rfl

/-- A chain in one scope is sorted as in this scope. -/
theorem sorted_fix (c : SortChain) (scope scope' : Scope) :
    sorted (c.fix scope) scope' = sorted c scope := by
  rw [sorted, sorted, SortChain.fix, List.map_map]
  rfl

/-- A query operator over arguments in one scope has the value that it has in this scope. -/
theorem query_fix (verb : QueryVerb) (ms : List Meaning) (scope scope' : Scope) :
    query verb (ms.map fun m => m.fix scope) scope' = query verb ms scope := by
  have hitems (i : Nat) :
      (argument verb.name (ms.map fun m => m.fix scope) i >>= fun m => m.elements scope') =
        (argument verb.name ms i >>= fun m => m.elements scope) := argument_fix fun _ => rfl
  have hlate (i : Nat) (args : List Value) :
      (argument verb.name (ms.map fun m => m.fix scope) i >>= fun m => m.apply scope' args) =
        (argument verb.name ms i >>= fun m => m.apply scope args) := argument_fix fun _ => rfl
  have hoptional (i : Nat) :
      ((ms.map fun m => m.fix scope)[i]?.map fun m v => m.apply scope' [v]) =
        (ms[i]?.map fun m v => m.apply scope [v]) := by
    rw [List.getElem?_map, Option.map_map]
    rfl
  have hsort : (sortChain verb (ms.map fun m => m.fix scope) >>= fun c => sorted c scope') =
      (sortChain verb ms >>= fun c => sorted c scope) := by
    rw [sortChain_fix]
    cases sortChain verb ms with
    | error e => rfl
    | ok c => exact sorted_fix c scope scope'
  cases verb with
  | filter | selectMany | join => simp only [query, hitems, hlate]
  | select | skip | take =>
    simp only [query, hitems]
    exact congrArg _ (funext fun items => argument_fix fun _ => rfl)
  | orderBy | orderByDescending | thenBy | thenByDescending =>
    exact hsort
  | groupBy =>
    simp only [query, hitems, hoptional]
    exact congrArg _ (funext fun items => argument_fix fun _ => rfl)
  | «include» | thenInclude =>
    dsimp only [query]
    exact argument_fix fun _ => rfl
  | aggregate func =>
    dsimp only [query]
    simp only [hitems, hoptional]

end Meaning

/-! ## Scopes that agree -/

namespace Scope

variable {names params : List String} {args : List Value} {scope scope' : Scope} {x : String}

/-- Two scopes have the same values for certain names, if any. -/
def AgreeOn (names : List String) (scope scope' : Scope) : Prop :=
  ∀ n ∈ names, List.lookup n scope = List.lookup n scope'

/-- One more parameter of another name changes nothing. -/
theorem agreeOn_cons (h : x ∉ names) (v : Value) (scope : Scope) :
    AgreeOn names ((x, v) :: scope) scope := by
  intro n hn
  have hne : n ≠ x := fun heq => h (heq ▸ hn)
  rw [List.lookup_cons, beq_false_of_ne hne]

/-- Scopes that agree, with one more parameter each. -/
theorem AgreeOn.cons (h : AgreeOn names scope scope') (entry : String × Value) :
    AgreeOn names (entry :: scope) (entry :: scope') := by
  intro n hn
  rw [List.lookup_cons, List.lookup_cons, h n hn]

/-- Parameters that are bound to arguments have a value. -/
theorem lookup_zip_ne_none (hlength : params.length = args.length) (hx : x ∈ params) :
    List.lookup x (params.zip args).reverse ≠ none := by
  intro hnone
  rw [← List.map_fst_zip (Nat.le_of_eq hlength)] at hx
  obtain ⟨entry, hentry, rfl⟩ := List.mem_map.mp hx
  have hne := List.lookup_eq_none_iff.mp hnone entry (List.mem_reverse.mpr hentry)
  exact absurd rfl (bne_iff_ne.mp hne)

/-- Scopes that agree on all names but those of parameters agree on all once these are bound. -/
theorem AgreeOn.bind (h : AgreeOn (names.filter fun n => n ∉ params) scope scope')
    (hlength : params.length = args.length) :
    AgreeOn names (scope.bind params args) (scope'.bind params args) := by
  intro n hn
  rw [Scope.bind, Scope.bind, List.lookup_append, List.lookup_append]
  by_cases hparam : n ∈ params
  · obtain ⟨v, hv⟩ := Option.ne_none_iff_exists'.mp (lookup_zip_ne_none hlength hparam)
    rw [hv, Option.some_or, Option.some_or]
  · rw [h n (List.mem_filter.mpr ⟨hn, decide_eq_true hparam⟩)]

end Scope

/-! ## Free parameters -/

namespace Expr

mutual

/-- The names of the parameters that no lambda in an expression binds. -/
def free : Expr → List String
  | .constant _ _ | .captured _ _ _ | .source _ => []
  | .parameter n _ => [n]
  | .member target _ => free target
  | .unary _ operand => free operand
  | .binary _ l r => free l ++ free r
  | .conditional c p q => free c ++ free p ++ free q
  | .lambda params body => (free body).filter fun n => n ∉ params.map Prod.fst
  | .query _ args | .call _ args => allFree args
  | .array _ items | .list _ items => allFree items
  | .object members => membersFree members
  | .construct _ bindings => membersFree bindings
termination_by structural e => e

/-- The names of the free parameters of several expressions. -/
def allFree : List Expr → List String
  | [] => []
  | e :: rest => free e ++ allFree rest
termination_by structural es => es

/-- The names of the free parameters of named expressions. -/
def membersFree : List (String × Expr) → List String
  | [] => []
  | (_, e) :: rest => free e ++ membersFree rest
termination_by structural bs => bs

end

variable {data : DataSource} {scope scope' : Scope} {e : Expr} {es : List Expr}
  {bs : List (String × Expr)} {n : String}

/-- A parameter is free in several expressions when it is free in one of them. -/
theorem mem_allFree : n ∈ allFree es ↔ ∃ e ∈ es, n ∈ e.free := by
  induction es with
  | nil => simp [allFree]
  | cons e rest ih => simp [allFree, ih]

/-- A parameter is free in named expressions when it is free in one of them. -/
theorem mem_membersFree : n ∈ membersFree bs ↔ ∃ b ∈ bs, n ∈ b.2.free := by
  induction bs with
  | nil => simp [membersFree]
  | cons b rest ih =>
    obtain ⟨name, e⟩ := b
    simp [membersFree, ih]

/-- Scopes that agree on what is free in several expressions agree on what is free in each. -/
theorem agreeOn_of_allFree (h : scope.AgreeOn (allFree es) scope') (he : e ∈ es) :
    scope.AgreeOn e.free scope' := fun n hn => h n (mem_allFree.mpr ⟨e, he, hn⟩)

/-- Scopes that agree on what is free in named expressions agree on what is free in each. -/
theorem agreeOn_of_membersFree {b : String × Expr} (h : scope.AgreeOn (membersFree bs) scope')
    (hb : b ∈ bs) : scope.AgreeOn b.2.free scope' :=
  fun n hn => h n (mem_membersFree.mpr ⟨b, hb, hn⟩)

/-- An expression that is no lambda and no query operator is the same in two scopes in which it has
the same value. -/
theorem plainMeaning_fix {value : Scope → Except Error Value} (h : value scope = value scope') :
    (plainMeaning e value).fix scope = (plainMeaning e value).fix scope' := by
  dsimp only [plainMeaning, Meaning.fix]
  rw [h]
  rfl

/-- Main statement: the meaning of an expression is the same in two scopes that agree on its free
parameters. -/
theorem meaning_fix (h : scope.AgreeOn e.free scope') :
    (meaning data e).fix scope = (meaning data e).fix scope' := by
  -- Both scopes vary in the induction, since a lambda extends them by its arguments; values alone
  -- would not do, since query operators apply their arguments.
  induction e generalizing scope scope' with
  | constant v t => exact plainMeaning_fix rfl
  | captured name t v => exact plainMeaning_fix rfl
  | source t => exact plainMeaning_fix rfl
  | parameter name t =>
    refine plainMeaning_fix ?_
    rw [h name (List.mem_singleton_self name)]
  | member target name ih =>
    refine plainMeaning_fix ?_
    rw [Meaning.value_eq_of_fix (ih h)]
  | unary op operand ih =>
    refine plainMeaning_fix ?_
    rw [Meaning.value_eq_of_fix (ih h)]
  | binary op l r ihl ihr =>
    obtain ⟨hl, hr⟩ := List.forall_mem_append.mp h
    refine plainMeaning_fix ?_
    rw [BinaryOp.applyIn, BinaryOp.applyIn, Meaning.value_eq_of_fix (ihl hl),
      Meaning.value_eq_of_fix (ihr hr)]
  | conditional t p q iht ihp ihq =>
    obtain ⟨htp, hq⟩ := List.forall_mem_append.mp h
    obtain ⟨ht, hp⟩ := List.forall_mem_append.mp htp
    refine plainMeaning_fix ?_
    rw [Meaning.value_eq_of_fix (iht ht), Meaning.value_eq_of_fix (ihp hp),
      Meaning.value_eq_of_fix (ihq hq)]
  | lambda params body ih =>
    have hbody (args : List Value) : (meaning data (lambda params body)).apply scope args =
        (meaning data (lambda params body)).apply scope' args := by
      dsimp only [meaning]
      split
      · next hlength =>
        refine Meaning.value_eq_of_fix (ih (Scope.AgreeOn.bind h ?_))
        rw [List.length_map, hlength]
      · rfl
    rw [Meaning.fix, Meaning.fix, funext hbody]
    rfl
  | query verb args ih =>
    have hargs : (meanings data args).map (fun m => m.fix scope) =
        (meanings data args).map fun m => m.fix scope' := by
      rw [meanings_eq_map, List.map_map, List.map_map]
      exact List.map_congr_left fun e he => ih e he (agreeOn_of_allFree h he)
    dsimp only [meaning, Meaning.fix, plainMeaning]
    rw [← Meaning.query_fix verb _ scope [], ← Meaning.query_fix verb _ scope' [],
      ← Meaning.sortChain_fix, ← Meaning.sortChain_fix, hargs]
  | call f args ih =>
    refine plainMeaning_fix ?_
    rw [mapM_value_congr fun e he => Meaning.value_eq_of_fix (ih e he (agreeOn_of_allFree h he))]
  | array t items ih =>
    refine plainMeaning_fix ?_
    rw [mapM_value_congr fun e he => Meaning.value_eq_of_fix (ih e he (agreeOn_of_allFree h he))]
  | list t items ih =>
    refine plainMeaning_fix ?_
    rw [mapM_value_congr fun e he => Meaning.value_eq_of_fix (ih e he (agreeOn_of_allFree h he))]
  | object members ih =>
    refine plainMeaning_fix ?_
    rw [mapM_named_congr fun b hb => Meaning.value_eq_of_fix (ih b hb (agreeOn_of_membersFree h hb))]
  | construct t bindings ih =>
    refine plainMeaning_fix ?_
    rw [mapM_named_congr fun b hb => Meaning.value_eq_of_fix (ih b hb (agreeOn_of_membersFree h hb))]

/-- The value of an expression is the same in scopes that agree on its free parameters. -/
theorem value_congr (h : scope.AgreeOn e.free scope') :
    (meaning data e).value scope = (meaning data e).value scope' :=
  Meaning.value_eq_of_fix (meaning_fix h)

/-- The elements of an expression are the same in scopes that agree on its free parameters. -/
theorem elements_congr (h : scope.AgreeOn e.free scope') :
    (meaning data e).elements scope = (meaning data e).elements scope' := by
  rw [Meaning.elements, Meaning.elements, value_congr h]

end Expr
end QueryRelay
