import QueryRelay.Eval.Meaning
import QueryRelay.Proofs.Outcome

/-!
# Agreeing meanings

Two meanings agree when they give the same values, in every scope and on all arguments, and end the
same chains of sort keys; they may fail for different reasons. The operations on sequences keep
agreement of the selectors that they run, and a query operator keeps agreement of the arguments that
it reads.
-/

namespace QueryRelay

open Outcome

/-- Selectors that agree on every value. -/
def SelectorsAgree (f g : Selector) : Prop := ∀ v, Agree (f v) (g v)

namespace Sequence

/-- Agreeing tests keep the same elements. -/
theorem keep_agree {f g : Selector} (h : SelectorsAgree f g) (items : List Value) :
    Agree (keep f items) (keep g items) := by
  induction items with
  | nil => exact .refl _
  | cons v rest ih =>
    exact (h v).bind fun a => (Agree.refl a.truth).bind fun _ => ih.bind fun _ => .refl _

/-- Agreeing selectors have the same images to put together. -/
theorem flatMap_agree {f g : Selector} (h : SelectorsAgree f g) (items : List Value) :
    Agree (flatMap f items) (flatMap g items) := by
  induction items with
  | nil => exact .refl _
  | cons v rest ih =>
    exact (h v).bind fun a => (Agree.refl a.elements).bind fun _ => ih.bind fun _ => .refl _

/-- Agreeing sort keys sort alike. -/
theorem sort_agree {ks ls : List (Selector × SortDirection)}
    (h : List.Forall₂ (fun k l => SelectorsAgree k.1 l.1 ∧ k.2 = l.2) ks ls)
    (items : List Value) : Agree (sort ks items) (sort ls items) := by
  have hdirections : ks.map Prod.snd = ls.map Prod.snd := by
    induction h with
    | nil => rfl
    | cons hkl _ ih => rw [List.map_cons, List.map_cons, hkl.2, ih]
  have hkeyed (v : Value) : Agree (keyed (ks.map Prod.fst) v) (keyed (ls.map Prod.fst) v) := by
    refine Agree.bind ?_ fun _ => .refl _
    rw [List.mapM_map, List.mapM_map]
    exact .mapM (h.imp fun _ _ hkl => hkl.1 v)
  rw [sort, sort, hdirections]
  exact (Agree.mapM_same hkeyed items).bind fun _ => .refl _

/-- Agreeing keys and images form the same groups. -/
theorem groupBy_agree {f g : Selector} {image image' : Option Selector} (h : SelectorsAgree f g)
    (himage : Option.Rel SelectorsAgree image image') (items : List Value) :
    Agree (groupBy f image items) (groupBy g image' items) := by
  refine Agree.bind (Agree.mapM_same (fun v => (h v).bind fun _ => ?_) items) fun _ => .refl _
  cases himage with
  | none => exact .refl _
  | some himage => exact (himage v).bind fun _ => .refl _

/-- Agreeing keys and results form the same pairs. -/
theorem join_agree {f f' g g' : Selector} {r r' : Value → Value → Except Error Value}
    (hf : SelectorsAgree f f') (hg : SelectorsAgree g g')
    (hr : ∀ v w, Agree (r v w) (r' v w)) (outer inner : List Value) :
    Agree (join f g r outer inner) (join f' g' r' outer inner) := by
  refine Agree.bind (Agree.mapM_same (fun v => (hg v).bind fun _ => .refl _) inner) fun pairs => ?_
  refine Agree.bind (Agree.mapM_same (fun v => ?_) outer) fun _ => .refl _
  exact (hf v).bind fun key => Agree.mapM_same (fun w => hr v w) _

/-- Agreeing predicates qualify the same elements. -/
theorem qualifying_agree {f g : Option Selector} (h : Option.Rel SelectorsAgree f g)
    (items : List Value) : Agree (qualifying f items) (qualifying g items) := by
  cases h with
  | none => exact .refl _
  | some h => exact keep_agree h items

/-- Agreeing selectors have the same images. -/
theorem present_agree {f g : Option Selector} (h : Option.Rel SelectorsAgree f g)
    (items : List Value) : Agree (present f items) (present g items) := by
  cases h with
  | none => exact .refl _
  | some h => exact (Agree.mapM_same h items).bind fun _ => .refl _

/-- Agreeing arguments of an aggregate give the same value. -/
theorem aggregate_agree {f g : Option Selector} (h : Option.Rel SelectorsAgree f g)
    (func : Aggregate) (items : List Value) :
    Agree (aggregate func f items) (aggregate func g items) := by
  cases func with
  | count | any | all | firstOrDefault => exact (qualifying_agree h items).map _
  | first | single | singleOrDefault => exact (qualifying_agree h items).bind fun _ => .refl _
  | sum | min | max | average => exact (present_agree h items).bind fun _ => .refl _

end Sequence

/-- Chains of sort keys that agree: both are faults, or their sources and their keys agree, in the
same directions. -/
inductive ChainsAgree : Except Error SortChain → Except Error SortChain → Prop
  /-- All faults agree. -/
  | faults (e e' : Error) : ChainsAgree (.error e) (.error e')
  /-- Agreeing sources with agreeing keys agree. -/
  | chains {c d : SortChain} (hsource : ∀ scope, Agree (c.source scope) (d.source scope))
      (hkeys : List.Forall₂ (fun k l => (∀ scope args, Agree (k.1 scope args) (l.1 scope args)) ∧
        k.2 = l.2) c.keys d.keys) : ChainsAgree (.ok c) (.ok d)

namespace Meaning

/-- Meanings that agree in every use. -/
structure Agree (m n : Meaning) : Prop where
  /-- They have the same values. -/
  value : ∀ scope, Outcome.Agree (m.value scope) (n.value scope)
  /-- They have the same results. -/
  apply : ∀ scope args, Outcome.Agree (m.apply scope args) (n.apply scope args)
  /-- They end the same chains. -/
  chain : ChainsAgree m.chain n.chain

/-- Agreeing meanings have the same elements. -/
theorem Agree.elements {m n : Meaning} (h : Agree m n) (scope : Scope) :
    Outcome.Agree (m.elements scope) (n.elements scope) :=
  (h.value scope).bind fun _ => .refl _

/-- How many arguments a query operator reads at most. -/
def reads : QueryVerb → Nat
  | .include | .thenInclude => 1
  | .groupBy => 3
  | .join => 5
  | _ => 2

variable {ms ns : List Meaning}

/-- Asking for agreeing arguments agrees. -/
theorem argument_agree {β : Type} {operator : String} {i : Nat}
    (h : Option.Rel Agree ms[i]? ns[i]?) {f g : Meaning → Except Error β}
    (hfg : ∀ m n, Agree m n → Outcome.Agree (f m) (g n)) :
    Outcome.Agree (argument operator ms i >>= f) (argument operator ns i >>= g) := by
  rw [argument, argument]
  cases hm : ms[i]? with
  | none =>
    rw [hm] at h
    cases hn : ns[i]? with
    | none => exact .refl _
    | some n =>
      rw [hn] at h
      cases h
  | some m =>
    rw [hm] at h
    cases hn : ns[i]? with
    | none =>
      rw [hn] at h
      cases h
    | some n =>
      rw [hn] at h
      cases h with
      | some h => exact hfg m n h

/-- A sort operator ends agreeing chains when its source and its key agree. -/
theorem sortChain_agree {verb : QueryVerb} (h : ∀ i < 2, Option.Rel Agree ms[i]? ns[i]?) :
    ChainsAgree (sortChain verb ms) (sortChain verb ns) := by
  have h₀ := h 0 (by omega)
  have h₁ := h 1 (by omega)
  rcases ms with _ | ⟨m, _ | ⟨m', ms⟩⟩ <;> rcases ns with _ | ⟨n, _ | ⟨n', ns⟩⟩
  · exact .faults _ _
  · cases h₀
  · cases h₀
  · cases h₀
  · exact .faults _ _
  · cases h₁
  · cases h₀
  · cases h₁
  · cases h₀ with
    | some hsource =>
      cases h₁ with
      | some hkey =>
        cases verb with
        | orderBy | orderByDescending =>
          exact .chains hsource.value (.cons ⟨hkey.apply, rfl⟩ .nil)
        | thenBy | thenByDescending =>
          have hchain := hsource.chain
          dsimp only [sortChain]
          cases hm : m.chain with
          | error e =>
            rw [hm] at hchain
            cases hn : n.chain with
            | error e' => exact .faults _ _
            | ok d =>
              rw [hn] at hchain
              cases hchain
          | ok c =>
            rw [hm] at hchain
            cases hn : n.chain with
            | error e' =>
              rw [hn] at hchain
              cases hchain
            | ok d =>
              rw [hn] at hchain
              cases hchain with
              | chains hs hks =>
                exact .chains hs (List.rel_append hks (.cons ⟨hkey.apply, rfl⟩ .nil))
        | _ => exact .faults _ _

/-- Agreeing chains sort alike. -/
theorem sorted_agree {x y : Except Error SortChain} (h : ChainsAgree x y) (scope : Scope) :
    Outcome.Agree (x >>= fun c => sorted c scope) (y >>= fun c => sorted c scope) := by
  cases h with
  | faults e e' => exact .faults e e'
  | @chains c d hsource hkeys =>
    refine (hsource scope).bind fun v => (Agree.refl v.elements).bind fun items => ?_
    refine (Sequence.sort_agree ?_ items).bind fun _ => .refl _
    rw [List.forall₂_map_left_iff, List.forall₂_map_right_iff]
    exact hkeys.imp fun _ _ h => ⟨fun v => h.1 scope [v], h.2⟩

/-- A query operator has the same values over agreeing arguments, as far as it reads them. -/
theorem query_agree {verb : QueryVerb} (h : ∀ i < reads verb, Option.Rel Agree ms[i]? ns[i]?)
    (scope : Scope) : Outcome.Agree (query verb ms scope) (query verb ns scope) := by
  have hitems {i : Nat} (hi : i < reads verb) :
      Outcome.Agree (argument verb.name ms i >>= fun m => m.elements scope)
        (argument verb.name ns i >>= fun m => m.elements scope) :=
    argument_agree (h i hi) fun _ _ hmn => hmn.elements scope
  have hlate {i : Nat} (hi : i < reads verb) :
      SelectorsAgree (fun v => argument verb.name ms i >>= fun m => m.apply scope [v])
        (fun v => argument verb.name ns i >>= fun m => m.apply scope [v]) := by
    intro v
    exact argument_agree (h i hi) fun _ _ hmn => hmn.apply scope [v]
  have hoptional {i : Nat} (hi : i < reads verb) :
      Option.Rel SelectorsAgree (ms[i]?.map fun m v => m.apply scope [v])
        (ns[i]?.map fun m v => m.apply scope [v]) := by
    have hrel := h i hi
    cases hm : ms[i]? <;> cases hn : ns[i]? <;> rw [hm, hn] at hrel <;> cases hrel
    · exact .none
    · rename_i hmn
      exact .some fun v => hmn.apply scope [v]
  cases verb with
  | filter =>
    refine (hitems (by decide)).bind fun items => ?_
    exact (Sequence.keep_agree (hlate (by decide)) items).bind fun _ => .refl _
  | select =>
    refine (hitems (by decide)).bind fun items => ?_
    refine argument_agree (h 1 (by decide)) fun m n hmn => ?_
    exact (Outcome.Agree.mapM_same (fun v => hmn.apply scope [v]) items).bind fun _ => .refl _
  | selectMany =>
    refine (hitems (by decide)).bind fun items => ?_
    exact (Sequence.flatMap_agree (hlate (by decide)) items).bind fun _ => .refl _
  | orderBy | orderByDescending | thenBy | thenByDescending =>
    exact sorted_agree (sortChain_agree h) scope
  | skip | take =>
    refine (hitems (by decide)).bind fun items => ?_
    refine argument_agree (h 1 (by decide)) fun m n hmn => ?_
    exact (hmn.value scope).bind fun _ => .refl _
  | groupBy =>
    refine (hitems (by decide)).bind fun items => ?_
    refine argument_agree (h 1 (by decide)) fun m n hmn => ?_
    refine Outcome.Agree.bind ?_ fun _ => .refl _
    exact Sequence.groupBy_agree (fun v => hmn.apply scope [v]) (hoptional (by decide)) items
  | join =>
    refine (hitems (by decide)).bind fun outer => (hitems (by decide)).bind fun inner => ?_
    refine Outcome.Agree.bind ?_ fun _ => .refl _
    refine Sequence.join_agree (hlate (by decide)) (hlate (by decide)) (fun v w => ?_) outer inner
    exact argument_agree (h 4 (by decide)) fun _ _ hmn => hmn.apply scope [v, w]
  | «include» | thenInclude =>
    exact argument_agree (h 0 (by decide)) fun _ _ hmn => hmn.value scope
  | aggregate func =>
    refine (hitems Nat.zero_lt_two).bind fun items => ?_
    exact Sequence.aggregate_agree (hoptional Nat.one_lt_two) func items

/-- Operators that are no sort end no chain. -/
theorem sortChain_of_not_sort (verb : QueryVerb) (h : reads verb ≠ 2) (ms : List Meaning) :
    ∃ e, sortChain verb ms = .error e := by
  rcases ms with _ | ⟨m, _ | ⟨m', ms⟩⟩
  · exact ⟨_, rfl⟩
  · exact ⟨_, rfl⟩
  · cases verb with
    | groupBy | join | «include» | thenInclude => exact ⟨_, rfl⟩
    | _ => exact absurd rfl h

end Meaning

/-- An operator on two operands has the same values over agreeing operands. -/
theorem BinaryOp.applyIn_agree {l l' r r' : Scope → Except Error Value} {scope : Scope}
    (hl : Agree (l scope) (l' scope)) (hr : Agree (r scope) (r' scope)) (op : BinaryOp) :
    Agree (op.applyIn l r scope) (op.applyIn l' r' scope) := by
  refine hl.bind fun v => ?_
  cases op with
  | and =>
    refine (Agree.refl v.truth).bind fun b => ?_
    cases b with
    | true => exact hr.bind fun _ => .refl _
    | false => exact .refl _
  | or =>
    refine (Agree.refl v.truth).bind fun b => ?_
    cases b with
    | true => exact .refl _
    | false => exact hr.bind fun _ => .refl _
  | coalesce =>
    dsimp only
    split
    · exact hr
    · exact .refl _
  | _ => exact hr.bind fun _ => .refl _

end QueryRelay
