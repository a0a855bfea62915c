import QueryRelay.Proofs.Eval.Scopes
import QueryRelay.Proofs.Renaming.Expressions

/-!
# Values of renamed expressions

Renamed expressions agree in two scopes in which linked parameters have the same value. A lambda
extends both scopes by its arguments, which links its parameters; every other node passes agreement
on from its direct sub-expressions.
-/

namespace QueryRelay.Expr

/-- Expressions that have the same meaning in two scopes, each in its own. -/
def AgreeIn (data : DataSource) (scope scope' : Scope) (e e' : Expr) : Prop :=
  Meaning.Agree ((meaning data e).fix scope) ((meaning data e').fix scope')

section Nodes

variable {data : DataSource} {scope scope' : Scope} {e e' : Expr} {es es' : List Expr}
  {bs bs' : List (String × Expr)}

/-- Expressions that agree in two scopes have the same values there. -/
theorem AgreeIn.value_agree (h : AgreeIn data scope scope' e e') :
    Outcome.Agree ((meaning data e).value scope) ((meaning data e').value scope') :=
  h.value []

/-- Expressions that are no lambda and no query operator agree in two scopes in which they have the
same values. -/
theorem plainMeaning_fix_agree {f g : Scope → Except Error Value}
    (h : Outcome.Agree (f scope) (g scope')) :
    Meaning.Agree ((plainMeaning e f).fix scope) ((plainMeaning e' g).fix scope') where
  value _ := h
  apply _ _ := .faults _ _
  chain := .faults _ _

/-- Lists of expressions that agree one by one have the same values. -/
theorem mapM_value_agree (h : List.Forall₂ (AgreeIn data scope scope') es es') :
    Outcome.Agree ((meanings data es).mapM fun m => m.value scope)
      ((meanings data es').mapM fun m => m.value scope') := by
  rw [meanings_eq_map, meanings_eq_map]
  refine .mapM ?_
  rw [List.forall₂_map_left_iff, List.forall₂_map_right_iff]
  exact h.imp fun _ _ hq => hq.value_agree

/-- Expressions under the same names that agree one by one have the same values. -/
theorem mapM_named_value_agree (hnames : bs'.map Prod.fst = bs.map Prod.fst)
    (h : List.Forall₂ (AgreeIn data scope scope') (bs.map Prod.snd) (bs'.map Prod.snd)) :
    Outcome.Agree ((memberMeanings data bs).mapM fun m => return (m.1, ← m.2.value scope))
      ((memberMeanings data bs').mapM fun m => return (m.1, ← m.2.value scope')) := by
  obtain ⟨rows, rfl, rfl, hrows⟩ := exists_named_pairs_of_forall₂ hnames h
  rw [memberMeanings_eq_map, memberMeanings_eq_map, List.map_map, List.map_map]
  refine .mapM (forall₂_map_of_forall fun r hr => ?_)
  exact (hrows r hr).value_agree.bind fun _ => .refl _

/-- A query operator over arguments that agree one by one agrees. -/
theorem agreeIn_query (verb : QueryVerb) (h : List.Forall₂ (AgreeIn data scope scope') es es') :
    AgreeIn data scope scope' (.query verb es) (.query verb es') := by
  have hargs (i : Nat) : Option.Rel Meaning.Agree
      ((meanings data es).map fun m => m.fix scope)[i]?
      ((meanings data es').map fun m => m.fix scope')[i]? := by
    rw [meanings_eq_map, meanings_eq_map, List.map_map, List.map_map]
    refine rel_getElem?_of_forall₂ ?_ i
    rw [List.forall₂_map_left_iff, List.forall₂_map_right_iff]
    exact h
  have hvalue := @Meaning.query_agree _ _ verb (fun i _ => hargs i) []
  have hchain := @Meaning.sortChain_agree _ _ verb fun i _ => hargs i
  rw [Meaning.query_fix, Meaning.query_fix] at hvalue
  rw [Meaning.sortChain_fix, Meaning.sortChain_fix] at hchain
  exact ⟨fun _ => hvalue, fun _ _ => .faults _ _, hchain⟩

/-- Expressions with the same node agree when their direct sub-expressions do, a parameter and a
lambda apart. -/
theorem SameNode.agreeIn (hnode : SameNode e e') (hnames : e.hasNames = false)
    (h : List.Forall₂ (AgreeIn data scope scope') e.children e'.children) :
    AgreeIn data scope scope' e e' := by
  cases hnode with
  | parameter | lambda => cases hnames
  | constant | captured | source => exact plainMeaning_fix_agree (.refl _)
  | member target target' name =>
    obtain _ | ⟨h, _⟩ := h
    exact plainMeaning_fix_agree (h.value_agree.bind fun _ => .refl _)
  | unary op operand operand' =>
    obtain _ | ⟨h, _⟩ := h
    exact plainMeaning_fix_agree (h.value_agree.bind fun _ => .refl _)
  | binary op l l' r r' =>
    obtain _ | ⟨hl, _ | ⟨hr, _⟩⟩ := h
    -- The operands stand in two scopes: as functions that look at neither they stand in one.
    have happly := @BinaryOp.applyIn_agree (fun _ => (meaning data l).value scope)
      (fun _ => (meaning data l').value scope') (fun _ => (meaning data r).value scope)
      (fun _ => (meaning data r').value scope') [] hl.value_agree hr.value_agree op
    exact plainMeaning_fix_agree happly
  | conditional =>
    obtain _ | ⟨ht, _ | ⟨hp, _ | ⟨hq, _⟩⟩⟩ := h
    refine plainMeaning_fix_agree (ht.value_agree.bind fun v => ?_)
    refine (Outcome.Agree.refl v.truth).bind fun b => ?_
    cases b with
    | true => exact hp.value_agree
    | false => exact hq.value_agree
  | query verb args args' => exact agreeIn_query verb h
  | call | array | list =>
    exact plainMeaning_fix_agree ((mapM_value_agree h).bind fun _ => .refl _)
  | object hbindings | construct t hbindings =>
    exact plainMeaning_fix_agree ((mapM_named_value_agree hbindings h).bind fun _ => .refl _)

end Nodes

namespace Renamed

variable {R : String → String → Prop} {binders : BinderPairs} {e e' : Expr} {data : DataSource}

/-- Renamed expressions agree in scopes in which linked parameters have the same value. -/
theorem agreeIn (h : Renamed R binders e e') {scope scope' : Scope}
    (hscopes : ScopesAlike binders scope scope') : AgreeIn data scope scope' e e' := by
  induction h generalizing scope scope' with
  | @parameter binders x y t hlinked =>
    refine plainMeaning_fix_agree ?_
    rw [hscopes x y hlinked]
    cases List.lookup y scope' with
    | some v => exact .refl _
    | none => exact .faults _ _
  | @lambda binders body body' params _ _ ih =>
    refine ⟨fun _ => .refl _, fun _ args => ?_, .faults _ _⟩
    simp only [meaning, Meaning.fix, List.length_map, List.map_map]
    split
    · next hlength =>
      -- The rows that both scopes gain: the two names of a parameter with its argument.
      have hrows := hscopes.bind ((params.map Prod.fst).zip args)
      have hnames (side : String × String → String) (names : List (String × String)) :
          (names.zip args).map (fun r => (side r.1, r.2)) = (names.map side).zip args :=
        List.zip_map_left.symm
      rw [List.map_fst_zip (Nat.le_of_eq (by rw [List.length_map, hlength])), hnames Prod.fst,
        hnames Prod.snd, List.map_map, List.map_map] at hrows
      exact (ih hrows).value_agree
    · exact .refl _
  | node pairs hnames hnode hchildren hchildren' _ ih =>
    refine hnode.agreeIn hnames ?_
    rw [hchildren, hchildren']
    exact forall₂_map_of_forall fun z hz => ih z hz hscopes

/-- Renamed expressions without parameters around them have the same value. -/
theorem evaluate_agree (h : Renamed R [] e e') (data : DataSource) :
    Outcome.Agree (e.evaluate data) (e'.evaluate data) :=
  (h.agreeIn (scopesAlike_nil [] [])).value_agree

end Renamed

end QueryRelay.Expr
