import QueryRelay.Proofs.Payload.Values
import QueryRelay.Proofs.Plan.Nodes

/-!
# Plans as data of a shape

The datum of a plan is of the shape that the schema lists and stands for the plan, provided that
every constant in the plan can be sent.
-/

namespace QueryRelay

open Payload (OfShape OfFields)

/-! ## Things without content -/

namespace Datum

/-- The datum of one of several things with distinct names stands for the thing. -/
theorem choice?_ofChoice {α : Type} [BEq α] {every : List α} {name : α → String} {x : α}
    (h : (every.find? fun y => name y == name x) = some x) :
    choice? every name (ofChoice every name x) = some x := h

/-- The data of texts stand for them. -/
theorem texts?_map (names : List String) : texts? (names.map .text) = some names := by
  induction names with
  | nil => rfl
  | cons s rest ih => rw [List.map_cons, texts?, ih, Option.map_some]

end Datum

namespace Plan

/-- The datum of a unary operator is of its shape. -/
theorem unary_ofShape (op : UnaryOp) : OfShape (.sort .unaryOp) (unaryToDatum op) := by
  cases op <;> exact .variant rfl rfl

/-- The datum of a binary operator is of its shape. -/
theorem binary_ofShape (op : BinaryOp) : OfShape (.sort .binaryOp) (binaryToDatum op) := by
  cases op <;> exact .variant rfl rfl

/-- The datum of an aggregate is of its shape. -/
theorem aggregate_ofShape (func : Aggregate) :
    OfShape (.sort .aggregate) (aggregateToDatum func) := by
  cases func <;> exact .variant rfl rfl

/-- The datum of a direction is of its shape. -/
theorem direction_ofShape (d : SortDirection) :
    OfShape (.sort .direction) (directionToDatum d) := by
  cases d <;> exact .variant rfl rfl

/-- The datum of a unary operator stands for it. -/
theorem choice?_unaryToDatum (op : UnaryOp) :
    Datum.choice? UnaryOp.all UnaryOp.name (unaryToDatum op) = some op :=
  Datum.choice?_ofChoice (by cases op <;> rfl)

/-- The datum of a binary operator stands for it. -/
theorem choice?_binaryToDatum (op : BinaryOp) :
    Datum.choice? BinaryOp.all BinaryOp.name (binaryToDatum op) = some op :=
  Datum.choice?_ofChoice (by cases op <;> rfl)

/-- The datum of an aggregate stands for it. -/
theorem choice?_aggregateToDatum (func : Aggregate) :
    Datum.choice? Aggregate.every Aggregate.name (aggregateToDatum func) = some func :=
  Datum.choice?_ofChoice (by cases func <;> rfl)

/-- The datum of a direction stands for it. -/
theorem choice?_directionToDatum (d : SortDirection) :
    Datum.choice? SortDirection.all SortDirection.name (directionToDatum d) = some d :=
  Datum.choice?_ofChoice (by cases d <;> rfl)

/-! ## Parameters and lists of plans -/

/-- The datum of a parameter is of the shape of parameters. -/
theorem parameter_ofShape (p : Parameter) : OfShape (.sort .parameter) (parameterToDatum p) :=
  .product rfl (.required rfl (.text p.name) (.required rfl p.type.ofShape .nil))

/-- The datum of a parameter stands for it. -/
theorem parameterOfDatum?_parameterToDatum (p : Parameter) :
    parameterOfDatum? (parameterToDatum p) = some p := by
  rw [parameterToDatum, parameterOfDatum?, Descriptor.ofDatum?_toDatum]
  rfl

/-- The data of parameters stand for them. -/
theorem mapM_parameterToDatum (params : List Parameter) :
    (params.map parameterToDatum).mapM parameterOfDatum? = some params := by
  induction params with
  | nil => rfl
  | cons p rest ih =>
    rw [List.map_cons, List.mapM_cons, parameterOfDatum?_parameterToDatum, ih]
    rfl

/-- Several plans have their data one by one. -/
theorem allToData_eq_map (ps : List Plan) : allToData ps = ps.map toDatum := by
  induction ps with
  | nil => rfl
  | cons p rest ih => rw [allToData, ih, List.map_cons]

/-- Plans that can be read one by one can be read as a list. -/
theorem allOfData?_allToData {ps : List Plan} (h : ∀ p ∈ ps, ofDatum? p.toDatum = some p) :
    allOfData? (allToData ps) = some ps := by
  induction ps with
  | nil => rfl
  | cons p rest ih =>
    obtain ⟨hp, hrest⟩ := List.forall_mem_cons.mp h
    rw [allToData, allOfData?, hp, ih hrest]
    rfl

/-- Member bindings whose values can be read one by one can be read as a list. -/
theorem bindingsOfData?_bindingsToData {bs : List (String × Plan)}
    (h : ∀ p ∈ bs.map Prod.snd, ofDatum? p.toDatum = some p) :
    bindingsOfData? (bindingsToData bs) = some bs := by
  induction bs with
  | nil => rfl
  | cons b rest ih =>
    obtain ⟨name, p⟩ := b
    obtain ⟨hp, hrest⟩ := List.forall_mem_cons.mp h
    rw [bindingsToData, bindingsOfData?, hp, ih hrest]
    rfl

/-- The data of several plans are of the shape of plans when those of each are. -/
theorem all_ofShape {ps : List Plan} (h : ∀ p ∈ ps, OfShape (.sort .plan) p.toDatum) :
    OfShape (.list (.sort .plan)) (.list (allToData ps)) := by
  rw [allToData_eq_map]
  exact .list (List.forall_mem_map.mpr h)

/-- The data of member bindings are of their shape when those of the values are. -/
theorem bindings_ofShape {bs : List (String × Plan)}
    (h : ∀ p ∈ bs.map Prod.snd, OfShape (.sort .plan) p.toDatum) :
    ∀ d ∈ bindingsToData bs, OfShape (.sort .binding) d := by
  induction bs with
  | nil => exact List.forall_mem_nil _
  | cons b rest ih =>
    obtain ⟨name, p⟩ := b
    obtain ⟨hp, hrest⟩ := List.forall_mem_cons.mp h
    exact List.forall_mem_cons.mpr
      ⟨.product rfl (.required rfl (.text name) (.required rfl hp .nil)), ih hrest⟩

/-! ## Shapes -/

/-- The datum of a stage is of the shape of stages when those of its sub-plans are of the shape of
plans. -/
theorem op_ofShape {op : QueryOp Plan} (h : ∀ q ∈ op.children, OfShape (.sort .plan) q.toDatum) :
    OfShape (.sort .stage) (opToDatum op) := by
  cases op with
  | source element => exact .case rfl rfl (.required rfl element.ofShape .nil)
  | filter s p =>
    obtain ⟨hs, h⟩ := List.forall_mem_cons.mp h
    obtain ⟨hp, -⟩ := List.forall_mem_cons.mp h
    exact .case rfl rfl (.required rfl hs (.required rfl hp .nil))
  | project s f many =>
    obtain ⟨hs, h⟩ := List.forall_mem_cons.mp h
    obtain ⟨hf, -⟩ := List.forall_mem_cons.mp h
    exact .case rfl rfl (.required rfl hs (.required rfl hf (.required rfl (.bool many) .nil)))
  | sort s keys =>
    obtain ⟨hs, hkeys⟩ := List.forall_mem_cons.mp h
    exact .case rfl rfl (.required rfl hs (.required rfl (all_ofShape hkeys) .nil))
  | skip s n | take s n =>
    obtain ⟨hs, -⟩ := List.forall_mem_cons.mp h
    exact .case rfl rfl (.required rfl hs (.required rfl (.natural n) .nil))
  | groupBy s k e =>
    obtain ⟨hs, h⟩ := List.forall_mem_cons.mp h
    obtain ⟨hk, h⟩ := List.forall_mem_cons.mp h
    cases e with
    | none => exact .case rfl rfl (.required rfl hs (.required rfl hk (.absent rfl .nil)))
    | some e =>
      obtain ⟨he, -⟩ := List.forall_mem_cons.mp h
      exact .case rfl rfl (.required rfl hs (.required rfl hk (.present rfl he .nil)))
  | join o i ok ik r =>
    obtain ⟨ho, h⟩ := List.forall_mem_cons.mp h
    obtain ⟨hi, h⟩ := List.forall_mem_cons.mp h
    obtain ⟨hok, h⟩ := List.forall_mem_cons.mp h
    obtain ⟨hik, h⟩ := List.forall_mem_cons.mp h
    obtain ⟨hr, -⟩ := List.forall_mem_cons.mp h
    exact .case rfl rfl (.required rfl ho (.required rfl hi (.required rfl hok
      (.required rfl hik (.required rfl hr .nil)))))
  | «include» s path =>
    obtain ⟨hs, -⟩ := List.forall_mem_cons.mp h
    exact .case rfl rfl (.required rfl hs (.required rfl (.text path) .nil))
  | aggregate s func a =>
    obtain ⟨hs, h⟩ := List.forall_mem_cons.mp h
    cases a with
    | none =>
      exact .case rfl rfl
        (.required rfl hs (.required rfl (aggregate_ofShape func) (.absent rfl .nil)))
    | some a =>
      obtain ⟨ha, -⟩ := List.forall_mem_cons.mp h
      exact .case rfl rfl
        (.required rfl hs (.required rfl (aggregate_ofShape func) (.present rfl ha .nil)))

/-- A plan that can be sent: so can every constant in it. -/
def IsPortable (p : Plan) : Prop := ∀ v t, .constant v t ∈ p.nodes → v.IsPortable

/-- The direct sub-plans of a plan that can be sent can be sent. -/
theorem IsPortable.child {p q : Plan} (h : p.IsPortable) (hq : q ∈ p.children) : q.IsPortable :=
  fun v t hmem => h v t (mem_nodes.mpr (.inr ⟨q, hq, hmem⟩))

/-- The datum of a plan that can be sent is of the shape of plans. -/
theorem IsPortable.ofShape {p : Plan} (h : p.IsPortable) : OfShape (.sort .plan) p.toDatum := by
  induction p using induct with
  | node p ih =>
    have hchildren := fun q hq => ih q hq (h.child hq)
    cases p with
    | constant v t =>
      have hv := h v t (mem_nodes_self _)
      exact .case rfl rfl (.required rfl hv.ofShape (.required rfl t.ofShape .nil))
    | member target declaring name t =>
      obtain ⟨htarget, -⟩ := List.forall_mem_cons.mp hchildren
      exact .case rfl rfl (.required rfl htarget (.required rfl declaring.ofShape
        (.required rfl (.text name) (.required rfl t.ofShape .nil))))
    | unary op operand t =>
      obtain ⟨hoperand, -⟩ := List.forall_mem_cons.mp hchildren
      exact .case rfl rfl (.required rfl (unary_ofShape op) (.required rfl hoperand
        (.required rfl t.ofShape .nil)))
    | binary op l r t =>
      obtain ⟨hl, hrest⟩ := List.forall_mem_cons.mp hchildren
      obtain ⟨hr, -⟩ := List.forall_mem_cons.mp hrest
      exact .case rfl rfl (.required rfl (binary_ofShape op) (.required rfl hl
        (.required rfl hr (.required rfl t.ofShape .nil))))
    | conditional c x y t =>
      obtain ⟨hc, hrest⟩ := List.forall_mem_cons.mp hchildren
      obtain ⟨hx, hrest⟩ := List.forall_mem_cons.mp hrest
      obtain ⟨hy, -⟩ := List.forall_mem_cons.mp hrest
      exact .case rfl rfl (.required rfl hc (.required rfl hx (.required rfl hy
        (.required rfl t.ofShape .nil))))
    | lambda params body t =>
      obtain ⟨hbody, -⟩ := List.forall_mem_cons.mp hchildren
      have hparams : OfShape (.list (.sort .parameter)) (.list (params.map parameterToDatum)) :=
        .list (List.forall_mem_map.mpr fun p _ => parameter_ofShape p)
      exact .case rfl rfl (.required rfl hparams (.required rfl hbody
        (.required rfl t.ofShape .nil)))
    | parameter p => exact .wrapped rfl rfl (parameter_ofShape p)
    | call declaring name args t =>
      exact .case rfl rfl (.required rfl declaring.ofShape (.required rfl (.text name)
        (.required rfl (all_ofShape hchildren) (.required rfl t.ofShape .nil))))
    | object members args t =>
      have hmembers : OfShape (.list .text) (.list (members.map .text)) :=
        .list (List.forall_mem_map.mpr fun s _ => .text s)
      exact .case rfl rfl (.required rfl hmembers (.required rfl (all_ofShape hchildren)
        (.required rfl t.ofShape .nil)))
    | array items t | list items t =>
      exact .case rfl rfl (.required rfl (all_ofShape hchildren) (.required rfl t.ofShape .nil))
    | construct bindings t =>
      exact .case rfl rfl (.required rfl (.list (bindings_ofShape hchildren))
        (.required rfl t.ofShape .nil))
    | sortKey key d =>
      obtain ⟨hkey, -⟩ := List.forall_mem_cons.mp hchildren
      exact .case rfl rfl (.required rfl hkey (.required rfl (direction_ofShape d) .nil))
    | query op t =>
      exact .case rfl rfl (.required rfl (op_ofShape hchildren) (.required rfl t.ofShape .nil))

/-! ## Reading -/

/-- The datum of a plan is no list. -/
theorem toDatum_ne_list (p : Plan) (items : List Datum) : p.toDatum ≠ .list items := by
  cases p <;> nofun

/-- The datum of a plan is no natural. -/
theorem toDatum_ne_natural (p : Plan) (n : UInt64) : p.toDatum ≠ .natural n := by
  cases p <;> nofun

/-- The datum of a plan is no text. -/
theorem toDatum_ne_text (p : Plan) (s : String) : p.toDatum ≠ .text s := by
  cases p <;> nofun

/-- The datum of a stage is no list. -/
theorem opToDatum_ne_list (op : QueryOp Plan) (items : List Datum) :
    opToDatum op ≠ .list items := by
  cases op with
  | groupBy s k e => cases e <;> nofun
  | aggregate s func a => cases a <;> nofun
  | _ => nofun

/-- A sub-plan that may be absent is read when it can be read if it is there. -/
theorem optionalOfDatum?_present {q : Plan} (h : ofDatum? q.toDatum = some q) :
    optionalOfDatum? (.present q.toDatum) = some (some q) := by
  rw [optionalOfDatum?, h, Option.map_some]

/-- The datum of a stage stands for the stage when those of its sub-plans stand for them. -/
theorem opOfDatum?_opToDatum {op : QueryOp Plan}
    (h : ∀ q ∈ op.children, ofDatum? q.toDatum = some q) : opOfDatum? (opToDatum op) = some op := by
  cases op with
  | source element =>
    rw [opToDatum, opOfDatum?, stageOfFields?, if_pos rfl, Descriptor.ofDatum?_toDatum]
    rfl
  | filter s p =>
    obtain ⟨hs, h⟩ := List.forall_mem_cons.mp h
    obtain ⟨hp, -⟩ := List.forall_mem_cons.mp h
    rw [opToDatum, opOfDatum?, stageOfFields?, if_pos rfl, hs, hp]
    · rfl
    · exact p.toDatum_ne_list
    · exact p.toDatum_ne_natural
    · exact p.toDatum_ne_text
  | project s f many =>
    obtain ⟨hs, h⟩ := List.forall_mem_cons.mp h
    obtain ⟨hf, -⟩ := List.forall_mem_cons.mp h
    rw [opToDatum, opOfDatum?, stageOfFields?, if_pos rfl, hs, hf]
    rfl
  | sort s keys =>
    obtain ⟨hs, hkeys⟩ := List.forall_mem_cons.mp h
    rw [opToDatum, opOfDatum?, stageOfFields?, if_pos rfl, hs, allOfData?_allToData hkeys]
    rfl
  | skip s n | take s n =>
    obtain ⟨hs, -⟩ := List.forall_mem_cons.mp h
    rw [opToDatum, opOfDatum?, stageOfFields?, hs]
    rfl
  | groupBy s k e =>
    obtain ⟨hs, h⟩ := List.forall_mem_cons.mp h
    obtain ⟨hk, h⟩ := List.forall_mem_cons.mp h
    cases e with
    | none =>
      rw [opToDatum, opOfDatum?, stageOfFields?, if_pos rfl, hs, hk]
      · rfl
      · nofun
    | some e =>
      obtain ⟨he, -⟩ := List.forall_mem_cons.mp h
      rw [opToDatum, opOfDatum?, stageOfFields?, if_pos rfl, hs, hk, optionalOfDatum?_present he]
      · rfl
      · nofun
  | join o i ok ik r =>
    obtain ⟨ho, h⟩ := List.forall_mem_cons.mp h
    obtain ⟨hi, h⟩ := List.forall_mem_cons.mp h
    obtain ⟨hok, h⟩ := List.forall_mem_cons.mp h
    obtain ⟨hik, h⟩ := List.forall_mem_cons.mp h
    obtain ⟨hr, -⟩ := List.forall_mem_cons.mp h
    rw [opToDatum, opOfDatum?, stageOfFields?, if_pos rfl, ho, hi, hok, hik, hr]
    rfl
  | «include» s path =>
    obtain ⟨hs, -⟩ := List.forall_mem_cons.mp h
    rw [opToDatum, opOfDatum?, stageOfFields?, if_pos rfl, hs]
    rfl
  | aggregate s func a =>
    obtain ⟨hs, h⟩ := List.forall_mem_cons.mp h
    have hfunc := choice?_aggregateToDatum func
    cases a with
    | none =>
      rw [opToDatum, opOfDatum?, stageOfFields?, if_neg (by decide), if_pos rfl, hs, hfunc]
      · rfl
      · nofun
    | some a =>
      obtain ⟨ha, -⟩ := List.forall_mem_cons.mp h
      rw [opToDatum, opOfDatum?, stageOfFields?, if_neg (by decide), if_pos rfl, hs, hfunc,
        optionalOfDatum?_present ha]
      · rfl
      · nofun

/-- The datum of a plan that can be sent stands for the plan. -/
theorem IsPortable.ofDatum?_toDatum {p : Plan} (h : p.IsPortable) :
    Plan.ofDatum? p.toDatum = some p := by
  induction p using induct with
  | node p ih =>
    have hchildren := fun q hq => ih q hq (h.child hq)
    have htype := Descriptor.ofDatum?_toDatum
    cases p with
    | constant v t =>
      have hv := (h v t (mem_nodes_self _)).ofDatum?_toDatum
      rw [toDatum, Plan.ofDatum?, ofFields?, if_pos rfl, hv, htype]
      · rfl
      · cases v <;> nofun
    | member target declaring name t =>
      obtain ⟨htarget, -⟩ := List.forall_mem_cons.mp hchildren
      rw [toDatum, Plan.ofDatum?, ofFields?, if_pos rfl, htarget, htype, htype]
      · rfl
    | unary op operand t =>
      obtain ⟨hoperand, -⟩ := List.forall_mem_cons.mp hchildren
      rw [toDatum, Plan.ofDatum?, ofFields?, if_pos rfl, choice?_unaryToDatum, hoperand, htype]
      · rfl
      · exact operand.toDatum_ne_list
      · nofun
    | binary op l r t =>
      obtain ⟨hl, hrest⟩ := List.forall_mem_cons.mp hchildren
      obtain ⟨hr, -⟩ := List.forall_mem_cons.mp hrest
      rw [toDatum, Plan.ofDatum?, ofFields?, if_pos rfl, choice?_binaryToDatum, hl, hr, htype]
      · rfl
      · exact fun method _ hmethod _ => l.toDatum_ne_text method hmethod
      · exact r.toDatum_ne_text
    | conditional c x y t =>
      obtain ⟨hc, hrest⟩ := List.forall_mem_cons.mp hchildren
      obtain ⟨hx, hrest⟩ := List.forall_mem_cons.mp hrest
      obtain ⟨hy, -⟩ := List.forall_mem_cons.mp hrest
      rw [toDatum, Plan.ofDatum?, ofFields?, if_neg (by decide), if_pos rfl, hc, hx, hy, htype]
      · rfl
      · exact fun method _ hmethod _ => x.toDatum_ne_text method hmethod
      · exact y.toDatum_ne_text
    | lambda params body t =>
      obtain ⟨hbody, -⟩ := List.forall_mem_cons.mp hchildren
      rw [toDatum, Plan.ofDatum?, ofFields?, if_pos rfl, mapM_parameterToDatum, hbody, htype]
      · rfl
      · exact body.toDatum_ne_list
    | parameter p =>
      rw [toDatum, Plan.ofDatum?, parameterOfDatum?_parameterToDatum, Option.map_some]
    | call declaring name args t =>
      have hargs : allOfData? (allToData args) = some args := allOfData?_allToData hchildren
      rw [toDatum, Plan.ofDatum?, ofFields?, if_pos rfl, htype, hargs, htype]
      rfl
    | object members args t =>
      have hargs : allOfData? (allToData args) = some args := allOfData?_allToData hchildren
      rw [toDatum, Plan.ofDatum?, ofFields?, if_pos rfl]
      simp only [Datum.texts?_map, hargs, htype]
      rfl
    | array items t =>
      have hitems : allOfData? (allToData items) = some items := allOfData?_allToData hchildren
      rw [toDatum, Plan.ofDatum?, ofFields?, if_pos rfl, hitems, htype]
      rfl
    | list items t =>
      have hitems : allOfData? (allToData items) = some items := allOfData?_allToData hchildren
      rw [toDatum, Plan.ofDatum?, ofFields?, if_neg (by decide), if_pos rfl, hitems, htype]
      rfl
    | construct bindings t =>
      rw [toDatum, Plan.ofDatum?, ofFields?, if_neg (by decide), if_neg (by decide), if_pos rfl,
        bindingsOfData?_bindingsToData hchildren, htype]
      rfl
    | sortKey key d =>
      obtain ⟨hkey, -⟩ := List.forall_mem_cons.mp hchildren
      rw [toDatum, Plan.ofDatum?, ofFields?, if_neg (by decide), if_pos rfl, hkey,
        choice?_directionToDatum]
      · rfl
      · exact key.toDatum_ne_list
    | query op t =>
      rw [toDatum, Plan.ofDatum?, ofFields?, if_neg (by decide), if_neg (by decide), if_pos rfl,
        opOfDatum?_opToDatum hchildren, htype]
      · rfl
      · exact opToDatum_ne_list op

end Plan
end QueryRelay
