import Mathlib.Data.List.Infix
import QueryRelay.Executor

/-!
# Installed hooks

An executor is made by installing hooks, each in one of seven slots, in any order. Which hooks are
due follows from what was installed: in the slots that chain, all hooks in the order in which they
came; in each of the others the last one, or else the work of the executor itself. Main statement:
the records of a plan are what comes of calling the hooks that are due, slot after slot, each once
and on what came of the one before, up to the first that fails; and they are marked as the prepared
plan is.
-/

namespace QueryRelay

namespace Pipeline

/-! ## Slots and hooks -/

/-- What hooks are for, in the order of the stages. -/
inductive Slot
  /-- Preparing plans. -/
  | planPreparation
  /-- Turning plans into expressions. -/
  | binding
  /-- Preparing expressions. -/
  | exprPreparation
  /-- Evaluating expressions. -/
  | evaluation
  /-- Treating results. -/
  | resultTreatment
  /-- Splitting results into records. -/
  | projection
  /-- Treating records. -/
  | recordTreatment
deriving DecidableEq

/-- The slots of the stages behind the preparation of the plan, in order. -/
def Slot.afterPreparation : List Slot :=
  [.binding, .exprPreparation, .evaluation, .resultTreatment, .projection, .recordTreatment]

/-- The slots of all stages, in order. -/
def Slot.stages : List Slot := .planPreparation :: Slot.afterPreparation

/-- A step, with the slot that it is installed in. -/
inductive Hook
  /-- A step that prepares plans. -/
  | preparePlan (step : Step Plan Plan)
  /-- A step that turns plans into expressions. -/
  | bindBy (step : Step Plan Expr)
  /-- A step that prepares expressions. -/
  | prepareExpr (step : Step Expr Expr)
  /-- A step that evaluates expressions. -/
  | evaluateBy (step : Step Expr Value)
  /-- A step that treats results. -/
  | treatResult (step : Step Value Value)
  /-- A step that splits results. -/
  | projectBy (step : Step Value (List Value))
  /-- A step that treats records. -/
  | treatRecords (step : Step (List Value) (List Value))

/-- The slot of a hook. -/
def Hook.slot : Hook → Slot
  | .preparePlan _ => .planPreparation
  | .bindBy _ => .binding
  | .prepareExpr _ => .exprPreparation
  | .evaluateBy _ => .evaluation
  | .treatResult _ => .resultTreatment
  | .projectBy _ => .projection
  | .treatRecords _ => .recordTreatment

/-- The work of an executor itself in a slot; there is none in the slots that chain. -/
def Slot.own (c : Catalog) (data : DataSource) : Slot → Option Hook
  | .binding => some (.bindBy fun p => p.toExpr c)
  | .evaluation => some (.evaluateBy fun e => e.evaluate data)
  | .projection => some (.projectBy fun v => .ok (Executor.split v))
  | .planPreparation | .exprPreparation | .resultTreatment | .recordTreatment => none

/-- The hooks that are due in a slot: where there is work of the executor itself, the last one that
was installed or else that work; otherwise all that were installed. -/
def Slot.due (c : Catalog) (data : DataSource) (installed : List Hook) (s : Slot) : List Hook :=
  match s.own c data with
  | some hook => [(installed.filter (·.slot = s)).getLastD hook]
  | none => installed.filter (·.slot = s)

/-- The hooks that are due in all slots, in the order of the stages. -/
def schedule (c : Catalog) (data : DataSource) (installed : List Hook) : List Hook :=
  Slot.stages.flatMap (Slot.due c data installed)

end Pipeline

namespace Executor

open Pipeline (Hook Slot)

variable {c : Catalog} {data : DataSource} {x : Executor} {hook own : Hook} {s : Slot}

/-! ## Installing hooks -/

/-- Install a hook in its slot. -/
def install (x : Executor) : Hook → Executor
  | .preparePlan step => x.preparePlan step
  | .bindBy step => x.bindBy step
  | .prepareExpr step => x.prepareExpr step
  | .evaluateBy step => x.evaluateBy step
  | .treatResult step => x.treatResult step
  | .projectBy step => x.projectBy step
  | .treatRecords step => x.treatRecords step

/-- The executor in which hooks are installed one after the other. -/
def ofHooks (c : Catalog) (data : DataSource) (installed : List Hook) : Executor :=
  installed.foldl install (ofCatalog c data)

/-- The hooks that an executor calls in a slot. -/
def inSlot (x : Executor) : Slot → List Hook
  | .planPreparation => x.planSteps.map .preparePlan
  | .binding => [.bindBy x.bindingStep]
  | .exprPreparation => x.exprSteps.map .prepareExpr
  | .evaluation => [.evaluateBy x.evaluationStep]
  | .resultTreatment => x.resultSteps.map .treatResult
  | .projection => [.projectBy x.projectionStep]
  | .recordTreatment => x.recordSteps.map .treatRecords

/-- A hook leaves the other slots as they are. -/
theorem inSlot_install_of_ne (h : hook.slot ≠ s) : (x.install hook).inSlot s = x.inSlot s := by
  cases hook <;> cases s <;> simp [Hook.slot] at h <;> rfl

/-- A hook comes behind those of its slot, if they chain. -/
theorem inSlot_install_chained (h : hook.slot.own c data = none) :
    (x.install hook).inSlot hook.slot = x.inSlot hook.slot ++ [hook] := by
  cases hook with
  | preparePlan | prepareExpr | treatResult | treatRecords => exact List.map_append
  | bindBy | evaluateBy | projectBy => cases h

/-- A hook stands in place of what was in its slot, if they do not chain. -/
theorem inSlot_install_replaced (h : hook.slot.own c data = some own) :
    (x.install hook).inSlot hook.slot = [hook] := by
  cases hook with
  | preparePlan | prepareExpr | treatResult | treatRecords => cases h
  | bindBy | evaluateBy | projectBy => rfl

/-- An executor without hooks calls in each slot what it does there itself. -/
theorem inSlot_ofCatalog (c : Catalog) (data : DataSource) (s : Slot) :
    (ofCatalog c data).inSlot s = s.due c data [] := by
  cases s <;> rfl

/-- What an executor calls in a slot is what is due there. -/
theorem inSlot_ofHooks (c : Catalog) (data : DataSource) (installed : List Hook) (s : Slot) :
    (ofHooks c data installed).inSlot s = s.due c data installed := by
  induction installed using List.reverseRecOn with
  | nil => exact inSlot_ofCatalog c data s
  | append_singleton installed hook ih =>
    have hinstall : ofHooks c data (installed ++ [hook]) =
        (ofHooks c data installed).install hook := List.foldl_concat ..
    rw [hinstall]
    by_cases hslot : hook.slot = s
    · subst hslot
      cases hown : hook.slot.own c data with
      | none =>
        rw [inSlot_install_chained hown, ih]
        simp [Slot.due, hown]
      | some own =>
        rw [inSlot_install_replaced hown]
        simp [Slot.due, hown]
    · rw [inSlot_install_of_ne hslot, ih]
      simp [Slot.due, hslot]

/-- What an executor calls in some slots is what is due there. -/
theorem flatMap_inSlot_ofHooks (c : Catalog) (data : DataSource) (installed : List Hook)
    (slots : List Slot) : slots.flatMap (ofHooks c data installed).inSlot =
      slots.flatMap (Slot.due c data installed) := by
  rw [funext (inSlot_ofHooks c data installed)]

/-- The records of a prepared plan. -/
def recordsOfPrepared (x : Executor) : Step Plan (List Value) := fun p =>
  x.bindingStep p >>= fun e => Step.chain x.exprSteps e >>= fun e => x.evaluationStep e >>= fun v =>
    Step.chain x.resultSteps v >>= fun v => x.projectionStep v >>= Step.chain x.recordSteps

/-- The records of a plan are those of the prepared plan, marked as that is. -/
theorem records_eq_prepared (x : Executor) (p : Plan) :
    x.records p = Step.chain x.planSteps p >>= fun q =>
      (x.recordsOfPrepared q).map fun rs => ⟨rs, q.type.isCollection⟩ := by
  have hmap : ∀ (y : Except Error (List Value)) (f : List Value → Records),
      y.map f = y >>= fun rs => pure (f rs) := by
    intro y f
    cases y <;> rfl
  simp only [records, recordsOfPrepared, hmap, bind_assoc]

end Executor

namespace Pipeline

/-! ## Calls -/

/-- What one hook hands to the next. -/
inductive Work
  /-- A plan, prepared or yet to be. -/
  | plan (p : Plan)
  /-- The expression that stands for the plan. -/
  | expr (e : Expr)
  /-- The result. -/
  | value (v : Value)
  /-- The records of the result. -/
  | records (rs : List Value)

/-- What comes of calling a hook on work of the kind that it takes. -/
inductive Hook.Answers : Hook → Work → Except Error Work → Prop
  | preparePlan (step : Step Plan Plan) (p : Plan) :
      Answers (.preparePlan step) (.plan p) ((step p).map .plan)
  | bindBy (step : Step Plan Expr) (p : Plan) :
      Answers (.bindBy step) (.plan p) ((step p).map .expr)
  | prepareExpr (step : Step Expr Expr) (e : Expr) :
      Answers (.prepareExpr step) (.expr e) ((step e).map .expr)
  | evaluateBy (step : Step Expr Value) (e : Expr) :
      Answers (.evaluateBy step) (.expr e) ((step e).map .value)
  | treatResult (step : Step Value Value) (v : Value) :
      Answers (.treatResult step) (.value v) ((step v).map .value)
  | projectBy (step : Step Value (List Value)) (v : Value) :
      Answers (.projectBy step) (.value v) ((step v).map .records)
  | treatRecords (step : Step (List Value) (List Value)) (rs : List Value) :
      Answers (.treatRecords step) (.records rs) ((step rs).map .records)

/-- A call of a hook. -/
structure Call where
  /-- The hook that is called. -/
  hook : Hook
  /-- What it is called on. -/
  given : Work
  /-- What comes of it. -/
  outcome : Except Error Work

/-- Calling hooks one after the other, the first on some work and each other one on what came of the
one before: the calls, and what comes of them all. -/
inductive Runs : List Hook → Work → List Call → Except Error Work → Prop
  /-- No hook is left, and the work is done. -/
  | done (w : Work) : Runs [] w [] (.ok w)
  /-- A hook gives work for the hooks behind it. -/
  | next {hook : Hook} {hooks : List Hook} {w w' : Work} {calls : List Call}
      {outcome : Except Error Work} (hanswer : hook.Answers w (.ok w'))
      (hrest : Runs hooks w' calls outcome) :
      Runs (hook :: hooks) w (⟨hook, w, .ok w'⟩ :: calls) outcome
  /-- A hook fails, and those behind it are not called. -/
  | fault {hook : Hook} (hooks : List Hook) {w : Work} {e : Error}
      (hanswer : hook.Answers w (.error e)) :
      Runs (hook :: hooks) w [⟨hook, w, .error e⟩] (.error e)

variable {hook : Hook} {hooks hooks' : List Hook} {w w' : Work}
  {outcome outcome' : Except Error Work} {calls calls' : List Call} {e : Error}

/-- A hook answers in one way. -/
theorem Hook.Answers.unique (h : hook.Answers w outcome) (h' : hook.Answers w outcome') :
    outcome' = outcome := by
  cases h <;> cases h' <;> rfl

namespace Runs

/-- There is at most one way to call hooks one after the other. -/
theorem unique (h : Runs hooks w calls outcome) (h' : Runs hooks w calls' outcome') :
    calls' = calls ∧ outcome' = outcome := by
  induction h generalizing calls' outcome' with
  | done w =>
    cases h'
    exact ⟨rfl, rfl⟩
  | next hanswer _ ih =>
    cases h' with
    | next hanswer' hrest' =>
      cases hanswer.unique hanswer'
      obtain ⟨rfl, rfl⟩ := ih hrest'
      exact ⟨rfl, rfl⟩
    | fault _ hanswer' => cases hanswer.unique hanswer'
  | fault _ hanswer =>
    cases h' with
    | next hanswer' => cases hanswer.unique hanswer'
    | fault _ hanswer' =>
      cases hanswer.unique hanswer'
      exact ⟨rfl, rfl⟩

/-- A run of hooks tells the calls of any run of them, and what comes of it. -/
theorem runs_iff (h : Runs hooks w calls outcome) (calls' : List Call)
    (outcome' : Except Error Work) :
    Runs hooks w calls' outcome' ↔ calls' = calls ∧ outcome' = outcome := by
  constructor
  · exact h.unique
  · rintro ⟨rfl, rfl⟩
    exact h

/-- Hooks that gave work are followed by those behind them. -/
theorem append (h : Runs hooks w calls (.ok w')) (h' : Runs hooks' w' calls' outcome) :
    Runs (hooks ++ hooks') w (calls ++ calls') outcome := by
  -- What comes of a run is an index of it, so that it went well is kept as an equation.
  generalize hr : Except.ok w' = r at h
  induction h with
  | done w =>
    cases hr
    exact h'
  | next hanswer _ ih => exact .next hanswer (ih hr)
  | fault => cases hr

/-- When no hook fails, every hook is called once, in order. -/
theorem map_hook_eq (h : Runs hooks w calls (.ok w')) : calls.map Call.hook = hooks := by
  generalize hr : Except.ok w' = r at h
  induction h with
  | done w => rfl
  | next _ _ ih => exact congrArg _ (ih hr)
  | fault => cases hr

/-- As far as hooks are called, they are called once, in order. -/
theorem isPrefix_map_hook (h : Runs hooks w calls outcome) : calls.map Call.hook <+: hooks := by
  induction h with
  | done w => exact List.nil_prefix
  | next _ _ ih => exact List.cons_prefix_cons.mpr ⟨rfl, ih⟩
  | fault hooks => exact List.cons_prefix_cons.mpr ⟨rfl, List.nil_prefix⟩

/-- Whatever hooks stand behind the one that failed, the calls are the same. -/
theorem of_isPrefix (h : Runs hooks w calls (.error e)) (hcalled : calls.map Call.hook <+: hooks') :
    Runs hooks' w calls (.error e) := by
  generalize hr : Except.error e = r at h
  induction h generalizing hooks' with
  | done w => cases hr
  | next hanswer _ ih =>
    obtain ⟨later, rfl⟩ := hcalled
    exact .next hanswer (ih (List.prefix_append _ later) hr)
  | fault _ hanswer =>
    obtain ⟨later, rfl⟩ := hcalled
    exact .fault later hanswer

/-- Hooks one of which failed can be followed by any. -/
theorem append_of_error (h : Runs hooks w calls (.error e)) (hooks' : List Hook) :
    Runs (hooks ++ hooks') w calls (.error e) :=
  h.of_isPrefix (h.isPrefix_map_hook.trans (List.prefix_append hooks hooks'))

end Runs

/-! ## Hooks that perform a step -/

/-- Calling hooks comes to the same as a step, whichever way it goes. -/
def Performs {α β : Type} (hooks : List Hook) (given : α → Work) (step : Step α β)
    (made : β → Work) : Prop :=
  ∀ x, ∃ calls, Runs hooks (given x) calls ((step x).map made)

namespace Performs

variable {α β γ : Type} {given : α → Work} {made : β → Work} {last : γ → Work}

/-- One hook performs its step. -/
theorem single {step : Step α β} (h : ∀ x, hook.Answers (given x) ((step x).map made)) :
    Performs [hook] given step made := by
  intro x
  have hx := h x
  cases hstep : step x with
  | ok y =>
    rw [hstep] at hx
    exact ⟨_, .next hx (.done _)⟩
  | error e =>
    rw [hstep] at hx
    exact ⟨_, .fault [] hx⟩

/-- Hooks behind others perform the second of two steps. -/
theorem andThen {f : Step α β} {g : Step β γ} (h : Performs hooks given f made)
    (h' : Performs hooks' made g last) :
    Performs (hooks ++ hooks') given (fun x => f x >>= g) last := by
  intro x
  obtain ⟨calls, hcalls⟩ := h x
  change ∃ calls, Runs _ _ calls ((f x >>= g).map last)
  cases hf : f x with
  | ok y =>
    obtain ⟨calls', hcalls'⟩ := h' y
    rw [hf] at hcalls
    exact ⟨calls ++ calls', hcalls.append hcalls'⟩
  | error e =>
    rw [hf] at hcalls
    exact ⟨calls, hcalls.append_of_error hooks'⟩

/-- Hooks of one kind perform the chain of their steps. -/
theorem chain {asHook : Step α α → Hook}
    (h : ∀ step x, (asHook step).Answers (given x) ((step x).map given)) (steps : List (Step α α)) :
    Performs (steps.map asHook) given (Step.chain steps) given := by
  induction steps with
  | nil => exact fun x => ⟨[], .done _⟩
  | cons step steps ih => exact (single (h step)).andThen ih

end Performs

/-! ## Records -/

variable {x : Executor} {p : Plan}

/-- The hooks that prepare plans perform the chain of their steps. -/
theorem performs_planSteps (x : Executor) :
    Performs (x.inSlot .planPreparation) .plan (Step.chain x.planSteps) .plan :=
  .chain Hook.Answers.preparePlan x.planSteps

/-- The hooks of the stages behind the preparation of the plan perform what these stages do. -/
theorem performs_recordsOfPrepared (x : Executor) :
    Performs (Slot.afterPreparation.flatMap x.inSlot) .plan x.recordsOfPrepared .records := by
  have hbinding : Performs (x.inSlot .binding) .plan x.bindingStep .expr :=
    .single (Hook.Answers.bindBy _)
  have hexprs : Performs (x.inSlot .exprPreparation) .expr (Step.chain x.exprSteps) .expr :=
    .chain Hook.Answers.prepareExpr x.exprSteps
  have hevaluation : Performs (x.inSlot .evaluation) .expr x.evaluationStep .value :=
    .single (Hook.Answers.evaluateBy _)
  have hresults : Performs (x.inSlot .resultTreatment) .value (Step.chain x.resultSteps) .value :=
    .chain Hook.Answers.treatResult x.resultSteps
  have hprojection : Performs (x.inSlot .projection) .value x.projectionStep .records :=
    .single (Hook.Answers.projectBy _)
  have hrecords :
      Performs (x.inSlot .recordTreatment) .records (Step.chain x.recordSteps) .records :=
    .chain Hook.Answers.treatRecords x.recordSteps
  rw [Slot.afterPreparation]
  simp only [List.flatMap_cons, List.flatMap_nil, List.append_nil]
  exact hbinding.andThen <| hexprs.andThen <| hevaluation.andThen <| hresults.andThen <|
    hprojection.andThen hrecords

/-- Running a plan calls the hooks of an executor. Either none fails, and the records are what comes
of the last, with the mark of the prepared plan; or one fails, and its error is what comes of the
plan. -/
theorem exists_runs_records (x : Executor) (p : Plan) :
    (∃ prepared later q rs, Runs (x.inSlot .planPreparation) (.plan p) prepared (.ok (.plan q)) ∧
      Runs (Slot.afterPreparation.flatMap x.inSlot) (.plan q) later (.ok (.records rs)) ∧
      x.records p = .ok ⟨rs, q.type.isCollection⟩) ∨
    ∃ calls e, Runs (Slot.stages.flatMap x.inSlot) (.plan p) calls (.error e) ∧
      x.records p = .error e := by
  obtain ⟨prepared, hprepared⟩ := performs_planSteps x p
  have hrecords := x.records_eq_prepared p
  cases hplan : Step.chain x.planSteps p with
  | error e =>
    rw [hplan] at hprepared hrecords
    exact .inr ⟨prepared, e, hprepared.append_of_error _, hrecords⟩
  | ok q =>
    rw [hplan] at hprepared hrecords
    change x.records p = (x.recordsOfPrepared q).map _ at hrecords
    obtain ⟨later, hlater⟩ := performs_recordsOfPrepared x q
    cases hrest : x.recordsOfPrepared q with
    | ok rs =>
      rw [hrest] at hlater hrecords
      exact .inl ⟨prepared, later, q, rs, hprepared, hlater, hrecords⟩
    | error e =>
      rw [hrest] at hlater hrecords
      exact .inr ⟨prepared ++ later, e, hprepared.append hlater, hrecords⟩

/-- When one of the hooks of an executor fails, its error is what comes of the plan. -/
theorem records_eq_error (h : Runs (Slot.stages.flatMap x.inSlot) (.plan p) calls (.error e)) :
    x.records p = .error e := by
  rcases exists_runs_records x p with
    ⟨prepared, later, q, rs, hprepared, hlater, -⟩ | ⟨calls', e', hcalls, hrecords⟩
  · -- The hooks that ran to the end are the same ones, and they run in one way only.
    cases (h.unique (hprepared.append hlater)).2
  · cases (h.unique hcalls).2
    exact hrecords

/-- Whatever hooks are installed, in whatever order, and whatever plan is run: there is exactly one
way to call the hooks that are due one after the other, beginning with the plan. Either every hook
that is due is called once, in the order of the slots and within them in the order of installation,
and the records are what comes of the last one, marked as the plan is that came of the hooks that
prepare it. Or a hook fails, those before it are called once, and its error is what comes of the
plan, whatever hooks are due behind it. -/
theorem records_ofHooks (c : Catalog) (data : DataSource) (installed : List Hook) (p : Plan) :
    ∃ calls outcome,
      (∀ calls' outcome', Runs (schedule c data installed) (.plan p) calls' outcome' ↔
        calls' = calls ∧ outcome' = outcome) ∧
      ((∃ prepared later q rs, calls = prepared ++ later ∧
          Runs (Slot.planPreparation.due c data installed) (.plan p) prepared (.ok (.plan q)) ∧
          outcome = .ok (.records rs) ∧ calls.map Call.hook = schedule c data installed ∧
          (Executor.ofHooks c data installed).records p = .ok ⟨rs, q.type.isCollection⟩) ∨
        ∃ e, outcome = .error e ∧ calls.map Call.hook <+: schedule c data installed ∧
          (Executor.ofHooks c data installed).records p = .error e ∧
          ∀ c' data' installed', calls.map Call.hook <+: schedule c' data' installed' →
            (Executor.ofHooks c' data' installed').records p = .error e) := by
  rcases exists_runs_records (Executor.ofHooks c data installed) p with
    ⟨prepared, later, q, rs, hprepared, hlater, hrecords⟩ | ⟨calls, e, hcalls, hrecords⟩
  · rw [Executor.inSlot_ofHooks] at hprepared
    rw [Executor.flatMap_inSlot_ofHooks] at hlater
    have hcalls : Runs (schedule c data installed) (.plan p) _ _ := hprepared.append hlater
    exact ⟨_, _, hcalls.runs_iff, .inl
      ⟨prepared, later, q, rs, rfl, hprepared, rfl, hcalls.map_hook_eq, hrecords⟩⟩
  · rw [Executor.flatMap_inSlot_ofHooks] at hcalls
    refine ⟨_, _, hcalls.runs_iff, .inr ⟨e, rfl, hcalls.isPrefix_map_hook, hrecords, ?_⟩⟩
    intro c' data' installed' hcalled
    have hsame : Runs (Slot.stages.flatMap (Executor.ofHooks c' data' installed').inSlot) (.plan p)
        calls (.error e) := by
      rw [Executor.flatMap_inSlot_ofHooks]
      exact hcalls.of_isPrefix hcalled
    exact records_eq_error hsame

/-- A hook that was replaced is not called, and of the two others that fail the one of the earlier
stage counts, and not the one that was installed first. -/
example (c : Catalog) (data : DataSource) (p : Plan) :
    (Executor.ofHooks c data
      [.treatRecords fun _ => .error .emptyStream, .treatResult fun _ => .error .multipleElements,
        .evaluateBy fun _ => .error .emptyStream, .evaluateBy fun _ => .ok .null,
        .bindBy fun _ => .ok (.literal .null)]).records p = .error .multipleElements := rfl

end Pipeline
end QueryRelay
