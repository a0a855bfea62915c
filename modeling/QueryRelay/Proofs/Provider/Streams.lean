import QueryRelay.Proofs.Outcome
import QueryRelay.Provider.Basic

/-!
# Streams of a provider

A stream is polled any number of times, and the signal may change at any moment of any poll. Main
statement: the polls give the mapped elements of the source in order, also those that cannot be
mapped; then the first fault of opening or of the source, or a cancellation at the first poll that
sees one, and nothing behind it but the end. Each element is pulled once and mapped once, and
nothing is planned or sent except by the first poll.
-/

namespace QueryRelay

/-! ## What a poll looked at and called -/

/-- What the signal shows at each moment of a poll. -/
abbrev Watch := Moment → Signal

namespace Call

variable {watch : Watch} {m : Moment} {calls more : List Call}

/-- A cancellation is seen by one of the calls. -/
def Sees (calls : List Call) (watch : Watch) : Prop :=
  ∃ m, .look m ∈ calls ∧ (watch m).isCancelled = true

/-- The calls start with a look at the signal, and none of them sees a cancellation. -/
def SeesClear (calls : List Call) (watch : Watch) : Prop :=
  (∃ m more, calls = .look m :: more) ∧ ¬ Sees calls watch

/-- The calls that pull or map elements. -/
def takes (calls : List Call) : List Call :=
  calls.filter fun
    | .pull _ | .map _ => true
    | _ => false

/-- The calls that plan or send. -/
def requests (calls : List Call) : List Call :=
  calls.filter fun
    | .plan _ | .send _ => true
    | _ => false

@[simp] theorem not_sees_nil : ¬ Sees [] watch := by simp [Sees]

@[simp] theorem sees_look : Sees (.look m :: calls) watch ↔
    (watch m).isCancelled = true ∨ Sees calls watch := by
  simp [Sees, or_and_right, exists_or]

@[simp] theorem sees_plan (e : Expr) : Sees (.plan e :: calls) watch ↔ Sees calls watch := by
  simp [Sees]

@[simp] theorem sees_send (plan : Plan) : Sees (.send plan :: calls) watch ↔ Sees calls watch := by
  simp [Sees]

@[simp] theorem sees_pull (i : Nat) : Sees (.pull i :: calls) watch ↔ Sees calls watch := by
  simp [Sees]

@[simp] theorem sees_map (v : Value) : Sees (.map v :: calls) watch ↔ Sees calls watch := by
  simp [Sees]

@[simp] theorem sees_append : Sees (calls ++ more) watch ↔ Sees calls watch ∨ Sees more watch := by
  simp [Sees, or_and_right, exists_or]

@[simp] theorem takes_look : takes (.look m :: calls) = takes calls := rfl

@[simp] theorem requests_look : requests (.look m :: calls) = requests calls := rfl

@[simp] theorem takes_append : takes (calls ++ more) = takes calls ++ takes more :=
  List.filter_append ..

@[simp] theorem requests_append : requests (calls ++ more) = requests calls ++ requests more :=
  List.filter_append ..

/-- Clear calls behind clear calls. -/
theorem SeesClear.prepend (h : SeesClear more watch) (hcalls : SeesClear calls watch) :
    SeesClear (calls ++ more) watch := by
  obtain ⟨⟨m, rest, rfl⟩, hunseen⟩ := hcalls
  exact ⟨⟨m, rest ++ more, rfl⟩, fun hsees => (sees_append.mp hsees).elim hunseen h.2⟩

end Call

/-- Polls of a stream that is over: each gives the end and calls nothing. -/
def closing (watches : List Watch) : List Polled := watches.map fun _ => ⟨.ended, .finished, []⟩

namespace QueryProvider

/-- Polls of a stream, one after the other, also behind its end. -/
def pollEach (p : QueryProvider) (t : ResultType) : List Watch → ProviderStream → List Polled
  | [], _ => []
  | watch :: rest, s =>
    let step := p.pollWatching t watch s
    step :: p.pollEach t rest step.stream

/-- The raw results by their places: those of the stream that is opened, or the fault of opening
it. -/
def source (p : QueryProvider) (e : Expr) : Nat → Option (Except Error Value) :=
  match (p.openStream (fun _ => .clear) e).1 with
  | .ok elements => elements.get?
  | .error fault => fun i => if i = 0 then some (.error fault) else none

end QueryProvider

/-! ## What polls come to -/

section

variable (t : ResultType) (source : Nat → Option (Except Error Value)) (place : Nat)

/-- A poll gives an element of the source: it sees no cancellation, pulls the element and maps
it. -/
structure Gives (watch : Watch) (step : Polled) (v : Value) : Prop where
  /-- The element stands at the place. -/
  raw : source place = some (.ok v)
  /-- The signal is looked at and seen to be clear. -/
  clear : Call.SeesClear step.calls watch
  /-- The element is mapped, whether that succeeds or not. -/
  answer : step.answer = .item (t.map v)
  /-- It is pulled once and mapped once. -/
  takes : Call.takes step.calls = [.pull place, .map v]

/-- A poll gives no element of the source. -/
inductive Stops (watch : Watch) (step : Polled) : Prop
  /-- The source is over. -/
  | exhausted (raw : source place = none) (clear : Call.SeesClear step.calls watch)
      (answer : step.answer = .ended) (takes : Call.takes step.calls = [.pull place])
  /-- Opening or the source failed. -/
  | fault (f : Error) (raw : source place = some (.error f))
      (clear : Call.SeesClear step.calls watch)
      (answer : step.answer = .item (.error f)) (takes : Call.takes step.calls <+: [.pull place])
  /-- A cancellation was seen. -/
  | cancelled (seen : Call.Sees step.calls watch) (answer : step.answer = .item (.error .cancelled))
      (takes : Call.takes step.calls <+: [.pull place])

/-- Either there are no further polls, or a poll gives no element, and all polls behind it give the
end. -/
def Ends : List Watch → List Polled → Prop
  | [], run => run = []
  | watch :: rest, run => ∃ step, Stops source place watch step ∧ run = step :: closing rest

/-- The polls of a stream give these elements of the source, from a place on in order and without a
gap, each by a poll of its own, and then no more. -/
structure Delivers (watches : List Watch) (run : List Polled) (values : List Value) : Prop where
  /-- Each of the first polls gives an element. -/
  given : ∀ i v, values[i]? = some v → ∃ watch step, watches[i]? = some watch ∧
    run[i]? = some step ∧ Gives t source (place + i) watch step v
  /-- The next one gives none. -/
  ending : Ends source (place + values.length) (watches.drop values.length)
    (run.drop values.length)

end

variable {t : ResultType} {source : Nat → Option (Except Error Value)} {place : Nat}

/-- Further calls in front, which see no cancellation and take no element, change nothing. -/
theorem Gives.prepend {watch : Watch} {step : Polled} {v : Value} {calls : List Call}
    (h : Gives t source place watch step v) (hclear : Call.SeesClear calls watch)
    (htakes : Call.takes calls = []) :
    Gives t source place watch { step with calls := calls ++ step.calls } v where
  raw := h.raw
  clear := h.clear.prepend hclear
  answer := h.answer
  takes := by simp [htakes, h.takes]

/-- Further calls in front, which see no cancellation and take no element, change nothing. -/
theorem Stops.prepend {watch : Watch} {step : Polled} {calls : List Call}
    (h : Stops source place watch step) (hclear : Call.SeesClear calls watch)
    (htakes : Call.takes calls = []) :
    Stops source place watch { step with calls := calls ++ step.calls } := by
  cases h with
  | exhausted raw clear answer takes =>
    exact .exhausted raw (clear.prepend hclear) answer (by simp [htakes, takes])
  | fault f raw clear answer takes =>
    exact .fault f raw (clear.prepend hclear) answer (by simp [htakes, takes])
  | cancelled seen answer takes =>
    exact .cancelled (by simp [seen]) answer (by simp [htakes, takes])

/-- A poll that gives an element, and the polls after it. -/
theorem Delivers.cons {watch : Watch} {step : Polled} {v : Value} {watches : List Watch}
    {run : List Polled} {values : List Value} (hstep : Gives t source place watch step v)
    (h : Delivers t source (place + 1) watches run values) :
    Delivers t source place (watch :: watches) (step :: run) (v :: values) where
  given := by
    intro i w hw
    cases i with
    | zero =>
      cases hw
      exact ⟨watch, step, rfl, rfl, hstep⟩
    | succ i =>
      have hplace : place + (i + 1) = place + 1 + i := by omega
      rw [hplace]
      exact h.given i w hw
  ending := by
    have hplace : place + (v :: values).length = place + 1 + values.length := by
      rw [List.length_cons]
      omega
    rw [hplace]
    exact h.ending

/-! ## Steps -/

namespace QueryProvider

variable {p : QueryProvider} {e : Expr} {watch : Watch}

/-- To pull an element gives it, or none. -/
theorem pull_cases (t : ResultType) (watch : Watch) (elements : Elements) (place : Nat) :
    let step := pull t watch elements place
    (Stops elements.get? place watch step ∧ step.stream = .finished) ∨
      ∃ v, Gives t elements.get? place watch step v ∧
        step.stream = .running elements (place + 1) := by
  simp only [pull]
  split
  · next hopened => exact .inl ⟨.cancelled (by simp [hopened]) rfl List.nil_prefix, rfl⟩
  · next hopened =>
    split
    · next hpulling => exact .inl ⟨.cancelled (by simp [hpulling]) rfl List.prefix_rfl, rfl⟩
    · next hpulling =>
      split
      · next hraw =>
        exact .inl ⟨.exhausted hraw ⟨⟨_, _, rfl⟩, by simp [hopened, hpulling]⟩ rfl rfl, rfl⟩
      · next v hraw =>
        exact .inr ⟨v, ⟨hraw, ⟨⟨_, _, rfl⟩, by simp [hopened, hpulling]⟩, rfl, rfl⟩, rfl⟩
      · next f hraw =>
        exact .inl ⟨.fault f hraw ⟨⟨_, _, rfl⟩, by simp [hopened, hpulling]⟩ rfl List.prefix_rfl,
          rfl⟩

/-- To pull an element plans and sends nothing. -/
theorem requests_pull (t : ResultType) (watch : Watch) (elements : Elements) (place : Nat) :
    Call.requests (pull t watch elements place).calls = [] := by
  simp only [pull]
  split
  · rfl
  · split
    · rfl
    · split <;> rfl

/-- An expression that is planned in a shape is planned. -/
theorem plan_of_planAs {shape : ResultShape} {plan : Plan} (h : p.planAs shape e = .ok plan) :
    p.plan e = .ok plan := by
  obtain ⟨plan', hplan, h⟩ := Outcome.bind_eq_ok.mp h
  obtain ⟨-, -, h⟩ := Outcome.bind_eq_ok.mp h
  cases h
  exact hplan

/-- What opening a stream plans and sends. -/
def Opens (p : QueryProvider) (e : Expr) (requests : List Call) : Prop :=
  requests <+: [.plan e] ∨ ∃ plan, p.plan e = .ok plan ∧ requests = [.plan e, .send plan]

/-- Opening a stream fails by a cancellation that is seen, or comes to the same as when nobody
cancels. -/
theorem openStream_cases (p : QueryProvider) (watch : Watch) (e : Expr) :
    let opened := p.openStream watch e
    (Call.Sees opened.2 watch ∧ opened.1 = .error .cancelled ∨
      ¬ Call.Sees opened.2 watch ∧ opened.1 = (p.openStream (fun _ => .clear) e).1) ∧
    Call.takes opened.2 = [] ∧ Opens p e (Call.requests opened.2) := by
  simp only [openStream]
  split
  · exact ⟨.inr ⟨by simp, rfl⟩, rfl, .inl List.nil_prefix⟩
  · split
    · next hplan => exact ⟨.inr ⟨by simp, rfl⟩, rfl, .inl List.prefix_rfl⟩
    · next plan hplan =>
      have hplanned := plan_of_planAs hplan
      split
      · next hcancelled =>
        exact ⟨.inl ⟨by simp [hcancelled], rfl⟩, rfl, .inl List.prefix_rfl⟩
      · next hclear =>
        split
        · exact ⟨.inr ⟨by simp [hclear], rfl⟩, rfl, .inr ⟨plan, hplanned, rfl⟩⟩
        · next run _ =>
          refine ⟨?_, rfl, .inr ⟨plan, hplanned, rfl⟩⟩
          cases hanswering : (watch .answering).isCancelled with
          | true => exact .inl ⟨by simp [hanswering], by simp [Signal.check, hanswering]; rfl⟩
          | false =>
            exact .inr ⟨by simp [hclear, hanswering],
              by simp [Signal.check, hanswering, Signal.clear]⟩
        · exact ⟨.inr ⟨by simp [hclear], rfl⟩, rfl, .inl List.prefix_rfl⟩

/-- The first poll gives the first element of the source, or none. -/
theorem pollWatching_waiting_cases (p : QueryProvider) (t : ResultType) (watch : Watch) (e : Expr) :
    let step := p.pollWatching t watch (.waiting e)
    ((Stops (p.source e) 0 watch step ∧ step.stream = .finished) ∨
      ∃ v elements, Gives t (p.source e) 0 watch step v ∧ p.source e = elements.get? ∧
        step.stream = .running elements 1) ∧
    Opens p e (Call.requests step.calls) := by
  obtain ⟨hopened, htakes, hopens⟩ := openStream_cases p watch e
  simp only [pollWatching]
  split
  · next hcancelled =>
    exact ⟨.inl ⟨.cancelled (by simp [hcancelled]) rfl List.nil_prefix, rfl⟩, .inl List.nil_prefix⟩
  · next hstarting =>
    split
    · next elements calls hopen =>
      rw [hopen] at hopened htakes hopens
      have hclear : ¬ Call.Sees calls watch ∧
          (p.openStream (fun _ => .clear) e).1 = .ok elements := by
        rcases hopened with ⟨-, h⟩ | ⟨hunseen, h⟩
        · cases h
        · exact ⟨hunseen, h.symm⟩
      have hsource : p.source e = elements.get? := by rw [source, hclear.2]
      have hlooked : Call.SeesClear (.look .starting :: calls) watch :=
        ⟨⟨_, _, rfl⟩, by simp [hstarting, hclear.1]⟩
      refine ⟨?_, by simpa [requests_pull] using hopens⟩
      rw [hsource]
      rcases pull_cases t watch elements 0 with ⟨hstops, hstream⟩ | ⟨v, hgives, hstream⟩
      · exact .inl ⟨hstops.prepend hlooked htakes, hstream⟩
      · exact .inr ⟨v, elements, hgives.prepend hlooked htakes, rfl, hstream⟩
    · next fault calls hopen =>
      rw [hopen] at hopened htakes hopens
      have htake : Call.takes (.look .starting :: calls) <+: [.pull 0] := by
        rw [Call.takes_look, htakes]
        exact List.nil_prefix
      refine ⟨.inl ⟨?_, rfl⟩, hopens⟩
      rcases hopened with ⟨hsees, h⟩ | ⟨hunseen, h⟩
      · cases h
        exact .cancelled (Call.sees_look.mpr (.inr hsees)) rfl htake
      · have hraw : p.source e 0 = some (.error fault) := by
          rw [source, ← h]
          rfl
        exact .fault fault hraw ⟨⟨_, _, rfl⟩, by simp [hstarting, hunseen]⟩ rfl htake

/-! ## Runs -/

section Runs

variable {t : ResultType} {source : Nat → Option (Except Error Value)} {place : Nat}
  {s : ProviderStream} {rest : List Watch}

/-- Behind its end a stream gives the end. -/
theorem pollEach_finished (p : QueryProvider) (t : ResultType) (watches : List Watch) :
    p.pollEach t watches .finished = closing watches := by
  induction watches with
  | nil => rfl
  | cons watch rest ih => exact congrArg _ ih

/-- Behind its end a stream plans and sends nothing. -/
theorem requests_closing {step : Polled} (h : step ∈ closing rest) :
    Call.requests step.calls = [] := by
  obtain ⟨-, -, rfl⟩ := List.mem_map.mp h
  rfl

/-- A poll that gives no element, and the polls after it. -/
theorem delivers_of_stops (hstops : Stops source place watch (p.pollWatching t watch s))
    (hstream : (p.pollWatching t watch s).stream = .finished) :
    Delivers t source place (watch :: rest) (p.pollEach t (watch :: rest) s) [] ∧
      ∀ step ∈ (p.pollEach t (watch :: rest) s).tail, Call.requests step.calls = [] := by
  rw [pollEach, hstream, pollEach_finished]
  exact ⟨⟨by simp, ⟨_, hstops, rfl⟩⟩, fun step hstep => requests_closing hstep⟩

/-- The polls of a running stream give the elements that are left, and plan and send nothing. -/
theorem delivers_pollEach_running (p : QueryProvider) (t : ResultType) (watches : List Watch)
    (elements : Elements) (place : Nat) :
    (∃ values, Delivers t elements.get? place watches
      (p.pollEach t watches (.running elements place)) values) ∧
    ∀ step ∈ p.pollEach t watches (.running elements place), Call.requests step.calls = [] := by
  induction watches generalizing place with
  | nil => exact ⟨⟨[], by simp, rfl⟩, by simp [pollEach]⟩
  | cons watch rest ih =>
    have hrequests : Call.requests
        (p.pollWatching t watch (.running elements place)).calls = [] :=
      requests_pull t watch elements place
    rcases pull_cases t watch elements place with ⟨hstops, hstream⟩ | ⟨v, hgives, hstream⟩
    · have hfinished : (p.pollWatching t watch (.running elements place)).stream = .finished :=
        hstream
      obtain ⟨hdelivers, htail⟩ := delivers_of_stops hstops hfinished
      refine ⟨⟨[], hdelivers⟩, ?_⟩
      exact List.forall_mem_cons.mpr ⟨hrequests, htail⟩
    · obtain ⟨⟨values, hvalues⟩, hrest⟩ := ih (place + 1)
      have hnext : (p.pollWatching t watch (.running elements place)).stream =
          .running elements (place + 1) := hstream
      rw [pollEach, hnext]
      exact ⟨⟨v :: values, hvalues.cons hgives⟩, List.forall_mem_cons.mpr ⟨hrequests, hrest⟩⟩

end Runs

/-- However often a stream is polled, and whenever the signal is cancelled: its polls give the
mapped elements of the source in order, and behind them the end, a fault or a cancellation, after
which there is nothing but the end. The first poll plans and sends, and no other. -/
theorem delivers_pollEach_waiting (p : QueryProvider) (t : ResultType) (e : Expr)
    (watches : List Watch) :
    let run := p.pollEach t watches (.waiting e)
    (∃ values, Delivers t (p.source e) 0 watches run values) ∧
    (∀ step ∈ run.head?, Opens p e (Call.requests step.calls)) ∧
    ∀ step ∈ run.tail, Call.requests step.calls = [] := by
  intro run
  cases watches with
  | nil => exact ⟨⟨[], by simp, rfl⟩, by simp [run, pollEach], by simp [run, pollEach]⟩
  | cons watch rest =>
    obtain ⟨hfirst, hopens⟩ := pollWatching_waiting_cases p t watch e
    have hrequests : ∀ step ∈ run.head?, Opens p e (Call.requests step.calls) := by
      rintro step ⟨⟩
      exact hopens
    rcases hfirst with ⟨hstops, hstream⟩ | ⟨v, elements, hgives, hsource, hstream⟩
    · obtain ⟨hdelivers, htail⟩ := delivers_of_stops hstops hstream
      exact ⟨⟨[], hdelivers⟩, hrequests, htail⟩
    · obtain ⟨⟨values, hvalues⟩, hrest⟩ := delivers_pollEach_running p t rest elements 1
      have hrun : run = p.pollWatching t watch (.waiting e) ::
          p.pollEach t rest (.running elements 1) := by
        rw [← hstream]
        rfl
      refine ⟨⟨v :: values, ?_⟩, hrequests, ?_⟩
      · rw [hrun]
        rw [← hsource] at hvalues
        exact hvalues.cons hgives
      · rwa [hrun]

end QueryProvider
end QueryRelay
