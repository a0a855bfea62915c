import QueryRelay.Proofs.Mapping.Asking

/-!
# Objects keep their identity

The requests for a shared result of one identity and one type, whether they come from the record or
from a reference to it, and whether they are for an owner or for a weak holder, get one cell. That
cell is taken once: what is finished is found again, and while a result is being built an owner of
it cannot be had. Main statement: identity is kept in every mapped graph, owners form no cycle
there, and there is no graph when an owner of a result is requested while the result is being built.
-/

namespace QueryRelay.Mapping

open Value (resolve)

variable {ctx : Context} {t u : Target} {v : Value} {m root : Mapped} {s s₁ s₂ s' : State}
  {r q p : Request} {cell : Nat} {id : ObjectId}

/-! ## One request for each cell -/

/-- What is answered for an absent field is what stands for its absence. -/
theorem state_of_absent {A : AnswerRel} {source : List (String × Value)}
    {f : String × Target} {entry : String × Mapped} {action : Mapper Mapped}
    (hfield : FieldAnswer A ctx source f entry s s') (hsource : Fields.lookup? source f.1 = none)
    (haction : missing ctx.types f.2 = some action) (h : action s = .ok (m, s₂)) : s' = s₂ := by
  cases hfield with
  | found hw => cases hsource.symm.trans hw
  | missing _ haction' h' =>
    cases haction.symm.trans haction'
    cases h.symm.trans h'
    rfl

/-- A request takes a cell by itself, not by the requests that it asks for. -/
inductive Request.Takes : Request → Nat → Prop
  /-- Before it asks for the content, for a value with an identity. -/
  | built {r : Request} {id : ObjectId} {t : Target} (h : r.Builds id t) :
      Takes r r.state.heap.length
  /-- Once it has the content, for a value without identity. -/
  | fresh {r q : Request} {t : Target} {m : Mapped} {s : State} (hholds : r.target.Holds t)
      (hid : objectId? r.value = none) (hasks : Asks r q) (h : q.Answers m s) :
      Takes r s.heap.length
  /-- For what stands for an absent field. -/
  | absent {ctx : Context} {name : String} {v : Value} {id : Option ObjectId}
      {source : List (String × Value)} {before after : List (String × Target)}
      {f : String × Target} {entries : List (String × Mapped)} {action : Mapper Mapped}
      {m : Mapped} {s s₁ s₂ : State} {cell : Nat}
      (hv : resolve ctx.records v = some (.record id source))
      (htype : ctx.types.get? name = some (.fields (before ++ f :: after)))
      (hbefore : Chain (FieldAnswer Request.Answers (ctx.reading id) source) before entries s s₁)
      (hsource : Fields.lookup? source f.1 = none)
      (haction : missing (ctx.reading id).types f.2 = some action) (h : action s₁ = .ok (m, s₂))
      (hleast : s₁.heap.length ≤ cell) (hless : cell < s₂.heap.length) :
      Takes ⟨ctx, .record name, v, s⟩ cell

namespace Request.Takes

/-- A request takes one of the cells that are added until its answer. -/
theorem range (h : r.Takes cell) (hr : r.Answers m s') :
    r.state.heap.length ≤ cell ∧ cell < s'.heap.length := by
  cases h with
  | built h =>
    obtain ⟨hholds, hid, q, hq⟩ := h
    obtain ⟨mq, sq, hanswer, hcontinues, -⟩ := hq.answered hr
    obtain ⟨-, -, w, -, rfl⟩ := hq.content hholds hid
    have hlength := hanswer.grows.length_le
    rw [Request.length_forContent] at hlength
    have := hcontinues.length_le
    omega
  | fresh hholds hid hasks h =>
    obtain ⟨rfl, hnull⟩ := hasks.fresh_content hholds hid
    obtain ⟨content, s₁, hcontent, -, rfl⟩ := hr.fresh hholds hid hnull
    obtain ⟨-, rfl⟩ := h.unique hcontent
    have hlength : r.state.heap.length ≤ _ := h.grows.length_le
    rw [State.allocated, List.length_append, List.length_singleton]
    omega
  | absent hv htype hbefore hsource haction h hleast hless =>
    obtain ⟨entries', -, hfields⟩ := hr.fields hv htype
    obtain ⟨entry, _, s₃, hfield, hafter, -⟩ := hfields.through hbefore (fieldAnswer_unique _ _)
    obtain rfl := state_of_absent hfield hsource haction h
    have := hbefore.grows_fields.length_le
    have := hafter.grows_fields.length_le
    dsimp only
    omega

/-- The requests that a request asks for take other cells. -/
theorem not_range (h : r.Takes cell) (hq : Asks r q) (hanswer : q.Answers m s')
    (hleast : q.state.heap.length ≤ cell) : s'.heap.length ≤ cell := by
  cases h with
  | built h =>
    obtain ⟨-, -, w, -, rfl⟩ := hq.content h.1 h.2.1
    rw [Request.length_forContent] at hleast
    omega
  | fresh hholds hid hasks h =>
    obtain ⟨rfl, -⟩ := hasks.fresh_content hholds hid
    obtain ⟨rfl, -⟩ := hq.fresh_content hholds hid
    obtain ⟨-, rfl⟩ := h.unique hanswer
    exact Nat.le_refl _
  | absent hv htype hbefore hsource haction h hleast' hless =>
    cases hq with
    | fresh hholds | built hholds => cases hholds
    | field hv' _ htype' hbefore' hw =>
      cases hv.symm.trans hv'
      have heq := RecordReading.fields.inj (Option.some.inj (htype.symm.trans htype'))
      rcases hbefore.separate hbefore' heq (fieldAnswer_unique _ _) with
        ⟨rfl, rfl⟩ | ⟨_, _, _, s₃, hfield, hrest⟩ | ⟨_, _, _, s₃, hfield, hrest⟩
      · cases hsource.symm.trans hw
      · obtain rfl := state_of_absent hfield hsource haction h
        have := hrest.grows_fields.length_le
        dsimp only at hleast
        omega
      · cases hfield with
        | missing hsource' => cases hsource'.symm.trans hw
        | found hw' hfound =>
          cases hw.symm.trans hw'
          obtain ⟨-, rfl⟩ := hfound.unique hanswer
          have := hrest.grows_fields.length_le
          omega

/-- A request takes one of the cells that are added until the answer to one that leads to it. -/
theorem range_of_reached (h : r.Takes cell) (hp : p.Answers m s')
    (hr : Relation.ReflTransGen Asks p r) :
    p.state.heap.length ≤ cell ∧ cell < s'.heap.length := by
  obtain ⟨mr, sr, hanswer, hcontinues, -⟩ := hp.reached hr
  have := length_le_of_reached hr
  have := h.range hanswer
  have := hcontinues.length_le
  omega

/-- No request is made below one that takes a cell and takes the same. -/
theorem not_reached (hp : p.Takes cell) (hanswer : p.Answers m s') (hpq : Asks p q)
    (hqr : Relation.ReflTransGen Asks q r) : ¬ r.Takes cell := by
  intro hr
  obtain ⟨mq, sq, hq, -⟩ := hpq.answered hanswer
  have hrange := hr.range_of_reached hq hqr
  have := hp.not_range hpq hq hrange.1
  omega

/-- Two requests of one call that take the same cell are the same. -/
theorem unique (hq : q.Takes cell) (hr : r.Takes cell) (hp : p.Answers root s')
    (hpq : Relation.ReflTransGen Asks p q) (hpr : Relation.ReflTransGen Asks p r) : q = r := by
  induction hpq using Relation.ReflTransGen.head_induction_on generalizing root s' with
  | refl =>
    rcases Relation.ReflTransGen.cases_head hpr with rfl | ⟨b, hqb, hbr⟩
    · rfl
    · exact absurd hr (hq.not_reached hp hqb hbr)
  | @head p a hpa haq ih =>
    rcases Relation.ReflTransGen.cases_head hpr with rfl | ⟨b, hpb, hbr⟩
    · exact absurd hq (hr.not_reached hp hpa haq)
    · obtain ⟨ma, sa, ha, -⟩ := hpa.answered hp
      obtain ⟨mb, sb, hb, -⟩ := hpb.answered hp
      have hrangea := hq.range_of_reached ha haq
      have hrangeb := hr.range_of_reached hb hbr
      -- When the two part ways here, all cells of one are taken before all cells of the other.
      rcases hpa.separate hpb with rfl | hbefore | hafter
      · exact ih ha hbr
      · have := hbefore ma sa ha
        omega
      · have := hafter mb sb hb
        omega

end Request.Takes

/-! ## Owners of what is being built -/

/-- An owner of a result that is being built cannot be had. -/
theorem not_answers_of_pending (hr : r.Unfinished) (htarget : r.target = .shared u)
    (hid : objectId? r.value = some id)
    (hpending : r.context.pending.lookup (id, u) = some cell) : ¬ r.Answers m s := by
  intro h
  have hstep := h.step
  obtain ⟨ctx, target, v, s₀⟩ := r
  cases htarget
  have hunfinished : s₀.finished.lookup (id, u) = none := hr (id, u) cell hpending
  cases hstep with
  | scalar hread => cases hread
  | shared hcell =>
    cases hcell with
    | fresh hid' => cases hid.symm.trans hid'
    | found hid' hfinished =>
      cases hid.symm.trans hid'
      cases hunfinished.symm.trans hfinished
    | built hid' _ hnone =>
      cases hid.symm.trans hid'
      cases hpending.symm.trans hnone

/-- What has an identity stands for a record of the identity. -/
theorem resolve_of_objectId? {records : List Value.Identified} {w : Value}
    (hid : objectId? v = some id) (hw : resolve records v = some w) :
    ∃ source, w = .record (some id) source := by
  cases v with
  | record own source =>
    cases hid
    cases hw
    exact ⟨source, rfl⟩
  | ref own =>
    cases hid
    obtain ⟨found, hfound, rfl⟩ := Option.map_eq_some_iff.mp hw
    obtain ⟨-, rfl⟩ := Value.findRecord_eq_some hfound
    exact ⟨found.fields, rfl⟩
  | _ => cases hid

/-- Inside a record that is being read the record cannot be read. -/
theorem not_answers_of_visiting {name : String} (hr : r.Reads id name)
    (hvisiting : id ∈ r.context.visiting) : ¬ r.Answers m s := by
  intro h
  have hstep := h.step
  obtain ⟨ctx, target, v, s₀⟩ := r
  obtain ⟨rfl, source, hv⟩ := hr
  cases hstep with
  | scalar hread => cases hread
  | fields hv' hnot | outline hv' hnot =>
    cases hv.symm.trans hv'
    exact hnot id rfl hvisiting

/-- Inside a record that is being read no owner of the record read as the same type is built. -/
theorem not_answers_of_reading {name : String} (htarget : r.target = .shared (.record name))
    (hid : objectId? r.value = some id) (hvisiting : id ∈ r.context.visiting)
    (hunfinished : r.state.finished.lookup (id, .record name) = none) : ¬ r.Answers m s := by
  intro h
  have hstep := h.step
  obtain ⟨ctx, target, v, s₀⟩ := r
  cases htarget
  cases hstep with
  | scalar hread => cases hread
  | shared hcell =>
    cases hcell with
    | fresh hid' => cases hid.symm.trans hid'
    | found hid' hfinished =>
      cases hid.symm.trans hid'
      cases hunfinished.symm.trans hfinished
    | built hid' _ _ hw hcontent =>
      cases hid.symm.trans hid'
      obtain ⟨source, rfl⟩ := resolve_of_objectId? hid hw
      refine not_answers_of_visiting (r := ⟨_, .record name, .record (some id) source, _⟩)
        ⟨rfl, source, rfl⟩ ?_ hcontent
      exact hvisiting

/-- Inside a record that is read as a record type the record is being read. -/
theorem Request.Reads.visiting {name : String} (hr : r.Reads id name) (h : Asks r q) :
    id ∈ q.context.visiting := by
  obtain ⟨htarget, source, hv⟩ := hr
  cases h with
  | option | boxed | item => cases htarget
  | fresh hholds | built hholds =>
    cases htarget
    cases hholds
  | field hv' =>
    cases hv.symm.trans hv'
    exact List.mem_cons_self

/-! ## Mapped graphs -/

/-- A mapped graph is the answer to the request that mapping starts with. -/
theorem first_answers {types : RecordTargets} {g : MappedGraph} (h : t.map types v = .ok g) :
    ∃ finished, (Request.first types t v).Answers g.root ⟨g.heap, finished⟩ := by
  rw [Target.map] at h
  split at h
  · rename_i root s hbuild
    cases h
    exact ⟨s.finished, _, hbuild⟩
  · cases h

section Cells

variable {types : RecordTargets} (hfirst : (Request.first types t v).Answers root s')
include hfirst

/-- Every holder of a shared result of an identity gets the cell that is finished for it. -/
theorem exists_cell (hr : Request.Made types t v r) (hholds : r.target.Holds u)
    (hid : objectId? r.value = some id) :
    ∃ cell s, r.Answers (r.target.holder cell) s ∧ s'.finished.lookup (id, u) = some cell := by
  obtain ⟨m, s, hanswer, hcontinues, hpending⟩ := hfirst.reached hr
  obtain ⟨cell, rfl, hcell⟩ := hanswer.holder hholds hid
  refine ⟨cell, s, hanswer, ?_⟩
  rcases hcell with hbuilding | hdone
  · rcases hpending hbuilding with hnone | hdone
    · cases hnone
    · exact hdone
  · exact hcontinues.kept hdone

/-- The cell that a request takes for a shared result is finished for it. -/
theorem Request.Builds.finished (h : r.Builds id u) (hr : Request.Made types t v r) :
    s'.finished.lookup (id, u) = some r.state.heap.length := by
  obtain ⟨hholds, hid, q, hq⟩ := h
  obtain ⟨-, -, w, -, rfl⟩ := hq.content hholds hid
  obtain ⟨m, s, -, -, hpending⟩ := hfirst.reached (hr.tail hq)
  rcases hpending (r.lookup_forContent id u w) with hnone | hdone
  · cases hnone
  · exact hdone

/-- One request at most builds the shared result of an identity and a type. -/
theorem Request.Builds.unique (hqb : q.Builds id u) (hrb : r.Builds id u)
    (hq : Request.Made types t v q) (hr : Request.Made types t v r) : q = r := by
  have hlength : q.state.heap.length = r.state.heap.length :=
    Option.some.inj ((hqb.finished hfirst hq).symm.trans (hrb.finished hfirst hr))
  have hrt : r.Takes q.state.heap.length := hlength ▸ .built hrb
  exact Request.Takes.unique (.built hqb) hrt hfirst hq hr

end Cells

/-- When a request that is made has no answer, mapping fails. -/
theorem map_error_of_made {types : RecordTargets} (hr : Request.Made types t v r)
    (h : ∀ m s, ¬ r.Answers m s) : ∃ f, t.map types v = .error (.mapping f) := by
  cases hmap : t.map types v with
  | ok g =>
    obtain ⟨finished, hfirst⟩ := first_answers hmap
    obtain ⟨m, s, hanswer, -⟩ := hfirst.reached hr
    exact absurd hanswer (h m s)
  | error e =>
    rw [Target.map] at hmap
    split at hmap
    · cases hmap
    · rename_i f _
      cases hmap
      exact ⟨f, rfl⟩

/-- The identity of objects is kept. When a value is mapped to a graph, for each identity and type
there is one cell that every holder gets that is requested for a value with the identity, be it the
record or a reference, and be it for an owner or for a weak holder; at most one request builds the
content of the cell; and no cell of the graph owns itself through a chain of owners. Whenever an
owner is requested while the shared result of its identity and type is being built, mapping fails,
and so it does while the record is read as the type without an owner, if no shared result is
finished yet. -/
theorem map_keeps_identity (types : RecordTargets) (t : Target) (v : Value) :
    (∀ g, t.map types v = .ok g →
      (∃ cellOf : ObjectId → Target → Nat, ∀ r id u, Request.Made types t v r →
        r.target.Holds u → objectId? r.value = some id →
          ∃ s, r.Answers (r.target.holder (cellOf id u)) s) ∧
      (∀ q r id u, Request.Made types t v q → Request.Made types t v r →
        q.Builds id u → r.Builds id u → q = r) ∧
      ∀ cell, ¬ Relation.TransGen g.Owns cell cell) ∧
    (∀ q r id u, Request.Made types t v q → q.Builds id u → Relation.TransGen Asks q r →
      r.target = .shared u → objectId? r.value = some id →
        ∃ f, t.map types v = .error (.mapping f)) ∧
    ∀ q r id name, Request.Made types t v q → q.Reads id name → Relation.TransGen Asks q r →
      r.target = .shared (.record name) → objectId? r.value = some id →
        r.state.finished.lookup (id, .record name) = none →
          ∃ f, t.map types v = .error (.mapping f) := by
  refine ⟨fun g hg => ?_, ?_, ?_⟩
  · obtain ⟨finished, hfirst⟩ := first_answers hg
    -- The one cell is what is finished in the end; where no holder is requested it does not matter.
    refine ⟨⟨fun id u => (finished.lookup (id, u)).getD 0, ?_⟩, ?_, ?_⟩
    · intro r id u hr hholds hid
      obtain ⟨cell, s, hanswer, hfinished⟩ := exists_cell hfirst hr hholds hid
      dsimp only
      rw [hfinished]
      exact ⟨s, hanswer⟩
    · exact fun q r id u hq hr hqb hrb => hqb.unique hfirst hrb hq hr
    · have hempty : Sturdy ⟨[], []⟩ := ⟨nofun, nofun⟩
      exact (hfirst.sturdy hempty).1.acyclic g.root
  · intro q r id u hq hqb hqr htarget hid
    obtain ⟨a, ha, har⟩ := Relation.TransGen.head'_iff.mp hqr
    have hr : Request.Made types t v r := hq.trans hqr.to_reflTransGen
    obtain ⟨-, -, w, -, rfl⟩ := ha.content hqb.1 hqb.2.1
    have hown := pending_of_reached har (q.lookup_forContent id u w)
    have hunfinished : r.Unfinished := unfinished_of_reached hr nofun
    exact map_error_of_made hr fun m s => not_answers_of_pending hunfinished htarget hid hown
  · intro q r id name hq hreads hqr htarget hid hfinished
    obtain ⟨a, ha, har⟩ := Relation.TransGen.head'_iff.mp hqr
    have hr : Request.Made types t v r := hq.trans hqr.to_reflTransGen
    have hvisiting := visiting_of_reached har (hreads.visiting ha)
    exact map_error_of_made hr fun m s => not_answers_of_reading htarget hid hvisiting hfinished

/-- Nodes that own their children and point back at their parent, and nodes that own both. -/
def nodeTypes : RecordTargets :=
  [("Node", .fields [("Name", .text), ("Parent", .weak (.record "Node")),
      ("Children", .list (.shared (.record "Node")))]),
    ("Strong", .fields [("Parent", .option (.shared (.record "Strong"))),
      ("Children", .list (.shared (.record "Strong")))])]

/-- A record with a child that refers to it. -/
def family : Value :=
  .record (some ⟨1⟩) [("Name", .text "root"),
    ("Children", .list [.record (some ⟨2⟩) [("Name", .text "a"), ("Parent", .ref ⟨1⟩)]])]

/-- A record that is its own parent. -/
def ownParent : Value := .record (some ⟨1⟩) [("Parent", .ref ⟨1⟩)]

/-- The requests that lead from the record to the parent of the child, which refers to it. -/
theorem family_asks : ∃ content children child inner parent,
    Asks (Request.first nodeTypes (.shared (.record "Node")) family) content ∧
      content.target = .record "Node" ∧ Asks content children ∧
      children.target = .list (.shared (.record "Node")) ∧ Asks children child ∧
      child.target = .shared (.record "Node") ∧ Asks child inner ∧
      inner.target = .record "Node" ∧ Asks inner parent ∧
      parent.target = .weak (.record "Node") ∧ parent.value = .ref ⟨1⟩ := by
  let leaf : Value := .record (some ⟨2⟩) [("Name", .text "a"), ("Parent", .ref ⟨1⟩)]
  let outer : Context := (Context.mk nodeTypes family.identified [] []).building
    (⟨1⟩, .record "Node") 0
  let inner : Context := (outer.reading (some ⟨1⟩)).building (⟨2⟩, .record "Node") 1
  have hcontent : Asks (Request.first nodeTypes (.shared (.record "Node")) family)
      ⟨outer, .record "Node", family, ⟨[none], []⟩⟩ := .built (.shared _) rfl rfl rfl rfl
  have hchildren : Asks ⟨outer, .record "Node", family, ⟨[none], []⟩⟩
      ⟨outer.reading (some ⟨1⟩), .list (.shared (.record "Node")), .list [leaf], ⟨[none], []⟩⟩ :=
    @Asks.field _ _ _ _ _ _ [("Name", .text), ("Parent", .weak (.record "Node"))] []
      ("Children", _) _ _ _ rfl (fun _ _ => List.not_mem_nil) rfl
      (.cons (.found rfl ⟨1, rfl⟩) (.cons (.missing rfl rfl rfl) (.nil _))) rfl
  have hchild : Asks
      ⟨outer.reading (some ⟨1⟩), .list (.shared (.record "Node")), .list [leaf], ⟨[none], []⟩⟩
      ⟨outer.reading (some ⟨1⟩), .shared (.record "Node"), leaf, ⟨[none], []⟩⟩ :=
    @Asks.item _ _ _ _ [] [] _ _ _ rfl (.nil _)
  have hinner : Asks ⟨outer.reading (some ⟨1⟩), .shared (.record "Node"), leaf, ⟨[none], []⟩⟩
      ⟨inner, .record "Node", leaf, ⟨[none, none], []⟩⟩ := .built (.shared _) rfl rfl rfl rfl
  have hparent : Asks ⟨inner, .record "Node", leaf, ⟨[none, none], []⟩⟩
      ⟨inner.reading (some ⟨2⟩), .weak (.record "Node"), .ref ⟨1⟩, ⟨[none, none], []⟩⟩ :=
    @Asks.field _ _ _ _ _ _ [("Name", .text)] [_] ("Parent", _) _ _ _ rfl
      (fun i hi => by cases hi; decide) rfl (.cons (.found rfl ⟨1, rfl⟩) (.nil _)) rfl
  exact ⟨_, _, _, _, _, hcontent, rfl, hchildren, rfl, hchild, rfl, hinner, rfl, hparent, rfl, rfl⟩

/-- While a record that is its own parent is read, an owner of the parent is requested. -/
theorem ownParent_asks (ctx : Context) (s : State) (htypes : ctx.types = nodeTypes)
    (hvisiting : ctx.visiting = []) :
    ∃ q, Relation.TransGen Asks ⟨ctx, .record "Strong", ownParent, s⟩ q ∧
      q.target = .shared (.record "Strong") ∧ q.value = .ref ⟨1⟩ ∧ q.state = s := by
  have hparent : Asks ⟨ctx, .record "Strong", ownParent, s⟩
      ⟨ctx.reading (some ⟨1⟩), .option (.shared (.record "Strong")), .ref ⟨1⟩, s⟩ :=
    @Asks.field _ _ _ _ _ _ [] [_] ("Parent", _) _ _ _ rfl
      (fun i _ => by rw [hvisiting]; exact List.not_mem_nil) (by rw [htypes]; rfl) (.nil s) rfl
  exact ⟨_, .tail (.single hparent) (.option rfl), rfl, rfl, rfl⟩

/-- Mapped to nodes that point back, a record and a reference to it get one cell, and no cell owns
itself. Mapped to nodes that own their parent, a record that is its own parent is requested again
while it is being built, and mapping fails, with an owner of the record and without. -/
theorem family_keeps_identity :
    (∃ g r cell, (Target.shared (.record "Node")).map nodeTypes family = .ok g ∧
      (∃ s, (Request.first nodeTypes (.shared (.record "Node")) family).Answers (.shared cell) s) ∧
      Request.Made nodeTypes (.shared (.record "Node")) family r ∧ r.value = .ref ⟨1⟩ ∧
      (∃ s, r.Answers (.weak (some cell)) s) ∧ ∀ c, ¬ Relation.TransGen g.Owns c c) ∧
    (∃ f, (Target.shared (.record "Strong")).map nodeTypes ownParent = .error (.mapping f)) ∧
    ∃ f, (Target.record "Strong").map nodeTypes ownParent = .error (.mapping f) := by
  refine ⟨?_, ?_, ?_⟩
  · have hmap : ∃ g, (Target.shared (.record "Node")).map nodeTypes family = .ok g := ⟨_, rfl⟩
    obtain ⟨g, hg⟩ := hmap
    obtain ⟨⟨cellOf, hcell⟩, -, hacyclic⟩ :=
      (map_keeps_identity nodeTypes (.shared (.record "Node")) family).1 g hg
    obtain ⟨_, _, _, _, r, h₁, -, h₂, -, h₃, -, h₄, -, h₅, htarget, hvalue⟩ := family_asks
    have hr : Request.Made nodeTypes (.shared (.record "Node")) family r :=
      ((((Relation.ReflTransGen.single h₁).tail h₂).tail h₃).tail h₄).tail h₅
    have hfirst := hcell _ ⟨1⟩ (.record "Node") .refl (.shared _) rfl
    have hparent := hcell r ⟨1⟩ (.record "Node") hr (by rw [htarget]; exact .weak _)
      (by rw [hvalue]; rfl)
    rw [htarget] at hparent
    exact ⟨g, r, cellOf ⟨1⟩ (.record "Node"), hg, hfirst, hr, hvalue, hparent, hacyclic⟩
  · obtain ⟨-, hcycle, -⟩ := map_keeps_identity nodeTypes (.shared (.record "Strong")) ownParent
    let outer : Context := ⟨nodeTypes, ownParent.identified, [], []⟩
    have hcontent : Asks (Request.first nodeTypes (.shared (.record "Strong")) ownParent) _ :=
      .built (.shared (.record "Strong")) rfl rfl rfl rfl
    obtain ⟨r, hr, htarget, hvalue, -⟩ :=
      ownParent_asks (outer.building (⟨1⟩, .record "Strong") 0) ⟨[none], []⟩ rfl rfl
    exact hcycle _ r ⟨1⟩ (.record "Strong") .refl ⟨.shared _, rfl, _, hcontent⟩
      (.head hcontent hr) htarget (by rw [hvalue]; rfl)
  · obtain ⟨-, -, hreading⟩ := map_keeps_identity nodeTypes (.record "Strong") ownParent
    obtain ⟨r, hr, htarget, hvalue, hstate⟩ :=
      ownParent_asks ⟨nodeTypes, ownParent.identified, [], []⟩ ⟨[], []⟩ rfl rfl
    exact hreading _ r ⟨1⟩ "Strong" .refl ⟨rfl, _, rfl⟩ hr htarget (by rw [hvalue]; rfl)
      (by rw [hstate]; rfl)

end QueryRelay.Mapping
