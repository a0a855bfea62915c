import QueryRelay.Proofs.Mapping.Places
import QueryRelay.Proofs.Mapping.Sources

/-!
# What weak holders still find when mapping is over

While a value is mapped every shared result is at hand, for an owner and for a weak holder alike.
Once mapping is over only those cells live that the result owns, and a weak holder owns nothing: it
finds its cell as long as some owner, requested for a value of the same identity, is held by the
result. Main statement: for each weak holder that is requested for something, what it points at is
the result of the record it refers to, and it is found exactly when such an owner is held.
-/

namespace QueryRelay.Mapping

open Value (resolve)

variable {types : RecordTargets} {t u : Target} {v : Value} {m inner content : Mapped}
  {s : State} {r q b : Request} {cell c : Nat} {id : ObjectId} {g : MappedGraph}
  {finished : List (SharedKey × Nat)}

/-! ## Requests inside a graph -/

/-- A request is made inside a graph: references are resolved there, and the records in the value
are records of the graph. -/
structure Request.Inside (r : Request) (v : Value) : Prop where
  /-- The records that references are resolved to. -/
  records : r.context.records = v.identified
  /-- The records in the value. -/
  within : ∀ i ∈ r.value.identified, i ∈ v.identified

/-- What a value of a request stands for is inside the graph. -/
theorem Request.Inside.resolved {w : Value} (h : r.Inside v)
    (hw : resolve r.context.records r.value = some w) : ∀ i ∈ w.identified, i ∈ v.identified := by
  intro i hi
  rw [h.records] at hw
  exact Value.identified_resolve h.within (closed_identified v) hw hi

/-- What is asked for inside a graph is inside the graph. -/
theorem Asks.inside (h : Asks r q) (hr : r.Inside v) : q.Inside v := by
  cases h with
  | option | boxed | fresh => exact ⟨hr.records, hr.within⟩
  | item hv =>
    refine ⟨hr.records, fun i hi => hr.resolved hv i ?_⟩
    exact Value.mem_identified_of_mem_children (v := .list _)
      (List.mem_append_right _ List.mem_cons_self) hi
  | built _ _ _ _ hw => exact ⟨hr.records, hr.resolved hw⟩
  | field hv _ _ _ hw =>
    refine ⟨(Context.records_reading _ _).trans hr.records, fun i hi => hr.resolved hv i ?_⟩
    exact Value.mem_identified_of_mem_children (mem_children_of_lookup? hw) hi

/-- The requests that are made when a value is mapped are inside the value. -/
theorem Request.Made.inside (h : Request.Made types t v r) : r.Inside v := by
  induction h with
  | refl => exact ⟨rfl, fun _ => id⟩
  | tail _ hasks ih => exact hasks.inside ih

/-! ## Requests whose answers are held -/

/-- A request is held when the result has its answer in it, directly or through owners: it is the
one that mapping starts with, one for a part of what is held, or the one for the content of a cell
of which an owner is held, whichever request takes the cell. -/
inductive Request.Held (types : RecordTargets) (t : Target) (v : Value) : Request → Prop
  /-- The request that mapping starts with. -/
  | first : Held types t v (.first types t v)
  /-- A request for a part. -/
  | part {r q : Request} (hr : Held types t v r) (hq : AsksPart r q) : Held types t v q
  /-- The request for the content of a cell. -/
  | content {r b q : Request} {u : Target} {cell : Nat} {s : State} (hr : Held types t v r)
      (htarget : r.target = .shared u) (h : r.Answers (.shared cell) s)
      (hb : Request.Made types t v b) (hcell : b.Takes cell) (hholds : b.target.Holds u)
      (hq : Asks b q) : Held types t v q

namespace Request.Held

/-- A request that is held is made. -/
theorem made (h : Held types t v r) : Request.Made types t v r := by
  induction h with
  | first => exact .refl
  | part _ hq ih => exact ih.tail hq.1
  | content _ _ _ hb _ _ hq => exact hb.tail hq

/-- What a held request leads to through parts is held. -/
theorem parts (h : Held types t v r) (hq : Relation.ReflTransGen AsksPart r q) :
    Held types t v q := by
  induction hq with
  | refl => exact h
  | tail _ hq ih => exact ih.part hq

end Request.Held

/-! ## What the result owns -/

section Cells

variable (hfirst : (Request.first types t v).Answers g.root ⟨g.heap, finished⟩)
include hfirst

/-- What is in the cell of a holder is the answer to a request over the record that the value of the
holder stands for, or over the value itself when it has no identity. -/
theorem content_of_holder (hr : Request.Made types t v r) (hholds : r.target.Holds u)
    (h : r.Answers (r.target.holder cell) s) :
    ∃ q content s', Request.Made types t v q ∧ q.target = u ∧
      (objectId? r.value = none → q.value = r.value) ∧
      (∀ id, objectId? r.value = some id →
        ∃ source, ⟨id, source⟩ ∈ v.identified ∧ q.value = .record (some id) source) ∧
      q.Answers content s' ∧ g.cell? cell = some content := by
  obtain ⟨b, q, hb, hcell, hbholds, hids, hq, hself⟩ := exists_takes hfirst hr hholds h
  obtain ⟨content, s', hanswer, hcontent⟩ := content_of_takes hfirst hb hcell hbholds hq
  have hcell? : g.cell? cell = some content := by rw [MappedGraph.cell?, hcontent]; rfl
  cases hid : objectId? r.value with
  | none =>
    obtain rfl := hself hid
    obtain ⟨rfl, -⟩ := hq.fresh_content hholds hid
    refine ⟨_, content, s', hb.tail hq, rfl, fun _ => rfl, fun i hi => ?_, hanswer, hcell?⟩
    cases hi
  | some id =>
    have hbid : objectId? b.value = some id := hids.trans hid
    obtain ⟨-, -, w, hw, rfl⟩ := hq.content hbholds hbid
    obtain ⟨source, rfl⟩ := resolve_of_objectId? hbid hw
    have hsource := hb.inside.resolved hw _ (Value.mem_identified_self id source)
    refine ⟨_, content, s', hb.tail hq, rfl, fun hi => ?_, fun i hi => ?_, hanswer, hcell?⟩
    · cases hi
    · cases hi
      exact ⟨source, hsource, rfl⟩

/-- The result owns, through a chain of owners, every cell that the answer to a held request
owns. -/
theorem Request.Held.reaches (hr : Request.Held types t v r) (h : r.Answers m s)
    (hcell : cell ∈ m.owned) : g.Reaches cell := by
  induction hr generalizing m s cell with
  | first =>
    obtain ⟨rfl, -⟩ := h.unique hfirst
    exact ⟨cell, hcell, .refl⟩
  | part hr hq ih =>
    obtain ⟨mr, sr, hanswer, -⟩ := hfirst.reached hr.made
    have hwithin : mr.Within m := hq.within hanswer h
    exact ih hanswer (Mapped.mem_owned.mpr (hwithin.trans (Mapped.mem_owned.mp hcell)))
  | @content r b q u owner s hr htarget hanswer hb htakes hholds hq ih =>
    obtain ⟨first, hroot, hchain⟩ := ih hanswer (List.mem_singleton_self owner)
    obtain ⟨content, s', hcontent, hheap⟩ := content_of_takes hfirst hb htakes hholds hq
    obtain ⟨rfl, -⟩ := h.unique hcontent
    have howner : g.cell? owner = some m := by rw [MappedGraph.cell?, hheap]; rfl
    exact ⟨first, hroot, hchain.tail ⟨m, howner, hcell⟩⟩

/-- In the content of a cell of which a held request gives an owner, every holder is given by a held
request. -/
theorem held_of_content (hr : Request.Held types t v r) (hgives : r.Gives (.shared cell) cell)
    (hcontent : g.cell? cell = some content) (hwithin : content.Within inner)
    (hinner : inner.HoldsCell c) : ∃ q, Request.Held types t v q ∧ q.Gives inner c := by
  have hheap : g.heap[cell]? = some (some content) := Option.join_eq_some_iff.mp hcontent
  cases hgives with
  -- What an owner of a shared result holds is looked for in the request for the content.
  | @answer u s hholds howner h =>
    have htarget : r.target = .shared u := hholds.eq_shared howner
    rw [howner] at h
    obtain ⟨b, q, hb, htakes, hbholds, -, hq, -⟩ := exists_takes hfirst hr.made hholds h
    obtain ⟨content', s', hanswer, hheap'⟩ := content_of_takes hfirst hb htakes hbholds hq
    cases hheap.symm.trans hheap'
    rw [← howner] at h
    have hheld : Request.Held types t v q := .content hr htarget h hb htakes hbholds hq
    obtain ⟨p, hp, hgives⟩ := hanswer.holderFrom hwithin hinner
    exact ⟨p, hheld.parts hp, hgives⟩
  -- What stands for an absent field owns cells that were taken for the same field only.
  | absent _ htakes htarget =>
    obtain ⟨content', hheap', howned, hweak⟩ :=
      content_of_takes_absent hfirst hr.made htakes htarget
    cases hheap.symm.trans hheap'
    rcases hinner with rfl | rfl
    · exact ⟨r, hr, .absent rfl (howned c (Mapped.mem_owned.mpr hwithin)) htarget⟩
    · exact absurd hwithin (hweak c)

/-- Of every cell that the result owns through a chain of owners a held request gives an owner. -/
theorem held_of_reaches (h : g.Reaches cell) :
    ∃ q, Request.Held types t v q ∧ q.Gives (.shared cell) cell := by
  obtain ⟨first, hroot, hchain⟩ := h
  induction hchain with
  | refl =>
    obtain ⟨q, hq, hgives⟩ := hfirst.holderFrom (Mapped.mem_owned.mp hroot) (.inl rfl)
    exact ⟨q, Request.Held.first.parts hq, hgives⟩
  | tail _ howns ih =>
    obtain ⟨q, hq, hgives⟩ := ih
    obtain ⟨content, hcontent, hcell⟩ := howns
    exact held_of_content hfirst hq hgives hcontent (Mapped.mem_owned.mp hcell) (.inl rfl)

/-- A weak holder that is requested for something gets a cell. -/
theorem exists_answer_of_weak (hr : Request.Made types t v r) (htarget : r.target = .weak u)
    (hnull : r.value.isNull = false) : ∃ cell s, r.Answers (.weak (some cell)) s := by
  obtain ⟨m, s, hanswer, -⟩ := hfirst.reached hr
  have hstep := hanswer.step
  obtain ⟨ctx, target, w, s₀⟩ := r
  cases htarget
  cases hstep with
  | scalar hread => cases hread
  | empty hnull' => cases hnull.symm.trans hnull'
  | ancestor | downgraded => exact ⟨_, s, hanswer⟩

/-- The result owns the cell of a weak holder exactly when it holds the answer to a request for an
owner of the same identity. -/
theorem reaches_iff_of_weak (hr : Request.Made types t v r) (htarget : r.target = .weak u)
    (h : r.Answers (.weak (some cell)) s) : g.Reaches cell ↔ ∃ q id, Request.Held types t v q ∧
      q.target = .shared u ∧ objectId? q.value = some id ∧ objectId? r.value = some id := by
  have hholds : r.target.Holds u := by
    rw [htarget]
    exact .weak u
  have hholder : r.target.holder cell = .weak (some cell) := by rw [htarget]; rfl
  constructor
  · intro hreaches
    rw [← hholder] at h
    obtain ⟨b, -, hb, hcell, hbholds, hids, -, hself⟩ := exists_takes hfirst hr hholds h
    obtain ⟨q, hq, hgives⟩ := held_of_reaches hfirst hreaches
    cases hgives with
    | absent _ hqcell hqtarget =>
      obtain rfl := hqcell.unique hcell hfirst hq.made hb
      exact absurd hbholds (hqtarget u)
    | @answer u' s' hqholds howner hanswer =>
      rw [howner] at hanswer
      obtain ⟨b', -, hb', hcell', hbholds', hids', -, hself'⟩ :=
        exists_takes hfirst hq.made hqholds hanswer
      obtain rfl := hcell.unique hcell' hfirst hb hb'
      obtain rfl := hbholds.unique hbholds'
      have hshared : q.target = .shared u := hqholds.eq_shared howner
      cases hid : objectId? r.value with
      | none =>
        -- Without identity each holder takes its own cell, so that the two were one request.
        obtain rfl := hself hid
        obtain rfl := hself' (hids'.symm.trans hid)
        cases htarget.symm.trans hshared
      | some id => exact ⟨q, id, hq, hshared, hids'.symm.trans (hids.trans hid), rfl⟩
  · rintro ⟨q, id, hq, hshared, hqid, hid⟩
    have hqholds : q.target.Holds u := by
      rw [hshared]
      exact .shared u
    obtain ⟨own, s', hanswer, hfinished⟩ := exists_cell hfirst hr hholds hid
    obtain ⟨own', s'', hanswer', hfinished'⟩ := exists_cell hfirst hq.made hqholds hqid
    cases hfinished.symm.trans hfinished'
    rw [← hholder] at h
    obtain rfl := hholds.eq_of_holder (h.unique hanswer).1
    rw [hshared] at hanswer'
    exact hq.reaches hfirst hanswer' (List.mem_singleton_self cell)

end Cells

/-! ## Weak holders -/

/-- A result lives in a graph: it is the root, or what a living cell has in it. -/
inductive Lives (g : MappedGraph) : Mapped → Prop
  /-- The root. -/
  | root : Lives g g.root
  /-- The content of a living cell. -/
  | content {cell : Nat} {m : Mapped} (halive : g.isAlive cell = true)
      (hm : g.cell? cell = some m) : Lives g m

/-- What weak holders find when mapping is over. When a value is mapped to a graph, each weak holder
that is requested for something gets a cell. In the cell is the result of mapping a record of the
graph with the identity of what the holder was requested for, or of that itself when it has no
identity. The cell is found exactly when the result holds, at any distance, the answer to a request
for an owner of a value with the same identity; without identity it never is. The weak holders with
a cell in what lives are the answers to such requests that are held. -/
theorem map_weak_isAlive (types : RecordTargets) (t : Target) (v : Value) (g : MappedGraph)
    (hg : t.map types v = .ok g) :
    (∀ r u, Request.Made types t v r → r.target = .weak u → r.value.isNull = false →
      ∃ cell s, r.Answers (.weak (some cell)) s ∧
        (g.isAlive cell = true ↔ ∃ q id, Request.Held types t v q ∧ q.target = .shared u ∧
          objectId? q.value = some id ∧ objectId? r.value = some id) ∧
        ∃ q content s', Request.Made types t v q ∧ q.target = u ∧
          (objectId? r.value = none → q.value = r.value) ∧
          (∀ id, objectId? r.value = some id →
            ∃ source, ⟨id, source⟩ ∈ v.identified ∧ q.value = .record (some id) source) ∧
          q.Answers content s' ∧ g.cell? cell = some content) ∧
    ∀ m cell, Lives g m → m.Within (.weak (some cell)) →
      ∃ r u s, Request.Held types t v r ∧ r.target = .weak u ∧ r.value.isNull = false ∧
        r.Answers (.weak (some cell)) s := by
  obtain ⟨finished, hfirst⟩ := first_answers hg
  have hempty : Sturdy ⟨[], []⟩ := ⟨nofun, nofun⟩
  obtain ⟨hsturdy, hroot⟩ := hfirst.sturdy hempty
  have hbounded : g.IsBounded := hsturdy.isBounded hroot
  refine ⟨fun r u hr htarget hnull => ?_, fun m cell hlives hwithin => ?_⟩
  · have hholds : r.target.Holds u := by
      rw [htarget]
      exact .weak u
    obtain ⟨cell, s, hanswer⟩ := exists_answer_of_weak hfirst hr htarget hnull
    have halive := (MappedGraph.isAlive_iff hbounded).trans
      (reaches_iff_of_weak hfirst hr htarget hanswer)
    have hholder : r.target.holder cell = .weak (some cell) := by rw [htarget]; rfl
    exact ⟨cell, s, hanswer, halive, content_of_holder hfirst hr hholds (hholder ▸ hanswer)⟩
  · have hgiven : ∃ r, Request.Held types t v r ∧ r.Gives (.weak (some cell)) cell := by
      cases hlives with
      | root =>
        obtain ⟨r, hr, hgives⟩ := hfirst.holderFrom hwithin (.inr rfl)
        exact ⟨r, Request.Held.first.parts hr, hgives⟩
      | content halive hm =>
        obtain ⟨q, hq, hgives⟩ :=
          held_of_reaches hfirst ((MappedGraph.isAlive_iff hbounded).mp halive)
        exact held_of_content hfirst hq hgives hm hwithin (.inr rfl)
    obtain ⟨r, hr, hgives⟩ := hgiven
    cases hgives with
    | absent hinner => cases hinner
    | @answer u s hholds hinner hanswer =>
      have htarget : r.target = .weak u := hholds.eq_weak hinner
      exact ⟨r, u, s, hr, htarget, isNull_of_holder htarget (hinner ▸ hanswer), hanswer⟩

/-- In a family the parent that the child refers to is found when mapping is over, since the result
is an owner of it. -/
theorem family_weak_isAlive : ∃ g r cell s,
    (Target.shared (.record "Node")).map nodeTypes family = .ok g ∧
      Request.Made nodeTypes (.shared (.record "Node")) family r ∧ r.value = .ref ⟨1⟩ ∧
      r.Answers (.weak (some cell)) s ∧ g.isAlive cell = true := by
  have hmap : ∃ g, (Target.shared (.record "Node")).map nodeTypes family = .ok g := ⟨_, rfl⟩
  obtain ⟨g, hg⟩ := hmap
  obtain ⟨_, _, _, _, r, h₁, -, h₂, -, h₃, -, h₄, -, h₅, htarget, hvalue⟩ := family_asks
  have hr : Request.Made nodeTypes (.shared (.record "Node")) family r :=
    ((((Relation.ReflTransGen.single h₁).tail h₂).tail h₃).tail h₄).tail h₅
  obtain ⟨hweak, -⟩ := map_weak_isAlive nodeTypes (.shared (.record "Node")) family g hg
  obtain ⟨cell, s, hanswer, halive, -⟩ :=
    hweak r (.record "Node") hr htarget (by rw [hvalue]; rfl)
  have howner : g.isAlive cell = true :=
    halive.mpr ⟨_, ⟨1⟩, .first, rfl, rfl, by rw [hvalue]; rfl⟩
  exact ⟨g, r, cell, s, hg, hr, hvalue, hanswer, howner⟩

/-- Links that point to a maker and can own one as well. -/
def linkTypes : RecordTargets :=
  [("Maker", .fields [("Name", .text)]),
    ("Link", .fields [("Name", .text), ("To", .weak (.record "Maker")),
      ("Own", .option (.shared (.record "Maker")))])]

/-- A link to a maker that nothing owns. -/
def unownedLink : Value :=
  .record none [("Name", .text "a"), ("To", .record (some ⟨1⟩) [("Name", .text "acme")])]

/-- The link is mapped, and its weak holder was requested for a record; yet no such record is found
when mapping is over, since nothing owns it. -/
theorem unownedLink_not_isAlive : ∃ g r cell s,
    (Target.record "Link").map linkTypes unownedLink = .ok g ∧
      Request.Held linkTypes (.record "Link") unownedLink r ∧
      r.target = .weak (.record "Maker") ∧ r.value.isNull = false ∧
      r.Answers (.weak (some cell)) s ∧ g.root.Within (.weak (some cell)) ∧
      g.isAlive cell = false := by
  let maker : Value := .record (some ⟨1⟩) [("Name", .text "acme")]
  let ctx : Context := ⟨linkTypes, unownedLink.identified, [], []⟩
  have hto : Asks (Request.first linkTypes (.record "Link") unownedLink)
      ⟨ctx, .weak (.record "Maker"), maker, ⟨[], []⟩⟩ :=
    @Asks.field ctx _ _ _ none _ [("Name", .text)] [_] ("To", _) _ _ _ rfl nofun rfl
      (.cons (.found rfl ⟨1, rfl⟩) (.nil _)) rfl
  refine ⟨_, _, 0, _, rfl, .part .first ⟨hto, nofun⟩, rfl, rfl, ⟨10, rfl⟩, ?_, rfl⟩
  exact .single (.field (e := ("To", _)) (List.mem_cons_of_mem _ List.mem_cons_self))

end QueryRelay.Mapping
