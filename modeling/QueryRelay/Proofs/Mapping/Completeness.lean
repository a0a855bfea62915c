import QueryRelay.Proofs.Mapping.Budget
import QueryRelay.Proofs.Mapping.Steps

/-!
# What is read is mapped

When a type reads a tree off a value, mapping gives a result. The two guards against cycles never
stop it: the shared results that are being built and the records that are being read cannot be read
to the depth at which the present place can, so that none of them is met again. And the fuel covers
the cost of every place that mapping goes to. Main statement: mapping gives a result wherever its
type reads a tree, when no record is reached as two different record types.
-/

namespace QueryRelay.Mapping

open Value (Identified SameMeaning Consistent resolve openCount)

/-! ## Steps that give a result -/

/-- A step that gives a result from every state. -/
def Succeeds {α : Type} (a : Mapper α) : Prop := ∀ s, ∃ r, a s = .ok r

namespace Succeeds

variable {α β : Type}

/-- A step that only gives a result. -/
theorem pure (x : α) : Succeeds (Pure.pure x : Mapper α) := fun s => ⟨(x, s), rfl⟩

/-- A sequence gives a result when its parts do. -/
theorem bind {a : Mapper α} {f : α → Mapper β} (h : Succeeds a) (hf : ∀ x, Succeeds (f x)) :
    Succeeds (a >>= f) := by
  intro s
  obtain ⟨⟨x, s₁⟩, hx⟩ := h s
  obtain ⟨r, hr⟩ := hf x s₁
  exact ⟨r, bind_eq_ok.mpr ⟨x, s₁, hx, hr⟩⟩

/-- Inside a part a step gives a result when it does. -/
theorem inside {step : PathStep} {a : Mapper α} (h : Succeeds a) :
    Succeeds (Mapping.inside step a) := by
  intro s
  obtain ⟨r, hr⟩ := h s
  exact ⟨r, inside_eq_ok.mpr hr⟩

/-- A value that stands for something can be followed. -/
theorem follow {ctx : Context} {v w : Value} (hw : resolve ctx.records v = some w)
    {f : Value → Mapper β} (hf : Succeeds (f w)) : Succeeds (Mapping.follow ctx v >>= f) := by
  intro s
  obtain ⟨r, hr⟩ := hf s
  exact ⟨r, bind_eq_ok.mpr ⟨w, s, follow_eq_ok.mpr ⟨hw, rfl⟩, hr⟩⟩

/-- A step that reads the state gives a result when it does from every state. -/
theorem get {f : State → Mapper β} (hf : ∀ s, Succeeds (f s)) :
    Succeeds ((MonadStateOf.get : Mapper State) >>= f) := fun s => hf s s

/-- A conversion that reads something gives a result. -/
theorem convert {result : Except MappingFault α} {wrap : α → Mapped} {m : Mapped}
    (h : result.toOption.map wrap = some m) : Succeeds (Mapping.convert result wrap) :=
  fun s => ⟨(m, s), convert_eq_ok.mpr ⟨h, rfl⟩⟩

end Succeeds

/-! ## Places that can be read -/

/-- A tree is read at a place to a depth. -/
def Readable (types : RecordTargets) (records : List Identified) (n : Nat) (p : Place) : Prop :=
  ∃ tree, read types records n p.1 p.2 = some tree

variable {types : RecordTargets} {records : List Identified} {m n : Nat} {p q root : Place}
  {t : Target} {v w : Value} {pending : List (SharedKey × Nat)} {visiting : List ObjectId}

/-- What can be read to a depth can be read deeper. -/
theorem Readable.mono (hmn : m ≤ n) (h : Readable types records m p) :
    Readable types records n p := by
  obtain ⟨tree, htree⟩ := h
  exact ⟨tree, read_mono hmn htree⟩

/-- Off values that mean the same the same can be read. -/
theorem Readable.congr (hsame : SameMeaning records v records w)
    (h : Readable types records n (t, v)) : Readable types records n (t, w) := by
  obtain ⟨tree, htree⟩ := h
  exact ⟨tree, read_congr hsame n t ▸ htree⟩

/-- Where mapping goes on from a place that can be read, one level less can be read. -/
theorem Leads.readable (h : Leads types records p q) (hp : Readable types records (n + 1) p) :
    Readable types records n q := by
  obtain ⟨tree, htree⟩ := hp
  cases h with
  | option hnull =>
    rw [read, if_neg (by simp [hnull])] at htree
    obtain ⟨content, hcontent, -⟩ := Option.map_eq_some_iff.mp htree
    exact ⟨content, hcontent⟩
  | boxed => exact ⟨tree, htree⟩
  | shared hv =>
    rw [read, hv] at htree
    exact ⟨tree, htree⟩
  | list hv hw =>
    rw [read, hv] at htree
    obtain ⟨trees, htrees, -⟩ := Option.map_eq_some_iff.mp htree
    obtain ⟨item, -, hitem⟩ := exists_mem_of_forall₂ (mapM_eq_some.mp htrees) hw
    exact ⟨item, hitem⟩
  | field hv htype hf hw =>
    rw [read, hv] at htree
    dsimp only at htree
    rw [htype] at htree
    obtain ⟨entries, hentries, -⟩ := Option.map_eq_some_iff.mp htree
    obtain ⟨entry, -, hentry⟩ := exists_mem_of_forall₂ (mapM_eq_some.mp hentries) hf
    rw [readField, hw] at hentry
    obtain ⟨content, hcontent, -⟩ := Option.map_eq_some_iff.mp hentry
    exact ⟨content, hcontent⟩

/-- A list type reads off null and lists only. -/
theorem Readable.resolve_list (h : Readable types records (n + 1) (.list t, v)) :
    resolve records v = some .null ∨ ∃ items, resolve records v = some (.list items) := by
  obtain ⟨tree, htree⟩ := h
  rw [read] at htree
  split at htree
  · exact .inl ‹_›
  · exact .inr ⟨_, ‹_›⟩
  · cases htree

/-- A shared type reads off what stands for something. -/
theorem Readable.resolve_shared (h : Readable types records (n + 1) (.shared t, v)) :
    ∃ w, resolve records v = some w := by
  obtain ⟨tree, htree⟩ := h
  obtain ⟨w, hw, -⟩ := Option.bind_eq_some_iff.mp htree
  exact ⟨w, hw⟩

/-- A record type reads off records only. -/
theorem Readable.resolve_record {name : String}
    (h : Readable types records (n + 1) (.record name, v)) :
    ∃ id source, resolve records v = some (.record id source) := by
  obtain ⟨tree, htree⟩ := h
  rw [read] at htree
  split at htree
  · exact ⟨_, _, ‹_›⟩
  · cases htree

/-- Where a record can be read, something stands for each field that the source lacks. -/
theorem Readable.missing {name : String} {id : Option ObjectId} {source : List (String × Value)}
    {fields : List (String × Target)} {f : String × Target}
    (h : Readable types records (n + 1) (.record name, v))
    (hv : resolve records v = some (.record id source))
    (htype : types.get? name = some (.fields fields)) (hf : f ∈ fields)
    (hsource : Fields.lookup? source f.1 = none) : (Mapping.missing types f.2).isSome = true := by
  obtain ⟨tree, htree⟩ := h
  rw [read, hv] at htree
  dsimp only at htree
  rw [htype] at htree
  obtain ⟨entries, hentries, -⟩ := Option.map_eq_some_iff.mp htree
  obtain ⟨entry, -, hentry⟩ := exists_mem_of_forall₂ (mapM_eq_some.mp hentries) hf
  rw [readField, hsource] at hentry
  obtain ⟨content, hcontent, -⟩ := Option.map_eq_some_iff.mp hentry
  dsimp only at hcontent
  rw [missing_isSome, hcontent]
  rfl

/-! ## Guards -/

/-- None of the shared results that are being built and none of the records that are being read, as
the types they are read as, can be read to this depth. -/
structure Clear (types : RecordTargets) (records : List Identified) (root : Place) (n : Nat)
    (pending : List (SharedKey × Nat)) (visiting : List ObjectId) : Prop where
  /-- The shared results that are being built. -/
  pending : ∀ e ∈ pending, ¬ Readable types records n (.shared e.1.2, .ref e.1.1)
  /-- The records that are being read. -/
  visiting : ∀ id ∈ visiting, ∃ name, ReachedAs types records root id name ∧
    ¬ Readable types records n (.record name, .ref id)

namespace Clear

/-- What cannot be read to a depth cannot be read to a lesser one. -/
theorem mono (hmn : m ≤ n) (h : Clear types records root n pending visiting) :
    Clear types records root m pending visiting where
  pending e he hread := h.pending e he (hread.mono hmn)
  visiting id hid := by
    obtain ⟨name, hname, hread⟩ := h.visiting id hid
    exact ⟨name, hname, fun hm => hread (hm.mono hmn)⟩

/-- A shared result that cannot be read to this depth is being built. -/
theorem build {id : ObjectId} {cell : Nat} (h : Clear types records root n pending visiting)
    (hread : ¬ Readable types records n (.shared t, .ref id)) :
    Clear types records root n (((id, t), cell) :: pending) visiting where
  pending := List.forall_mem_cons.mpr ⟨hread, h.pending⟩
  visiting := h.visiting

/-- A record that cannot be read to this depth is being read. -/
theorem visit {id : ObjectId} {name : String} (h : Clear types records root n pending visiting)
    (hname : ReachedAs types records root id name)
    (hread : ¬ Readable types records n (.record name, .ref id)) :
    Clear types records root n pending (id :: visiting) where
  pending := h.pending
  visiting := List.forall_mem_cons.mpr ⟨⟨name, hname, hread⟩, h.visiting⟩

/-- A shared result that can be read is not being built. -/
theorem lookup_eq_none {id : ObjectId} (h : Clear types records root n pending visiting)
    (hread : Readable types records n (.shared t, .ref id)) :
    (pending.lookup (id, t)).isSome = false := by
  cases hfound : pending.lookup (id, t) with
  | none => rfl
  | some cell => exact absurd hread (h.pending _ (mem_of_lookup_eq_some hfound))

/-- A record that can be read as the type it is reached as is not being read. -/
theorem not_mem_visiting (hsingle : SingleTyped types records root) {id : ObjectId}
    {name : String} (h : Clear types records root n pending visiting)
    (hname : ReachedAs types records root id name)
    (hread : Readable types records n (.record name, .ref id)) : id ∉ visiting := by
  intro hid
  obtain ⟨name', hname', hnot⟩ := h.visiting id hid
  rw [hsingle id name' name hname' hname] at hnot
  exact hnot hread

end Clear

/-! ## Results -/

/-- Items are built when each of them is with the fuel that its size asks for. -/
theorem items_succeed {ctx : Context} {limit unread index fuel : Nat} {vs : List Value}
    (hvs : ∀ v ∈ vs, ∀ fuel, cost types limit unread (extent v) (weight t) ≤ fuel →
      Succeeds (build ctx fuel t v))
    (hfuel : cost types limit unread (sizeOfItems vs) (weight t) ≤ fuel) :
    Succeeds (buildItems ctx fuel t index vs) := by
  induction vs generalizing index fuel with
  | nil =>
    cases fuel with
    | zero => exact .pure []
    | succ fuel => exact .pure []
  | cons v rest ih =>
    obtain ⟨hv, hrest⟩ := List.forall_mem_cons.mp hvs
    have hextent := extent_le_size v
    have hfirst : cost types limit unread (extent v) (weight t) <
        cost types limit unread (sizeOfItems (v :: rest)) (weight t) :=
      cost_lt (by rw [sizeOfItems]; omega) _
    have hothers : cost types limit unread (sizeOfItems rest) (weight t) <
        cost types limit unread (sizeOfItems (v :: rest)) (weight t) :=
      cost_lt (by rw [sizeOfItems]; omega) _
    cases fuel with
    | zero => omega
    | succ fuel =>
      refine .bind (.inside (hv fuel (by omega))) fun item => ?_
      exact .bind (ih hrest (by omega)) fun others => .pure _

/-- Fields are built when each of them is with the fuel that its size and the weight of its type ask
for. -/
theorem fields_succeed {ctx : Context} {limit unread fuel : Nat} {source : List (String × Value)}
    {targets : List (String × Target)}
    (hfound : ∀ f ∈ targets, ∀ w, Fields.lookup? source f.1 = some w → ∀ fuel,
      cost types limit unread (extent w) (weight f.2) ≤ fuel → Succeeds (build ctx fuel f.2 w))
    (hmissing : ∀ f ∈ targets, Fields.lookup? source f.1 = none →
      (missing ctx.types f.2).isSome = true)
    (hfuel : cost types limit unread (sizeOfFields source) (fieldsWeight targets) ≤ fuel) :
    Succeeds (buildFields ctx fuel source targets) := by
  induction targets generalizing fuel with
  | nil =>
    cases fuel with
    | zero => exact .pure []
    | succ fuel => exact .pure []
  | cons f rest ih =>
    obtain ⟨hf, hrest⟩ := List.forall_mem_cons.mp hfound
    obtain ⟨hmissing, hmissingRest⟩ := List.forall_mem_cons.mp hmissing
    rw [fieldsWeight] at hfuel
    cases fuel with
    | zero => rw [cost] at hfuel; omega
    | succ fuel =>
      have hfield : Succeeds (buildField ctx fuel source f) := by
        rw [buildField]
        cases hsource : Fields.lookup? source f.1 with
        | some w =>
          obtain ⟨name, hmem, -⟩ := Fields.exists_sameName_of_lookup? hsource
          have hsize := size_lt_sizeOfFields hmem
          have hextent := extent_le_size w
          have hcost : cost types limit unread (extent w) (weight f.2) ≤
              cost types limit unread (sizeOfFields source) (weight f.2) :=
            cost_mono (by dsimp only at hsize; omega) (Nat.le_refl _)
          refine .inside (hf w hsource fuel ?_)
          rw [cost] at hfuel hcost ⊢
          rw [cost] at hcost
          omega
        | none =>
          obtain ⟨action, haction⟩ := Option.isSome_iff_exists.mp (hmissing hsource)
          rw [haction]
          intro s
          obtain ⟨m, tree, added, -, hm, -⟩ := missing_eq haction s
          exact ⟨_, hm⟩
      rw [buildFields_cons]
      refine .bind hfield fun content => .bind (ih hrest hmissingRest ?_) fun others => .pure _
      rw [cost] at hfuel ⊢
      omega

variable {limit fuel : Nat}

/-- Whatever the guards, mapping gives a result at the places that can be read to this depth, with
the fuel that they cost. -/
def Complete (types : RecordTargets) (records : List Identified) (root : Place) (limit n : Nat) :
    Prop :=
  ∀ {pending visiting fuel t v}, Readable types records n (t, v) →
    Clear types records root n pending visiting →
    Relation.ReflTransGen (Leads types records) root (t, v) →
    (∀ r ∈ v.identified, r ∈ records) →
    cost types limit (openCount records visiting) (extent v) (weight t) ≤ fuel →
    Succeeds (build ⟨types, records, pending, visiting⟩ fuel t v)

/-- A shared result is built where it can be read to the next depth and not yet to this one. -/
theorem shared_succeeds (hclosed : Closed records) (hconsistent : Consistent records)
    (ih : Complete types records root limit n)
    (hread : Readable types records (n + 1) (.shared t, v))
    (hnot : ¬ Readable types records n (.shared t, v))
    (hclear : Clear types records root (n + 1) pending visiting)
    (hreach : Relation.ReflTransGen (Leads types records) root (.shared t, v))
    (hwithin : ∀ r ∈ v.identified, r ∈ records)
    (hfuel : cost types limit (openCount records visiting) (extent v) (weight t) < fuel) :
    Succeeds (buildShared ⟨types, records, pending, visiting⟩ fuel t v) := by
  obtain ⟨w, hw⟩ := hread.resolve_shared
  have hlead : Leads types records (.shared t, v) (t, w) := .shared hw
  have hclear' := hclear.mono (Nat.le_succ n)
  -- The content can be read to this depth, and to build it the guards may hold the result itself.
  have hcontent {pending} (hclear : Clear types records root n pending visiting) {fuel : Nat}
      (hfuel : cost types limit (openCount records visiting) (extent v) (weight t) ≤ fuel) :
      Succeeds (build ⟨types, records, pending, visiting⟩ fuel t w) :=
    ih (hlead.readable hread) hclear (hreach.tail hlead) (hlead.within hclosed hwithin)
      (extent_resolve hw ▸ hfuel)
  cases fuel with
  | zero => omega
  | succ fuel =>
    rw [buildShared]
    cases hid : objectId? v with
    | none =>
      have hv : w = v := by
        cases v with
        | ref id => cases hid
        | _ => exact (Option.some.inj hw).symm
      subst hv
      exact .bind (hcontent hclear' (by omega)) fun content s => ⟨_, rfl⟩
    | some id =>
      have hmeaning := sameMeaning_of_objectId? hconsistent hwithin hid
      have hfree := hclear.lookup_eq_none (hread.congr hmeaning)
      have hself : ¬ Readable types records n (.shared t, .ref id) :=
        fun h => hnot (h.congr fun k => (hmeaning k).symm)
      refine .get fun s => ?_
      cases s.finished.lookup (id, t) with
      | some cell => exact .pure cell
      | none =>
        dsimp only
        rw [if_neg (by simp [hfree])]
        refine .follow hw (.bind (fun s => ⟨_, reserve_eq⟩) fun cell => ?_)
        refine .bind (hcontent (hclear'.build hself) (by omega)) fun content => ?_
        exact fun s => ⟨_, rfl⟩

/-- A record is built where it can be read to the next depth, once the guards know of it. -/
theorem record_succeeds (hclosed : Closed records) (ih : Complete types records root limit n)
    {name : String} {id : Option ObjectId} {source : List (String × Value)}
    (hv : resolve records v = some (.record id source))
    (hread : Readable types records (n + 1) (.record name, v))
    (hclear : Clear types records root n pending visiting)
    (hreach : Relation.ReflTransGen (Leads types records) root (.record name, v))
    (hwithin : ∀ r ∈ v.identified, r ∈ records)
    (hfuel : cost types limit (openCount records visiting) (sizeOfFields source)
      (totalWeight types) ≤ fuel) :
    Succeeds (buildRecord ⟨types, records, pending, visiting⟩ fuel name id source) := by
  rw [cost] at hfuel
  cases fuel with
  | zero => omega
  | succ fuel =>
    rw [buildRecord]
    dsimp only
    cases htype : types.get? name with
    | none => exact .pure _
    | some reading =>
      cases reading with
      | outline => exact .pure _
      | fields targets =>
        have hweight := fieldsWeight_lt_totalWeight htype
        have hcost : cost types limit (openCount records visiting) (sizeOfFields source)
            (fieldsWeight targets) ≤ fuel := by
          rw [cost]
          omega
        refine .bind (fields_succeed ?_ ?_ hcost) fun entries => .pure _
        · intro f hf w hw fuel hcost
          have hlead : Leads types records (.record name, v) (f.2, w) := .field hv htype hf hw
          exact ih (hlead.readable hread) hclear (hreach.tail hlead)
            (hlead.within hclosed hwithin) hcost
        · exact fun f hf hsource => hread.missing hv htype hf hsource

/-- A record is followed and built where it can be read to the next depth and not yet to this
one. -/
theorem followed_succeeds (hclosed : Closed records) (hconsistent : Consistent records)
    (hsingle : SingleTyped types records root)
    (hlimit : ∀ r ∈ records, sizeOfFields r.fields ≤ limit)
    (ih : Complete types records root limit n) {name : String}
    (hread : Readable types records (n + 1) (.record name, v))
    (hnot : ¬ Readable types records n (.record name, v))
    (hclear : Clear types records root (n + 1) pending visiting)
    (hreach : Relation.ReflTransGen (Leads types records) root (.record name, v))
    (hwithin : ∀ r ∈ v.identified, r ∈ records)
    (hfuel : cost types limit (openCount records visiting) (extent v) 1 ≤ fuel + 1) :
    Succeeds (build ⟨types, records, pending, visiting⟩ (fuel + 1) (.record name) v) := by
  obtain ⟨id, source, hv⟩ := hread.resolve_record
  have hclear' := hclear.mono (Nat.le_succ n)
  rw [build]
  refine .follow hv ?_
  rw [← extent_resolve hv] at hfuel
  cases id with
  | none =>
    refine record_succeeds hclosed ih hv hread hclear' hreach hwithin ?_
    rw [cost, extent_record_none, Nat.succ_mul] at hfuel
    rw [cost]
    have hnode : nodeCost types = 3 * totalWeight types + 1 := rfl
    omega
  | some id =>
    have hmem : ⟨id, source⟩ ∈ records :=
      Value.identified_resolve hwithin hclosed hv (Value.mem_identified_self id source)
    have hmeaning : SameMeaning records v records (.ref id) := fun k =>
      (Value.unfold_resolve hv k).trans (hconsistent _ hmem k)
    have hname : ReachedAs types records root id name := ⟨v, source, hreach, hv⟩
    have hfree := hclear.not_mem_visiting hsingle hname (hread.congr hmeaning)
    have hself : ¬ Readable types records n (.record name, .ref id) :=
      fun h => hnot (h.congr fun k => (hmeaning k).symm)
    dsimp only
    rw [if_neg (by simpa using hfree)]
    refine record_succeeds hclosed ih hv hread (hclear'.visit hname hself) hreach hwithin ?_
    -- One record less is not being read, and its fields are within the limit.
    have hunread := Value.openCount_cons_lt hmem hfree
    have hrecord := Nat.mul_le_mul_right (limit * nodeCost types) hunread
    have hfields := Nat.mul_le_mul_right (nodeCost types) (hlimit _ hmem)
    rw [Nat.succ_mul] at hrecord
    rw [cost, extent_record_some, Nat.one_mul] at hfuel
    rw [cost]
    have hnode : nodeCost types = 3 * totalWeight types + 1 := rfl
    dsimp only at hunread hrecord hfields
    omega

/-- Mapping gives a result at the places that can be read to any depth. -/
theorem complete (hclosed : Closed records) (hconsistent : Consistent records)
    (hsingle : SingleTyped types records root)
    (hlimit : ∀ r ∈ records, sizeOfFields r.fields ≤ limit) (n : Nat) :
    Complete types records root limit n := by
  induction n with
  | zero =>
    intro _ _ _ _ _ hread
    obtain ⟨tree, htree⟩ := hread
    cases htree
  | succ n ih =>
    intro pending visiting fuel t v hread hclear hreach hwithin hfuel
    -- What can be read to the lesser depth is settled; else it may be put under guard.
    by_cases hnot : Readable types records n (t, v)
    · exact ih hnot (hclear.mono (Nat.le_succ n)) hreach hwithin hfuel
    · have hclear' := hclear.mono (Nat.le_succ n)
      have hpart {u : Target} {w : Value} {fuel : Nat}
          (hlead : Leads types records (t, v) (u, w))
          (hfuel : cost types limit (openCount records visiting) (extent w) (weight u) ≤ fuel) :
          Succeeds (build ⟨types, records, pending, visiting⟩ fuel u w) :=
        ih (hlead.readable hread) hclear' (hreach.tail hlead) (hlead.within hclosed hwithin) hfuel
      have hsmaller {u : Target} (hu : weight t = weight u + 1) :
          cost types limit (openCount records visiting) (extent v) (weight u) + 1 < fuel := by
        rw [hu, cost] at hfuel
        rw [cost]
        omega
      cases fuel with
      | zero => exact absurd hfuel (Nat.not_succ_le_zero _)
      | succ fuel =>
        cases t with
        | option t =>
          rw [build]
          split
          · exact .pure _
          · have hnull : v.isNull = false := by simpa using ‹¬ v.isNull = true›
            have hless := hsmaller (u := t) rfl
            exact .bind (hpart (.option hnull) (by omega)) fun _ => .pure _
        | boxed t =>
          rw [build]
          have hless := hsmaller (u := t) rfl
          exact hpart (.boxed t v) (by omega)
        | shared t =>
          rw [build]
          refine .bind (shared_succeeds hclosed hconsistent ih hread hnot hclear hreach hwithin ?_)
            fun cell => .pure _
          have hless := hsmaller (u := t) rfl
          omega
        | list t =>
          rw [build]
          rcases hread.resolve_list with hv | ⟨items, hv⟩
          · exact .follow hv (.pure _)
          · refine .follow hv ?_
            have hcost : cost types limit (openCount records visiting) (sizeOfItems items)
                (weight t) ≤ fuel := by
              have hlist := hsmaller (u := t) rfl
              rw [← extent_resolve hv, extent_list] at hlist
              exact Nat.le_trans (Nat.le_of_lt (cost_lt (Nat.lt_add_one _) _)) (by omega)
            exact .bind (items_succeed (fun w hw fuel hcost => hpart (.list hv hw) hcost) hcost)
              fun _ => .pure _
        | record name =>
          exact followed_succeeds hclosed hconsistent hsingle hlimit ih hread hnot hclear hreach
            hwithin hfuel
        | value | rawRecord | weak =>
          obtain ⟨tree, htree⟩ := hread
          cases htree
        | integer | single | double | bool | text | timestamp | enum =>
          obtain ⟨tree, htree⟩ := hread
          exact .convert htree

/-! ## Graphs -/

/-- A value is mapped into a type that reads a tree off it, when the value is consistent and no
record is reached as two different record types. -/
theorem map_succeeds (hconsistent : Consistent v.identified)
    (hsingle : SingleTyped types v.identified (t, v)) {tree : Mapped}
    (h : Reads types v.identified t v tree) : ∃ g, t.map types v = .ok g := by
  obtain ⟨n, hn⟩ := h
  have hclear : Clear types v.identified (t, v) n [] [] :=
    ⟨List.forall_mem_nil _, List.forall_mem_nil _⟩
  have hlimit : ∀ r ∈ v.identified, sizeOfFields r.fields ≤ size v :=
    fun r hr => Nat.le_of_lt (sizeOfFields_lt_of_mem_identified hr)
  obtain ⟨⟨root, s⟩, hbuild⟩ := complete (closed_identified v) hconsistent hsingle hlimit n
    ⟨tree, hn⟩ hclear .refl (fun _ hr => hr) (cost_le_fuelFor types t v) ⟨[], []⟩
  refine ⟨⟨root, s.heap⟩, ?_⟩
  rw [Target.map, hbuild]

end QueryRelay.Mapping
