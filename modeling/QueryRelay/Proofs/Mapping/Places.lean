import QueryRelay.Proofs.Mapping.Trees

/-!
# Where mapping goes

A place is a result type over a value. From one place mapping goes on to others: into the parts of
the type and of the value, and along references. Plain types have no raw types and no weak holders
among their parts. Main statement: mapping goes to places that mean the same from places that mean
the same, and so reaches the same records as the same record types.
-/

namespace QueryRelay

open Mapping

/-! ## Plain types -/

namespace Target

/-- The direct parts of a type: what it is made of, and the types of the fields of a record. -/
inductive Part (types : RecordTargets) : Target → Target → Prop
  /-- What may be absent. -/
  | option (t : Target) : Part types (.option t) t
  /-- What has a place of its own. -/
  | boxed (t : Target) : Part types (.boxed t) t
  /-- The items of a list. -/
  | list (t : Target) : Part types (.list t) t
  /-- What has several owners. -/
  | shared (t : Target) : Part types (.shared t) t
  /-- The fields of a record. -/
  | field {name : String} {fields : List (String × Target)} {f : String × Target}
      (htype : types.get? name = some (.fields fields)) (hf : f ∈ fields) :
      Part types (.record name) f.2

/-- Raw values, raw records and weak holders. -/
def IsRaw : Target → Prop
  | .value | .rawRecord | .weak _ => True
  | _ => False

/-- A type without raw types and weak holders among its parts, at any depth. -/
def IsPlain (types : RecordTargets) (t : Target) : Prop :=
  ∀ u, Relation.ReflTransGen (Part types) t u → ¬ u.IsRaw

variable {types : RecordTargets} {t u : Target}

/-- The parts of a plain type are plain. -/
theorem IsPlain.part (h : t.IsPlain types) (hpart : Part types t u) : u.IsPlain types :=
  fun w hw => h w (.head hpart hw)

/-- A plain type is not raw. -/
theorem IsPlain.not_isRaw (h : t.IsPlain types) : ¬ t.IsRaw := h t .refl

end Target

namespace Mapping

open Value (Identified SameMeaning Consistent resolve)

/-! ## Places -/

/-- A result type over a value. -/
abbrev Place := Target × Value

/-- Where mapping goes on from a place. -/
inductive Leads (types : RecordTargets) (records : List Identified) : Place → Place → Prop
  /-- To a value that is there. -/
  | option {t : Target} {v : Value} (hnull : v.isNull = false) :
      Leads types records (.option t, v) (t, v)
  /-- To what has a place of its own. -/
  | boxed (t : Target) (v : Value) : Leads types records (.boxed t, v) (t, v)
  /-- To what has several owners. -/
  | shared {t : Target} {v w : Value} (hv : resolve records v = some w) :
      Leads types records (.shared t, v) (t, w)
  /-- To the items of a list. -/
  | list {t : Target} {v w : Value} {items : List Value}
      (hv : resolve records v = some (.list items)) (hw : w ∈ items) :
      Leads types records (.list t, v) (t, w)
  /-- To the fields of a record. -/
  | field {name : String} {v w : Value} {id : Option ObjectId} {source : List (String × Value)}
      {fields : List (String × Target)} {f : String × Target}
      (hv : resolve records v = some (.record id source))
      (htype : types.get? name = some (.fields fields)) (hf : f ∈ fields)
      (hw : Fields.lookup? source f.1 = some w) : Leads types records (.record name, v) (f.2, w)

/-- From a place a record is reached and read as a record type. -/
def ReachedAs (types : RecordTargets) (records : List Identified) (p : Place) (id : ObjectId)
    (name : String) : Prop :=
  ∃ v source, Relation.ReflTransGen (Leads types records) p (.record name, v) ∧
    resolve records v = some (.record (some id) source)

/-- No record is reached as two different record types. -/
def SingleTyped (types : RecordTargets) (records : List Identified) (p : Place) : Prop :=
  ∀ id name name', ReachedAs types records p id name → ReachedAs types records p id name' →
    name = name'

/-- A place of a graph with a plain type. -/
structure Proper (types : RecordTargets) (records : List Identified) (p : Place) : Prop where
  /-- The type is plain. -/
  plain : p.1.IsPlain types
  /-- The records in the value are in the graph. -/
  within : ∀ r ∈ p.2.identified, r ∈ records

/-- The records in the records of a graph are in the graph. -/
def Closed (records : List Identified) : Prop :=
  ∀ s ∈ records, ∀ r ∈ (Value.record (some s.id) s.fields).identified, r ∈ records

variable {types : RecordTargets} {records records' : List Identified} {p q : Place} {t u : Target}
  {v v' w : Value}

/-- The records in a value are closed. -/
theorem closed_identified (v : Value) : Closed v.identified :=
  fun _ hs _ hr => Value.mem_identified_trans hs hr

/-- A value that is looked up is a part of the record. -/
theorem mem_children_of_lookup? {id : Option ObjectId} {source : List (String × Value)}
    {name : String} (h : Fields.lookup? source name = some w) :
    w ∈ (Value.record id source).children := by
  obtain ⟨n, hmem, -⟩ := Fields.exists_sameName_of_lookup? h
  exact List.mem_map_of_mem hmem

/-- Mapping goes into parts of the type. -/
theorem Leads.part (h : Leads types records p q) : Target.Part types p.1 q.1 := by
  cases h with
  | option => exact .option _
  | boxed => exact .boxed _
  | shared => exact .shared _
  | list => exact .list _
  | field _ htype hf => exact .field htype hf

/-- Mapping stays in the graph. -/
theorem Leads.within (hclosed : Closed records) (h : Leads types records p q)
    (hp : ∀ r ∈ p.2.identified, r ∈ records) : ∀ r ∈ q.2.identified, r ∈ records := by
  have hresolve {v w : Value} (hp : ∀ r ∈ v.identified, r ∈ records)
      (hv : resolve records v = some w) : ∀ r ∈ w.identified, r ∈ records :=
    fun r hr => Value.identified_resolve hp hclosed hv hr
  cases h with
  | option => exact hp
  | boxed => exact hp
  | shared hv => exact hresolve hp hv
  | list hv hw =>
    exact fun r hr => hresolve hp hv r (Value.mem_identified_of_mem_children (v := .list _) hw hr)
  | field hv _ _ hw =>
    exact fun r hr => hresolve hp hv r
      (Value.mem_identified_of_mem_children (mem_children_of_lookup? hw) hr)

/-- Mapping goes from proper places to proper places. -/
theorem Leads.proper (hclosed : Closed records) (h : Leads types records p q)
    (hp : Proper types records p) : Proper types records q :=
  ⟨hp.plain.part h.part, h.within hclosed hp.within⟩

/-! ## Places that mean the same -/

/-- A value with an identity means what a reference to it means. -/
theorem sameMeaning_of_objectId? (hconsistent : Consistent records) {id : ObjectId}
    (hv : ∀ r ∈ v.identified, r ∈ records) (hid : objectId? v = some id) :
    SameMeaning records v records (.ref id) := by
  cases v with
  | ref own =>
    cases hid
    exact fun _ => rfl
  | record own fields =>
    cases hid
    exact hconsistent _ (hv _ (Value.mem_identified_self id fields))
  | _ => cases hid

/-- From a place that means the same mapping goes on to a place that means the same. -/
theorem Leads.congr (h : Leads types records (t, v) (u, w))
    (hsame : SameMeaning records v records' v') :
    ∃ w', Leads types records' (t, v') (u, w') ∧ SameMeaning records w records' w' := by
  cases h with
  | option hnull =>
    refine ⟨v', .option ?_, hsame⟩
    rw [← isNull_unfold records' 0, ← hsame 1, isNull_unfold, hnull]
  | boxed => exact ⟨v', .boxed _ _, hsame⟩
  | shared hv =>
    rcases hsame.resolve with ⟨_, -, -, hnone, -⟩ | ⟨x, x', hx, hx', hmeaning, -⟩
    · rw [hnone] at hv
      cases hv
    · rw [hx] at hv
      cases hv
      exact ⟨x', .shared hx', hmeaning⟩
  | list hv hw =>
    rcases hsame.resolve with ⟨_, -, -, hnone, -⟩ | ⟨x, x', hx, hx', -, hmatches⟩
    · rw [hnone] at hv
      cases hv
    · rw [hx] at hv
      cases hv
      cases hmatches with
      | atom hatom => exact hatom.elim
      | list hitems =>
        obtain ⟨w', hw', hmeaning⟩ := exists_mem_of_forall₂ hitems hw
        exact ⟨w', .list hx' hw', hmeaning⟩
  | @field _ _ _ _ _ _ f hv htype hf hw =>
    rcases hsame.resolve with ⟨_, -, -, hnone, -⟩ | ⟨x, x', hx, hx', -, hmatches⟩
    · rw [hnone] at hv
      cases hv
    · rw [hx] at hv
      cases hv
      cases hmatches with
      | atom hatom => exact hatom.elim
      | @record _ _ source' hfields =>
        have hlookup : Option.Rel (fun w w' => SameMeaning records w records' w') (some w)
            (Fields.lookup? source' f.1) := hw ▸ Fields.lookup?_rel hfields f.1
        generalize hfound : Fields.lookup? source' f.1 = found at hlookup
        cases hlookup with
        | some hmeaning => exact ⟨_, .field hx' htype hf hfound, hmeaning⟩

/-- From places that mean the same a record is reached as the same record types. -/
theorem ReachedAs.congr {id : ObjectId} {name : String}
    (h : ReachedAs types records (t, v) id name) (hsame : SameMeaning records v records' v') :
    ReachedAs types records' (t, v') id name := by
  obtain ⟨w, source, hreach, hw⟩ := h
  have hreached {q : Place} (hq : Relation.ReflTransGen (Leads types records) (t, v) q) :
      ∃ w', Relation.ReflTransGen (Leads types records') (t, v') (q.1, w') ∧
        SameMeaning records q.2 records' w' := by
    induction hq with
    | refl => exact ⟨v', .refl, hsame⟩
    | tail _ hstep ih =>
      obtain ⟨x', hx', hmeaning⟩ := ih
      obtain ⟨w', hw', hmeaning'⟩ := hstep.congr hmeaning
      exact ⟨w', hx'.tail hw', hmeaning'⟩
  obtain ⟨w', hreach', hmeaning⟩ := hreached hreach
  rcases hmeaning.resolve with ⟨_, -, -, hnone, -⟩ | ⟨x, x', hx, hx', -, hmatches⟩
  · rw [hnone] at hw
    cases hw
  · rw [hx] at hw
    cases hw
    cases hmatches with
    | atom hatom => exact hatom.elim
    | record _ hfields => exact ⟨w', _, hreach', hx'⟩

end Mapping
end QueryRelay
