import Mathlib.Data.List.Forall2
import QueryRelay.Proofs.Fields
import QueryRelay.Proofs.Value.Unfolding

/-!
# Copying records in, each at most once

What detaching does to a value, as rules in which no depth is counted: a reference that is not held
yet gives way to a copy of its record, and the walk goes on inside the copy. Nothing in the rules
grows smaller when a copy is entered, but each copy holds one identity more, of finitely many. Main
statement: detaching comes to an end on all lists, makes at most one record of an identity that an
element did not carry, leaves an element alone that has nothing to copy, and changes nothing when it
is done again.
-/

namespace QueryRelay.Value

/-- A walk over values from left to right, which holds identities and adds to them: the values that
it gives in their place, and what is held then. The rules are for the first of the values. -/
inductive Inlines (records : List Identified) :
    Bool → List ObjectId → List Value → List Value → List ObjectId → Prop
  /-- No values are left. -/
  | nil {copied : Bool} {held : List ObjectId} : Inlines records copied held [] [] held
  /-- A value without parts that is no reference stays. -/
  | atom {copied : Bool} {held held' : List ObjectId} {v : Value} {rest rest' : List Value}
      (hv : v.IsAtom) (href : ∀ id, v ≠ .ref id)
      (hrest : Inlines records copied held rest rest' held') :
      Inlines records copied held (v :: rest) (v :: rest') held'
  /-- A reference to what is held stays. -/
  | held {copied : Bool} {held held' : List ObjectId} {id : ObjectId} {rest rest' : List Value}
      (hid : id ∈ held) (hrest : Inlines records copied held rest rest' held') :
      Inlines records copied held (.ref id :: rest) (.ref id :: rest') held'
  /-- A reference that no record answers stays. -/
  | dangling {copied : Bool} {held held' : List ObjectId} {id : ObjectId}
      {rest rest' : List Value} (hid : findRecord records id = none)
      (hrest : Inlines records copied held rest rest' held') :
      Inlines records copied held (.ref id :: rest) (.ref id :: rest') held'
  /-- Any other reference gives way to a copy of its record, which is held from then on. -/
  | copy {copied : Bool} {held held₁ held₂ : List ObjectId} {id : ObjectId} {r : Identified}
      {fields : List (String × Value)} {rest rest' : List Value} (hid : id ∉ held)
      (hr : findRecord records id = some r)
      (hnames : fields.map Prod.fst = r.fields.map Prod.fst)
      (hfields : Inlines records true (id :: held) (r.fields.map Prod.snd) (fields.map Prod.snd)
        held₁)
      (hrest : Inlines records copied held₁ rest rest' held₂) :
      Inlines records copied held (.ref id :: rest) (.record (some id) fields :: rest') held₂
  /-- Inside a copy a record that is held becomes a reference. -/
  | back {held held' : List ObjectId} {id : ObjectId} {fields : List (String × Value)}
      {rest rest' : List Value} (hid : id ∈ held)
      (hrest : Inlines records true held rest rest' held') :
      Inlines records true held (.record (some id) fields :: rest) (.ref id :: rest') held'
  /-- Inside a copy any other record with an identity is held from then on. -/
  | enter {held held₁ held₂ : List ObjectId} {id : ObjectId}
      {fields fields' : List (String × Value)} {rest rest' : List Value} (hid : id ∉ held)
      (hnames : fields'.map Prod.fst = fields.map Prod.fst)
      (hfields : Inlines records true (id :: held) (fields.map Prod.snd) (fields'.map Prod.snd)
        held₁)
      (hrest : Inlines records true held₁ rest rest' held₂) :
      Inlines records true held (.record (some id) fields :: rest)
        (.record (some id) fields' :: rest') held₂
  /-- A record without identity stays one, and outside of copies so does every record. -/
  | record {copied : Bool} {held held₁ held₂ : List ObjectId} {own : Option ObjectId}
      {fields fields' : List (String × Value)} {rest rest' : List Value}
      (hown : copied = true → own = none) (hnames : fields'.map Prod.fst = fields.map Prod.fst)
      (hfields : Inlines records copied held (fields.map Prod.snd) (fields'.map Prod.snd) held₁)
      (hrest : Inlines records copied held₁ rest rest' held₂) :
      Inlines records copied held (.record own fields :: rest) (.record own fields' :: rest') held₂
  /-- A list stays one. -/
  | list {copied : Bool} {held held₁ held₂ : List ObjectId} {items items' rest rest' : List Value}
      (hitems : Inlines records copied held items items' held₁)
      (hrest : Inlines records copied held₁ rest rest' held₂) :
      Inlines records copied held (.list items :: rest) (.list items' :: rest') held₂

/-- A list is detached into another by the rules: each element is walked, with the records of the
whole list at hand and the identities of the element held. -/
def Detaches (items ws : List Value) : Prop :=
  List.Forall₂ (fun v w => ∃ held, Inlines (identifiedItems items) false v.ids [v] [w] held)
    items ws

variable {records : List Identified} {copied : Bool} {held held' held'' : List ObjectId}
  {v w : Value} {vs ws rest rest' : List Value} {id : ObjectId}

namespace Inlines

/-- A walk over the first value goes on with the others. -/
theorem cons (h : Inlines records copied held [v] [w] held')
    (hrest : Inlines records copied held' rest rest' held'') :
    Inlines records copied held (v :: rest) (w :: rest') held'' := by
  cases h with
  | atom hv href hnil =>
    cases hnil
    exact .atom hv href hrest
  | held hid hnil =>
    cases hnil
    exact .held hid hrest
  | dangling hid hnil =>
    cases hnil
    exact .dangling hid hrest
  | copy hid hr hnames hfields hnil =>
    cases hnil
    exact .copy hid hr hnames hfields hrest
  | back hid hnil =>
    cases hnil
    exact .back hid hrest
  | enter hid hnames hfields hnil =>
    cases hnil
    exact .enter hid hnames hfields hrest
  | record hown hnames hfields hnil =>
    cases hnil
    exact .record hown hnames hfields hrest
  | list hitems hnil =>
    cases hnil
    exact .list hitems hrest

/-- What is held stays held. -/
theorem grows (h : Inlines records copied held vs ws held') : held ⊆ held' := by
  induction h with
  | nil => exact List.Subset.refl _
  | atom _ _ _ ih => exact ih
  | held _ _ ih => exact ih
  | dangling _ _ ih => exact ih
  | copy _ _ _ _ _ ihfields ih =>
    exact fun i hi => ih (ihfields (List.mem_cons_of_mem _ hi))
  | back _ _ ih => exact ih
  | enter _ _ _ _ ihfields ih => exact fun i hi => ih (ihfields (List.mem_cons_of_mem _ hi))
  | record _ _ _ _ ihfields ih => exact fun i hi => ih (ihfields hi)
  | list _ _ ihitems ih => exact fun i hi => ih (ihitems hi)

/-- A walk has one outcome. -/
theorem unique (h : Inlines records copied held vs ws held') {ws' : List Value}
    (h' : Inlines records copied held vs ws' held'') : ws = ws' ∧ held' = held'' := by
  induction h generalizing ws' held'' with
  | nil =>
    cases h'
    exact ⟨rfl, rfl⟩
  | atom hv href _ ih =>
    cases h' with
    | atom _ _ hrest =>
      obtain ⟨rfl, rfl⟩ := ih hrest
      exact ⟨rfl, rfl⟩
    | held | dangling | copy => exact absurd rfl (href _)
    | back | enter | record | list => exact hv.elim
  | held hid _ ih =>
    cases h' with
    | atom _ href => exact absurd rfl (href _)
    | held _ hrest | dangling _ hrest =>
      obtain ⟨rfl, rfl⟩ := ih hrest
      exact ⟨rfl, rfl⟩
    | copy hout => exact absurd hid hout
  | dangling hid _ ih =>
    cases h' with
    | atom _ href => exact absurd rfl (href _)
    | held _ hrest | dangling _ hrest =>
      obtain ⟨rfl, rfl⟩ := ih hrest
      exact ⟨rfl, rfl⟩
    | copy _ hr =>
      rw [hid] at hr
      cases hr
  | copy hid hr hnames _ _ ihfields ih =>
    cases h' with
    | atom _ href => exact absurd rfl (href _)
    | held hin => exact absurd hin hid
    | dangling hnone =>
      rw [hr] at hnone
      cases hnone
    | copy _ hr' hnames' hfields hrest =>
      rw [hr] at hr'
      cases hr'
      obtain ⟨hvalues, rfl⟩ := ihfields hfields
      obtain ⟨rfl, rfl⟩ := ih hrest
      rw [Fields.eq_of_names (hnames.trans hnames'.symm) hvalues]
      exact ⟨rfl, rfl⟩
  | back hid _ ih =>
    cases h' with
    | atom hv => exact hv.elim
    | back _ hrest =>
      obtain ⟨rfl, rfl⟩ := ih hrest
      exact ⟨rfl, rfl⟩
    | enter hout => exact absurd hid hout
    | record hown => exact absurd (hown rfl) (Option.some_ne_none _)
  | enter hid hnames _ _ ihfields ih =>
    cases h' with
    | atom hv => exact hv.elim
    | back hin => exact absurd hin hid
    | enter _ hnames' hfields hrest =>
      obtain ⟨hvalues, rfl⟩ := ihfields hfields
      obtain ⟨rfl, rfl⟩ := ih hrest
      rw [Fields.eq_of_names (hnames.trans hnames'.symm) hvalues]
      exact ⟨rfl, rfl⟩
    | record hown => exact absurd (hown rfl) (Option.some_ne_none _)
  | record hown hnames _ _ ihfields ih =>
    cases h' with
    | atom hv => exact hv.elim
    | back | enter => exact absurd (hown rfl) (Option.some_ne_none _)
    | record _ hnames' hfields hrest =>
      obtain ⟨hvalues, rfl⟩ := ihfields hfields
      obtain ⟨rfl, rfl⟩ := ih hrest
      rw [Fields.eq_of_names (hnames.trans hnames'.symm) hvalues]
      exact ⟨rfl, rfl⟩
  | list _ _ ihitems ih =>
    cases h' with
    | atom hv => exact hv.elim
    | list hitems hrest =>
      obtain ⟨rfl, rfl⟩ := ihitems hitems
      obtain ⟨rfl, rfl⟩ := ih hrest
      exact ⟨rfl, rfl⟩

end Inlines

/-! ## Detaching follows the rules -/

mutual

/-- A walk over a value follows the rules when its step does, as long as not too many records are
open. -/
theorem inlines_walkRefs {step : RefStep} {bound : Nat}
    (hstep : ∀ copied id held, openCount records held ≤ bound →
      Inlines records copied held [.ref id] [(step id held).1] (step id held).2)
    (copied : Bool) (held : List ObjectId) (hbound : openCount records held ≤ bound) :
    ∀ v : Value, Inlines records copied held [v] [(walkRefs step copied held v).1]
      (walkRefs step copied held v).2
  | .ref id => hstep copied id held hbound
  | .list items => .list (inlines_walkItems hstep copied held hbound items) .nil
  | .record none fields =>
    .record (fun _ => rfl) (walkFields_names step copied held fields)
      (inlines_walkFields hstep copied held hbound fields) .nil
  | .record (some id) fields => by
    rw [walkRefs]
    cases copied with
    | false =>
      rw [Bool.false_and, if_neg Bool.false_ne_true]
      exact .record nofun (walkFields_names step false held fields)
        (inlines_walkFields hstep false held hbound fields) .nil
    | true =>
      rw [Bool.true_and]
      by_cases hid : id ∈ held
      · rw [if_pos (List.contains_iff_mem.mpr hid)]
        exact .back hid .nil
      · have hbound' : openCount records (id :: held) ≤ bound :=
          Nat.le_trans (openCount_le (List.subset_cons_self ..)) hbound
        rw [if_neg fun h => hid (List.contains_iff_mem.mp h)]
        exact .enter hid (walkFields_names step true (id :: held) fields)
          (inlines_walkFields hstep true (id :: held) hbound' fields) .nil
  | .null | .bool _ | .int _ | .float _ | .text _ | .timestamp _ =>
    .atom trivial (fun _ => Value.noConfusion) .nil

/-- A walk over items follows the rules when its step does. -/
theorem inlines_walkItems {step : RefStep} {bound : Nat}
    (hstep : ∀ copied id held, openCount records held ≤ bound →
      Inlines records copied held [.ref id] [(step id held).1] (step id held).2)
    (copied : Bool) (held : List ObjectId) (hbound : openCount records held ≤ bound) :
    ∀ items : List Value, Inlines records copied held items (walkItems step copied held items).1
      (walkItems step copied held items).2
  | [] => .nil
  | v :: rest =>
    have hv := inlines_walkRefs hstep copied held hbound v
    hv.cons (inlines_walkItems hstep copied _ (Nat.le_trans (openCount_le hv.grows) hbound) rest)

/-- A walk over fields follows the rules when its step does. -/
theorem inlines_walkFields {step : RefStep} {bound : Nat}
    (hstep : ∀ copied id held, openCount records held ≤ bound →
      Inlines records copied held [.ref id] [(step id held).1] (step id held).2)
    (copied : Bool) (held : List ObjectId) (hbound : openCount records held ≤ bound) :
    ∀ fields : List (String × Value), Inlines records copied held (fields.map Prod.snd)
      ((walkFields step copied held fields).1.map Prod.snd) (walkFields step copied held fields).2
  | [] => .nil
  | (_, v) :: rest =>
    have hv := inlines_walkRefs hstep copied held hbound v
    hv.cons (inlines_walkFields hstep copied _ (Nat.le_trans (openCount_le hv.grows) hbound) rest)

end

/-- Copying follows the rules when it may nest as deep as there are open records. -/
theorem inlines_copyRecord (depth : Nat) (copied : Bool) (id : ObjectId) (held : List ObjectId)
    (h : openCount records held ≤ depth) :
    Inlines records copied held [.ref id] [(copyRecord records depth id held).1]
      (copyRecord records depth id held).2 := by
  induction depth generalizing copied id held with
  | zero =>
    by_cases hid : id ∈ held
    · exact .held hid .nil
    cases hfind : findRecord records id with
    | none => exact .dangling hfind .nil
    | some r =>
      obtain ⟨hr, rfl⟩ := findRecord_eq_some hfind
      have hlt := openCount_cons_lt hr hid
      omega
  | succ depth ih =>
    rw [copyRecord]
    by_cases hid : id ∈ held
    · rw [if_pos (List.contains_iff_mem.mpr hid)]
      exact .held hid .nil
    rw [if_neg fun h => hid (List.contains_iff_mem.mp h)]
    cases hfind : findRecord records id with
    | none => exact .dangling hfind .nil
    | some r =>
      obtain ⟨hr, hrid⟩ := findRecord_eq_some hfind
      -- The measure: the identity is held inside the copy, so one record less is open there.
      have hlt : openCount records (id :: held) < openCount records held :=
        hrid ▸ openCount_cons_lt hr (hrid ▸ hid)
      have hfields := inlines_walkFields ih true (id :: held) (by omega) r.fields
      exact .copy hid hfind (walkFields_names _ true (id :: held) r.fields) hfields .nil

/-- By the rules an element becomes its detached form, and nothing else. -/
theorem inlines_detachElement_iff :
    (∃ held, Inlines records false v.ids [v] [w] held) ↔ w = detachElement records v := by
  have hopen : openCount records v.ids ≤ records.length := List.countP_le_length
  have hwalk := inlines_walkRefs (inlines_copyRecord records.length) false v.ids hopen v
  constructor
  · rintro ⟨held, h⟩
    exact (List.cons.inj (h.unique hwalk).1).1
  · rintro rfl
    exact ⟨_, hwalk⟩

/-- By the rules a list becomes its detached form, and nothing else. -/
theorem detaches_iff {items ws : List Value} : Detaches items ws ↔ ws = detach items := by
  have hmap : List.Forall₂ Eq (items.map (detachElement (identifiedItems items))) ws ↔
      detach items = ws := by
    rw [List.forall₂_eq_eq_eq, detach]
  rw [eq_comm (a := ws), ← hmap, List.forall₂_map_left_iff]
  simp only [Detaches, inlines_detachElement_iff, eq_comm]

/-! ## What is carried -/

/-- The identities that the records of items carry. -/
theorem ids_list (items : List Value) : (list items).ids = items.flatMap ids := by
  rw [ids, identified]
  induction items with
  | nil => rfl
  | cons v rest ih => rw [identifiedItems, List.map_append, ih, List.flatMap_cons, ids]

/-- The identities that a record and those in its fields carry. -/
theorem ids_record (own : Option ObjectId) (fields : List (String × Value)) :
    (record own fields).ids = own.toList ++ (fields.map Prod.snd).flatMap ids := by
  have hfields : (identifiedFields fields).map Identified.id =
      (fields.map Prod.snd).flatMap ids := by
    induction fields with
    | nil => rfl
    | cons f rest ih =>
      obtain ⟨name, v⟩ := f
      rw [identifiedFields, List.map_append, ih, List.map_cons, List.flatMap_cons, ids]
  rw [← hfields]
  cases own <;> rfl

/-- One for an identity that is held, and nothing for another. -/
def tally (held : List ObjectId) (id : ObjectId) : Nat := if id ∈ held then 1 else 0

/-- Holding one identity more counts that one. -/
theorem tally_cons {own : ObjectId} (hown : own ∉ held) (id : ObjectId) :
    tally (own :: held) id = [own].count id + tally held id := by
  by_cases h : own = id
  · subst h
    simp [tally, hown]
  · simp [tally, h, Ne.symm h]

/-- The ledger of a walk: of an identity that no record carries which stays as it is, there are as
many records in the outcome as the walk holds it more often. -/
theorem Inlines.count_ids (h : Inlines records copied held vs ws held')
    (hown : copied = false → id ∉ vs.flatMap ids) :
    (ws.flatMap ids).count id + tally held id = tally held' id := by
  induction h with
  | nil => rw [List.flatMap_nil, List.count_nil, Nat.zero_add]
  | @atom copied _ _ v rest _ hv href _ ih =>
    have hnone : v.ids = [] := by
      cases v with
      | list | record => exact hv.elim
      | _ => rfl
    rw [List.flatMap_cons, hnone, List.nil_append] at hown ⊢
    exact ih hown
  | held _ _ ih | dangling _ _ ih => exact ih hown
  | copy hid _ _ _ _ ihfields ih =>
    have hinner := ihfields nofun
    have hrest := ih hown
    rw [tally_cons hid] at hinner
    simp only [List.flatMap_cons, ids_record, Option.toList_some, List.count_append]
    omega
  | back _ _ ih => exact ih nofun
  | enter hid _ _ _ ihfields ih =>
    have hinner := ihfields nofun
    have hrest := ih nofun
    rw [tally_cons hid] at hinner
    simp only [List.flatMap_cons, ids_record, Option.toList_some, List.count_append]
    omega
  | @record copied _ _ _ own fields _ rest _ hnone _ _ _ ihfields ih =>
    simp only [List.flatMap_cons, ids_record, List.mem_append, not_or] at hown
    have hinner := ihfields fun h => (hown h).1.2
    have hrest := ih fun h => (hown h).2
    -- The identity of the record is another one: it has none, or it stays as it is.
    have hcount : own.toList.count id = 0 := by
      cases copied with
      | false => exact List.count_eq_zero.mpr (hown rfl).1.1
      | true => rw [hnone rfl, Option.toList_none, List.count_nil]
    simp only [List.flatMap_cons, ids_record, List.count_append]
    omega
  | list _ _ ihitems ih =>
    simp only [List.flatMap_cons, ids_list, List.mem_append, not_or] at hown
    have hinner := ihitems fun h => (hown h).1
    have hrest := ih fun h => (hown h).2
    simp only [List.flatMap_cons, ids_list, List.count_append]
    omega

/-! ## What stays -/

/-- Values that stay one by one, with nothing more held, stay together. -/
theorem inlines_self_items
    (h : ∀ v ∈ vs, Inlines records copied held [v] [v] held) :
    Inlines records copied held vs vs held := by
  induction vs with
  | nil => exact .nil
  | cons v rest ih =>
    obtain ⟨hv, hrest⟩ := List.forall_mem_cons.mp h
    exact hv.cons (ih hrest)

/-- A value stays when each reference in it is held or answered by no record. -/
theorem inlines_self (v : Value) (h : ∀ id ∈ v.refs, id ∈ held ∨ findRecord records id = none) :
    Inlines records false held [v] [v] held := by
  induction v using induct with
  | node v ih =>
    have hparts : Inlines records false held v.children v.children held :=
      inlines_self_items fun w hw => ih w hw fun id hid => h id (mem_refs_of_mem_children hw hid)
    cases v with
    | ref id =>
      rcases h id (List.mem_singleton_self id) with hheld | hnone
      · exact .held hheld .nil
      · exact .dangling hnone .nil
    | list items => exact .list hparts .nil
    | record own fields => exact .record nofun rfl hparts .nil
    | _ => exact .atom trivial (fun _ => Value.noConfusion) .nil

/-- An element stays when each reference in it is answered inside it or by no record. -/
theorem detachElement_eq_self (h : ∀ id ∈ v.refs, id ∈ v.ids ∨ findRecord records id = none) :
    detachElement records v = v :=
  (inlines_detachElement_iff.mp ⟨v.ids, inlines_self v h⟩).symm

/-- A detached list stays when it is detached again. -/
theorem detach_detach (items : List Value) : detach (detach items) = detach items := by
  rw [detach, List.map_congr_left (g := id), List.map_id]
  intro w hw
  have hgraph : (list (detach items)).ids ⊆ (list items).ids := by
    intro id hid
    rw [ids_list, List.mem_flatMap] at hid
    obtain ⟨u, hu, hid⟩ := hid
    obtain ⟨v, hv, rfl⟩ := List.mem_map.mp hu
    exact (drawnFrom_detachElement hv).ids_subset hid
  obtain ⟨v, hv, rfl⟩ := List.mem_map.mp hw
  refine detachElement_eq_self fun id hid => ?_
  refine ((drawnFrom_detachElement hv).answered id hid).imp_right fun hout => ?_
  exact (findRecord_identified_eq_none (v := .list (detach items))).mpr fun hin => hout (hgraph hin)

/-- Detaching comes to an end on every list, cyclic references and repeated identities included: the
rules, which count no depth, make the detached list of it and no other. In each element an identity
that the element did not carry is carried by at most one record, so that no record is copied in
twice. An element stays as it is when each of its references is answered inside it or not at all,
and a detached list when it is detached again. -/
theorem detach_copies_once (items : List Value) :
    (∀ ws, Detaches items ws ↔ ws = detach items) ∧
      (∀ (i : Nat) (v w : Value), items[i]? = some v → (detach items)[i]? = some w →
        ∀ id, id ∉ v.ids → w.ids.count id ≤ 1) ∧
      (∀ (i : Nat) (v : Value), items[i]? = some v →
        (∀ id ∈ v.refs, id ∉ (list items).ids ∨ id ∈ v.ids) → (detach items)[i]? = some v) ∧
      detach (detach items) = detach items := by
  refine ⟨fun ws => detaches_iff, ?_, ?_, detach_detach items⟩
  · intro i v w hv hw id hid
    obtain ⟨held, h⟩ := inlines_detachElement_iff.mpr (detach_getElem? hv hw)
    have hout : id ∉ [v].flatMap ids := by rwa [List.flatMap_singleton]
    have hledger := h.count_ids fun _ => hout
    have hle : tally held id ≤ 1 := by
      rw [tally]
      split <;> omega
    rw [List.flatMap_singleton] at hledger
    omega
  · intro i v hv hrefs
    rw [detach, List.getElem?_map, hv, Option.map_some, detachElement_eq_self]
    intro id hid
    exact (hrefs id hid).symm.imp_right (findRecord_identified_eq_none (v := .list items)).mpr

/-- Somebody with two references to one record. -/
def holder : Value := .record none [("First", .ref ⟨2⟩), ("Second", .ref ⟨2⟩)]

/-- A record that has its identity twice, a reference to itself and one to nothing. -/
def twin : Value :=
  .record (some ⟨3⟩) [("Twin", .record (some ⟨3⟩) []), ("Self", .ref ⟨3⟩), ("Lost", .ref ⟨9⟩)]

/-- Two records that refer to each other, the holder of one of them, and the twin. -/
def circle : List Value :=
  [.record (some ⟨1⟩) [("Next", .record (some ⟨2⟩) [("Next", .ref ⟨1⟩)])], holder, twin]

/-- The holder gets one copy of the circle, in which the circle closes by a reference, and the twin
stays as it is. -/
theorem circle_detach_copies_once :
    let w : Value := .record none
      [("First", .record (some ⟨2⟩) [("Next", .record (some ⟨1⟩) [("Next", .ref ⟨2⟩)])]),
        ("Second", .ref ⟨2⟩)]
    Detaches circle (detach circle) ∧ (⟨2⟩ ∉ holder.ids ∧ w.ids.count ⟨2⟩ ≤ 1) ∧
      (∀ id ∈ twin.refs, id ∉ (list circle).ids ∨ id ∈ twin.ids) ∧
        (detach circle)[2]? = some twin := by
  intro w
  obtain ⟨hends, honce, hstays, -⟩ := detach_copies_once circle
  have hnew : ⟨2⟩ ∉ holder.ids := by decide
  have hanswered : ∀ id ∈ twin.refs, id ∉ (list circle).ids ∨ id ∈ twin.ids := by decide
  exact ⟨(hends _).mpr rfl, ⟨hnew, honce 1 holder w rfl rfl ⟨2⟩ hnew⟩, hanswered,
    hstays 2 twin rfl hanswered⟩

end QueryRelay.Value
