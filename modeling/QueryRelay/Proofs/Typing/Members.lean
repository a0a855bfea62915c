import QueryRelay.Proofs.Eval.Sequences
import QueryRelay.Proofs.Typing.Conforms

/-!
# Members that can be read

A value inhabits a static type when it has the shape that the type says and lacks nothing: null is
only where the type marks it, a record has every declared field under its own name, and a group is
a record of a key and its elements. Whatever member the catalog types on such a value can be read,
and what is read inhabits the type of the member, but for the count of a group: the record of a
group has no such field, and answers null.
-/

namespace QueryRelay

/-- A value has the shape that a static type says, and lacks nothing. -/
inductive Value.Inhabits (c : Catalog) : Value → Ty → Prop
  /-- Null, where it is marked. -/
  | null (t : Ty) : Inhabits c .null (.option t)
  /-- A value, where null could stand. -/
  | option {v : Value} {t : Ty} (h : Inhabits c v t) : Inhabits c v (.option t)
  /-- Untyped data can be anything. -/
  | dynamic (v : Value) : Inhabits c v .dynamic
  /-- A truth value. -/
  | bool (b : Bool) : Inhabits c (.bool b) .bool
  /-- An integer. -/
  | int (n : Int64) : Inhabits c (.int n) .int
  /-- A floating-point number. -/
  | float (x : Binary64) : Inhabits c (.float x) .float
  /-- An integer in the place of a floating-point number. -/
  | widened (n : Int64) : Inhabits c (.int n) .float
  /-- A text. -/
  | text (s : String) : Inhabits c (.text s) .text
  /-- A point in time. -/
  | timestamp (t : Timestamp) : Inhabits c (.timestamp t) .timestamp
  /-- A variant by name. -/
  | variantName (s : String) (name : String) : Inhabits c (.text s) (.enum name)
  /-- A variant by number. -/
  | variantNumber (n : Int64) (name : String) : Inhabits c (.int n) (.enum name)
  /-- A sequence of elements. -/
  | seq {items : List Value} {e : Ty} (h : ∀ v ∈ items, Inhabits c v e) :
      Inhabits c (.list items) (.seq e)
  /-- A key with its elements, as grouping builds it. -/
  | group {key : Value} {items : List Value} {k e : Ty} (hkey : Inhabits c key k)
      (helements : ∀ v ∈ items, Inhabits c v e) : Inhabits c (.group key items) (.group k e)
  /-- A record with all declared fields. -/
  | record {id : Option ObjectId} {fields : Fields Value} {name : String}
      (hpresent : ∀ r, c.record? name = some r → ∀ f ∈ r.fields, (fields.get? f.1).isSome)
      (h : ∀ r, c.record? name = some r → ∀ f ∈ r.fields, ∀ w,
        fields.get? f.1 = some w → Inhabits c w f.2) :
      Inhabits c (.record id fields) (.record name)
  /-- A reference to a record elsewhere. -/
  | ref (id : ObjectId) (name : String) : Inhabits c (.ref id) (.record name)
  /-- A projection with all members. -/
  | anonymous {id : Option ObjectId} {fields : Fields Value} {members : List (String × Ty)}
      (hpresent : ∀ m ∈ members, (fields.get? m.1).isSome)
      (h : ∀ m ∈ members, ∀ w, fields.get? m.1 = some w → Inhabits c w m.2) :
      Inhabits c (.record id fields) (.anonymous members)

/-- A type occurs in another: as a part of it to any depth, or in a field of a record there that the
catalog defines. -/
inductive Ty.Involves (c : Catalog) : Ty → Ty → Prop
  /-- A type occurs in itself. -/
  | self (t : Ty) : Involves c t t
  /-- In the elements of a sequence. -/
  | seq {e u : Ty} (h : Involves c e u) : Involves c (.seq e) u
  /-- Under a mark for null. -/
  | option {t u : Ty} (h : Involves c t u) : Involves c (.option t) u
  /-- In the key of a group. -/
  | groupKey {k e u : Ty} (h : Involves c k u) : Involves c (.group k e) u
  /-- In the elements of a group. -/
  | groupElement {k e u : Ty} (h : Involves c e u) : Involves c (.group k e) u
  /-- In a member of a projection. -/
  | anonymous {members : List (String × Ty)} {m : String × Ty} {u : Ty} (hm : m ∈ members)
      (h : Involves c m.2 u) : Involves c (.anonymous members) u
  /-- In a field of a record. -/
  | record {name : String} {r : RecordType} {f : String × Ty} {u : Ty}
      (hr : c.record? name = some r) (hf : f ∈ r.fields) (h : Involves c f.2 u) :
      Involves c (.record name) u

namespace Value

variable {c : Catalog} {v w : Value} {s t u k e : Ty} {name : String}

/-- Among exact fields, the one of a name inhabits its type, and is found before any other that has
the name up to case. -/
theorem exists_lookup?_of_present {fields : Fields Value} {members : Fields Ty}
    (hpresent : ∀ m ∈ members, (fields.get? m.1).isSome)
    (h : ∀ m ∈ members, ∀ w, fields.get? m.1 = some w → w.Inhabits c m.2)
    (hm : (name, t) ∈ members) : ∃ w, fields.lookup? name = some w ∧ w.Inhabits c t := by
  obtain ⟨w, hw⟩ := Option.isSome_iff_exists.mp (hpresent _ hm)
  exact ⟨w, Fields.lookup?_of_get? hw, h _ hm w hw⟩

/-- What lacks nothing conforms. -/
theorem Inhabits.conforms (h : v.Inhabits c t) : v.Conforms c t := by
  induction h with
  | null t => exact .null _
  | option _ ih => exact .option ih
  | dynamic v => exact .dynamic v
  | bool b => exact .bool b
  | int n => exact .int n
  | float x => exact .float x
  | widened n => exact .widened n
  | text s => exact .text s
  | timestamp t => exact .timestamp t
  | variantName s name => exact .variantName s name
  | variantNumber n name => exact .variantNumber n name
  | seq _ ih => exact .seq ih
  | group _ _ ihkey ihelements =>
    exact .group rfl ihkey rfl (.seq ihelements) fun _ => nofun
  | record hpresent _ ih =>
    refine .record fun r hr f hf w hw => ?_
    rw [Fields.lookup?_eq_get? (hpresent r hr f hf)] at hw
    exact ih r hr f hf w hw
  | ref id name => exact .ref id name
  | anonymous hpresent _ ih =>
    refine .anonymous fun m hm w hw => ?_
    rw [Fields.lookup?_eq_get? (hpresent m hm)] at hw
    exact ih m hm w hw

/-- Grouping builds values that lack nothing out of keys and elements that lack nothing. -/
theorem Inhabits.groupBy {key : Selector} {image : Option Selector} {items vs : List Value}
    (hkey : ∀ v ∈ items, ∀ w, key v = .ok w → w.Inhabits c k)
    (himage : ∀ v ∈ items, ∀ w, image.getD .ok v = .ok w → w.Inhabits c e)
    (h : Sequence.groupBy key image items = .ok vs) :
    (Value.list vs).Inhabits c (.seq (.group k e)) := by
  obtain ⟨groups, hgroups, rfl⟩ := Sequence.groupBy_eq_ok hkey himage h
  refine .seq (List.forall_mem_map.mpr fun g hg => ?_)
  obtain ⟨hk, he⟩ := hgroups g hg
  exact .group hk he

/-- Null inhabits only types that mark it, and untyped data. -/
theorem Inhabits.null_cases (h : Value.null.Inhabits c t) : t.isOption = true ∨ t = .dynamic := by
  cases h with
  | null | option => exact .inl rfl
  | dynamic => exact .inr rfl

/-- A value that inhabits a type inhabits its optional form. -/
theorem Inhabits.optional (h : v.Inhabits c t) : v.Inhabits c t.optional := by
  cases t with
  | option => exact h
  | _ => exact .option h

end Value

/-- Whether the values are groups, or null. -/
def Ty.isGroup : Ty → Bool
  | .option inner => isGroup inner
  | .group _ _ => true
  | _ => false

/-- Whether the values are untyped data. -/
def Ty.isUntyped : Ty → Bool
  | .option inner => isUntyped inner
  | .dynamic => true
  | _ => false

variable {c : Catalog} {v w : Value} {s t u k e : Ty} {name : String}

/-- A member with the type of untyped data is one of a type in which untyped data occurs. -/
theorem Catalog.involves_of_memberType? (h : c.memberType? t name = some .dynamic) :
    t.Involves c .dynamic := by
  induction t with
  | record n =>
    rw [memberType?, Option.bind_eq_some_iff] at h
    obtain ⟨r, hr, hfield⟩ := h
    exact .record hr (Fields.mem_of_get?_eq_some hfield) (.self _)
  | anonymous members =>
    rw [memberType?] at h
    exact .anonymous (Fields.mem_of_get?_eq_some h) (.self _)
  | group k e =>
    rw [memberType?] at h
    split at h
    · cases h
      exact .groupKey (.self _)
    · split at h <;> cases h
  | seq | text | timestamp =>
    rw [memberType?] at h
    split at h <;> cases h
  | option inner =>
    rw [memberType?, Option.map_eq_some_iff] at h
    obtain ⟨t, -, ht⟩ := h
    cases t <;> cases ht
  | dynamic => exact .self _
  | _ => cases h

namespace Value

/-- The record of a group has no count. -/
theorem member_group_count (key : Value) (items : List Value) :
    (group key items).member "Count" = .ok .null := rfl

/-- A member that the catalog types can be read on a value that lacks nothing, and inhabits the
type; the count of a group is null. -/
theorem Inhabits.exists_member (h : v.Inhabits c t) (hnull : v ≠ .null) (href : ∀ id, v ≠ .ref id)
    (htyped : t.isUntyped = false) (hu : c.memberType? t name = some u) :
    ∃ w, v.member name = .ok w ∧
      if t.isGroup ∧ name = "Count" then w = .null else w.Inhabits c u := by
  induction t generalizing u with
  | record n =>
    rw [Catalog.memberType?, Option.bind_eq_some_iff] at hu
    obtain ⟨r, hr, hfield⟩ := hu
    cases h with
    | record hpresent h =>
      obtain ⟨w, hw, hinhabits⟩ := exists_lookup?_of_present (hpresent r hr) (h r hr)
        (Fields.mem_of_get?_eq_some hfield)
      refine ⟨w, ?_, by simpa [Ty.isGroup] using hinhabits⟩
      rw [member, hw]
      rfl
    | ref id => exact absurd rfl (href id)
  | anonymous members =>
    rw [Catalog.memberType?] at hu
    cases h with
    | anonymous hpresent h =>
      obtain ⟨w, hw, hinhabits⟩ := exists_lookup?_of_present hpresent h
        (Fields.mem_of_get?_eq_some hu)
      refine ⟨w, ?_, by simpa [Ty.isGroup] using hinhabits⟩
      rw [member, hw]
      rfl
  | group k e =>
    rw [Catalog.memberType?] at hu
    -- The key is a field of the record, the count is none.
    cases h with
    | @group key items _ _ hkey _ =>
      split at hu
      · rename_i hname
        subst hname
        cases hu
        exact ⟨key, rfl, hkey⟩
      · split at hu <;> cases hu
        rename_i hname
        subst hname
        exact ⟨.null, member_group_count key items, rfl⟩
  | seq e =>
    rw [Catalog.memberType?] at hu
    split at hu <;> cases hu
    rename_i hname
    cases h with
    | seq h => exact ⟨_, if_pos hname, .int _⟩
  | text =>
    rw [Catalog.memberType?] at hu
    split at hu <;> cases hu
    rename_i hname
    cases h with
    | text x => exact ⟨_, if_pos hname, .int _⟩
  | timestamp =>
    rw [Catalog.memberType?] at hu
    split at hu <;> cases hu
    rename_i hname
    cases h with
    | timestamp d => rcases hname with rfl | rfl | rfl <;> exact ⟨_, rfl, .int _⟩
  | option inner ih =>
    rw [Catalog.memberType?, Option.map_eq_some_iff] at hu
    obtain ⟨u, hu, rfl⟩ := hu
    cases h with
    | null => exact absurd rfl hnull
    | option h =>
      obtain ⟨w, hw, hinhabits⟩ := ih h htyped hu
      refine ⟨w, hw, ?_⟩
      rw [Ty.isGroup]
      split
      · rename_i hcount
        rwa [if_pos hcount] at hinhabits
      · rename_i hcount
        rw [if_neg hcount] at hinhabits
        exact hinhabits.optional
  | dynamic => cases htyped
  | _ => cases hu

end Value

/-- Main statement: whatever member the catalog types can be read on a value that lacks nothing, is
not null, no reference and no untyped data. What is read inhabits the type of the member, and is
null only where that type marks it or is that of untyped data, which then occurs in the type of the
value; but the count of a group, which the catalog types as an integer, is null. -/
theorem member_inhabits (c : Catalog) {t u : Ty} {name : String} {v : Value}
    (htyped : t.isUntyped = false) (hu : c.memberType? t name = some u) (hv : v.Inhabits c t)
    (hnull : v ≠ .null) (href : ∀ id, v ≠ .ref id) :
    ∃ w, v.member name = .ok w ∧
      if t.isGroup ∧ name = "Count" then w = .null
      else w.Inhabits c u ∧
        (w = .null → u.isOption = true ∨ u = .dynamic ∧ t.Involves c .dynamic) := by
  obtain ⟨w, hw, hinhabits⟩ := hv.exists_member hnull href htyped hu
  refine ⟨w, hw, ?_⟩
  split
  · rename_i hcount
    rwa [if_pos hcount] at hinhabits
  · rename_i hcount
    rw [if_neg hcount] at hinhabits
    refine ⟨hinhabits, ?_⟩
    rintro rfl
    rcases hinhabits.null_cases with hoption | rfl
    · exact .inl hoption
    · exact .inr ⟨rfl, Catalog.involves_of_memberType? hu⟩

/-- The type of projections to a name and to a point in time that may be null. -/
def Ty.membership : Ty := .option (.anonymous [("Name", .text), ("Since", .option .timestamp)])

/-- A projection without a point in time lacks nothing. -/
theorem Ty.membership_inhabits (c : Catalog) :
    (Value.record none [("Name", .text "Ann"), ("Since", .null)]).Inhabits c Ty.membership := by
  refine .option (.anonymous ?_ ?_)
  · exact List.forall_mem_cons.mpr ⟨rfl, List.forall_mem_singleton.mpr rfl⟩
  · refine List.forall_mem_cons.mpr ⟨?_, List.forall_mem_singleton.mpr ?_⟩
    · rintro _ ⟨⟩
      exact .text "Ann"
    · rintro _ ⟨⟩
      exact .null _

/-- The name of a projection that may be null is read as a text that may be null. -/
theorem member_inhabits_name :
    Catalog.standard.memberType? Ty.membership "Name" = some (.option .text) ∧
    ∃ w, (Value.record none [("Name", .text "Ann"), ("Since", .null)]).member "Name" = .ok w ∧
      w.Inhabits Catalog.standard (.option .text) := by
  have hname : Catalog.standard.memberType? Ty.membership "Name" = some (.option .text) := rfl
  refine ⟨hname, ?_⟩
  obtain ⟨w, hw, hinhabits⟩ := member_inhabits Catalog.standard rfl hname
    (Ty.membership_inhabits _) nofun nofun
  exact ⟨w, hw, hinhabits.1⟩

/-- The count of a group of integers has the type of integers and is read as null. -/
theorem member_count_missing :
    ¬ (Ty.group .int .int).Involves Catalog.standard .dynamic ∧
    Catalog.standard.memberType? (.group .int .int) "Count" = some .int ∧
    (Value.group (.int 1) [.int 1, .int 1]).Inhabits Catalog.standard (.group .int .int) ∧
    (Value.group (.int 1) [.int 1, .int 1]).member "Count" = .ok .null ∧
    ¬ Value.null.Inhabits Catalog.standard .int := by
  refine ⟨?_, rfl, .group (.int 1) ?_, rfl, nofun⟩
  · rintro (_ | _ | _ | h | h) <;> cases h
  · exact List.forall_mem_cons.mpr ⟨.int 1, List.forall_mem_singleton.mpr (.int 1)⟩

end QueryRelay
