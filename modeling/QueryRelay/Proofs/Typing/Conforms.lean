import QueryRelay.Eval.Operation
import QueryRelay.Proofs.Types.Hereditary

/-!
# Values of a type

A value conforms to a static type when it has the shape that the type says. Null conforms to every
type, every value conforms to the type of untyped data, and an integer conforms to the type of
floating-point numbers. Elements and members of a value conform to the types that elements and
members have, but for the count of a group; marks for null make no difference.

The record of a group may store a count of its own, which reading the member gives and which need be
no number. So the lemmas are about two notions at once: conformance, and conformance of values that
store no wrong count.
-/

namespace QueryRelay

/-- A count that is stored as a field of its own is an integer, or null. -/
def Fields.CountIsInteger (fields : Fields Value) : Prop :=
  ∀ w, fields.lookup? "Count" = some w → w = .null ∨ ∃ n, w = .int n

/-- A value has the shape that a static type says. The `counted` parameter allows to ask more of the
record of a group than a key and elements: that a count which it stores is one. If it is false, this
is conformance. -/
inductive Value.ConformsWith (c : Catalog) (counted : Prop) : Value → Ty → Prop
  /-- Null has every type. -/
  | null (t : Ty) : ConformsWith c counted .null t
  /-- Untyped data can be anything. -/
  | dynamic (v : Value) : ConformsWith c counted v .dynamic
  /-- A mark for null adds nothing to null. -/
  | option {v : Value} {t : Ty} (h : ConformsWith c counted v t) :
      ConformsWith c counted v (.option t)
  /-- A truth value. -/
  | bool (b : Bool) : ConformsWith c counted (.bool b) .bool
  /-- An integer. -/
  | int (n : Int64) : ConformsWith c counted (.int n) .int
  /-- A floating-point number. -/
  | float (x : Binary64) : ConformsWith c counted (.float x) .float
  /-- An integer in the place of a floating-point number. -/
  | widened (n : Int64) : ConformsWith c counted (.int n) .float
  /-- A text. -/
  | text (s : String) : ConformsWith c counted (.text s) .text
  /-- A point in time. -/
  | timestamp (t : Timestamp) : ConformsWith c counted (.timestamp t) .timestamp
  /-- A variant by name. -/
  | variantName (s : String) (name : String) : ConformsWith c counted (.text s) (.enum name)
  /-- A variant by number. -/
  | variantNumber (n : Int64) (name : String) : ConformsWith c counted (.int n) (.enum name)
  /-- A sequence of elements. -/
  | seq {items : List Value} {e : Ty} (h : ∀ v ∈ items, ConformsWith c counted v e) :
      ConformsWith c counted (.list items) (.seq e)
  /-- The elements of a group without its key. -/
  | groupList {items : List Value} {k e : Ty} (h : ∀ v ∈ items, ConformsWith c counted v e) :
      ConformsWith c counted (.list items) (.group k e)
  /-- A key with elements, whatever else the record has; only if `counted` is true, a count among it
  has to be one. -/
  | group {id : Option ObjectId} {fields : Fields Value} {key elements : Value} {k e : Ty}
      (hkey : fields.get? groupKey = some key) (hk : ConformsWith c counted key k)
      (helements : fields.get? groupElements = some elements)
      (he : ConformsWith c counted elements (.seq e))
      (hcount : counted → fields.CountIsInteger) :
      ConformsWith c counted (.record id fields) (.group k e)
  /-- A record in which the declared fields that it has conform to their types. -/
  | record {id : Option ObjectId} {fields : Fields Value} {name : String}
      (h : ∀ r, c.record? name = some r → ∀ field ∈ r.fields, ∀ w,
        fields.lookup? field.1 = some w → ConformsWith c counted w field.2) :
      ConformsWith c counted (.record id fields) (.record name)
  /-- A reference to a record elsewhere. -/
  | ref (id : ObjectId) (name : String) : ConformsWith c counted (.ref id) (.record name)
  /-- A projection in which the members that it has conform to their types. -/
  | anonymous {id : Option ObjectId} {fields : Fields Value} {members : List (String × Ty)}
      (h : ∀ m ∈ members, ∀ w, fields.lookup? m.1 = some w → ConformsWith c counted w m.2) :
      ConformsWith c counted (.record id fields) (.anonymous members)

/-- A value conforms to a static type. A record conforms to a type of groups by its key and its
elements, whatever else it has. -/
abbrev Value.Conforms (c : Catalog) (v : Value) (t : Ty) : Prop := v.ConformsWith c False t

/-! ## Marks for null -/

namespace Ty

mutual

/-- The type without any mark for null. -/
def erased : Ty → Ty
  | .seq e => .seq (erased e)
  | .option inner => erased inner
  | .group k e => .group (erased k) (erased e)
  | .anonymous members => .anonymous (erasedMembers members)
  | t => t
termination_by structural t => t

/-- The members without any mark for null. -/
def erasedMembers : List (String × Ty) → List (String × Ty)
  | [] => []
  | (name, t) :: rest => (name, erased t) :: erasedMembers rest
termination_by structural ms => ms

end

/-- Members lose their marks one by one. -/
theorem erasedMembers_eq_map (ms : List (String × Ty)) :
    erasedMembers ms = ms.map fun m => (m.1, m.2.erased) := by
  induction ms with
  | nil => rfl
  | cons m rest ih =>
    obtain ⟨name, t⟩ := m
    rw [erasedMembers, ih, List.map_cons]

/-- The optional form adds no more than a mark. -/
@[simp] theorem erased_optional (t : Ty) : t.optional.erased = t.erased := by
  cases t <;> rfl

end Ty

namespace Value

variable {c : Catalog} {counted : Prop} {v : Value} {s t u e : Ty}

/-- A mark for null makes no difference to the values of a type. -/
theorem conforms_option_iff :
    v.ConformsWith c counted (.option t) ↔ v.ConformsWith c counted t := by
  constructor
  · intro h
    cases h with
    | null => exact .null t
    | option h => exact h
  · exact .option

/-- The optional form of a type has the values of the type. -/
theorem conforms_optional_iff :
    v.ConformsWith c counted t.optional ↔ v.ConformsWith c counted t := by
  cases t with
  | option inner => rfl
  | _ => exact conforms_option_iff

/-- A type and its form without one mark for null have the same values. -/
theorem conforms_unwrapped_iff :
    v.ConformsWith c counted t.unwrapped ↔ v.ConformsWith c counted t := by
  cases t with
  | option inner => exact conforms_option_iff.symm
  | _ => rfl

/-! ## Elements -/

/-- A record conforms to a type of groups exactly when it has a key and elements that conform. -/
theorem conforms_group_iff {id : Option ObjectId} {fields : Fields Value} {k : Ty} :
    (Value.record id fields).Conforms c (.group k e) ↔
      (∃ key, fields.get? groupKey = some key ∧ key.Conforms c k) ∧
        ∃ elements, fields.get? groupElements = some elements ∧ elements.Conforms c (.seq e) := by
  constructor
  · intro h
    cases h with
    | group hkey hk helements he _ => exact ⟨⟨_, hkey, hk⟩, _, helements, he⟩
  · rintro ⟨⟨_, hkey, hk⟩, _, helements, he⟩
    exact .group hkey hk helements he False.elim

/-- A list of conforming elements conforms to every type with this element type. -/
theorem conforms_list {items : List Value} (helement : s.element? = some e)
    (h : ∀ v ∈ items, v.ConformsWith c counted e) :
    (Value.list items).ConformsWith c counted s := by
  induction s with
  | seq e' =>
    cases helement
    exact .seq h
  | group k e' =>
    cases helement
    exact .groupList h
  | option inner ih => exact .option (ih helement)
  | dynamic => exact .dynamic _
  | _ => cases helement

/-- The elements of a conforming value conform to the element type. -/
theorem ConformsWith.elements {items : List Value} (h : v.ConformsWith c counted s)
    (helement : s.element? = some e) (hitems : v.elements = .ok items) :
    ∀ w ∈ items, w.ConformsWith c counted e := by
  induction s with
  | seq e' =>
    cases helement
    cases h with
    | null =>
      cases hitems
      exact List.forall_mem_nil _
    | seq h =>
      cases hitems
      exact h
  | group k e' =>
    cases helement
    cases h with
    | null =>
      cases hitems
      exact List.forall_mem_nil _
    | groupList h =>
      cases hitems
      exact h
    | group hkey hk helements he hcount =>
      rw [Value.elements, helements, hkey] at hitems
      cases he with
      | null => cases hitems
      | seq h =>
        cases hitems
        exact h
  | option inner ih => exact ih (conforms_option_iff.mp h) helement
  | dynamic =>
    cases helement
    exact fun w _ => .dynamic w
  | _ => cases helement

/-! ## Members -/

/-- A field that a record answers is one that look-up finds, or null. -/
theorem conforms_lookup {fields : Fields Value} {name : String}
    (h : ∀ w, fields.lookup? name = some w → w.ConformsWith c counted t) :
    ((fields.lookup? name).getD .null).ConformsWith c counted t := by
  cases hfound : fields.lookup? name with
  | none => exact .null t
  | some w => exact h w hfound

/-- The only members of a group are its key and its count, and its count is right where a stored one
has to be. -/
theorem ConformsWith.member_group {k : Ty} {name : String} {w : Value}
    (h : v.ConformsWith c counted (.group k e)) (hcount : counted ∨ name ≠ "Count")
    (htype : c.memberType? (.group k e) name = some t) (hw : v.member name = .ok w) :
    w.ConformsWith c counted t := by
  rw [Catalog.memberType?] at htype
  cases h with
  | null =>
    cases hw
    exact .null t
  | groupList h =>
    rw [Value.member] at hw
    by_cases hname : name = "Count"
    · subst hname
      cases htype
      cases hw
      exact .int _
    · rw [if_neg hname] at hw
      cases hw
  | group hkey hk helements he hstored =>
    cases hw
    by_cases hname : name = "Key"
    · rw [if_pos hname] at htype
      cases htype
      rw [show name = groupKey from hname, Fields.lookup?_of_get? hkey]
      exact hk
    · rw [if_neg hname] at htype
      by_cases hname' : name = "Count"
      · cases (if_pos hname').symm.trans htype
        refine conforms_lookup fun w hw => ?_
        have hcounted := hcount.resolve_right fun h => h hname'
        rcases hstored hcounted w (hname' ▸ hw) with rfl | ⟨n, rfl⟩
        · exact .null _
        · exact .int n
      · rw [if_neg hname'] at htype
        cases htype

/-- A member of a conforming value conforms to the type of the member, unless it is the count of a
group of which any count may be stored. -/
theorem ConformsWith.member {name : String} {w : Value} (h : v.ConformsWith c counted s)
    (hcount : counted ∨ ¬ (name = "Count" ∧ ∃ k e, s.erased = .group k e))
    (htype : c.memberType? s name = some t) (hw : v.member name = .ok w) :
    w.ConformsWith c counted t := by
  induction s generalizing t with
  | record n =>
    rw [Catalog.memberType?, Option.bind_eq_some_iff] at htype
    obtain ⟨r, hr, hfield⟩ := htype
    cases h with
    | null =>
      cases hw
      exact .null t
    | record h =>
      cases hw
      exact conforms_lookup (h r hr _ (Fields.mem_of_get?_eq_some hfield))
    | ref id => cases hw
  | anonymous members =>
    rw [Catalog.memberType?] at htype
    cases h with
    | null =>
      cases hw
      exact .null t
    | anonymous h =>
      cases hw
      exact conforms_lookup (h _ (Fields.mem_of_get?_eq_some htype))
  | group k e =>
    exact h.member_group (hcount.imp_right fun h hname => h ⟨hname, _, _, rfl⟩) htype hw
  | seq e =>
    rw [Catalog.memberType?] at htype
    split at htype <;> cases htype
    rename_i hname
    cases h with
    | null =>
      cases hw
      exact .null _
    | seq h =>
      rw [Value.member, if_pos hname] at hw
      cases hw
      exact .int _
  | text =>
    rw [Catalog.memberType?] at htype
    split at htype <;> cases htype
    rename_i hname
    cases h with
    | null =>
      cases hw
      exact .null _
    | text s =>
      rw [Value.member, if_pos hname] at hw
      cases hw
      exact .int _
  | timestamp =>
    rw [Catalog.memberType?] at htype
    split at htype <;> cases htype
    cases h with
    | null =>
      cases hw
      exact .null _
    | timestamp d =>
      rw [Value.member] at hw
      split at hw
      · cases hw
        exact .int _
      · split at hw
        · cases hw
          exact .int _
        · split at hw <;> cases hw
          exact .int _
  | option inner ih =>
    rw [Catalog.memberType?, Option.map_eq_some_iff] at htype
    obtain ⟨t', ht', rfl⟩ := htype
    exact conforms_optional_iff.mpr (ih (conforms_option_iff.mp h) hcount ht')
  | dynamic =>
    cases htype
    exact .dynamic w
  | _ => cases htype

/-- A member of a conforming value conforms to the type that the catalog gives the member, with the
same exception. -/
theorem ConformsWith.typeOfMember {name : String} {w : Value} (h : v.ConformsWith c counted s)
    (hcount : counted ∨ ¬ (name = "Count" ∧ ∃ k e, s.erased = .group k e))
    (htype : c.typeOfMember s name = .ok t) (hw : v.member name = .ok w) :
    w.ConformsWith c counted t := by
  rw [Catalog.typeOfMember] at htype
  cases hfound : c.memberType? s name with
  | none =>
    rw [hfound] at htype
    cases htype
  | some t' =>
    rw [hfound] at htype
    cases htype
    exact h.member hcount hfound hw

/-! ## Types that differ in marks for null -/

/-- A sequence keeps its type when its elements do. -/
theorem ConformsWith.seq_mono {e' : Ty}
    (he : ∀ w : Value, w.ConformsWith c counted e → w.ConformsWith c counted e')
    (h : v.ConformsWith c counted (.seq e)) : v.ConformsWith c counted (.seq e') := by
  cases h with
  | null => exact .null _
  | seq h => exact .seq fun w hw => he w (h w hw)

/-- A group keeps its type when its key and its elements do. -/
theorem ConformsWith.group_mono {k k' e' : Ty}
    (hk : ∀ w : Value, w.ConformsWith c counted k → w.ConformsWith c counted k')
    (he : ∀ w : Value, w.ConformsWith c counted e → w.ConformsWith c counted e')
    (h : v.ConformsWith c counted (.group k e)) : v.ConformsWith c counted (.group k' e') := by
  cases h with
  | null => exact .null _
  | groupList h => exact .groupList fun w hw => he w (h w hw)
  | group hkey hkeyed helements hseq hcount =>
    exact .group hkey (hk _ hkeyed) helements (hseq.seq_mono he) hcount

/-- A projection keeps its type when its members do. -/
theorem ConformsWith.anonymous_mono {members members' : List (String × Ty)}
    (hmembers : ∀ m' ∈ members', ∃ m ∈ members, m.1 = m'.1 ∧
      ∀ w : Value, w.ConformsWith c counted m.2 → w.ConformsWith c counted m'.2)
    (h : v.ConformsWith c counted (.anonymous members)) :
    v.ConformsWith c counted (.anonymous members') := by
  cases h with
  | null => exact .null _
  | anonymous h =>
    refine .anonymous fun m' hm' w hw => ?_
    obtain ⟨m, hm, hname, hmono⟩ := hmembers m' hm'
    exact hmono w (h m hm w (hname ▸ hw))

/-- A type and its form without marks for null have the same values. -/
theorem conforms_erased_iff : v.ConformsWith c counted t.erased ↔ v.ConformsWith c counted t := by
  induction t generalizing v with
  | seq e ih =>
    rw [Ty.erased]
    exact ⟨.seq_mono fun _ => ih.mp, .seq_mono fun _ => ih.mpr⟩
  | option inner ih => rw [Ty.erased, ih, conforms_option_iff]
  | group k e ihk ihe =>
    rw [Ty.erased]
    exact ⟨.group_mono (fun _ => ihk.mp) fun _ => ihe.mp,
      .group_mono (fun _ => ihk.mpr) fun _ => ihe.mpr⟩
  | anonymous members ih =>
    rw [Ty.erased, Ty.erasedMembers_eq_map]
    constructor
    · exact .anonymous_mono fun m hm =>
        ⟨_, List.mem_map_of_mem hm, rfl, fun w => (ih m hm).mp⟩
    · refine .anonymous_mono (List.forall_mem_map.mpr fun m hm => ?_)
      exact ⟨m, hm, rfl, fun w => (ih m hm).mpr⟩
  | _ => rfl

/-- Types that are equal up to marks for null have the same values. -/
theorem ConformsWith.of_erased_eq (h : v.ConformsWith c counted t) (heq : t.erased = u.erased) :
    v.ConformsWith c counted u := by
  rw [← conforms_erased_iff, ← heq]
  exact conforms_erased_iff.mpr h

end Value
end QueryRelay
