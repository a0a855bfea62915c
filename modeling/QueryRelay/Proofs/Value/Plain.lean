import Mathlib.Data.List.Perm.Subperm
import QueryRelay.Proofs.Json.Members
import QueryRelay.Proofs.Json.Numerals
import QueryRelay.Proofs.Value.Equality
import QueryRelay.Proofs.Value.Unfolding
import QueryRelay.Value.Plain

/-!
# Values through plain documents

A plain document has one kind of object for records, with or without an identity, and for
references, and it sorts the members by name. Main statement: a value comes back equal exactly when
it holds nothing that a plain document has no form for (a timestamp, or a number that is none) and
no record that reads as something else there; it is the same then, with the fields of its records
in another order at most.
-/

namespace QueryRelay.Value

open Document (SortedByName)

/-! ## Parts there and back -/

/-- The items of a list as documents, one by one. -/
theorem toDocuments_eq_map (items : List Value) : toDocuments items = items.map toDocument := by
  induction items with
  | nil => rfl
  | cons v rest ih => rw [toDocuments, ih, List.map_cons]

/-- The values of the items of an array, one by one. -/
theorem ofDocuments_eq_map (items : List Document) : ofDocuments items = items.map ofDocument := by
  induction items with
  | nil => rfl
  | cons d rest ih => rw [ofDocuments, ih, List.map_cons]

/-- The fields of a record as members, one by one. -/
theorem toMembers_eq_mapValues (fields : Fields Value) :
    toMembers fields = Fields.mapValues toDocument fields := by
  induction fields with
  | nil => rfl
  | cons f rest ih =>
    obtain ⟨name, v⟩ := f
    rw [toMembers, ih]
    rfl

/-- The fields of an object are its members, without the one that holds an identity. -/
theorem ofMembers_eq_mapValues (members : Fields Document) :
    ofMembers members = Fields.mapValues ofDocument (Fields.erase members idMember) := by
  induction members with
  | nil => rfl
  | cons m rest ih =>
    obtain ⟨name, d⟩ := m
    rw [ofMembers, Fields.erase, List.filter_cons]
    by_cases h : name = idMember
    · rw [if_pos h, if_neg (by simp [h]), ih, Fields.erase]
    · rw [if_neg h, if_pos (by simp [h]), ih, Fields.erase]
      rfl

/-- The member for an identity, if there is one. -/
def idEntry (own : Option ObjectId) : List (String × Document) :=
  own.toList.map fun id => (idMember, .natural id.number)

/-- What a record is made into: the member for its identity, and one for each field. -/
def objectEntries (own : Option ObjectId) (fields : Fields Value) : List (String × Document) :=
  idEntry own ++ Fields.mapValues toDocument fields

/-- The entries of a record hold the number of its identity and its fields. -/
theorem mem_objectEntries {own : Option ObjectId} {fields : Fields Value} {m : String × Document} :
    m ∈ objectEntries own fields ↔
      (∃ id, own = some id ∧ m = (idMember, .natural id.number)) ∨
        m ∈ Fields.mapValues toDocument fields := by
  rw [objectEntries, List.mem_append]
  cases own <;> simp [idEntry]

/-- A record as a document is the object of its entries. -/
theorem toDocument_record (own : Option ObjectId) (fields : Fields Value) :
    toDocument (.record own fields) = Document.ofMembers (objectEntries own fields) := by
  rw [objectEntries, ← toMembers_eq_mapValues]
  cases own <;> rfl

/-- The member for an identity is not the one for a reference. -/
theorem idMember_ne_refMember : idMember ≠ refMember := by
  decide

/-- An object with a natural for its only member `$ref`: what a reference looks like. -/
def IsRefObject (members : List (String × Document)) : Prop :=
  ∃ n, members = [(refMember, .natural n)]

/-- The identity that the members of an object give it. -/
def ownId (members : List (String × Document)) : Option ObjectId :=
  ((Fields.get? members idMember).bind Document.natural?).map ObjectId.mk

/-- Sorted members give the identity that the member for it holds as a natural. -/
theorem ownId_eq_some_iff {members : List (String × Document)} (hsorted : SortedByName members)
    {id : ObjectId} : ownId members = some id ↔ (idMember, .natural id.number) ∈ members := by
  rw [← Fields.get?_eq_some_iff hsorted.nodup, ownId]
  cases Fields.get? members idMember with
  | none => exact ⟨nofun, nofun⟩
  | some d =>
    cases d with
    | natural n =>
      obtain ⟨number⟩ := id
      simp [Document.natural?]
    | _ => exact ⟨nofun, nofun⟩

/-- Any other object is a record, of the identity that its members give it. -/
theorem ofDocument_object {members : List (String × Document)} (h : ¬ IsRefObject members) :
    ofDocument (.object members) =
      .record (ownId members) (Fields.mapValues ofDocument (Fields.erase members idMember)) := by
  rw [ofDocument, ofMembers_eq_mapValues, ownId]
  rintro m n rfl hget
  have hm : (refMember, .natural n) = m := List.mem_singleton.mp (Fields.mem_of_get?_eq_some hget)
  exact h ⟨n, by rw [hm]⟩

/-- An integer is carried there and back. -/
theorem ofDocument_ofInt64 (n : Int64) : ofDocument (Document.ofInt64 n) = .int n := by
  rw [Document.ofInt64]
  split
  · rfl
  · next hneg =>
    obtain ⟨hsmall, hword⟩ := Json.ofNat_word hneg
    rw [ofDocument, if_pos hsmall, hword]

/-! ## Values that plain documents carry -/

/-- What a value that plain documents carry may be, its parts aside: no timestamp, no infinity and
no `NaN`, no record with a field for the identity, and none without identity that looks like a
reference. -/
def FitsAlone : Value → Prop
  | .timestamp _ => False
  | .float x => x.isFinite = true
  | .record own fields =>
    idMember ∉ fields.map Prod.fst ∧
      ¬ (own = none ∧ ∃ n, 0 ≤ n.toInt ∧ fields = [(refMember, .int n)])
  | _ => True

/-- A value that plain documents carry, with all its parts. -/
inductive FitsDocument : Value → Prop
  /-- The value itself fits, and its direct parts with their parts. -/
  | node {v : Value} (hself : v.FitsAlone) (hchildren : ∀ w ∈ v.children, FitsDocument w) :
      FitsDocument v

/-- A value with the fields of its records, at any depth, in another order. -/
inductive Rearranges : Value → Value → Prop
  /-- A value without parts is the same. -/
  | atom {v : Value} (h : v.IsAtom) : Rearranges v v
  /-- A list has its items rearranged one by one. -/
  | list {pairs : List (Value × Value)} (h : ∀ p ∈ pairs, Rearranges p.1 p.2) :
      Rearranges (.list (pairs.map Prod.fst)) (.list (pairs.map Prod.snd))
  /-- A record has its fields in some order, and their values rearranged. -/
  | record (own : Option ObjectId) {fields : Fields Value} {rows : List (String × Value × Value)}
      (h : ∀ r ∈ rows, Rearranges r.2.1 r.2.2)
      (hperm : fields.Perm (rows.map fun r => (r.1, r.2.1))) :
      Rearranges (.record own fields) (.record own (rows.map fun r => (r.1, r.2.2)))

variable {v w : Value} {own : Option ObjectId} {fields : Fields Value}

/-- A value that fits does so itself. -/
theorem FitsDocument.self (h : v.FitsDocument) : v.FitsAlone := by
  cases h with
  | node hself _ => exact hself

/-- The direct parts of a value that fits do so too. -/
theorem FitsDocument.children (h : v.FitsDocument) : ∀ w ∈ v.children, w.FitsDocument := by
  cases h with
  | node _ hchildren => exact hchildren

/-- A value without parts names no field twice. -/
theorem WellNamed.atom (hv : v.IsAtom) : v.WellNamed := by
  cases v with
  | list | record => exact hv.elim
  | _ => exact .node nofun nofun

/-- A value without parts fits when it does so itself. -/
theorem FitsDocument.atom (hv : v.IsAtom) (h : v.FitsAlone) : v.FitsDocument := by
  cases v with
  | list | record => exact hv.elim
  | _ => exact .node h nofun

/-- A value without parts that fits equals itself. -/
theorem equals_atom (hv : v.IsAtom) (h : v.FitsAlone) : v.equals v = true := by
  cases v with
  | list | record => exact hv.elim
  | timestamp => exact h.elim
  | null => rfl
  | float x =>
    have hnumber : x.isNaN = false := by
      simp only [FitsAlone, Binary64.isFinite, Binary64.isNaN, decide_eq_true_eq,
        decide_eq_false_iff_not] at h ⊢
      omega
    simp [equals, Binary64.numericEq, hnumber]
  | _ => simp [equals]

/-- A value with its fields rearranged equals the value. -/
theorem Rearranges.equals (h : Rearranges v w) (hnamed : w.WellNamed) (hfits : w.FitsDocument) :
    v.equals w = true := by
  induction h with
  | atom hv => exact equals_atom hv hfits.self
  | @list pairs _ ih =>
    rw [Value.equals, equalItems_iff, List.forall₂_map_left_iff, List.forall₂_map_right_iff,
      List.forall₂_same]
    intro p hp
    have hmem : p.2 ∈ pairs.map Prod.snd := List.mem_map_of_mem hp
    exact ih p hp (hnamed.children p.2 hmem) (hfits.children p.2 hmem)
  | @record own fields rows _ hperm ih =>
    have hlength : fields.length = rows.length := by rw [hperm.length_eq, List.length_map]
    rw [Value.equals, Bool.and_eq_true, Bool.and_eq_true, includedIn_iff, List.length_map, hlength]
    refine ⟨⟨beq_self_eq_true own, beq_self_eq_true _⟩, fun f hf => ?_⟩
    obtain ⟨r, hr, rfl⟩ := List.mem_map.mp (hperm.mem_iff.mp hf)
    have hpart := mem_children_of_mem_pairs own Prod.snd hr
    refine ⟨r.2.2, (Fields.get?_eq_some_iff hnamed.nodup).mpr (List.mem_map_of_mem hr), ?_⟩
    exact ih r hr (hnamed.children _ hpart) (hfits.children _ hpart)

/-! ## There and back -/

/-- A document that is a natural is made of a natural. -/
theorem toDocument_eq_natural {n : UInt64} (h : toDocument v = .natural n) :
    ∃ k, 0 ≤ k.toInt ∧ v = .int k := by
  cases v with
  | int k =>
    rw [toDocument, Document.ofInt64] at h
    split at h
    · cases h
    · next hnot => exact ⟨k, by omega, rfl⟩
  | float x =>
    rw [toDocument, Document.ofFloat] at h
    split at h <;> cases h
  | record own fields =>
    rw [toDocument_record] at h
    cases h
  | _ => cases h

/-- The members that a record is made into have distinct names. -/
theorem nodup_objectEntries (hnodup : (fields.map Prod.fst).Nodup)
    (hid : idMember ∉ fields.map Prod.fst) (own : Option ObjectId) :
    ((objectEntries own fields).map Prod.fst).Nodup := by
  rw [objectEntries, List.map_append, Fields.mapValues_names]
  cases own with
  | none => exact hnodup
  | some id => exact List.nodup_cons.mpr ⟨hid, hnodup⟩

/-- Without the member for the identity there are those for the fields. -/
theorem erase_objectEntries (hid : idMember ∉ fields.map Prod.fst) (own : Option ObjectId) :
    Fields.erase (objectEntries own fields) idMember = Fields.mapValues toDocument fields := by
  have hentry : (idEntry own).filter (fun entry => entry.1 != idMember) = [] := by
    cases own <;> rfl
  have hkeep : idMember ∉ (Fields.mapValues toDocument fields).map Prod.fst := by
    rwa [Fields.mapValues_names]
  rw [objectEntries, Fields.erase, List.filter_append, hentry, List.nil_append]
  exact Fields.erase_eq_self hkeep

/-- Sorted members give the identity that the record has. -/
theorem ownId_of_perm {members : List (String × Document)} (hsorted : SortedByName members)
    (hid : idMember ∉ fields.map Prod.fst)
    (hperm : members.Perm (objectEntries own fields)) :
    ownId members = own := by
  refine Option.ext fun id => ?_
  rw [ownId_eq_some_iff hsorted, hperm.mem_iff, mem_objectEntries]
  constructor
  · rintro (⟨id', hown, heq⟩ | hfield)
    · cases id
      cases id'
      cases heq
      exact hown
    · rw [← Fields.mapValues_names toDocument] at hid
      exact absurd (List.mem_map_of_mem hfield) hid
  · exact fun h => .inl ⟨id, h, rfl⟩

/-- A record that fits does not become what a reference looks like. -/
theorem not_isRefObject {members : List (String × Document)}
    (h : (record own fields).FitsAlone)
    (hperm : members.Perm (objectEntries own fields)) :
    ¬ IsRefObject members := by
  rintro ⟨n, rfl⟩
  have hentries := List.singleton_perm.mp hperm
  cases own with
  | some id =>
    exact absurd (congrArg Prod.fst (List.cons.inj hentries).1) idMember_ne_refMember.symm
  | none =>
    obtain ⟨f, hfields, hf⟩ := List.map_eq_singleton_iff.mp hentries.symm
    obtain ⟨hname, hvalue⟩ := Prod.mk.inj hf
    obtain ⟨k, hk, hint⟩ := toDocument_eq_natural hvalue
    exact h.2 ⟨rfl, k, hk, by rw [hfields, ← hname, ← hint]⟩

/-- A record that fits comes back as a record of the same identity, with each field carried there
and back on its own, in some order. -/
theorem exists_ofDocument_record (hnodup : (fields.map Prod.fst).Nodup)
    (hself : (record own fields).FitsAlone) :
    ∃ read, ofDocument (toDocument (record own fields)) = record own read ∧
      read.Perm (fields.map fun f => (f.1, ofDocument (toDocument f.2))) := by
  obtain ⟨members, hobject⟩ := Document.exists_ofMembers (objectEntries own fields)
  have hperm := Document.perm_of_ofMembers (nodup_objectEntries hnodup hself.1 own) hobject
  have hid := ownId_of_perm (Document.sortedByName_of_ofMembers hobject) hself.1 hperm
  refine ⟨Fields.mapValues ofDocument (Fields.erase members idMember), ?_, ?_⟩
  · rw [toDocument_record, hobject, ofDocument_object (not_isRefObject hself hperm), hid]
  · have hmembers : (Fields.erase members idMember).Perm (Fields.mapValues toDocument fields) := by
      rw [← erase_objectEntries hself.1 own]
      exact hperm.filter _
    have hread := hmembers.map fun m => (m.1, ofDocument m.2)
    rwa [Fields.mapValues, List.map_map] at hread

/-- A list is carried there and back when its items are. -/
theorem rearranges_list {items : List Value}
    (h : ∀ w ∈ items, Rearranges (ofDocument (toDocument w)) w) :
    Rearranges (ofDocument (toDocument (list items))) (list items) := by
  have hpairs : ∀ p ∈ items.map fun w => (ofDocument (toDocument w), w), Rearranges p.1 p.2 :=
    List.forall_mem_map.mpr h
  have hlist := Rearranges.list hpairs
  simp only [List.map_map, Function.comp_def, List.map_id'] at hlist
  rw [toDocument, ofDocument, toDocuments_eq_map, ofDocuments_eq_map, List.map_map]
  exact hlist

/-- A record that fits is carried there and back when the values of its fields are. -/
theorem rearranges_record (hnodup : (fields.map Prod.fst).Nodup)
    (hself : (record own fields).FitsAlone)
    (h : ∀ f ∈ fields, Rearranges (ofDocument (toDocument f.2)) f.2) :
    Rearranges (ofDocument (toDocument (record own fields))) (record own fields) := by
  obtain ⟨read, hrecord, hperm⟩ := exists_ofDocument_record hnodup hself
  have hrows : ∀ r ∈ fields.map fun f => (f.1, ofDocument (toDocument f.2), f.2),
      Rearranges r.2.1 r.2.2 :=
    List.forall_mem_map.mpr h
  have hrearranges := @Rearranges.record own read _ hrows (by rwa [List.map_map])
  simp only [List.map_map, Function.comp_def, List.map_id'] at hrearranges
  rw [hrecord]
  exact hrearranges

/-- A value that fits is carried there and back, with the fields of its records in another order. -/
theorem rearranges_ofDocument (hnamed : v.WellNamed) (h : v.FitsDocument) :
    Rearranges (ofDocument (toDocument v)) v := by
  induction v using induct with
  | node v ih =>
    replace ih := fun w hw => ih w hw (hnamed.children w hw) (h.children w hw)
    cases v with
    | null | bool | text | ref => exact .atom trivial
    | int n =>
      rw [toDocument, ofDocument_ofInt64]
      exact .atom trivial
    | float x =>
      have hfinite : x.isFinite = true := h.self
      rw [toDocument, Document.ofFloat, if_pos hfinite]
      exact .atom trivial
    | timestamp => exact h.self.elim
    | list items => exact rearranges_list ih
    | record own fields =>
      exact rearranges_record hnamed.nodup h.self (List.forall_mem_map.mp ih)

/-! ## What is not carried -/

/-- Fields that are included in as many others have the same names. -/
theorem names_perm_of_includedIn {fs gs : Fields Value} (hnodup : (fs.map Prod.fst).Nodup)
    (hlength : fs.length = gs.length) (h : includedIn fs gs = true) :
    (fs.map Prod.fst).Perm (gs.map Prod.fst) := by
  have hsub : fs.map Prod.fst ⊆ gs.map Prod.fst := by
    refine List.forall_mem_map.mpr fun f hf => ?_
    obtain ⟨w, hw, -⟩ := includedIn_iff.mp h f hf
    exact List.mem_map.mpr ⟨(f.1, w), Fields.mem_of_get?_eq_some hw, rfl⟩
  refine (List.Nodup.subperm hnodup hsub).perm_of_length_le ?_
  rw [List.length_map, List.length_map]
  exact Nat.le_of_eq hlength.symm

/-- A record that comes back equal is not read as a reference, and has no field that is read as an
identity. -/
theorem fitsAlone_of_equals_record
    (h : (ofDocument (toDocument (record own fields))).equals (record own fields) = true) :
    (record own fields).FitsAlone := by
  obtain ⟨members, hobject⟩ := Document.exists_ofMembers (objectEntries own fields)
  rw [toDocument_record, hobject] at h
  have hrecord : ¬ IsRefObject members := by
    rintro ⟨n, rfl⟩
    cases h
  rw [ofDocument_object hrecord, Value.equals, Bool.and_eq_true, Bool.and_eq_true, beq_iff_eq,
    beq_iff_eq] at h
  refine ⟨fun hid => ?_, ?_⟩
  · -- The members without an identity are as many as the fields, so none of the fields is one.
    have hnames := Fields.mapValues_names ofDocument (Fields.erase members idMember)
    have hnodup : ((Fields.erase members idMember).map Prod.fst).Nodup :=
      Fields.nodup_names_erase (Document.sortedByName_of_ofMembers hobject).nodup idMember
    rw [← (names_perm_of_includedIn (hnames ▸ hnodup) h.1.2 h.2).mem_iff, hnames] at hid
    exact Fields.notMem_names_erase members idMember hid
  · rintro ⟨rfl, n, hn, rfl⟩
    have hnatural : toDocument (.int n) = .natural (.ofNat n.toInt.toNat) := by
      rw [toDocument, Document.ofInt64, if_neg (by omega)]
    refine hrecord ⟨.ofNat n.toInt.toNat, ?_⟩
    cases hobject
    rw [← hnatural]
    rfl

/-- What comes back equal as a record does so field by field. -/
theorem equals_fields_of_equals_record (hnodup : (fields.map Prod.fst).Nodup)
    (h : (ofDocument (toDocument (record own fields))).equals (record own fields) = true) :
    ∀ f ∈ fields, (ofDocument (toDocument f.2)).equals f.2 = true := by
  intro f hf
  obtain ⟨read, hrecord, hperm⟩ :=
    exists_ofDocument_record hnodup (fitsAlone_of_equals_record h)
  rw [hrecord, Value.equals, Bool.and_eq_true, includedIn_iff] at h
  have hread := hperm.mem_iff.mpr (List.mem_map_of_mem hf)
  obtain ⟨w, hw, hequals⟩ := h.2 _ hread
  have hfound := (Fields.get?_eq_some_iff hnodup).mpr hf
  cases hfound.symm.trans hw
  exact hequals

/-- A value that comes back equal fits, with all its parts. -/
theorem fitsDocument_of_equals (hnamed : v.WellNamed)
    (h : (ofDocument (toDocument v)).equals v = true) : v.FitsDocument := by
  induction v using induct with
  | node v ih =>
    replace ih := fun w hw => ih w hw (hnamed.children w hw)
    cases v with
    | null | bool | int | text | ref => exact .atom trivial trivial
    | float x =>
      refine .atom trivial ?_
      rw [toDocument, Document.ofFloat] at h
      split at h
      · assumption
      · cases h
    | timestamp => cases h
    | list items =>
      rw [toDocument, ofDocument, toDocuments_eq_map, ofDocuments_eq_map, List.map_map,
        Value.equals, equalItems_iff, List.forall₂_map_left_iff, List.forall₂_same] at h
      exact .node trivial fun w hw => ih w hw (h w hw)
    | record own fields =>
      refine .node (fitsAlone_of_equals_record h) fun w hw => ih w hw ?_
      obtain ⟨f, hf, rfl⟩ := List.mem_map.mp hw
      exact equals_fields_of_equals_record hnamed.nodup h f hf

/-- A value comes back from a plain document equal exactly when it fits: when it holds no timestamp,
no infinity, no `NaN`, no record with a field for the identity and none that looks like a reference,
at any depth. What comes back then is the value itself, but for the order in which its records, at
any depth, have their fields. -/
theorem ofDocument_toDocument_equals (hnamed : v.WellNamed) :
    (v.FitsDocument ↔ (ofDocument (toDocument v)).equals v = true) ∧
      (v.FitsDocument → Rearranges (ofDocument (toDocument v)) v) := by
  have hrearranges := rearranges_ofDocument hnamed
  exact ⟨⟨fun h => (hrearranges h).equals hnamed h, fitsDocument_of_equals hnamed⟩, hrearranges⟩

/-- Records that look nearly like references: one has an identity, one a negative number. -/
def lookalikes : List Value :=
  [.record (some ⟨4⟩) [("$ref", .int 2)], .record none [("$ref", .int (-2))]]

/-- A record with the greatest identity, its fields in no order. -/
def dossier : Value :=
  .record (some ⟨18446744073709551615⟩)
    [("Team", .ref ⟨2⟩), ("Score", .float (.zero true)), ("Notes", .list lookalikes)]

/-- The dossier names no field twice. -/
theorem dossier_wellNamed : dossier.WellNamed := by
  have hlookalike (own : Option ObjectId) (n : Int64) :
      WellNamed (.record own [("$ref", .int n)]) := by
    refine .node ?_ (List.forall_mem_singleton.mpr (.atom trivial))
    rintro _ _ ⟨⟩
    exact List.nodup_singleton _
  refine .node ?_ (List.forall_mem_cons.mpr ⟨.atom trivial, List.forall_mem_cons.mpr
    ⟨.atom trivial, List.forall_mem_singleton.mpr (.node nofun ?_)⟩⟩)
  · rintro _ _ ⟨⟩
    decide
  · exact List.forall_mem_cons.mpr ⟨hlookalike _ _, List.forall_mem_singleton.mpr (hlookalike _ _)⟩

/-- The dossier fits, and comes back equal, with its fields sorted. -/
theorem dossier_comes_back :
    dossier.FitsDocument ∧ (ofDocument (toDocument dossier)).equals dossier = true ∧
      ofDocument (toDocument dossier) = .record (some ⟨18446744073709551615⟩)
        [("Notes", .list lookalikes), ("Score", .float (.zero true)), ("Team", .ref ⟨2⟩)] := by
  have hfits : dossier.FitsDocument := by
    refine .node ⟨by decide, nofun⟩ (List.forall_mem_cons.mpr ⟨.atom trivial trivial,
      List.forall_mem_cons.mpr ⟨.atom trivial rfl, List.forall_mem_singleton.mpr ?_⟩⟩)
    refine .node trivial (List.forall_mem_cons.mpr ⟨?_, List.forall_mem_singleton.mpr ?_⟩)
    · exact .node ⟨by decide, nofun⟩ (List.forall_mem_singleton.mpr (.atom trivial trivial))
    · refine .node ⟨by decide, ?_⟩ (List.forall_mem_singleton.mpr (.atom trivial trivial))
      rintro ⟨-, n, hn, ⟨⟩⟩
      exact absurd hn (by decide)
  exact ⟨hfits, (ofDocument_toDocument_equals dossier_wellNamed).1.mp hfits, rfl⟩

end QueryRelay.Value
