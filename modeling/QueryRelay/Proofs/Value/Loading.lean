import QueryRelay.Proofs.Value.Plain

/-!
# Plain documents through values

A document that is made a value keeps all that is understood. Of a member for an identity only a
natural is, and what else stands there has no place in a record. Main statement: a document, its
integers small enough for values, comes back the same exactly when each member for an identity in it
holds a natural, at any depth.
-/

namespace QueryRelay.Value

open Document (SortedByName Throughout)

variable {d : Document} {members : List (String × Document)} {m : String × Document}

/-! ## Documents that values carry -/

/-- What a document may be, its parts aside: integers of 64 bits, floating-point numbers that are
finite, and objects with sorted members. -/
def FitsValue : Document → Prop
  | .natural n => n.toNat ≤ 9223372036854775807
  | .negative n => n.toInt < 0
  | .float x => x.isFinite = true
  | .object members => SortedByName members
  | _ => True

/-- A document whose member for an identity, if it has one, holds a natural. -/
def NumbersId : Document → Prop
  | .object members => ∀ d, (idMember, d) ∈ members → ∃ n, d = .natural n
  | _ => True

/-- A natural that is small enough comes back. -/
theorem ofInt64_ofNat {n : UInt64} (h : n.toNat ≤ 9223372036854775807) :
    Document.ofInt64 (.ofNat n.toNat) = .natural n := by
  have hint : (Int64.ofNat n.toNat).toInt = n.toNat := Int64.toInt_ofNat_of_lt (by omega)
  rw [Document.ofInt64, hint, if_neg (by omega), Int.toNat_natCast, UInt64.ofNat_toNat]

/-! ## The members that come back -/

/-- The members that the record makes which an object is read as. -/
def returned (members : List (String × Document)) : List (String × Document) :=
  objectEntries (ownId members) (Fields.mapValues ofDocument (Fields.erase members idMember))

/-- An object that is no reference comes back as the object of the members that come back. -/
theorem toDocument_ofDocument_object (h : ¬ IsRefObject members) :
    toDocument (ofDocument (.object members)) = Document.ofMembers (returned members) := by
  rw [ofDocument_object h, toDocument_record, returned]

/-- What comes back of members: a natural for the identity, and each other member on its own. -/
theorem mem_returned_iff (hsorted : SortedByName members) :
    m ∈ returned members ↔
      (∃ n, (idMember, .natural n) ∈ members ∧ m = (idMember, .natural n)) ∨
        ∃ k ∈ members, k.1 ≠ idMember ∧ m = (k.1, toDocument (ofDocument k.2)) := by
  rw [returned, mem_objectEntries]
  refine or_congr ?_ ?_
  · simp only [ownId_eq_some_iff hsorted]
    exact ⟨fun ⟨id, h⟩ => ⟨id.number, h⟩, fun ⟨n, h⟩ => ⟨⟨n⟩, h⟩⟩
  · simp only [Fields.mapValues, List.map_map, List.mem_map, Fields.mem_erase, and_assoc,
      Function.comp_apply, eq_comm]

/-- The members that come back have distinct names. -/
theorem nodup_returned (hsorted : SortedByName members) :
    ((returned members).map Prod.fst).Nodup := by
  have hnames := Fields.mapValues_names ofDocument (Fields.erase members idMember)
  refine nodup_objectEntries ?_ ?_ (ownId members)
  · rw [hnames]
    exact Fields.nodup_names_erase hsorted.nodup idMember
  · rw [hnames]
    exact Fields.notMem_names_erase members idMember

/-- The members of an object come back exactly when the one for the identity holds a natural and
each other comes back on its own. -/
theorem returned_perm_iff (hsorted : SortedByName members) :
    (returned members).Perm members ↔
      NumbersId (.object members) ∧
        ∀ m ∈ members, m.1 ≠ idMember → toDocument (ofDocument m.2) = m.2 := by
  have hnodup : members.Nodup := .of_map _ hsorted.nodup
  have hreturned : (returned members).Nodup := .of_map _ (nodup_returned hsorted)
  rw [List.perm_ext_iff_of_nodup hreturned hnodup]
  simp only [mem_returned_iff hsorted]
  refine ⟨fun h => ⟨fun d hd => ?_, fun m hm hne => ?_⟩, fun ⟨hnumbers, hothers⟩ m => ⟨?_, ?_⟩⟩
  · rcases (h _).mpr hd with ⟨n, -, heq⟩ | ⟨k, -, hne, heq⟩
    · exact ⟨n, congrArg Prod.snd heq⟩
    · exact absurd (congrArg Prod.fst heq).symm hne
  · have hmem := (h (m.1, toDocument (ofDocument m.2))).mp (.inr ⟨m, hm, hne, rfl⟩)
    exact congrArg Prod.snd (List.inj_on_of_nodup_map hsorted.nodup hmem hm rfl)
  · rintro (⟨n, hn, rfl⟩ | ⟨k, hk, hne, rfl⟩)
    · exact hn
    · rwa [hothers k hk hne]
  · intro hm
    by_cases hid : m.1 = idMember
    · obtain ⟨n, hn⟩ := hnumbers m.2 (hid ▸ hm)
      have heq : m = (idMember, .natural n) := Prod.ext hid hn
      exact .inl ⟨n, heq ▸ hm, heq⟩
    · exact .inr ⟨m, hm, hid, by rw [hothers m hm hid]⟩

/-! ## There and back -/

/-- An object that is no reference comes back the same exactly when its member for the identity
holds a natural and each other member comes back the same. -/
theorem toDocument_ofDocument_object_iff (hrecord : ¬ IsRefObject members)
    (hsorted : SortedByName members) :
    toDocument (ofDocument (.object members)) = .object members ↔
      NumbersId (.object members) ∧
        ∀ m ∈ members, m.1 ≠ idMember → toDocument (ofDocument m.2) = m.2 := by
  rw [toDocument_ofDocument_object hrecord, ← returned_perm_iff hsorted]
  refine ⟨fun h => ?_, fun h => Document.ofMembers_eq h hsorted⟩
  exact (Document.perm_of_ofMembers (nodup_returned hsorted) h).symm

/-- An array comes back the same exactly when its items do. -/
theorem toDocument_ofDocument_array_iff {items : List Document} :
    toDocument (ofDocument (.array items)) = .array items ↔
      ∀ d ∈ items, toDocument (ofDocument d) = d := by
  rw [ofDocument, toDocument, ofDocuments_eq_map, toDocuments_eq_map, List.map_map,
    Document.array.injEq]
  conv => lhs; rhs; rw [← List.map_id items]
  exact List.map_inj_left

/-- What looks like a reference has no member for an identity. -/
theorem IsRefObject.numbersId (h : IsRefObject members) :
    Throughout NumbersId (.object members) := by
  obtain ⟨n, rfl⟩ := h
  refine .node (fun d hd => ?_) (List.forall_mem_singleton.mpr (.leaf rfl trivial))
  exact absurd (congrArg Prod.fst (List.mem_singleton.mp hd)) idMember_ne_refMember

/-- An object has naturals for identities when its own identity is one and its other members have
such: a natural has no parts. -/
theorem numbersId_object_iff :
    Throughout NumbersId (.object members) ↔
      NumbersId (.object members) ∧
        ∀ m ∈ members, m.1 ≠ idMember → m.2.Throughout NumbersId := by
  rw [Document.throughout_iff, Document.children, List.forall_mem_map]
  refine and_congr_right fun hnumbers => forall₂_congr fun m hm => ?_
  by_cases hid : m.1 = idMember
  · obtain ⟨n, hn⟩ := hnumbers m.2 (hid ▸ hm)
    rw [hn]
    exact iff_of_true (.leaf rfl trivial) fun hne => absurd hid hne
  · rw [imp_iff_right hid]

/-- A document that fits comes back the same exactly when each member for an identity in it, at any
depth, holds a natural: loading loses a member for an identity that holds anything else. -/
theorem toDocument_ofDocument_eq_self_iff (h : d.Throughout FitsValue) :
    toDocument (ofDocument d) = d ↔ d.Throughout NumbersId := by
  induction d using Document.induct with
  | node d ih =>
    obtain ⟨hself, hchildren⟩ := Document.throughout_iff.mp h
    replace ih := fun e he => ih e he (hchildren e he)
    cases d with
    | null | bool | text => exact iff_of_true rfl (.leaf rfl trivial)
    | natural n =>
      have hsmall : n.toNat ≤ 9223372036854775807 := hself
      refine iff_of_true ?_ (.leaf rfl trivial)
      rw [ofDocument, if_pos hsmall, toDocument, ofInt64_ofNat hsmall]
    | negative n =>
      have hnegative : n.toInt < 0 := hself
      refine iff_of_true ?_ (.leaf rfl trivial)
      rw [ofDocument, toDocument, Document.ofInt64, if_pos hnegative]
    | float x =>
      have hfinite : x.isFinite = true := hself
      refine iff_of_true ?_ (.leaf rfl trivial)
      rw [ofDocument, toDocument, Document.ofFloat, if_pos hfinite]
    | array items =>
      have hnumbers : NumbersId (.array items) := trivial
      rw [toDocument_ofDocument_array_iff, Document.throughout_iff, and_iff_right hnumbers]
      exact forall₂_congr ih
    | object members =>
      by_cases href : IsRefObject members
      · refine iff_of_true ?_ href.numbersId
        obtain ⟨n, rfl⟩ := href
        rfl
      · rw [toDocument_ofDocument_object_iff href hself, numbersId_object_iff]
        refine and_congr_right fun _ => forall₂_congr fun m hm => imp_congr_right fun _ => ?_
        exact ih m.2 (List.mem_map_of_mem hm)

/-- A record with an identity and a reference to itself, and one that looks nearly like a
reference. -/
def cabinet : Document :=
  .object [("$id", .natural 1), ("$ref", .object [("$ref", .negative (-1))]),
    ("Self", .object [("$ref", .natural 1)])]

/-- The cabinet fits, its only identity is a natural, and it comes back the same. -/
theorem cabinet_comes_back :
    cabinet.Throughout FitsValue ∧ cabinet.Throughout NumbersId ∧
      toDocument (ofDocument cabinet) = cabinet := by
  have hself : Throughout FitsValue (.natural 1) := by
    refine .leaf rfl ?_
    rw [FitsValue]
    decide
  have hlikeness : Throughout FitsValue (.object [("$ref", .negative (-1))]) := by
    refine .node (List.pairwise_singleton _ _) (List.forall_mem_singleton.mpr (.leaf rfl ?_))
    rw [FitsValue]
    decide
  have hreference : Throughout FitsValue (.object [("$ref", .natural 1)]) :=
    .node (List.pairwise_singleton _ _) (List.forall_mem_singleton.mpr hself)
  have hfits : cabinet.Throughout FitsValue := by
    refine .node ?_ (List.forall_mem_cons.mpr ⟨hself, List.forall_mem_cons.mpr
      ⟨hlikeness, List.forall_mem_singleton.mpr hreference⟩⟩)
    rw [cabinet, FitsValue]
    decide
  have hsame : toDocument (ofDocument cabinet) = cabinet := rfl
  exact ⟨hfits, (toDocument_ofDocument_eq_self_iff hfits).mp hsame, hsame⟩

/-- A record with a text for its identity. -/
def misnumbered : Document := .object [("$id", .text "x")]

/-- The text is lost: what comes back is an empty record. -/
theorem misnumbered_lost :
    misnumbered.Throughout FitsValue ∧ toDocument (ofDocument misnumbered) = .object [] ∧
      toDocument (ofDocument misnumbered) ≠ misnumbered := by
  refine ⟨?_, rfl, ?_⟩
  · have htext : Throughout FitsValue (.text "x") := .leaf rfl trivial
    exact .node (List.pairwise_singleton _ _) (List.forall_mem_singleton.mpr htext)
  · have hempty : toDocument (ofDocument misnumbered) = .object [] := rfl
    rw [hempty]
    exact nofun

end QueryRelay.Value
