import Mathlib.Data.List.Nodup
import QueryRelay.Json.Document

/-!
# Members of objects

An object keeps its members sorted by name, each name once. Entries with distinct names are its
members in another order, and there is one object that they make, whatever their order: a document
is stored when all its objects are such.
-/

namespace QueryRelay.Document

/-- Members sorted by name, with each name once. -/
def SortedByName (members : List (String × Document)) : Prop :=
  members.Pairwise fun m n => m.1 < n.1

instance (members : List (String × Document)) : Decidable (SortedByName members) :=
  inferInstanceAs (Decidable (members.Pairwise fun m n => m.1 < n.1))

variable {members entries : List (String × Document)} {name : String} {d e : Document}

/-- Members sorted by name have distinct names. -/
theorem SortedByName.nodup (h : SortedByName members) : (members.map Prod.fst).Nodup := by
  rw [List.Nodup, List.pairwise_map]
  refine List.Pairwise.imp (fun hlt heq => ?_) h
  rw [heq] at hlt
  exact String.lt_irrefl _ hlt

/-! ## Insertion -/

/-- What stands among members after an insertion was inserted or stood there before. -/
theorem eq_or_mem_of_mem_insertMember {m : String × Document}
    (h : m ∈ insertMember members name d) : m = (name, d) ∨ m ∈ members := by
  induction members with
  | nil => exact .inl (List.mem_singleton.mp h)
  | cons other rest ih =>
    rw [insertMember] at h
    split at h
    · exact (List.mem_cons.mp h).imp_right (List.mem_cons_of_mem _)
    split at h
    · exact List.mem_cons.mp h
    · rcases List.mem_cons.mp h with rfl | h
      · exact .inr (List.mem_cons_self ..)
      · exact (ih h).imp_right (List.mem_cons_of_mem _)

/-- A member of a new name is put among the others. -/
theorem insertMember_perm (h : name ∉ members.map Prod.fst) (d : Document) :
    (insertMember members name d).Perm ((name, d) :: members) := by
  induction members with
  | nil => exact .refl _
  | cons other rest ih =>
    rw [List.map_cons, List.mem_cons, not_or] at h
    rw [insertMember, if_neg h.1]
    split
    · exact .refl _
    · exact ((ih h.2).cons other).trans (.swap _ _ _)

/-- Insertion keeps members sorted by name. -/
theorem SortedByName.insertMember (h : SortedByName members) (name : String) (d : Document) :
    SortedByName (insertMember members name d) := by
  induction members with
  | nil => exact List.pairwise_singleton _ _
  | cons other rest ih =>
    obtain ⟨hother, hrest⟩ := List.pairwise_cons.mp h
    rw [Document.insertMember]
    split
    · next heq => exact List.pairwise_cons.mpr ⟨fun m hm => heq ▸ hother m hm, hrest⟩
    split
    · next hlt =>
      refine List.pairwise_cons.mpr ⟨List.forall_mem_cons.mpr ⟨hlt, fun m hm => ?_⟩, h⟩
      exact String.lt_trans hlt (hother m hm)
    · next hne hnot =>
      refine List.pairwise_cons.mpr ⟨fun m hm => ?_, ih hrest⟩
      rcases eq_or_mem_of_mem_insertMember hm with rfl | hm
      · rcases Std.lt_trichotomy other.1 name with hlt | heq | hlt
        · exact hlt
        · exact absurd heq.symm hne
        · exact absurd hlt hnot
      · exact hother m hm

/-! ## Objects from entries -/

/-- Insertions one after the other keep members sorted by name. -/
theorem SortedByName.foldl_insertMember (h : SortedByName members)
    (entries : List (String × Document)) :
    SortedByName
      (entries.foldl (fun sorted m => Document.insertMember sorted m.1 m.2) members) := by
  induction entries generalizing members with
  | nil => exact h
  | cons m rest ih => exact ih (h.insertMember m.1 m.2)

/-- Entries of new and distinct names are put among the members one after the other. -/
theorem foldl_insertMember_perm (h : ((entries ++ members).map Prod.fst).Nodup) :
    (entries.foldl (fun sorted m => insertMember sorted m.1 m.2) members).Perm
      (entries ++ members) := by
  induction entries generalizing members with
  | nil => exact .refl _
  | cons m rest ih =>
    rw [List.cons_append, List.map_cons, List.nodup_cons, List.map_append, List.mem_append,
      not_or] at h
    have hinsert : (insertMember members m.1 m.2).Perm (m :: members) :=
      insertMember_perm h.1.2 m.2
    have hmiddle : (rest ++ insertMember members m.1 m.2).Perm (m :: rest ++ members) :=
      (hinsert.append_left rest).trans List.perm_middle
    have hnodup : ((rest ++ insertMember members m.1 m.2).map Prod.fst).Nodup := by
      rw [(hmiddle.map Prod.fst).nodup_iff, List.cons_append, List.map_cons, List.nodup_cons,
        List.map_append, List.mem_append, not_or]
      exact h
    exact (ih hnodup).trans hmiddle

/-- Whatever the entries, the members of the object that they make are sorted by name. -/
theorem sortedByName_of_ofMembers (h : ofMembers entries = .object members) :
    SortedByName members := by
  cases h
  exact SortedByName.foldl_insertMember List.Pairwise.nil entries

/-- Entries with distinct names are the members of the object that they make, in another order. -/
theorem perm_of_ofMembers (hnodup : (entries.map Prod.fst).Nodup)
    (h : ofMembers entries = .object members) : members.Perm entries := by
  cases h
  have hentries : ((entries ++ []).map Prod.fst).Nodup := by rwa [List.append_nil]
  exact (foldl_insertMember_perm hentries).trans (.of_eq (List.append_nil entries))

/-- Entries make an object. -/
theorem exists_ofMembers (entries : List (String × Document)) :
    ∃ members, ofMembers entries = .object members :=
  ⟨_, rfl⟩

/-- Members sorted by name are the object that they make, in whatever order they come. -/
theorem ofMembers_eq (h : entries.Perm members) (hsorted : SortedByName members) :
    ofMembers entries = .object members := by
  have hnodup : (entries.map Prod.fst).Nodup := (h.map Prod.fst).nodup_iff.mpr hsorted.nodup
  obtain ⟨other, hentries⟩ := exists_ofMembers entries
  have heq : other = members := by
    refine ((perm_of_ofMembers hnodup hentries).trans h).eq_of_pairwise ?_
      (sortedByName_of_ofMembers hentries) hsorted
    intro m n _ _ hlt hgt
    exact absurd hgt (String.lt_asymm hlt)
  rw [hentries, heq]

/-! ## Parts of documents -/

/-- The direct parts: the items of an array, the values of the members of an object. -/
def children : Document → List Document
  | .array items => items
  | .object members => members.map Prod.snd
  | _ => []

/-- Induction over documents: a property holds of every document when it passes from the direct
parts of each document to the document. -/
theorem induct {motive : Document → Prop}
    (node : ∀ d, (∀ e ∈ d.children, motive e) → motive d) (d : Document) : motive d := by
  refine @Document.rec motive (fun items => ∀ e ∈ items, motive e)
    (fun members => ∀ m ∈ members, motive m.2) (fun m => motive m.2) ?_ ?_ ?_ ?_ ?_ ?_
    (fun items h => node _ h) (fun members h => node _ (List.forall_mem_map.mpr h))
    (List.forall_mem_nil _) (fun _ _ hhead htail => List.forall_mem_cons.mpr ⟨hhead, htail⟩)
    (List.forall_mem_nil _) (fun _ _ hhead htail => List.forall_mem_cons.mpr ⟨hhead, htail⟩)
    (fun _ _ h => h) d
  all_goals
    intros
    exact node _ (List.forall_mem_nil _)

/-- A document with a property, and all its parts with it, at any depth. -/
inductive Throughout (P : Document → Prop) : Document → Prop
  /-- The document itself has the property, and its direct parts with their parts. -/
  | node {d : Document} (hself : P d) (hchildren : ∀ e ∈ d.children, Throughout P e) :
      Throughout P d

variable {P : Document → Prop}

/-- The property holds throughout a document when it holds of the document and throughout its direct
parts. -/
theorem throughout_iff : d.Throughout P ↔ P d ∧ ∀ e ∈ d.children, e.Throughout P := by
  refine ⟨fun h => ?_, fun h => .node h.1 h.2⟩
  cases h with
  | node hself hchildren => exact ⟨hself, hchildren⟩

/-- A property of a document without parts holds throughout it. -/
theorem Throughout.leaf (hd : d.children = []) (h : P d) : d.Throughout P := by
  refine .node h ?_
  rw [hd]
  exact List.forall_mem_nil _

end QueryRelay.Document
