import QueryRelay.Proofs.Mapping.Completeness
import QueryRelay.Proofs.Mapping.Soundness

/-!
# Mapping a list and mapping its elements

A list is mapped as a whole, with references and shared results across its elements, or its elements
are made self-contained and mapped one by one. What a type reads off an element in the list and off
the self-contained element is the same. Main statement: both ways give results for the same lists,
and results that show the same trees.
-/

namespace QueryRelay.Mapping

open Mapped (Shows)
open Value (SameMeaning Consistent identifiedItems detach detachElement)

variable {types : RecordTargets} {t : Target} {items : List Value} {v : Value}

/-- A self-contained element means what the element means in the list. -/
theorem sameMeaning_detachElement (hsame : (Value.list items).SameRecords) (hv : v ∈ items) :
    SameMeaning (Value.list items).identified v
      (detachElement (identifiedItems items) v).identified
      (detachElement (identifiedItems items) v) :=
  fun n => (Value.unfold_detachElement hsame hv n).symm

/-- A self-contained element is consistent. -/
theorem consistent_detachElement (hsame : (Value.list items).SameRecords) (hv : v ∈ items) :
    Consistent (detachElement (identifiedItems items) v).identified :=
  (Value.drawnFrom_detachElement hv).consistent hsame

/-- In a self-contained element no record is reached as two types if none is in the list. -/
theorem singleTyped_detachElement (hsame : (Value.list items).SameRecords) (hv : v ∈ items)
    (h : SingleTyped types (Value.list items).identified (.list t, .list items)) :
    SingleTyped types (detachElement (identifiedItems items) v).identified
      (t, detachElement (identifiedItems items) v) := by
  have hreached {id : ObjectId} {name : String}
      (hid : ReachedAs types (detachElement (identifiedItems items) v).identified
        (t, detachElement (identifiedItems items) v) id name) :
      ReachedAs types (Value.list items).identified (.list t, .list items) id name := by
    obtain ⟨w, source, hreach, hw⟩ :=
      hid.congr fun n => (sameMeaning_detachElement hsame hv n).symm
    exact ⟨w, source, .head (.list rfl hv) hreach, hw⟩
  exact fun id name name' hid hid' => h id name name' (hreached hid) (hreached hid')

/-- A self-contained element is mapped exactly when its type reads a tree off the element in the
list, and the result shows the tree. -/
theorem map_detachElement (hplain : t.IsPlain types) (hsame : (Value.list items).SameRecords)
    (hsingle : SingleTyped types (Value.list items).identified (.list t, .list items))
    (hv : v ∈ items) :
    ((∃ tree, Reads types (Value.list items).identified t v tree) ↔
        ∃ g, t.map types (detachElement (identifiedItems items) v) = .ok g) ∧
      ∀ tree g, Reads types (Value.list items).identified t v tree →
        t.map types (detachElement (identifiedItems items) v) = .ok g →
          Shows g.heap g.root tree := by
  have hmeaning := sameMeaning_detachElement hsame hv
  have hconsistent := consistent_detachElement hsame hv
  have hreads {tree : Mapped} : Reads types (Value.list items).identified t v tree ↔
      Reads types (detachElement (identifiedItems items) v).identified t
        (detachElement (identifiedItems items) v) tree :=
    exists_congr fun n => by rw [read_congr hmeaning]
  refine ⟨⟨?_, ?_⟩, ?_⟩
  · rintro ⟨tree, htree⟩
    exact map_succeeds hconsistent (singleTyped_detachElement hsame hv hsingle) (hreads.mp htree)
  · rintro ⟨g, hg⟩
    obtain ⟨tree, htree, -⟩ := map_shows hplain hconsistent hg
    exact ⟨tree, hreads.mpr htree⟩
  · intro tree g htree hg
    obtain ⟨tree', htree', hshows⟩ := map_shows hplain hconsistent hg
    rw [(hreads.mp htree).unique htree']
    exact hshows

/-- A list is mapped exactly when its type reads a tree off each of its elements. -/
theorem map_list_iff (hplain : t.IsPlain types) (hsame : (Value.list items).SameRecords)
    (hsingle : SingleTyped types (Value.list items).identified (.list t, .list items)) :
    (∃ g, (Target.list t).map types (.list items) = .ok g) ↔
      ∀ v ∈ items, ∃ tree, Reads types (Value.list items).identified t v tree := by
  constructor
  · rintro ⟨g, hg⟩ v hv
    obtain ⟨ms, -, hms⟩ := map_list_shows hplain hsame.consistent hg
    obtain ⟨m, -, tree, htree, -⟩ := exists_mem_of_forall₂ hms hv
    exact ⟨tree, htree⟩
  · intro h
    obtain ⟨trees, htrees⟩ := exists_forall₂_of_forall_mem h
    exact map_succeeds hsame.consistent hsingle (.items rfl htrees)

/-- For a plain type, a list in which records with one identity are equal, and under the list type
no record is reached as two different record types: the list is mapped exactly when each of its
self-contained elements is, and then the items of the one result show the trees that the others
show. -/
theorem map_list_detach (hplain : t.IsPlain types) (hsame : (Value.list items).SameRecords)
    (hsingle : SingleTyped types (Value.list items).identified (.list t, .list items)) :
    ((∃ g, (Target.list t).map types (.list items) = .ok g) ↔
        ∀ y ∈ detach items, ∃ g, t.map types y = .ok g) ∧
      ∀ g, (Target.list t).map types (.list items) = .ok g → ∃ ms, g.root = .list ms ∧
        List.Forall₂ (fun m y => ∃ g' tree, t.map types y = .ok g' ∧ Shows g.heap m tree ∧
          Shows g'.heap g'.root tree) ms (detach items) := by
  have helement {v : Value} (hv : v ∈ items) := map_detachElement hplain hsame hsingle hv
  constructor
  · rw [map_list_iff hplain hsame hsingle, detach, List.forall_mem_map]
    exact forall₂_congr fun v hv => (helement hv).1
  · intro g hg
    obtain ⟨ms, hroot, hms⟩ := map_list_shows hplain hsame.consistent hg
    refine ⟨ms, hroot, ?_⟩
    rw [detach, List.forall₂_map_right_iff]
    have hboth := (List.forall₂_and_left ..).mpr ⟨fun v hv => hv, hms⟩
    refine hboth.flip.imp fun m v hmv => ?_
    obtain ⟨hv, tree, htree, hshows⟩ := hmv
    obtain ⟨g', hg'⟩ := (helement hv).1.mp ⟨tree, htree⟩
    exact ⟨g', tree, hg', hshows, (helement hv).2 tree g' htree hg'⟩

/-- A record type with one text. -/
def makerTypes : RecordTargets := [("Maker", .fields [("Name", .text)])]

/-- A record, and a reference to it. -/
def makers : List Value := [.record (some ⟨1⟩) [("Name", .text "Ann")], .ref ⟨1⟩]

/-- The parts of a list of shared records are shared records, records and texts. -/
theorem makerTypes_parts {u : Target}
    (h : Relation.ReflTransGen (Target.Part makerTypes) (.list (.shared (.record "Maker"))) u) :
    u = .list (.shared (.record "Maker")) ∨ u = .shared (.record "Maker") ∨ u = .record "Maker" ∨
      u = .text := by
  induction h with
  | refl => exact .inl rfl
  | tail _ hpart ih =>
    rcases ih with rfl | rfl | rfl | rfl
    · cases hpart
      exact .inr (.inl rfl)
    · cases hpart
      exact .inr (.inr (.inl rfl))
    · cases hpart with
      | field htype hf =>
        cases htype
        rw [List.mem_singleton.mp hf]
        exact .inr (.inr (.inr rfl))
    · cases hpart

/-- The record and the reference are mapped as a list into one shared record, and made
self-contained they are mapped one by one. -/
theorem makers_map_list_detach :
    (∃ g, (Target.list (.shared (.record "Maker"))).map makerTypes (.list makers) = .ok g) ∧
      ∀ y ∈ detach makers, ∃ g, (Target.shared (.record "Maker")).map makerTypes y = .ok g := by
  have hplain : (Target.shared (.record "Maker")).IsPlain makerTypes := by
    intro u hu
    rcases makerTypes_parts (.head (.list _) hu) with rfl | rfl | rfl | rfl <;> exact id
  have hsame : (Value.list makers).SameRecords := by
    intro r hr s hs _
    rw [List.mem_singleton.mp hr, List.mem_singleton.mp hs]
  have hname {id : ObjectId} {name : String}
      (h : ReachedAs makerTypes (Value.list makers).identified
        (.list (.shared (.record "Maker")), .list makers) id name) : name = "Maker" := by
    obtain ⟨v, source, hreach, -⟩ := h
    have hpart := hreach.lift Prod.fst fun _ _ hlead => Leads.part hlead
    rcases makerTypes_parts hpart with h | h | h | h <;> cases h
    rfl
  have hsingle : SingleTyped makerTypes (Value.list makers).identified
      (.list (.shared (.record "Maker")), .list makers) :=
    fun _ _ _ h h' => (hname h).trans (hname h').symm
  have hmap : ∃ g, (Target.list (.shared (.record "Maker"))).map makerTypes (.list makers) =
      .ok g := ⟨_, rfl⟩
  exact ⟨hmap, (map_list_detach hplain hsame hsingle).1.mp hmap⟩

end QueryRelay.Mapping
