import Mathlib.Data.List.Forall2
import Mathlib.Data.List.Nodup
import QueryRelay.Fields

/-!
# Entries of named fields

Which entries look-up finds and insertion leaves. A list of fields that is made of entries holds
nothing else, and of entries with distinct names it holds each, in order.
-/

namespace QueryRelay.Fields

variable {α : Type} {fields : Fields α} {name : String} {value : α}

/-! ## Look-up -/

/-- An entry that is found stands in the list. -/
theorem mem_of_get?_eq_some (h : fields.get? name = some value) : (name, value) ∈ fields := by
  induction fields with
  | nil => cases h
  | cons entry rest ih =>
    obtain ⟨n, v⟩ := entry
    rw [get?] at h
    by_cases hn : n = name
    · rw [if_pos hn] at h
      cases h
      rw [hn]
      exact List.mem_cons_self ..
    · rw [if_neg hn] at h
      exact List.mem_cons_of_mem _ (ih h)

/-- An entry of exactly the wanted name is found before all others. -/
theorem lookup?_of_get? (h : fields.get? name = some value) : fields.lookup? name = some value := by
  rw [lookup?, h, Option.some_or]

/-- Where there is an entry of exactly the wanted name, look-up finds no other. -/
theorem lookup?_eq_get? (h : (fields.get? name).isSome) :
    fields.lookup? name = fields.get? name := by
  obtain ⟨value, hvalue⟩ := Option.isSome_iff_exists.mp h
  rw [lookup?_of_get? hvalue, hvalue]

/-- Names agree with themselves. -/
theorem sameName_self (name : String) : sameName name name = true := by
  rw [sameName, beq_iff_eq]

/-- An entry that is found loosely has the wanted name up to case. -/
theorem exists_sameName_of_findLoosely (h : fields.findLoosely name = some value) :
    ∃ n, (n, value) ∈ fields ∧ sameName n name = true := by
  induction fields with
  | nil => cases h
  | cons entry rest ih =>
    obtain ⟨n, v⟩ := entry
    rw [findLoosely] at h
    split at h
    · rename_i hn
      cases h
      exact ⟨n, List.mem_cons_self .., hn⟩
    · obtain ⟨n', hmem, hn'⟩ := ih h
      exact ⟨n', List.mem_cons_of_mem _ hmem, hn'⟩

/-- An entry that is looked up has the wanted name up to case. -/
theorem exists_sameName_of_lookup? (h : fields.lookup? name = some value) :
    ∃ n, (n, value) ∈ fields ∧ sameName n name = true := by
  rw [lookup?, Option.or_eq_some_iff] at h
  rcases h with hget | ⟨-, hloose⟩
  · exact ⟨name, mem_of_get?_eq_some hget, sameName_self name⟩
  · exact exists_sameName_of_findLoosely hloose

/-! ## Names and values apart -/

/-- Entries of the same names and the same values are the same. -/
theorem eq_of_names {fields' : Fields α} (hnames : fields.map Prod.fst = fields'.map Prod.fst)
    (hvalues : fields.map Prod.snd = fields'.map Prod.snd) : fields = fields' :=
  (List.zip_of_prod hnames hvalues).trans (List.zip_of_prod rfl rfl).symm

/-- Changing the values of fields keeps their names. -/
theorem mapValues_names {β : Type} (f : α → β) (fields : Fields α) :
    (fields.mapValues f).map Prod.fst = fields.map Prod.fst := by
  rw [mapValues, List.map_map]
  rfl

/-! ## Erasure -/

/-- The entries of other names are left. -/
theorem mem_erase {x : String × α} : x ∈ fields.erase name ↔ x ∈ fields ∧ x.1 ≠ name := by
  rw [erase, List.mem_filter, bne_iff_ne]

/-- No entry of the erased name is left. -/
theorem notMem_names_erase (fields : Fields α) (name : String) :
    name ∉ (fields.erase name).map Prod.fst := by
  intro h
  obtain ⟨x, hx, heq⟩ := List.mem_map.mp h
  exact (mem_erase.mp hx).2 heq

/-- Where there is no entry of the name, nothing is erased. -/
theorem erase_eq_self (h : name ∉ fields.map Prod.fst) : fields.erase name = fields := by
  rw [erase, List.filter_eq_self]
  exact fun x hx => bne_iff_ne.mpr fun heq => h (heq ▸ List.mem_map_of_mem hx)

/-- Distinct names stay distinct. -/
theorem nodup_names_erase (h : (fields.map Prod.fst).Nodup) (name : String) :
    ((fields.erase name).map Prod.fst).Nodup :=
  h.sublist (List.filter_sublist.map _)

/-! ## Entries that are alike -/

section Alike

variable {β : Type} {R : α → β → Prop} {entries : Fields α} {entries' : Fields β}

/-- Among entries of the same names that are alike one by one, alike ones are found. -/
theorem get?_rel (h : List.Forall₂ (fun x y => x.1 = y.1 ∧ R x.2 y.2) entries entries')
    (name : String) : Option.Rel R (entries.get? name) (entries'.get? name) := by
  induction h with
  | nil => exact .none
  | @cons x y _ _ hxy _ ih =>
    obtain ⟨n, v⟩ := x
    obtain ⟨n', v'⟩ := y
    obtain ⟨rfl, hv⟩ := hxy
    rw [get?, get?]
    split
    · exact .some hv
    · exact ih

/-- Among entries of the same names that are alike one by one, alike ones are found loosely. -/
theorem findLoosely_rel (h : List.Forall₂ (fun x y => x.1 = y.1 ∧ R x.2 y.2) entries entries')
    (name : String) : Option.Rel R (entries.findLoosely name) (entries'.findLoosely name) := by
  induction h with
  | nil => exact .none
  | @cons x y _ _ hxy _ ih =>
    obtain ⟨n, v⟩ := x
    obtain ⟨n', v'⟩ := y
    obtain ⟨rfl, hv⟩ := hxy
    rw [findLoosely, findLoosely]
    split
    · exact .some hv
    · exact ih

/-- Among entries of the same names that are alike one by one, alike ones are looked up. -/
theorem lookup?_rel (h : List.Forall₂ (fun x y => x.1 = y.1 ∧ R x.2 y.2) entries entries')
    (name : String) : Option.Rel R (entries.lookup? name) (entries'.lookup? name) := by
  have hget := get?_rel h name
  rw [lookup?, lookup?]
  cases hx : entries.get? name <;> cases hy : entries'.get? name <;> rw [hx, hy] at hget <;>
    cases hget
  · exact findLoosely_rel h name
  · rename_i hv
    exact .some hv

end Alike

/-! ## Insertion -/

/-- An entry of the inserted name replaces the one before, and the others stay. -/
theorem eq_or_mem_of_mem_insert {x : String × α} (h : x ∈ fields.insert name value) :
    x = (name, value) ∨ x ∈ fields := by
  induction fields with
  | nil => exact .inl (List.mem_singleton.mp h)
  | cons entry rest ih =>
    obtain ⟨n, old⟩ := entry
    rw [insert] at h
    split at h
    · rename_i hn
      rcases List.mem_cons.mp h with rfl | hrest
      · exact .inl (by rw [hn])
      · exact .inr (List.mem_cons_of_mem _ hrest)
    · rcases List.mem_cons.mp h with rfl | hrest
      · exact .inr (List.mem_cons_self ..)
      · exact (ih hrest).imp_right (List.mem_cons_of_mem _)

/-- What stands among inserted entries was inserted, or stood there before. -/
theorem mem_of_mem_foldl_insert {entries : List (String × α)} {x : String × α}
    (h : x ∈ entries.foldl (fun fields e => fields.insert e.1 e.2) fields) :
    x ∈ entries ∨ x ∈ fields := by
  induction entries generalizing fields with
  | nil => exact .inr h
  | cons e rest ih =>
    rcases ih h with hrest | hinsert
    · exact .inl (List.mem_cons_of_mem e hrest)
    · rcases eq_or_mem_of_mem_insert hinsert with rfl | hbefore
      · exact .inl (List.mem_cons_self ..)
      · exact .inr hbefore

/-- What stands in a record is one of the entries that it was made of. -/
theorem mem_of_mem_ofEntries {entries : List (String × α)} {x : String × α}
    (h : x ∈ ofEntries entries) : x ∈ entries := by
  rcases mem_of_mem_foldl_insert h with hmem | hnil
  · exact hmem
  · cases hnil

/-- Inserting entries of other names keeps an entry. -/
theorem get?_foldl_insert {entries : List (String × α)} (h : ∀ e ∈ entries, e.1 ≠ name) :
    (entries.foldl (fun fields e => fields.insert e.1 e.2) fields).get? name =
      fields.get? name := by
  induction entries generalizing fields with
  | nil => rfl
  | cons e rest ih =>
    obtain ⟨hne, hrest⟩ := List.forall_mem_cons.mp h
    rw [List.foldl_cons, ih hrest, get?_insert_of_ne fields e.2 hne.symm]

/-- Of entries with distinct names each is found in the record that is made of them. -/
theorem get?_ofEntries {entries : List (String × α)} (hnodup : (entries.map Prod.fst).Nodup)
    (h : (name, value) ∈ entries) : (ofEntries entries).get? name = some value := by
  obtain ⟨before, after, rfl⟩ := List.append_of_mem h
  rw [List.map_append, List.map_cons] at hnodup
  have hafter : name ∉ after.map Prod.fst :=
    (List.nodup_cons.mp (List.nodup_append.mp hnodup).2.1).1
  rw [ofEntries, List.foldl_append, List.foldl_cons, get?_foldl_insert, get?_insert_self]
  exact fun e he heq => hafter (heq ▸ List.mem_map_of_mem he)

/-- Inserting an entry of a new name appends it. -/
theorem insert_of_notMem (h : name ∉ fields.names) :
    fields.insert name value = fields ++ [(name, value)] := by
  induction fields with
  | nil => rfl
  | cons entry rest ih =>
    obtain ⟨n, old⟩ := entry
    rw [names, List.map_cons, List.mem_cons, not_or] at h
    rw [insert, if_neg (Ne.symm h.1), ih h.2, List.cons_append]

/-- Entries with distinct names are the list of fields that is made of them. -/
theorem ofEntries_eq_self {entries : List (String × α)}
    (hnodup : (entries.map Prod.fst).Nodup) : ofEntries entries = entries := by
  have hfold (fields : Fields α) (h : ((fields ++ entries).map Prod.fst).Nodup) :
      entries.foldl (fun fields e => fields.insert e.1 e.2) fields = fields ++ entries := by
    clear hnodup
    induction entries generalizing fields with
    | nil => exact (List.append_nil fields).symm
    | cons e rest ih =>
      have hnew : e.1 ∉ fields.names := by
        rw [List.map_append, List.map_cons] at h
        intro hmem
        exact (List.nodup_append.mp h).2.2 e.1 hmem e.1 (List.mem_cons_self ..) rfl
      rw [List.foldl_cons, insert_of_notMem hnew, ih _ (by simpa using h), List.append_assoc,
        List.singleton_append]
  exact hfold [] hnodup

/-- Among entries with distinct names an entry is found exactly when it stands there. -/
theorem get?_eq_some_iff (hnodup : (fields.map Prod.fst).Nodup) :
    fields.get? name = some value ↔ (name, value) ∈ fields := by
  refine ⟨mem_of_get?_eq_some, fun h => ?_⟩
  have hfound := get?_ofEntries hnodup h
  rwa [ofEntries_eq_self hnodup] at hfound

end QueryRelay.Fields
