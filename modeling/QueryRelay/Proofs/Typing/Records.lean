import QueryRelay.Proofs.Expr.Freezing
import QueryRelay.Proofs.Fields
import QueryRelay.Proofs.Typing.Conforms

/-!
# Records made of entries

A record that is made of entries holds nothing else, and of entries with distinct names it holds
each. So a record made of values of the types of its members conforms to the projection, and one
made of values of the types of declared fields conforms to the record type, provided that no two
fields have names that agree up to case.
-/

namespace QueryRelay

/-- No two fields of a record have names that agree up to the case of ASCII letters. -/
def Catalog.FieldsApart (c : Catalog) : Prop :=
  ∀ r ∈ c.records, ∀ f ∈ r.fields, ∀ g ∈ r.fields, Fields.sameName f.1 g.1 = true → f = g

namespace Value

variable {c : Catalog} {counted : Prop} {entries : List (String × Value)}

/-- Values of the types of members with distinct names make a projection. -/
theorem conforms_anonymous {members : List (String × Ty)}
    (h : List.Forall₂ (fun x m => x.1 = m.1 ∧ x.2.ConformsWith c counted m.2) entries members)
    (hnodup : (members.map Prod.fst).Nodup) :
    (Value.record none (Fields.ofEntries entries)).ConformsWith c counted (.anonymous members) := by
  have hnames : entries.map Prod.fst = members.map Prod.fst := by
    rw [← List.forall₂_eq_eq_eq, List.forall₂_map_left_iff, List.forall₂_map_right_iff]
    exact h.imp fun _ _ hxm => hxm.1
  rw [← hnames] at hnodup
  refine .anonymous fun m hm w hw => ?_
  obtain ⟨x, hx, hname, hconforms⟩ := exists_of_forall₂_of_mem h hm
  have hfound := Fields.lookup?_of_get? (Fields.get?_ofEntries hnodup hx)
  rw [← hname, hfound] at hw
  cases hw
  exact hconforms

/-- Values of the types of fields make a record, when no two fields agree up to case. -/
theorem conforms_record (hapart : c.FieldsApart) {name : String} {r : RecordType}
    (hr : c.record? name = some r)
    (h : ∀ x ∈ entries, ∃ u, r.fields.get? x.1 = some u ∧ x.2.ConformsWith c counted u) :
    (Value.record none (Fields.ofEntries entries)).ConformsWith c counted (.record name) := by
  refine .record fun r' hr' field hfield w hw => ?_
  rw [hr] at hr'
  cases hr'
  obtain ⟨n, hmem, hsame⟩ := Fields.exists_sameName_of_lookup? hw
  obtain ⟨u, hu, hconforms⟩ := h _ (Fields.mem_of_mem_ofEntries hmem)
  have hfields : (n, u) = field :=
    hapart r (exists_mem_of_lookup_eq_some hr) _ (Fields.mem_of_get?_eq_some hu) _ hfield hsame
  rw [← hfields]
  exact hconforms

end Value

end QueryRelay
