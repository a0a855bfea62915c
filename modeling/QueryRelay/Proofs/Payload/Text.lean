import QueryRelay.Payload.Text
import QueryRelay.Proofs.Json.Documents
import QueryRelay.Proofs.Payload.Binary

/-!
# Reading back the text form

A floating-point number is carried by the text form when what is written for it is a number that
reads back as it; infinities and `NaN` are not, and neither are some finite numbers, since numbers
are read in a quick way. Main statements: a datum of which the floating-point numbers are carried
has a well-formed text form, and if the datum is of a shape it is read back from that, as deep as
the nesting goes.
-/

namespace QueryRelay

namespace Json

mutual

/-- How deep arrays and objects nest in a document. -/
def depth : Json → Nat
  | .array items => depthOfItems items + 1
  | .object members => depthOfMembers members + 1
  | _ => 0
termination_by structural j => j

/-- How deep the deepest item nests. -/
def depthOfItems : List Json → Nat
  | [] => 0
  | j :: rest => max (depth j) (depthOfItems rest)
termination_by structural items => items

/-- How deep the deepest member nests. -/
def depthOfMembers : List (List Char × Json) → Nat
  | [] => 0
  | (_, j) :: rest => max (depth j) (depthOfMembers rest)
termination_by structural members => members

end

end Json

/-! ## Floating-point numbers -/

/-- A floating-point number that the text form carries. -/
structure Binary64.IsCarried (x : Binary64) : Prop where
  /-- What is written for it is well formed. -/
  isWritable : (Json.ofFloat x).IsWritable
  /-- It is read back from that. -/
  readBack : (Json.ofFloat x).float? = some x

/-- What is written for a carried number is a number. -/
theorem Binary64.IsCarried.exists_number {x : Binary64} (h : x.IsCarried) :
    ∃ lexeme, Json.ofFloat x = .number lexeme := by
  have hread := h.readBack
  rw [Json.ofFloat] at hread ⊢
  split at hread
  · exact ⟨_, rfl⟩
  · cases hread

/-- A number is carried when its text is a well-formed number that denotes it. -/
theorem Binary64.isCarried_iff {x : Binary64} :
    x.IsCarried ↔ ∃ s ∈ x.documentText?,
      Json.IsNumeral s.toList ∧ (Json.number s.toList).float? = some x := by
  constructor
  · rintro ⟨hwritable, hread⟩
    rw [Json.ofFloat] at hwritable hread
    split at hread
    · next s hs =>
      rw [hs] at hwritable
      cases hwritable with
      | number h => exact ⟨s, hs, h, hread⟩
    · cases hread
  · rintro ⟨s, hs, h, hread⟩
    have htext : Json.ofFloat x = .number s.toList := by rw [Json.ofFloat, hs]
    exact ⟨htext ▸ .number h, htext ▸ hread⟩

instance : DecidablePred Binary64.IsCarried := fun _ =>
  decidable_of_iff _ Binary64.isCarried_iff.symm

/-- One half is carried, and one eleventh is not. -/
example : (⟨0x3fe0000000000000⟩ : Binary64).IsCarried ∧
    ¬ (⟨0x3fb745d1745d1746⟩ : Binary64).IsCarried := by decide +kernel

/-- A number that is no number of the text form, such as an infinity, is not carried. -/
theorem Binary64.not_isCarried_of_isFinite {x : Binary64} (h : x.isFinite = false) :
    ¬ x.IsCarried := by
  intro hcarried
  have hread := hcarried.readBack
  rw [Json.ofFloat, documentText?, h] at hread
  cases hread

namespace Datum

mutual

/-- The floating-point numbers of a datum, from left to right. -/
def floats : Datum → List Binary64
  | .float x => [x]
  | .list items => floatsOfItems items
  | .table entries => floatsOfFields entries
  | .present content => floats content
  | .product fields => floatsOfFields fields
  | .wrapped _ _ content => floats content
  | .case _ _ fields => floatsOfFields fields
  | _ => []
termination_by structural d => d

/-- The floating-point numbers of the items of a list. -/
def floatsOfItems : List Datum → List Binary64
  | [] => []
  | d :: rest => floats d ++ floatsOfItems rest
termination_by structural ds => ds

/-- The floating-point numbers of named parts. -/
def floatsOfFields : List (String × Datum) → List Binary64
  | [] => []
  | (_, d) :: rest => floats d ++ floatsOfFields rest
termination_by structural fs => fs

end

/-- The text form carries all floating-point numbers of a list. -/
def Carried (xs : List Binary64) : Prop := ∀ x ∈ xs, x.IsCarried

/-- Numbers of two lists are carried when those of each are. -/
theorem carried_append {xs ys : List Binary64} :
    Carried (xs ++ ys) ↔ Carried xs ∧ Carried ys := List.forall_mem_append

mutual

/-- A datum of which the numbers are carried has a well-formed text form. -/
theorem isWritable_toJson : ∀ d : Datum, Carried d.floats → d.toJson.IsWritable
  | .bool b, _ => .bool b
  | .int n, _ => Json.isWritable_ofInt n.toInt
  | .natural n, _ => Json.isWritable_ofNat n.toNat
  | .float x, h => (h x (List.mem_singleton_self x)).isWritable
  | .text s, _ => Json.isWritable_ofText s
  | .list items, h => .array (isWritable_itemsToJson items h)
  | .table entries, h | .product entries, h =>
    have ⟨hnames, hfields⟩ := isWritable_fieldsToJson entries h
    .object hnames hfields
  | .absent, _ => .null
  | .present content, h => isWritable_toJson content h
  | .variant _ name, _ => Json.isWritable_ofText name
  | .wrapped _ name content, h =>
    .object (List.forall_mem_singleton.mpr (Json.isBody_escape name.toList))
      (List.forall_mem_singleton.mpr (isWritable_toJson content h))
  | .case _ name fields, h =>
    have ⟨hnames, hfields⟩ := isWritable_fieldsToJson fields h
    .object (List.forall_mem_singleton.mpr (Json.isBody_escape name.toList))
      (List.forall_mem_singleton.mpr (.object hnames hfields))

/-- Items of which the numbers are carried have well-formed text forms. -/
theorem isWritable_itemsToJson : ∀ items : List Datum, Carried (floatsOfItems items) →
    ∀ j ∈ itemsToJson items, j.IsWritable
  | [], _ => List.forall_mem_nil _
  | d :: rest, h =>
    have ⟨hd, hrest⟩ := carried_append.mp h
    List.forall_mem_cons.mpr ⟨isWritable_toJson d hd, isWritable_itemsToJson rest hrest⟩

/-- Named parts of which the numbers are carried have well-formed text forms. -/
theorem isWritable_fieldsToJson : ∀ fields : List (String × Datum),
    Carried (floatsOfFields fields) → (∀ m ∈ fieldsToJson fields, Json.IsBody m.1) ∧
      ∀ m ∈ fieldsToJson fields, m.2.IsWritable
  | [], _ => ⟨List.forall_mem_nil _, List.forall_mem_nil _⟩
  | (name, d) :: rest, h =>
    have ⟨hd, hrest⟩ := carried_append.mp h
    have ⟨hnames, hfields⟩ := isWritable_fieldsToJson rest hrest
    ⟨List.forall_mem_cons.mpr ⟨Json.isBody_escape name.toList, hnames⟩,
      List.forall_mem_cons.mpr ⟨isWritable_toJson d hd, hfields⟩⟩

end

end Datum

namespace Payload

/-! ## The schema -/

/-- The names of the fields that an alternative holds. -/
def Content.fieldNames : Content → List String
  | .fields parts => parts.map Field.name
  | _ => []

/-- No product has two fields of one name. -/
theorem SortName.nodup_fields {name : SortName} {fields : List Field}
    (h : name.definition = .product fields) : (fields.map Field.name).Nodup := by
  cases name <;> cases h <;> decide

/-- No choice has two alternatives of one name. -/
theorem SortName.nodup_alternatives {name : SortName} {alternatives : List (String × Content)}
    (h : name.definition = .choice alternatives) : (alternatives.map Prod.fst).Nodup := by
  cases name <;> cases h <;> decide

/-- No alternative has two fields of one name. -/
theorem SortName.nodup_content {name : SortName} {alternatives : List (String × Content)}
    (h : name.definition = .choice alternatives) {a : String × Content} (ha : a ∈ alternatives) :
    a.2.fieldNames.Nodup := by
  have hall : ∀ a ∈ alternatives, a.2.fieldNames.Nodup := by
    cases name <;> cases h <;> decide
  exact hall a ha

/-- Among alternatives with distinct names each is found under its name. -/
theorem findAlternative_getElem? {alternatives : List (String × Content)} {index start : Nat}
    {label : String} {content : Content} (hnodup : (alternatives.map Prod.fst).Nodup)
    (h : alternatives[index]? = some (label, content)) :
    findAlternative label start alternatives = some (start + index, content) := by
  induction alternatives generalizing index start with
  | nil => cases h
  | cons a alternatives ih =>
    obtain ⟨name, other⟩ := a
    rw [List.map_cons, List.nodup_cons] at hnodup
    cases index with
    | zero =>
      cases h
      exact if_pos rfl
    | succ index =>
      rw [List.getElem?_cons_succ] at h
      have hmem : label ∈ alternatives.map Prod.fst :=
        List.mem_map_of_mem (f := Prod.fst) (List.mem_of_getElem? h)
      have hne : name ≠ label := fun heq => hnodup.1 (heq ▸ hmem)
      rw [findAlternative, if_neg hne, ih hnodup.2 h]
      congr 2
      omega

/-- The alternative at a position of a sum is found there under its name. -/
theorem SortName.findAlternative_eq {name : SortName} {alternatives : List (String × Content)}
    {index : Nat} {label : String} {content : Content}
    (hdefinition : name.definition = .choice alternatives)
    (hindex : alternatives[index]? = some (label, content)) :
    findAlternative label 0 alternatives = some (index, content) := by
  have hfound : findAlternative label 0 alternatives = some (0 + index, content) :=
    findAlternative_getElem? (SortName.nodup_alternatives hdefinition) hindex
  rwa [Nat.zero_add] at hfound

/-! ## Leaves and lists -/

open Datum (Carried carried_append)

/-- A datum is read back from its text form, as deep as its nesting goes. -/
def ReadsFromJson (shape : Shape) (d : Datum) : Prop :=
  Carried d.floats → ∀ nesting, d.toJson.depth ≤ nesting →
    ofJson? nesting shape d.toJson = some d

/-- A truth value is read back from its text form. -/
theorem readsFromJson_bool (b : Bool) : ReadsFromJson .bool (.bool b) := fun _ _ _ => rfl

/-- A 64-bit integer is read back from its text form. -/
theorem readsFromJson_int (n : Int64) : ReadsFromJson .int (.int n) := by
  intro _ nesting _
  change ((Json.ofInt n.toInt).int64?).map Datum.int = some (.int n)
  rw [Json.int64?_ofInt, Option.map_some]

attribute [local simp] ofJson? ofItems? ofEntries? ofMembers? ofChoice? ofFields? ofPositions?
  Datum.toJson Datum.itemsToJson Datum.fieldsToJson Json.depth

/-- An unsigned 64-bit integer is read back from its text form. -/
theorem readsFromJson_natural (n : UInt64) : ReadsFromJson .natural (.natural n) := by
  intro _ nesting _
  change ((Json.ofNat n.toNat).uint64?).map Datum.natural = some (.natural n)
  rw [Json.uint64?_ofNat, Option.map_some]

/-- A carried floating-point number is read back from its text form. -/
theorem readsFromJson_float (x : Binary64) : ReadsFromJson .float (.float x) := by
  intro h nesting _
  have hx := h x (List.mem_singleton_self x)
  have hread := hx.readBack
  obtain ⟨lexeme, hlexeme⟩ := hx.exists_number
  rw [hlexeme] at hread
  rw [Datum.toJson, hlexeme, ofJson?, ofNumber?, hread, Option.map_some]

/-- A text is read back from its text form. -/
theorem readsFromJson_text (s : String) : ReadsFromJson .text (.text s) := by
  intro _ nesting _
  rw [Datum.toJson, Json.ofText, ofJson?, ofString?, Json.bodyText?_escape]
  rfl

/-- Items are read back from their text forms. -/
theorem ofItems?_itemsToJson {shape : Shape} {items : List Datum}
    (hread : ∀ d ∈ items, ReadsFromJson shape d) (h : Carried (Datum.floatsOfItems items))
    {nesting : Nat} (hdepth : Json.depthOfItems (Datum.itemsToJson items) ≤ nesting) :
    ofItems? nesting shape (Datum.itemsToJson items) = some items := by
  induction items with
  | nil => rfl
  | cons d items ih =>
    obtain ⟨hd, hitems⟩ := carried_append.mp h
    obtain ⟨hreadd, hreads⟩ := List.forall_mem_cons.mp hread
    rw [Datum.itemsToJson, Json.depthOfItems, Nat.max_le] at hdepth
    rw [Datum.itemsToJson, ofItems?, hreadd hd nesting hdepth.1, ih hreads hitems hdepth.2]
    rfl

/-- A list is read back from its text form when its items are. -/
theorem readsFromJson_list {item : Shape} {items : List Datum}
    (hread : ∀ d ∈ items, ReadsFromJson item d) : ReadsFromJson (.list item) (.list items) := by
  intro h nesting hdepth
  rw [Datum.toJson, Json.depth] at hdepth
  obtain ⟨nesting, rfl⟩ : ∃ n, nesting = n + 1 := ⟨nesting - 1, by omega⟩
  rw [Datum.toJson, ofJson?]
  simp only [ofItems?_itemsToJson hread h (Nat.le_of_succ_le_succ hdepth), Option.map_some]

/-- Entries are read back from their text forms. -/
theorem ofEntries?_fieldsToJson {shape : Shape} {entries : List (String × Datum)}
    (hread : ∀ e ∈ entries, ReadsFromJson shape e.2) (h : Carried (Datum.floatsOfFields entries))
    {nesting : Nat} (hdepth : Json.depthOfMembers (Datum.fieldsToJson entries) ≤ nesting) :
    ofEntries? nesting shape (Datum.fieldsToJson entries) = some entries := by
  induction entries with
  | nil => rfl
  | cons e entries ih =>
    obtain ⟨name, d⟩ := e
    obtain ⟨hd, hentries⟩ := carried_append.mp h
    obtain ⟨hreadd, hreads⟩ := List.forall_mem_cons.mp hread
    rw [Datum.fieldsToJson, Json.depthOfMembers, Nat.max_le] at hdepth
    rw [Datum.fieldsToJson, ofEntries?, Json.bodyText?_escape, hreadd hd nesting hdepth.1,
      ih hreads hentries hdepth.2]
    rfl

/-- A table with distinct names is read back from its text form when its entries are. -/
theorem readsFromJson_table {entry : Shape} {entries : List (String × Datum)}
    (hnodup : (entries.map Prod.fst).Nodup) (hread : ∀ e ∈ entries, ReadsFromJson entry e.2) :
    ReadsFromJson (.table entry) (.table entries) := by
  intro h nesting hdepth
  rw [Datum.toJson, Json.depth] at hdepth
  obtain ⟨nesting, rfl⟩ : ∃ n, nesting = n + 1 := ⟨nesting - 1, by omega⟩
  rw [Datum.toJson, ofJson?]
  simp only [ofEntries?_fieldsToJson hread h (Nat.le_of_succ_le_succ hdepth), Option.map_some,
    Fields.ofEntries_eq_self hnodup]

/-! ## Fields -/

/-- A field is filled with what its text form says. -/
def FillsFromJson (f : Field) (d : Datum) : Prop :=
  Carried d.floats → ∀ nesting, d.toJson.depth ≤ nesting →
    f.fill (isNull d.toJson) (ofJson? nesting f.shape d.toJson) = some d

/-- Named parts fill fields in order, each under the name of the field. -/
def FieldsFillFromJson (fields : List Field) (parts : List (String × Datum)) : Prop :=
  List.Forall₂ (fun f part => part.1 = f.name ∧ FillsFromJson f part.2) fields parts

/-- The names of parts that fill fields are those of the fields. -/
theorem FieldsFillFromJson.names {fields : List Field} {parts : List (String × Datum)}
    (h : FieldsFillFromJson fields parts) : parts.map Prod.fst = fields.map Field.name := by
  induction h with
  | nil => rfl
  | cons hpart _ ih => rw [List.map_cons, List.map_cons, hpart.1, ih]

/-- A field is found under its name among fields with distinct names. -/
theorem find?_name {fields : List Field} (hnodup : (fields.map Field.name).Nodup) {f : Field}
    (h : f ∈ fields) : fields.find? (fun g => g.name == f.name) = some f := by
  induction fields with
  | nil => cases h
  | cons g fields ih =>
    rw [List.map_cons, List.nodup_cons] at hnodup
    rcases List.mem_cons.mp h with rfl | hmem
    · rw [List.find?_cons, beq_self_eq_true]
    · have hne : (g.name == f.name) = false := by
        rw [beq_eq_false_iff_ne]
        exact fun heq => hnodup.1 (heq ▸ List.mem_map_of_mem hmem)
      rw [List.find?_cons, hne]
      exact ih hnodup.2 hmem

/-- The last of the fields of a product are read back from their text forms, each under its name. -/
theorem ofMembers?_fieldsToJson {fields last : List Field} {parts : List (String × Datum)}
    (hnodup : (fields.map Field.name).Nodup) (hlast : last <:+ fields)
    (hfill : FieldsFillFromJson last parts) (h : Carried (Datum.floatsOfFields parts))
    {nesting : Nat} (hdepth : Json.depthOfMembers (Datum.fieldsToJson parts) ≤ nesting) :
    ofMembers? nesting fields (Datum.fieldsToJson parts) = some parts := by
  induction hfill with
  | nil => rfl
  | @cons f part last parts hpart hrest ih =>
    obtain ⟨name, d⟩ := part
    obtain ⟨rfl, hd⟩ := hpart
    obtain ⟨hcarried, hparts⟩ := carried_append.mp h
    rw [Datum.fieldsToJson, Json.depthOfMembers, Nat.max_le] at hdepth
    have hreads := ih ((List.suffix_cons f last).trans hlast) hparts hdepth.2
    have hfound := find?_name hnodup (hlast.subset List.mem_cons_self)
    have hnew : (Fields.get? parts f.name).isSome = false := by
      have hnames : f.name ∉ last.map Field.name :=
        (List.nodup_cons.mp (hnodup.sublist (hlast.sublist.map Field.name))).1
      rw [← FieldsFillFromJson.names hrest] at hnames
      rw [Option.isSome_eq_false_iff, Option.isNone_iff_eq_none, Option.eq_none_iff_forall_ne_some]
      exact fun v hv => hnames (List.mem_map_of_mem (f := Prod.fst) (Fields.mem_of_get?_eq_some hv))
    rw [Datum.fieldsToJson, ofMembers?, Json.bodyText?_escape]
    simp only [Option.bind_eq_bind, Option.bind_some, hfound, hd hcarried nesting hdepth.1, hreads,
      hnew]
    rfl

/-- Parts that were found under the names of fields make the product complete. -/
theorem complete_eq {found : Fields Datum} {fields : List Field} {parts : List (String × Datum)}
    (hnames : parts.map Prod.fst = fields.map Field.name)
    (hfound : ∀ part ∈ parts, found.get? part.1 = some part.2) :
    complete found fields = some parts := by
  induction fields generalizing parts with
  | nil => rw [List.map_eq_nil_iff.mp hnames]; rfl
  | cons f fields ih =>
    cases parts with
    | nil => cases hnames
    | cons part parts =>
      obtain ⟨name, d⟩ := part
      obtain ⟨hname, hnames⟩ := List.cons.inj hnames
      obtain ⟨hd, hparts⟩ := List.forall_mem_cons.mp hfound
      dsimp only at hname hd
      rw [complete, ← hname, hd, ih hnames hparts]
      rfl

/-- The fields of a product are read back from their text forms. -/
theorem readFields_eq {fields : List Field} {parts : List (String × Datum)}
    (hnodup : (fields.map Field.name).Nodup) (hfill : FieldsFillFromJson fields parts)
    (h : Carried (Datum.floatsOfFields parts)) {nesting : Nat}
    (hdepth : Json.depthOfMembers (Datum.fieldsToJson parts) ≤ nesting) :
    (ofMembers? nesting fields (Datum.fieldsToJson parts)).bind (complete · fields) =
      some parts := by
  rw [ofMembers?_fieldsToJson hnodup (List.suffix_refl fields) hfill h hdepth, Option.bind_some]
  have hparts : (parts.map Prod.fst).Nodup := hfill.names ▸ hnodup
  exact complete_eq hfill.names fun part hpart => (Fields.get?_eq_some_iff hparts).mpr hpart

/-- What is written for a part is not the word `null`. -/
theorem OfShape.isNull_toJson {shape : Shape} {d : Datum} (h : OfShape shape d)
    (hcarried : Carried d.floats) : isNull d.toJson = false := by
  cases h with
  | float x =>
    obtain ⟨lexeme, hlexeme⟩ := (hcarried x (List.mem_singleton_self x)).exists_number
    rw [Datum.toJson, hlexeme]
    rfl
  | _ => rfl

/-- A field that has to be there is filled when its part is read back. -/
theorem fieldsFillFromJson_required {f : Field} {fields : List Field} {d : Datum}
    {parts : List (String × Datum)} (hmark : f.isOptional = false) (_ : OfShape f.shape d)
    (_ : OfFields fields parts) (hread : ReadsFromJson f.shape d)
    (hfill : FieldsFillFromJson fields parts) :
    FieldsFillFromJson (f :: fields) ((f.name, d) :: parts) := by
  refine .cons ⟨rfl, fun hcarried nesting hdepth => ?_⟩ hfill
  rw [Field.fill, hmark]
  exact hread hcarried nesting hdepth

/-- A field that holds nothing is filled. -/
theorem fieldsFillFromJson_absent {f : Field} {fields : List Field}
    {parts : List (String × Datum)} (hmark : f.isOptional = true) (_ : OfFields fields parts)
    (hfill : FieldsFillFromJson fields parts) :
    FieldsFillFromJson (f :: fields) ((f.name, .absent) :: parts) := by
  refine .cons ⟨rfl, fun _ nesting _ => ?_⟩ hfill
  rw [Field.fill, hmark]
  rfl

/-- A field that holds something is filled when that is read back. -/
theorem fieldsFillFromJson_present {f : Field} {fields : List Field} {d : Datum}
    {parts : List (String × Datum)} (hmark : f.isOptional = true) (h : OfShape f.shape d)
    (_ : OfFields fields parts) (hread : ReadsFromJson f.shape d)
    (hfill : FieldsFillFromJson fields parts) :
    FieldsFillFromJson (f :: fields) ((f.name, .present d) :: parts) := by
  refine .cons ⟨rfl, fun hcarried nesting hdepth => ?_⟩ hfill
  have hnull : isNull (Datum.present d).toJson = false := h.isNull_toJson hcarried
  have hpart : ofJson? nesting f.shape (Datum.present d).toJson = some d :=
    hread hcarried nesting hdepth
  rw [Field.fill, hmark, hnull, hpart]
  rfl

/-! ## Compound parts -/

/-- A product is read back from its text form when its fields are. -/
theorem readsFromJson_product {name : SortName} {fields : List Field}
    {parts : List (String × Datum)} (hdefinition : name.definition = .product fields)
    (_ : OfFields fields parts) (hfill : FieldsFillFromJson fields parts) :
    ReadsFromJson (.sort name) (.product parts) := by
  intro h nesting hdepth
  rw [Datum.toJson, Json.depth] at hdepth
  obtain ⟨nesting, rfl⟩ : ∃ n, nesting = n + 1 := ⟨nesting - 1, by omega⟩
  rw [Datum.toJson, ofJson?]
  simp only [hdefinition, readFields_eq (SortName.nodup_fields hdefinition) hfill h
    (Nat.le_of_succ_le_succ hdepth), Option.map_some]

/-- An alternative without content is read back from its name. -/
theorem readsFromJson_variant {name : SortName} {alternatives : List (String × Content)}
    {index : Nat} {label : String} (hdefinition : name.definition = .choice alternatives)
    (hindex : alternatives[index]? = some (label, .empty)) :
    ReadsFromJson (.sort name) (.variant index label) := by
  intro _ nesting _
  have hfound := SortName.findAlternative_eq hdefinition hindex
  rw [Datum.toJson, Json.ofText, ofJson?, ofString?, Json.bodyText?_escape]
  simp only [Option.bind_eq_bind, Option.bind_some, hdefinition, hfound]
  rfl

/-- An alternative with one part is read back from its text form when the part is. -/
theorem readsFromJson_wrapped {name : SortName} {alternatives : List (String × Content)}
    {index : Nat} {label : String} {shape : Shape} {content : Datum}
    (hdefinition : name.definition = .choice alternatives)
    (hindex : alternatives[index]? = some (label, .single shape)) (_ : OfShape shape content)
    (hread : ReadsFromJson shape content) :
    ReadsFromJson (.sort name) (.wrapped index label content) := by
  intro h nesting hdepth
  have hfound := SortName.findAlternative_eq hdefinition hindex
  rw [Datum.toJson, Json.depth, Json.depthOfMembers, Json.depthOfMembers, Nat.max_zero] at hdepth
  obtain ⟨nesting, rfl⟩ : ∃ n, nesting = n + 1 := ⟨nesting - 1, by omega⟩
  rw [Datum.toJson, ofJson?]
  simp only [hdefinition]
  rw [ofChoice?, Json.bodyText?_escape]
  simp only [Option.bind_eq_bind, Option.bind_some, hfound,
    hread h nesting (Nat.le_of_succ_le_succ hdepth), Option.map_some]

/-- An alternative with fields is read back from its text form when the fields are. -/
theorem readsFromJson_case {name : SortName} {alternatives : List (String × Content)}
    {index : Nat} {label : String} {fields : List Field} {parts : List (String × Datum)}
    (hdefinition : name.definition = .choice alternatives)
    (hindex : alternatives[index]? = some (label, .fields fields)) (_ : OfFields fields parts)
    (hfill : FieldsFillFromJson fields parts) :
    ReadsFromJson (.sort name) (.case index label parts) := by
  intro h nesting hdepth
  have hfound := SortName.findAlternative_eq hdefinition hindex
  have hnodup : (fields.map Field.name).Nodup :=
    SortName.nodup_content hdefinition (List.mem_of_getElem? hindex)
  rw [Datum.toJson, Json.depth, Json.depthOfMembers, Json.depthOfMembers, Nat.max_zero,
    Json.depth] at hdepth
  obtain ⟨nesting, rfl⟩ : ∃ n, nesting = n + 2 := ⟨nesting - 2, by omega⟩
  rw [Datum.toJson, ofJson?]
  simp only [hdefinition]
  rw [ofChoice?, Json.bodyText?_escape]
  simp only [Option.bind_eq_bind, Option.bind_some, hfound]
  have hfields := readFields_eq hnodup hfill h
    (Nat.le_of_succ_le_succ (Nat.le_of_succ_le_succ hdepth))
  rw [ofFields?]
  simp only [hfields, Option.map_some]

/-- A datum of a shape is read back from its text form. -/
theorem OfShape.readsFromJson {shape : Shape} {d : Datum} (h : OfShape shape d) :
    ReadsFromJson shape d :=
  -- The tactic for induction does not take mutual families, so the cases stand in their order.
  @OfShape.rec (fun shape d _ => ReadsFromJson shape d)
    (fun fields parts _ => FieldsFillFromJson fields parts)
    readsFromJson_bool readsFromJson_int readsFromJson_natural readsFromJson_float
    readsFromJson_text (fun _ => readsFromJson_list) (fun hnodup _ => readsFromJson_table hnodup)
    readsFromJson_product readsFromJson_variant readsFromJson_wrapped readsFromJson_case .nil
    fieldsFillFromJson_required fieldsFillFromJson_absent fieldsFillFromJson_present shape d h

/-- A datum of a shape is read back from its text. -/
theorem OfShape.readText?_toText {shape : Shape} {d : Datum} (h : OfShape shape d)
    (hcarried : Carried d.floats) (hdepth : d.toJson.depth ≤ maxNesting) :
    readText? shape d.toJson.toText = some d := by
  rw [readText?, (Datum.isWritable_toJson d hcarried).read?_toText, Option.bind_some]
  exact h.readsFromJson hcarried maxNesting hdepth

end Payload
end QueryRelay
