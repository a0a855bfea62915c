import QueryRelay.Payload.Binary
import QueryRelay.Proofs.Fields

/-!
# Reading back the binary form

A datum is of a shape when its parts are those that the schema lists. Main statement: a datum of a
shape is read back from its bytes, with whatever follows them, provided that its lengths fit eight
bytes and that the fuel is four times the number of the bytes.
-/

namespace QueryRelay

namespace Payload

mutual

/-- A datum has the parts that a shape asks for. -/
inductive OfShape : Shape → Datum → Prop
  /-- A truth value. -/
  | bool (b : Bool) : OfShape .bool (.bool b)
  /-- A 64-bit integer. -/
  | int (n : Int64) : OfShape .int (.int n)
  /-- An unsigned 64-bit integer. -/
  | natural (n : UInt64) : OfShape .natural (.natural n)
  /-- A floating-point number. -/
  | float (x : Binary64) : OfShape .float (.float x)
  /-- A text. -/
  | text (s : String) : OfShape .text (.text s)
  /-- A list. -/
  | list {item : Shape} {items : List Datum} (h : ∀ d ∈ items, OfShape item d) :
      OfShape (.list item) (.list items)
  /-- A table of entries with distinct names. -/
  | table {entry : Shape} {entries : List (String × Datum)}
      (hnodup : (entries.map Prod.fst).Nodup) (h : ∀ e ∈ entries, OfShape entry e.2) :
      OfShape (.table entry) (.table entries)
  /-- Fields in order. -/
  | product {name : SortName} {fields : List Field} {parts : List (String × Datum)}
      (hdefinition : name.definition = .product fields) (h : OfFields fields parts) :
      OfShape (.sort name) (.product parts)
  /-- An alternative without content. -/
  | variant {name : SortName} {alternatives : List (String × Content)} {index : Nat}
      {label : String} (hdefinition : name.definition = .choice alternatives)
      (hindex : alternatives[index]? = some (label, .empty)) :
      OfShape (.sort name) (.variant index label)
  /-- An alternative with one part. -/
  | wrapped {name : SortName} {alternatives : List (String × Content)} {index : Nat}
      {label : String} {shape : Shape} {content : Datum}
      (hdefinition : name.definition = .choice alternatives)
      (hindex : alternatives[index]? = some (label, .single shape)) (h : OfShape shape content) :
      OfShape (.sort name) (.wrapped index label content)
  /-- An alternative with named fields. -/
  | case {name : SortName} {alternatives : List (String × Content)} {index : Nat}
      {label : String} {fields : List Field} {parts : List (String × Datum)}
      (hdefinition : name.definition = .choice alternatives)
      (hindex : alternatives[index]? = some (label, .fields fields)) (h : OfFields fields parts) :
      OfShape (.sort name) (.case index label parts)

/-- Named data are the fields of a product, in order. -/
inductive OfFields : List Field → List (String × Datum) → Prop
  /-- No fields. -/
  | nil : OfFields [] []
  /-- A field that has to be there. -/
  | required {f : Field} {fields : List Field} {d : Datum} {parts : List (String × Datum)}
      (hmark : f.isOptional = false) (h : OfShape f.shape d) (hrest : OfFields fields parts) :
      OfFields (f :: fields) ((f.name, d) :: parts)
  /-- A field that holds nothing. -/
  | absent {f : Field} {fields : List Field} {parts : List (String × Datum)}
      (hmark : f.isOptional = true) (hrest : OfFields fields parts) :
      OfFields (f :: fields) ((f.name, .absent) :: parts)
  /-- A field that may hold nothing and holds something. -/
  | present {f : Field} {fields : List Field} {d : Datum} {parts : List (String × Datum)}
      (hmark : f.isOptional = true) (h : OfShape f.shape d) (hrest : OfFields fields parts) :
      OfFields (f :: fields) ((f.name, .present d) :: parts)

end

/-! ## Numbers and texts -/

/-- How many naturals fit eight bytes. -/
def wordSpace : Nat := 18446744073709551616

/-- A natural that fits eight bytes is read back. -/
theorem readWord?_wordBytes {n : Nat} (h : n < wordSpace) (rest : List UInt8) :
    readWord? (wordBytes n ++ rest) = some (n, rest) :=
  Bytes.readNat?_ofNat 8 n rest h

/-- The number of an alternative is read back. -/
theorem readIndex?_indexBytes {n : Nat} (h : n < 4294967296) (rest : List UInt8) :
    readIndex? (indexBytes n ++ rest) = some (n, rest) :=
  Bytes.readNat?_ofNat 4 n rest h

/-- A natural in eight bytes takes eight bytes. -/
@[simp] theorem length_wordBytes (n : Nat) : (wordBytes n).length = 8 := Bytes.length_ofNat 8 n

/-- The number of an alternative takes four bytes. -/
@[simp] theorem length_indexBytes (n : Nat) : (indexBytes n).length = 4 := Bytes.length_ofNat 4 n

/-- A text takes its bytes and eight more. -/
@[simp] theorem length_textBytes (s : String) :
    (textBytes s).length = 8 + (Text.utf8 s).length := by
  rw [textBytes, List.length_append, length_wordBytes]

/-- A text is read back. -/
theorem readString?_textBytes {s : String} (h : (textBytes s).length < wordSpace)
    (rest : List UInt8) : readString? (textBytes s ++ rest) = some (s, rest) := by
  rw [length_textBytes] at h
  have hword := readWord?_wordBytes (n := (Text.utf8 s).length) (by omega) (Text.utf8 s ++ rest)
  rw [readString?, textBytes, List.append_assoc, hword]
  simp only [Option.bind_eq_bind, Option.bind_some, List.length_append, Nat.le_add_right, if_true,
    Bytes.take?_append, Text.ofUtf8?_utf8]
  rfl

/-- A truth value is read back. -/
theorem readBool?_cons (b : Bool) (rest : List UInt8) :
    readBool? ((if b then 1 else 0) :: rest) = some (b, rest) := by
  cases b <;> rfl

/-! ## The schema -/

/-- A product has at least two fields. -/
theorem SortName.two_le_length {name : SortName} {fields : List Field}
    (h : name.definition = .product fields) : 2 ≤ fields.length := by
  cases name <;> cases h <;> decide

/-- The number of an alternative fits four bytes. -/
theorem SortName.index_lt {name : SortName} {alternatives : List (String × Content)}
    (h : name.definition = .choice alternatives) {index : Nat} {x : String × Content}
    (hindex : alternatives[index]? = some x) : index < 4294967296 := by
  have hlength : alternatives.length < 4294967296 := by
    cases name <;> cases h <;> decide
  obtain ⟨hlt, -⟩ := List.getElem?_eq_some_iff.mp hindex
  omega

/-! ## Lengths -/

mutual

/-- Every part takes a byte at least. -/
theorem OfShape.length_pos {shape : Shape} {d : Datum} (h : OfShape shape d) :
    0 < d.toBytes.length := by
  cases h with
  | product hdefinition h =>
    have htwo := SortName.two_le_length hdefinition
    have hle := h.length_le
    rw [Datum.toBytes]
    omega
  | _ =>
    simp only [Datum.toBytes, List.length_append, List.length_cons, List.length_nil,
      length_wordBytes, length_indexBytes, length_textBytes]
    omega

/-- Fields take a byte each at least. -/
theorem OfFields.length_le {fields : List Field} {parts : List (String × Datum)}
    (h : OfFields fields parts) : fields.length ≤ (Datum.fieldBytes parts).length := by
  cases h with
  | nil => exact Nat.le_refl 0
  | required hmark h hrest =>
    have hpos := h.length_pos
    have hle := hrest.length_le
    simp only [Datum.fieldBytes, List.length_append, List.length_cons]
    omega
  | absent hmark hrest =>
    have hle := hrest.length_le
    simp only [Datum.fieldBytes, Datum.toBytes, List.length_append, List.length_cons,
      List.length_nil]
    omega
  | present hmark h hrest =>
    have hle := hrest.length_le
    simp only [Datum.fieldBytes, Datum.toBytes, List.length_append, List.length_cons]
    omega

end

/-- Items of a shape are no more than the bytes that they take. -/
theorem length_le_itemBytes {shape : Shape} {items : List Datum}
    (h : ∀ d ∈ items, OfShape shape d) : items.length ≤ (Datum.itemBytes items).length := by
  induction items with
  | nil => exact Nat.le_refl 0
  | cons d rest ih =>
    obtain ⟨hd, hrest⟩ := List.forall_mem_cons.mp h
    have hpos := hd.length_pos
    have hle := ih hrest
    rw [Datum.itemBytes, List.length_append, List.length_cons]
    omega

/-- Entries are no more than the bytes that they take. -/
theorem length_le_entryBytes (entries : List (String × Datum)) :
    entries.length ≤ (Datum.entryBytes entries).length := by
  induction entries with
  | nil => exact Nat.le_refl 0
  | cons e rest ih =>
    obtain ⟨name, d⟩ := e
    simp only [Datum.entryBytes, List.length_append, List.length_cons, length_textBytes]
    omega

/-! ## Reading -/

attribute [local simp] ofBytes? itemsOfBytes? entriesOfBytes? fieldsOfBytes? optionalOfBytes?

/-- A datum is read back, with whatever follows it. -/
def ReadsBack (shape : Shape) (d : Datum) : Prop :=
  ∀ fuel rest, 4 * d.toBytes.length ≤ fuel → d.toBytes.length < wordSpace →
    ofBytes? fuel shape (d.toBytes ++ rest) = some (d, rest)

/-- Items are read back one after the other. -/
theorem itemsOfBytes?_append {shape : Shape} {items : List Datum}
    (hshape : ∀ d ∈ items, OfShape shape d) (hread : ∀ d ∈ items, ReadsBack shape d) {fuel : Nat}
    (hfuel : 4 * (Datum.itemBytes items).length + 1 ≤ fuel)
    (hsize : (Datum.itemBytes items).length < wordSpace) (rest : List UInt8) :
    itemsOfBytes? fuel shape items.length (Datum.itemBytes items ++ rest) = some (items, rest) := by
  induction items generalizing fuel with
  | nil => cases fuel <;> rfl
  | cons d items ih =>
    obtain ⟨hd, hitems⟩ := List.forall_mem_cons.mp hshape
    obtain ⟨hreadd, hreads⟩ := List.forall_mem_cons.mp hread
    have hpos := hd.length_pos
    rw [Datum.itemBytes, List.length_append] at hfuel hsize
    obtain ⟨fuel, rfl⟩ : ∃ n, fuel = n + 1 := ⟨fuel - 1, by omega⟩
    rw [Datum.itemBytes, List.append_assoc, List.length_cons, itemsOfBytes?,
      hreadd fuel _ (by omega) (by omega)]
    simp only [Option.bind_eq_bind, Option.bind_some]
    rw [ih hitems hreads (by omega) (by omega)]
    rfl

/-- Entries are read back one after the other. -/
theorem entriesOfBytes?_append {shape : Shape} {entries : List (String × Datum)}
    (hread : ∀ e ∈ entries, ReadsBack shape e.2) {fuel : Nat}
    (hfuel : 4 * (Datum.entryBytes entries).length + 1 ≤ fuel)
    (hsize : (Datum.entryBytes entries).length < wordSpace) (rest : List UInt8) :
    entriesOfBytes? fuel shape entries.length (Datum.entryBytes entries ++ rest) =
      some (entries, rest) := by
  induction entries generalizing fuel with
  | nil => cases fuel <;> rfl
  | cons e entries ih =>
    obtain ⟨name, d⟩ := e
    obtain ⟨hreadd, hreads⟩ := List.forall_mem_cons.mp hread
    dsimp only at hreadd
    rw [Datum.entryBytes, List.length_append, List.length_append] at hfuel hsize
    have hname := length_textBytes name
    obtain ⟨fuel, rfl⟩ : ∃ n, fuel = n + 1 := ⟨fuel - 1, by omega⟩
    rw [Datum.entryBytes, List.append_assoc, List.append_assoc, List.length_cons, entriesOfBytes?,
      readString?_textBytes (by omega)]
    simp only [Option.bind_eq_bind, Option.bind_some]
    rw [hreadd fuel _ (by omega) (by omega)]
    simp only [Option.bind_some]
    rw [ih hreads (by omega) (by omega)]
    rfl

/-- Fields are read back in order, with whatever follows them. -/
def FieldsReadBack (fields : List Field) (parts : List (String × Datum)) : Prop :=
  ∀ fuel rest, 4 * (Datum.fieldBytes parts).length + 5 ≤ fuel + 3 * fields.length →
    (Datum.fieldBytes parts).length < wordSpace →
      fieldsOfBytes? fuel fields (Datum.fieldBytes parts ++ rest) = some (parts, rest)

/-- A datum is read back when it is read back with fuel for one part more. -/
theorem readsBack_of_succ {shape : Shape} {d : Datum} (hpos : 0 < d.toBytes.length)
    (h : ∀ fuel rest, 4 * d.toBytes.length ≤ fuel + 1 → d.toBytes.length < wordSpace →
      ofBytes? (fuel + 1) shape (d.toBytes ++ rest) = some (d, rest)) : ReadsBack shape d := by
  intro fuel rest hfuel hsize
  obtain ⟨fuel, rfl⟩ : ∃ n, fuel = n + 1 := ⟨fuel - 1, by omega⟩
  exact h fuel rest hfuel hsize

/-- A datum that is a natural in eight bytes is read back. -/
theorem readsBack_of_word {shape : Shape} {d : Datum} {n : Nat} (hbytes : d.toBytes = wordBytes n)
    (hn : n < wordSpace) (hread : ∀ fuel bytes rest, readWord? bytes = some (n, rest) →
      ofBytes? (fuel + 1) shape bytes = some (d, rest)) : ReadsBack shape d := by
  refine readsBack_of_succ ?_ fun fuel rest _ _ => ?_
  · rw [hbytes, length_wordBytes]
    decide
  · rw [hbytes]
    exact hread fuel _ rest (readWord?_wordBytes hn rest)

/-- A 64-bit integer is read back. -/
theorem readsBack_int (n : Int64) : ReadsBack .int (.int n) := by
  refine readsBack_of_word rfl n.toUInt64.toNat_lt fun fuel bytes rest hword => ?_
  have hback : (UInt64.ofNat n.toUInt64.toNat).toInt64 = n := by
    rw [UInt64.ofNat_toNat, Int64.toInt64_toUInt64]
  rw [ofBytes?, hword]
  simp only [Option.bind_eq_bind, Option.bind_some, hback]
  rfl

/-- An unsigned 64-bit integer is read back. -/
theorem readsBack_natural (n : UInt64) : ReadsBack .natural (.natural n) := by
  refine readsBack_of_word rfl n.toNat_lt fun fuel bytes rest hword => ?_
  simp [hword]

/-- A floating-point number is read back, bit by bit. -/
theorem readsBack_float (x : Binary64) : ReadsBack .float (.float x) := by
  refine readsBack_of_word rfl x.bits.toNat_lt fun fuel bytes rest hword => ?_
  simp [hword]

/-- A truth value is read back. -/
theorem readsBack_bool (b : Bool) : ReadsBack .bool (.bool b) := by
  refine readsBack_of_succ (OfShape.bool b).length_pos fun fuel rest _ _ => ?_
  rw [Datum.toBytes, List.singleton_append]
  simp [readBool?_cons]

/-- A text is read back as a part. -/
theorem readsBack_text (s : String) : ReadsBack .text (.text s) := by
  refine readsBack_of_succ (OfShape.text s).length_pos fun fuel rest _ hsize => ?_
  rw [Datum.toBytes] at hsize ⊢
  simp [readString?_textBytes hsize]

/-- A list is read back when its items are. -/
theorem readsBack_list {item : Shape} {items : List Datum} (h : ∀ d ∈ items, OfShape item d)
    (hread : ∀ d ∈ items, ReadsBack item d) : ReadsBack (.list item) (.list items) := by
  refine readsBack_of_succ (OfShape.list h).length_pos fun fuel rest hfuel hsize => ?_
  rw [Datum.toBytes, List.length_append, length_wordBytes] at hfuel hsize
  have hle := length_le_itemBytes h
  have hword : items.length < wordSpace := by omega
  rw [Datum.toBytes, List.append_assoc, ofBytes?]
  simp only [readWord?_wordBytes hword, Option.bind_eq_bind, Option.bind_some]
  rw [itemsOfBytes?_append h hread (by omega) (by omega)]
  rfl

/-- A table with distinct names is read back when its entries are. -/
theorem readsBack_table {entry : Shape} {entries : List (String × Datum)}
    (hnodup : (entries.map Prod.fst).Nodup) (h : ∀ e ∈ entries, OfShape entry e.2)
    (hread : ∀ e ∈ entries, ReadsBack entry e.2) :
    ReadsBack (.table entry) (.table entries) := by
  refine readsBack_of_succ (OfShape.table hnodup h).length_pos fun fuel rest hfuel hsize => ?_
  rw [Datum.toBytes, List.length_append, length_wordBytes] at hfuel hsize
  have hle := length_le_entryBytes entries
  have hword : entries.length < wordSpace := by omega
  rw [Datum.toBytes, List.append_assoc, ofBytes?]
  simp only [readWord?_wordBytes hword, Option.bind_eq_bind, Option.bind_some]
  rw [entriesOfBytes?_append hread (by omega) (by omega)]
  simp only [Option.bind_some, Fields.ofEntries_eq_self hnodup]
  rfl

/-- A product is read back when its fields are. Its two fields or more take the bytes that the fuel
for the product itself needs. -/
theorem readsBack_product {name : SortName} {fields : List Field} {parts : List (String × Datum)}
    (hdefinition : name.definition = .product fields) (h : OfFields fields parts)
    (hread : FieldsReadBack fields parts) : ReadsBack (.sort name) (.product parts) := by
  have hpos := (OfShape.product hdefinition h).length_pos
  refine readsBack_of_succ hpos fun fuel rest hfuel hsize => ?_
  have htwo := SortName.two_le_length hdefinition
  rw [Datum.toBytes] at hfuel hsize ⊢
  rw [ofBytes?]
  simp only [hdefinition]
  rw [hread fuel rest (by omega) hsize]
  rfl

/-- An alternative without content is read back. -/
theorem readsBack_variant {name : SortName} {alternatives : List (String × Content)} {index : Nat}
    {label : String} (hdefinition : name.definition = .choice alternatives)
    (hindex : alternatives[index]? = some (label, .empty)) :
    ReadsBack (.sort name) (.variant index label) := by
  refine readsBack_of_succ (OfShape.variant hdefinition hindex).length_pos fun fuel rest _ _ => ?_
  rw [Datum.toBytes, ofBytes?]
  simp only [hdefinition, readIndex?_indexBytes (SortName.index_lt hdefinition hindex), hindex,
    Option.bind_eq_bind, Option.bind_some]
  rfl

/-- An alternative with one part is read back when the part is. -/
theorem readsBack_wrapped {name : SortName} {alternatives : List (String × Content)} {index : Nat}
    {label : String} {shape : Shape} {content : Datum}
    (hdefinition : name.definition = .choice alternatives)
    (hindex : alternatives[index]? = some (label, .single shape)) (h : OfShape shape content)
    (hread : ReadsBack shape content) :
    ReadsBack (.sort name) (.wrapped index label content) := by
  have hpos := (OfShape.wrapped hdefinition hindex h).length_pos
  refine readsBack_of_succ hpos fun fuel rest hfuel hsize => ?_
  rw [Datum.toBytes, List.length_append, length_indexBytes] at hfuel hsize
  rw [Datum.toBytes, List.append_assoc, ofBytes?]
  simp only [hdefinition, readIndex?_indexBytes (SortName.index_lt hdefinition hindex), hindex,
    Option.bind_eq_bind, Option.bind_some]
  rw [hread fuel rest (by omega) (by omega)]
  rfl

/-- An alternative with fields is read back when the fields are. -/
theorem readsBack_case {name : SortName} {alternatives : List (String × Content)} {index : Nat}
    {label : String} {fields : List Field} {parts : List (String × Datum)}
    (hdefinition : name.definition = .choice alternatives)
    (hindex : alternatives[index]? = some (label, .fields fields)) (h : OfFields fields parts)
    (hread : FieldsReadBack fields parts) : ReadsBack (.sort name) (.case index label parts) := by
  have hpos := (OfShape.case hdefinition hindex h).length_pos
  refine readsBack_of_succ hpos fun fuel rest hfuel hsize => ?_
  rw [Datum.toBytes, List.length_append, length_indexBytes] at hfuel hsize
  rw [Datum.toBytes, List.append_assoc, ofBytes?]
  simp only [hdefinition, readIndex?_indexBytes (SortName.index_lt hdefinition hindex), hindex,
    Option.bind_eq_bind, Option.bind_some]
  rw [hread fuel rest (by omega) (by omega)]
  rfl

/-- A field is read back before those that follow it. -/
theorem fieldsReadBack_cons {f : Field} {fields : List Field} {d : Datum}
    {parts : List (String × Datum)} (hpos : 0 < d.toBytes.length)
    (hle : fields.length ≤ (Datum.fieldBytes parts).length)
    (hread : ∀ fuel rest, 4 * d.toBytes.length ≤ fuel → d.toBytes.length < wordSpace →
      optionalOfBytes? (fuel + 1) f.isOptional f.shape (d.toBytes ++ rest) = some (d, rest))
    (hreads : FieldsReadBack fields parts) :
    FieldsReadBack (f :: fields) ((f.name, d) :: parts) := by
  intro fuel rest hfuel hsize
  rw [Datum.fieldBytes, List.length_append] at hfuel hsize
  rw [List.length_cons] at hfuel
  obtain ⟨fuel, rfl⟩ : ∃ n, fuel = n + 2 := ⟨fuel - 2, by omega⟩
  rw [Datum.fieldBytes, List.append_assoc, fieldsOfBytes?, hread _ _ (by omega) (by omega)]
  simp only [Option.bind_eq_bind, Option.bind_some]
  rw [hreads _ _ (by omega) (by omega)]
  rfl

/-- A field that has to be there is read back when its content is. -/
theorem fieldsReadBack_required {f : Field} {fields : List Field} {d : Datum}
    {parts : List (String × Datum)} (hmark : f.isOptional = false) (h : OfShape f.shape d)
    (hrest : OfFields fields parts) (hread : ReadsBack f.shape d)
    (hreads : FieldsReadBack fields parts) :
    FieldsReadBack (f :: fields) ((f.name, d) :: parts) := by
  refine fieldsReadBack_cons h.length_pos hrest.length_le (fun fuel rest hfuel hsize => ?_) hreads
  rw [hmark, optionalOfBytes?]
  exact hread fuel rest hfuel hsize

/-- A field that holds nothing is read back. -/
theorem fieldsReadBack_absent {f : Field} {fields : List Field} {parts : List (String × Datum)}
    (hmark : f.isOptional = true) (hrest : OfFields fields parts)
    (hreads : FieldsReadBack fields parts) :
    FieldsReadBack (f :: fields) ((f.name, .absent) :: parts) := by
  refine fieldsReadBack_cons Nat.one_pos hrest.length_le (fun fuel rest _ _ => ?_) hreads
  rw [hmark]
  rfl

/-- A field that holds something is read back when its content is. -/
theorem fieldsReadBack_present {f : Field} {fields : List Field} {d : Datum}
    {parts : List (String × Datum)} (hmark : f.isOptional = true) (_ : OfShape f.shape d)
    (hrest : OfFields fields parts) (hread : ReadsBack f.shape d)
    (hreads : FieldsReadBack fields parts) :
    FieldsReadBack (f :: fields) ((f.name, .present d) :: parts) := by
  refine fieldsReadBack_cons (Nat.succ_pos _) hrest.length_le (fun fuel rest hfuel hsize => ?_)
    hreads
  rw [Datum.toBytes, List.length_cons] at hfuel hsize
  rw [Datum.toBytes, hmark, List.cons_append, optionalOfBytes?, readBool?]
  simp only [hread fuel rest (by omega) (by omega), Option.map_some]

/-- A datum of a shape is read back. -/
theorem OfShape.readsBack {shape : Shape} {d : Datum} (h : OfShape shape d) :
    ReadsBack shape d :=
  -- The tactic for induction does not take mutual families, so the cases stand in their order.
  @OfShape.rec (fun shape d _ => ReadsBack shape d)
    (fun fields parts _ => FieldsReadBack fields parts)
    readsBack_bool readsBack_int readsBack_natural readsBack_float readsBack_text
    (fun h => readsBack_list h) (fun hnodup h => readsBack_table hnodup h)
    readsBack_product readsBack_variant readsBack_wrapped readsBack_case
    (fun fuel rest _ _ => by cases fuel <;> rfl)
    fieldsReadBack_required fieldsReadBack_absent fieldsReadBack_present shape d h

/-- A datum of a shape is read off the front of its bytes, whatever follows them. -/
theorem OfShape.readBytes?_append {shape : Shape} {d : Datum} (h : OfShape shape d)
    (hsize : d.toBytes.length < wordSpace) (tail : List UInt8) :
    readBytes? shape (d.toBytes ++ tail) = some d := by
  have hfuel : 4 * d.toBytes.length ≤ fuelFor (d.toBytes ++ tail) := by
    rw [fuelFor, List.length_append]
    omega
  have hread := h.readsBack (fuelFor (d.toBytes ++ tail)) tail hfuel hsize
  rw [readBytes?, hread]
  rfl

end Payload
end QueryRelay
