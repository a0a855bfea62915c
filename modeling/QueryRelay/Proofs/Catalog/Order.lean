import QueryRelay.Proofs.Catalog.Resolution
import QueryRelay.Proofs.Outcome

/-!
# Catalogs that answer alike

A catalog is asked through its tables only, so two catalogs whose tables have the same entry under
each key answer every question alike. Definitions under different keys may be entered in any order.
-/

namespace QueryRelay.Catalog

/-- Two catalogs have the same definition under each key. -/
structure Alike (c c' : Catalog) : Prop where
  /-- The same records. -/
  records : ∀ key, c.recordTypes.lookup key = c'.recordTypes.lookup key
  /-- The same enumerations. -/
  enums : ∀ key, c.enumTypes.lookup key = c'.enumTypes.lookup key
  /-- The same functions. -/
  functions : ∀ key, c.functions.lookup key = c'.functions.lookup key

variable {c c' c'' : Catalog}

namespace Alike

/-- A catalog answers like itself. -/
@[refl] theorem refl (c : Catalog) : c.Alike c := ⟨fun _ => rfl, fun _ => rfl, fun _ => rfl⟩

/-- Answering alike passes through a third catalog. -/
theorem trans (h : c.Alike c') (h' : c'.Alike c'') : c.Alike c'' :=
  ⟨fun key => (h.records key).trans (h'.records key), fun key => (h.enums key).trans (h'.enums key),
    fun key => (h.functions key).trans (h'.functions key)⟩

/-! ## Questions -/

/-- The same record has a name. -/
theorem record?_eq (h : c.Alike c') (name : String) : c.record? name = c'.record? name :=
  h.records _

/-- The same enumeration has a name. -/
theorem enum?_eq (h : c.Alike c') (name : String) : c.enum? name = c'.enum? name := h.enums _

/-- The same function is declared on a type. -/
theorem function?_eq (h : c.Alike c') (declaring : Ty) (name : String) :
    c.function? declaring name = c'.function? declaring name :=
  h.functions _

/-- A descriptor names the same record or enumeration, or none. -/
theorem resolveNamed_eq (h : c.Alike c') (d : Descriptor) :
    c.resolveNamed d = c'.resolveNamed d := by
  rw [resolveNamed, resolveNamed, h.enums, h.records]

mutual

/-- A descriptor stands for the same type, or fails to stand for one in the same way. -/
theorem resolve_eq (h : c.Alike c') : ∀ d : Descriptor, c.resolve d = c'.resolve d
  | ⟨name, space, args, isCollection, isEnum, isNullable, members⟩ => by
    simp only [resolve, resolveArg_eq h args, resolveMembers_eq h members, h.resolveNamed_eq]

/-- A type argument stands for the same type. -/
theorem resolveArg_eq (h : c.Alike c') : ∀ (ds : List Descriptor) (whole : Descriptor) (i : Nat),
    c.resolveArg whole ds i = c'.resolveArg whole ds i
  | [], _, _ => rfl
  | d :: _, _, 0 => resolve_eq h d
  | _ :: rest, whole, i + 1 => resolveArg_eq h rest whole i

/-- Members stand for the same types. -/
theorem resolveMembers_eq (h : c.Alike c') : ∀ ms : List (String × Descriptor),
    c.resolveMembers ms = c'.resolveMembers ms
  | [] => rfl
  | (name, d) :: rest => by
    rw [resolveMembers, resolveMembers, resolve_eq h d, resolveMembers_eq h rest]

end

/-- A member has the same type. -/
theorem memberType?_eq (h : c.Alike c') (t : Ty) (member : String) :
    c.memberType? t member = c'.memberType? t member := by
  induction t generalizing member with
  | record name => rw [memberType?, memberType?, h.record?_eq]
  | option inner ih => rw [memberType?, memberType?, ih]
  | _ => rfl

end Alike

/-! ## Entering definitions -/

section Tables

variable {κ α : Type} [BEq κ] [LawfulBEq κ]

/-- What stands under a key after a definition has been entered. -/
theorem lookup_enter (key wanted : κ) (value : α) (table : List (κ × α)) :
    (enter key value table).lookup wanted =
      if wanted == key then some value else table.lookup wanted := by
  rw [enter, List.lookup_cons]
  cases hkey : wanted == key with
  | true => rfl
  | false =>
    -- what is dropped for the new definition stood under its key, which is not the wanted one
    induction table with
    | nil => rfl
    | cons entry rest ih =>
      obtain ⟨other, old⟩ := entry
      cases hother : other == key with
      | true =>
        rw [List.filter_cons_of_neg (by simp [bne, hother]), ih, List.lookup_cons,
          eq_of_beq hother, hkey]
      | false =>
        rw [List.filter_cons_of_pos (by simp [bne, hother]), List.lookup_cons, List.lookup_cons]
        cases wanted == other with
        | true => rfl
        | false => exact ih

/-- Entering a definition keeps tables alike. -/
theorem lookup_enter_congr {table table' : List (κ × α)}
    (h : ∀ wanted, table.lookup wanted = table'.lookup wanted) (key : κ) (value : α) (wanted : κ) :
    (enter key value table).lookup wanted = (enter key value table').lookup wanted := by
  rw [lookup_enter, lookup_enter, h]

/-- Definitions under two keys are entered in either order. -/
theorem lookup_enter_comm {key key' : κ} (hne : key ≠ key') (value value' : α)
    (table : List (κ × α)) (wanted : κ) :
    (enter key' value' (enter key value table)).lookup wanted =
      (enter key value (enter key' value' table)).lookup wanted := by
  simp only [lookup_enter]
  cases hkey : wanted == key with
  | false => rfl
  | true =>
    have hother : (wanted == key') = false := by
      rw [eq_of_beq hkey]
      exact beq_eq_false_iff_ne.mpr hne
    rw [hother]
    rfl

end Tables

/-- Defining a record enters it among the records. -/
theorem recordTypes_insertRecord (c : Catalog) (r : RecordType) :
    (c.insertRecord r).recordTypes =
      enter (Ty.record r.name).describe.fingerprint r c.recordTypes := rfl

/-- Defining a record keeps the enumerations. -/
theorem enumTypes_insertRecord (c : Catalog) (r : RecordType) :
    (c.insertRecord r).enumTypes = c.enumTypes := rfl

/-- Defining a record keeps the functions. -/
theorem functions_insertRecord (c : Catalog) (r : RecordType) :
    (c.insertRecord r).functions = c.functions := rfl

/-- Defining an enumeration enters it among the enumerations. -/
theorem enumTypes_insertEnum (c : Catalog) (e : EnumType) :
    (c.insertEnum e).enumTypes = enter (Ty.enum e.name).describe.fingerprint e c.enumTypes := rfl

/-- Defining an enumeration keeps the records. -/
theorem recordTypes_insertEnum (c : Catalog) (e : EnumType) :
    (c.insertEnum e).recordTypes = c.recordTypes := rfl

/-- Defining an enumeration keeps the functions. -/
theorem functions_insertEnum (c : Catalog) (e : EnumType) :
    (c.insertEnum e).functions = c.functions := rfl

namespace Alike

/-- Defining a record keeps catalogs alike. -/
theorem insertRecord (h : c.Alike c') (r : RecordType) :
    (c.insertRecord r).Alike (c'.insertRecord r) :=
  ⟨lookup_enter_congr h.records _ r, h.enums, h.functions⟩

/-- Defining an enumeration keeps catalogs alike. -/
theorem insertEnum (h : c.Alike c') (e : EnumType) : (c.insertEnum e).Alike (c'.insertEnum e) :=
  ⟨h.records, lookup_enter_congr h.enums _ e, h.functions⟩

/-- Records under two keys are defined in either order. -/
theorem insertRecord_comm (c : Catalog) {r r' : RecordType}
    (hne : (Ty.record r.name).describe.fingerprint ≠ (Ty.record r'.name).describe.fingerprint) :
    ((c.insertRecord r).insertRecord r').Alike ((c.insertRecord r').insertRecord r) where
  records key := by
    simp only [recordTypes_insertRecord]
    exact lookup_enter_comm hne r r' c.recordTypes key
  enums key := by simp only [enumTypes_insertRecord]
  functions key := by simp only [functions_insertRecord]

/-- Enumerations under two keys are defined in either order. -/
theorem insertEnum_comm (c : Catalog) {e e' : EnumType}
    (hne : (Ty.enum e.name).describe.fingerprint ≠ (Ty.enum e'.name).describe.fingerprint) :
    ((c.insertEnum e).insertEnum e').Alike ((c.insertEnum e').insertEnum e) where
  records key := by simp only [recordTypes_insertEnum]
  enums key := by
    simp only [enumTypes_insertEnum]
    exact lookup_enter_comm hne e e' c.enumTypes key
  functions key := by simp only [functions_insertEnum]

variable {α : Type} {define : Catalog → α → Catalog} {key : α → TypeKey} {xs ys : List α}

/-- Definitions taken up one after the other keep catalogs alike. -/
theorem foldl (hcongr : ∀ {c c' : Catalog}, c.Alike c' → ∀ x, (define c x).Alike (define c' x))
    (h : c.Alike c') (xs : List α) : (xs.foldl define c).Alike (xs.foldl define c') := by
  induction xs generalizing c c' with
  | nil => exact h
  | cons x rest ih => exact ih (hcongr h x)

/-- Definitions under distinct keys are taken up in any order. -/
theorem foldl_perm
    (hcongr : ∀ {c c' : Catalog}, c.Alike c' → ∀ x, (define c x).Alike (define c' x))
    (hcomm : ∀ c x y, key x ≠ key y → (define (define c x) y).Alike (define (define c y) x))
    (hperm : xs.Perm ys) (hdistinct : (xs.map key).Nodup) (h : c.Alike c') :
    (xs.foldl define c).Alike (ys.foldl define c') := by
  induction hperm generalizing c c' with
  | nil => exact h
  | cons x _ ih =>
    rw [List.map_cons, List.nodup_cons] at hdistinct
    exact ih hdistinct.2 (hcongr h x)
  | swap x y rest =>
    have hne : key y ≠ key x := by
      rw [List.map_cons, List.map_cons, List.nodup_cons] at hdistinct
      exact fun heq => hdistinct.1 (heq ▸ List.mem_cons_self ..)
    have hswapped : (define (define c y) x).Alike (define (define c' x) y) :=
      (hcomm c y x hne).trans (hcongr (hcongr h x) y)
    exact foldl hcongr hswapped rest
  | trans hfirst _ ihfirst ihsecond =>
    exact (ihfirst hdistinct h).trans
      (ihsecond ((hfirst.map key).nodup_iff.mp hdistinct) (.refl c'))

end Alike
end QueryRelay.Catalog
