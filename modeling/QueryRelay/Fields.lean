/-!
# Named fields in order

A list of named entries in the order of their first insertion. `Fields.insert` keeps one entry a
name: it replaces in place or appends. Exact look-up takes the first entry of the name; loose
look-up falls back to the first entry whose name agrees up to the case of ASCII letters.
-/

namespace QueryRelay

/-- Named entries in insertion order. -/
abbrev Fields (α : Type) := List (String × α)

namespace Fields

variable {α β : Type}

/-- The entry of exactly this name. -/
def get? : Fields α → String → Option α
  | [], _ => none
  | (name, value) :: rest, wanted => if name = wanted then some value else get? rest wanted

/-- Two names that differ at most in the case of ASCII letters. -/
def sameName (a b : String) : Bool := a.toList.map Char.toLower == b.toList.map Char.toLower

/-- The first entry whose name agrees up to the case of ASCII letters. -/
def findLoosely : Fields α → String → Option α
  | [], _ => none
  | (name, value) :: rest, wanted =>
    if sameName name wanted then some value else findLoosely rest wanted

/-- The entry of exactly this name, else the first that agrees up to case. -/
def lookup? (fields : Fields α) (wanted : String) : Option α :=
  (fields.get? wanted).or (fields.findLoosely wanted)

/-- Replace the entry of this name where it stands, or append one. -/
def insert : Fields α → String → α → Fields α
  | [], wanted, value => [(wanted, value)]
  | (name, old) :: rest, wanted, value =>
    if name = wanted then (name, value) :: rest else (name, old) :: insert rest wanted value

/-- Insert entries one after the other. -/
def ofEntries (entries : List (String × α)) : Fields α :=
  entries.foldl (fun fields entry => fields.insert entry.1 entry.2) []

/-- The names in order. -/
def names (fields : Fields α) : List String := fields.map Prod.fst

/-- The entries whose name is another one. -/
def erase (fields : Fields α) (unwanted : String) : Fields α :=
  fields.filter fun entry => entry.1 != unwanted

/-- Change each entry, keeping its name. -/
def mapValues (f : α → β) (fields : Fields α) : Fields β :=
  fields.map fun entry => (entry.1, f entry.2)

theorem get?_insert_self (fields : Fields α) (name : String) (value : α) :
    (fields.insert name value).get? name = some value := by
  induction fields with
  | nil => simp [insert, get?]
  | cons entry rest ih =>
    obtain ⟨n, old⟩ := entry
    by_cases h : n = name <;> simp [insert, get?, h, ih]

theorem get?_insert_of_ne (fields : Fields α) {name other : String} (value : α) (h : other ≠ name) :
    (fields.insert name value).get? other = fields.get? other := by
  induction fields with
  | nil => simp [insert, get?, h.symm]
  | cons entry rest ih =>
    obtain ⟨n, old⟩ := entry
    by_cases hn : n = name
    · subst hn
      simp [insert, get?, h.symm]
    · by_cases ho : n = other <;> simp_all [insert, get?]

end Fields
end QueryRelay
