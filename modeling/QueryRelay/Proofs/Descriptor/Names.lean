import Mathlib.Data.List.TakeWhile
import QueryRelay.Descriptor.Reader

/-!
# Names in type descriptors

What a name and a namespace are, and how the reader takes a path apart: a path of names is read in
full when neither a name character nor a dot stands behind it, and what is read as a path is one.
-/

namespace QueryRelay.Descriptor

/-! ## Names and namespaces -/

/-- A name: at least one character, and name characters only. -/
def IsName (s : String) : Prop := s ≠ "" ∧ ∀ c ∈ s.toList, isNameChar c = true

/-- A namespace: at least one name, with dots between them. -/
def IsSpace (s : String) : Prop :=
  ∃ names : List String, names ≠ [] ∧ (∀ n ∈ names, IsName n) ∧ s = ".".intercalate names

/-- Names, each after a dot. -/
def dotted (names : List String) : List Char := names.flatMap fun n => '.' :: n.toList

/-- There are no more names than characters. -/
theorem length_le_dotted (names : List String) : names.length ≤ (dotted names).length := by
  induction names with
  | nil => exact Nat.le_refl 0
  | cons n rest ih =>
    simp only [dotted, List.flatMap_cons, List.length_append, List.length_cons] at ih ⊢
    omega

/-- A name has a first character. -/
theorem IsName.exists_cons {s : String} (h : IsName s) :
    ∃ c rest, s.toList = c :: rest ∧ isNameChar c = true := by
  obtain ⟨hne, hall⟩ := h
  cases hs : s.toList with
  | nil => exact absurd (String.toList_eq_nil_iff.mp hs) hne
  | cons c rest => exact ⟨c, rest, rfl, hall c (hs ▸ List.mem_cons_self)⟩

/-- Joining with dots writes a dot before each name but the first. -/
theorem toList_intercalate_dot (first : String) (names : List String) :
    (".".intercalate (first :: names)).toList = first.toList ++ dotted names := by
  induction names generalizing first with
  | nil => simp [dotted]
  | cons n rest ih =>
    rw [String.intercalate_cons_cons, String.toList_append, String.toList_append, ih]
    simp [dotted]

/-- A namespace is not empty. -/
theorem IsSpace.ne_empty {s : String} (h : IsSpace s) : s ≠ "" := by
  obtain ⟨names, hne, hnames, rfl⟩ := h
  obtain ⟨first, rest, rfl⟩ := List.exists_cons_of_ne_nil hne
  obtain ⟨c, cs, hc, -⟩ := (hnames first List.mem_cons_self).exists_cons
  intro h
  have := congrArg String.toList h
  simp [hc] at this

/-! ## Characters that end a name -/

/-- White space is no part of a name. -/
theorem isBlank_of_isNameChar {c : Char} (h : isNameChar c = true) : Text.isBlank c = false := by
  have outside : ∀ n ∈ [9, 10, 11, 12, 13, 32, 133, 160, 5760, 8192, 8193, 8194, 8195, 8196, 8197,
      8198, 8199, 8200, 8201, 8202, 8232, 8233, 8239, 8287, 12288],
      Text.CodeSet.containsCode Text.alphanumericSet.bounds n = false ∧ n ≠ 95 := by
    decide +kernel
  cases hblank : Text.isBlank c with
  | false => rfl
  | true =>
    have code : c.toNat ∈ [9, 10, 11, 12, 13, 32, 133, 160, 5760, 8192, 8193, 8194, 8195, 8196,
        8197, 8198, 8199, 8200, 8201, 8202, 8232, 8233, 8239, 8287, 12288] := by
      simp only [Text.isBlank, Text.CodeSet.contains, Text.blankSet, Text.CodeSet.containsCode]
        at hblank
      simp only [List.mem_cons, List.not_mem_nil, or_false]
      grind
    obtain ⟨hset, hline⟩ := outside _ code
    have : c ≠ '_' := fun hc => hline (by rw [hc]; rfl)
    simp [isNameChar, Text.isAlphanumeric, Text.CodeSet.contains, hset, this] at h

/-- A gap is no part of a name. -/
theorem isGap_of_isNameChar {c : Char} (h : isNameChar c = true) : isGap c = false := by
  have hblank := isBlank_of_isNameChar h
  simp only [isGap, Bool.or_eq_false_iff, beq_eq_false_iff_ne]
  refine ⟨⟨⟨?_, ?_⟩, ?_⟩, ?_⟩ <;> rintro rfl <;> revert hblank <;> decide

/-! ## Reading names and paths -/

/-- A name is read back when no name character stands behind it. -/
theorem readName_append {name : String} (h : IsName name) {rest : List Char}
    (hrest : ∀ c ∈ rest.head?, isNameChar c = false) :
    readName (name.toList ++ rest) = some (name, rest) := by
  obtain ⟨c, cs, hc, -⟩ := h.exists_cons
  have hstop : rest.takeWhile isNameChar = [] ∧ rest.dropWhile isNameChar = rest := by
    cases rest with
    | nil => exact ⟨rfl, rfl⟩
    | cons c rest => simp [hrest c rfl]
  have htake : (name.toList ++ rest).takeWhile isNameChar = name.toList := by
    rw [List.takeWhile_append_of_pos h.2, hstop.1, List.append_nil]
  have hdrop : (name.toList ++ rest).dropWhile isNameChar = rest := by
    rw [List.dropWhile_append_of_pos h.2, hstop.2]
  have hne : name.toList.isEmpty = false := by rw [hc]; rfl
  simp only [readName, htake, hdrop, hne, Bool.false_eq_true, if_false, String.ofList_toList]

/-- What is read as a name is one. -/
theorem isName_of_readName {cs rest : List Char} {name : String}
    (h : readName cs = some (name, rest)) : IsName name := by
  simp only [readName] at h
  split at h
  · cases h
  · rename_i hne
    cases h
    refine ⟨fun h => hne ?_, fun c hc => ?_⟩
    · rw [← String.toList_eq_nil_iff, String.toList_ofList] at h
      rw [h]
      rfl
    · rw [String.toList_ofList] at hc
      exact List.mem_takeWhile_imp hc

/-- The rest after a name is read through. -/
theorem readPath_append {names : List String} (h : ∀ n ∈ names, IsName n) {rest : List Char}
    (hrest : ∀ c ∈ rest.head?, isNameChar c = false ∧ c ≠ '.') {count : Nat}
    (hcount : names.length ≤ count) :
    readPath count (dotted names ++ rest) = (names, rest) := by
  induction names generalizing count with
  | nil =>
    cases count with
    | zero => rfl
    | succ count =>
      cases rest with
      | nil => rfl
      | cons c rest =>
        have := (hrest c rfl).2
        simp only [dotted, List.flatMap_nil, List.nil_append, readPath]
        split
        · rename_i heq
          cases heq
          exact absurd rfl this
        · rfl
  | cons n more ih =>
    obtain ⟨count, rfl⟩ := Nat.exists_eq_add_one.mpr (Nat.lt_of_lt_of_le (by simp) hcount)
    have hmore : ∀ c ∈ (dotted more ++ rest).head?, isNameChar c = false := by
      cases more with
      | nil => exact fun c hc => (hrest c hc).1
      | cons m more =>
        rintro c ⟨⟩
        decide
    have hname := readName_append (h n List.mem_cons_self) hmore
    have hnext : readPath count (dotted more ++ rest) = (more, rest) :=
      ih (fun m hm => h m (List.mem_cons_of_mem _ hm)) (by simpa using hcount)
    have htext : dotted (n :: more) ++ rest = '.' :: (n.toList ++ (dotted more ++ rest)) := by
      simp [dotted]
    rw [htext, readPath]
    simp only [hname, hnext]

/-- What is read after a name are names. -/
theorem isName_of_mem_readPath {count : Nat} {cs : List Char} {n : String}
    (h : n ∈ (readPath count cs).1) : IsName n := by
  induction count generalizing cs with
  | zero => cases h
  | succ count ih =>
    simp only [readPath] at h
    split at h
    · split at h
      · rename_i hname
        rcases List.mem_cons.mp h with rfl | h
        · exact isName_of_readName hname
        · exact ih h
      · cases h
    · cases h

/-! ## The namespace and the name of a path -/

/-- The last name of a path is the name, those before it are the namespace. -/
theorem ofPath_concat (first : String) (names : List String) (name : String) :
    ofPath first (names ++ [name]) = (some (".".intercalate (first :: names)), name) := by
  have hlast : (first :: (names ++ [name])).getLast? = some name := by
    rw [← List.cons_append, List.getLast?_concat]
  have hinit : (first :: (names ++ [name])).dropLast = first :: names := by
    rw [← List.cons_append, List.dropLast_concat]
  simp only [ofPath, hlast, hinit]

/-- A path gives a name, and a namespace when it has more than one name. -/
theorem ofPath_isName {first : String} {names : List String} (hfirst : IsName first)
    (hnames : ∀ n ∈ names, IsName n) :
    IsName (ofPath first names).2 ∧ ∀ s, (ofPath first names).1 = some s → IsSpace s := by
  rcases List.eq_nil_or_concat names with rfl | ⟨init, name, rfl⟩
  · exact ⟨hfirst, fun s hs => by cases hs⟩
  · rw [List.concat_eq_append] at hnames ⊢
    rw [ofPath_concat]
    refine ⟨hnames name (by simp), ?_⟩
    rintro s ⟨⟩
    refine ⟨first :: init, by simp, fun n hn => ?_, rfl⟩
    rcases List.mem_cons.mp hn with rfl | hn
    · exact hfirst
    · exact hnames n (by simp [hn])

/-- A name in a namespace is written as the path it is read from. -/
theorem exists_path {d : Descriptor} (hname : IsName d.name)
    (hspace : ∀ s, d.space = some s → IsSpace s) :
    ∃ first names, IsName first ∧ (∀ n ∈ names, IsName n) ∧
      ofPath first names = (d.space, d.name) ∧
      d.qualifiedName.toList = first.toList ++ dotted names := by
  cases hd : d.space with
  | none => exact ⟨d.name, [], hname, by simp, rfl, by simp [qualifiedName, hd, dotted]⟩
  | some s =>
    have hs := hspace s hd
    have hne := hs.ne_empty
    obtain ⟨spaces, hspaces, hall, rfl⟩ := hs
    obtain ⟨first, names, rfl⟩ := List.exists_cons_of_ne_nil hspaces
    refine ⟨first, names ++ [d.name], hall first List.mem_cons_self, fun n hn => ?_,
      ofPath_concat first names d.name, ?_⟩
    · rcases List.mem_append.mp hn with hn | hn
      · exact hall n (List.mem_cons_of_mem _ hn)
      · rwa [List.mem_singleton.mp hn]
    · simp only [qualifiedName, hd, if_neg hne, String.toList_append, toList_intercalate_dot]
      simp [dotted]

end QueryRelay.Descriptor
