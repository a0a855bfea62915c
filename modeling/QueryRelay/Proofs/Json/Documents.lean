import QueryRelay.Proofs.Json.Numerals
import QueryRelay.Proofs.Json.Texts

/-!
# Written documents

A document whose leaves are well formed is read off the front of a text. Main statement: it is read
back from its own text, with every leaf as it was written.
-/

namespace QueryRelay.Json

/-- A document of which the leaves are well formed: numbers are numerals, and texts and names can
stand between quotes. -/
inductive IsWritable : Json → Prop
  /-- The word `null`. -/
  | null : IsWritable .null
  /-- A truth value. -/
  | bool (b : Bool) : IsWritable (.bool b)
  /-- A number. -/
  | number {lexeme : List Char} (h : IsNumeral lexeme) : IsWritable (.number lexeme)
  /-- A text. -/
  | string {body : List Char} (h : IsBody body) : IsWritable (.string body)
  /-- An array of such documents. -/
  | array {items : List Json} (h : ∀ j ∈ items, IsWritable j) : IsWritable (.array items)
  /-- An object with such members. -/
  | object {members : List (List Char × Json)} (hnames : ∀ m ∈ members, IsBody m.1)
      (h : ∀ m ∈ members, IsWritable m.2) : IsWritable (.object members)

/-- A text is a well-formed document. -/
theorem isWritable_ofText (s : String) : (ofText s).IsWritable := .string (isBody_escape s.toList)

/-- A natural is a well-formed document. -/
theorem isWritable_ofNat (n : Nat) : (ofNat n).IsWritable := .number (isNumeral_toDigits n)

/-- An integer is a well-formed document. -/
theorem isWritable_ofInt (n : Int) : (ofInt n).IsWritable := by
  rw [ofInt]
  split
  · exact .number (isNumeral_minus n.natAbs)
  · exact .number (isNumeral_toDigits n.toNat)

/-! ## Between tokens -/

attribute [local simp] readValue readItems readMembers writeItems writeMembers write skipSpace

/-- Nothing is skipped in front of a visible character. -/
theorem skipSpace_cons {c : Char} (h : isSpace c = false) (cs : List Char) :
    skipSpace (c :: cs) = c :: cs := by
  rw [skipSpace, List.dropWhile_cons, h]
  rfl

/-- What follows a document inside another one: a comma or a closing bracket. -/
theorem endsNumber_cons {c : Char} (h : c = ',' ∨ c = ']' ∨ c = '\x7d') (cs : List Char) :
    EndsNumber (c :: cs) := by
  have hne : c.isDigit = false ∧ c ≠ '.' ∧ c ≠ 'e' ∧ c ≠ 'E' := by
    rcases h with rfl | rfl | rfl <;> decide
  obtain ⟨hdigit, hpoint, hlower, hupper⟩ := hne
  refine ⟨fun d hd => ?_, fun hd => hpoint (Option.some.inj hd),
    fun hd => hlower (Option.some.inj hd), fun hd => hupper (Option.some.inj hd)⟩
  cases hd
  exact hdigit

/-- A character that a document can start with. -/
structure StartsDocument (c : Char) : Prop where
  /-- It is visible. -/
  visible : isSpace c = false
  /-- It closes no array. -/
  notBracket : c ≠ ']'

/-- A character that a number starts with. -/
theorem startsDocument_of_number {c : Char} (h : c = '-' ∨ c.isDigit = true) :
    StartsDocument c := by
  rcases h with rfl | hdigit
  · exact ⟨rfl, by decide⟩
  · refine ⟨?_, ?_⟩
    · rw [isSpace, Bool.or_eq_false_iff, Bool.or_eq_false_iff, Bool.or_eq_false_iff]
      refine ⟨⟨⟨?_, ?_⟩, ?_⟩, ?_⟩ <;> rw [beq_eq_false_iff_ne] <;> rintro rfl <;> cases hdigit
    · rintro rfl
      cases hdigit

/-- A document starts with a visible character that closes no array. -/
theorem IsWritable.start {j : Json} (h : j.IsWritable) :
    ∃ c cs, j.write = c :: cs ∧ StartsDocument c := by
  cases h with
  | null => exact ⟨_, _, rfl, rfl, by decide⟩
  | bool b => cases b <;> exact ⟨_, _, rfl, rfl, by decide⟩
  | number h =>
    obtain ⟨c, cs, rfl, hc⟩ := h.head
    exact ⟨c, cs, rfl, startsDocument_of_number hc⟩
  | string h => exact ⟨_, _, rfl, rfl, by decide⟩
  | array h => exact ⟨_, _, rfl, rfl, by decide⟩
  | object hnames h => exact ⟨_, _, rfl, rfl, by decide⟩

/-! ## Steps of the reader -/

section Steps

variable {fuel : Nat} {cs rest name : List Char} {j : Json}

/-- A quote starts a text. -/
theorem readValue_quote (fuel : Nat) (cs : List Char) :
    readValue (fuel + 1) ('"' :: cs) =
      (readBody cs).map fun (body, rest) => (.string body, rest) := rfl

/-- Two brackets are an array without items. -/
theorem readValue_noItems (fuel : Nat) (cs : List Char) :
    readValue (fuel + 1) ('[' :: ']' :: cs) = some (.array [], cs) := rfl

/-- A bracket in front of a document starts an array with items. -/
theorem readValue_items {c : Char} (hc : StartsDocument c) (fuel : Nat) (cs : List Char) :
    readValue (fuel + 1) ('[' :: c :: cs) =
      (readItems fuel (c :: cs)).map fun (items, rest) => (.array items, rest) := by
  rw [readValue, skipSpace_cons rfl]
  simp only [skipSpace_cons hc.visible]
  split
  · next heq =>
    cases heq
    exact absurd rfl hc.notBracket
  · rfl

/-- Two braces are an object without members. -/
theorem readValue_noMembers (fuel : Nat) (cs : List Char) :
    readValue (fuel + 1) ('\x7b' :: '\x7d' :: cs) = some (.object [], cs) := rfl

/-- A brace in front of a quote starts an object with members. -/
theorem readValue_members (fuel : Nat) (cs : List Char) :
    readValue (fuel + 1) ('\x7b' :: '"' :: cs) =
      (readMembers fuel ('"' :: cs)).map fun (members, rest) => (.object members, rest) := rfl

/-- After a comma the items of an array go on. -/
theorem readItems_comma (h : readValue fuel cs = some (j, ',' :: rest)) :
    readItems (fuel + 1) cs =
      (readItems fuel rest).map fun (items, rest) => (j :: items, rest) := by
  rw [readItems, h]
  rfl

/-- A bracket closes an array. -/
theorem readItems_bracket (h : readValue fuel cs = some (j, ']' :: rest)) :
    readItems (fuel + 1) cs = some ([j], rest) := by
  rw [readItems, h]
  rfl

/-- After a comma the members of an object go on. -/
theorem readMembers_comma (hname : IsBody name)
    (h : readValue fuel cs = some (j, ',' :: rest)) :
    readMembers (fuel + 1) ('"' :: (name ++ '"' :: ':' :: cs)) =
      (readMembers fuel rest).map fun (members, rest) => ((name, j) :: members, rest) := by
  have hbody := hname (':' :: cs)
  simp only [readMembers, skipSpace_cons (c := '"') rfl, skipSpace_cons (c := ':') rfl, hbody, h]
  rfl

/-- A brace closes an object. -/
theorem readMembers_brace (hname : IsBody name)
    (h : readValue fuel cs = some (j, '\x7d' :: rest)) :
    readMembers (fuel + 1) ('"' :: (name ++ '"' :: ':' :: cs)) = some ([(name, j)], rest) := by
  have hbody := hname (':' :: cs)
  simp only [readMembers, skipSpace_cons (c := '"') rfl, skipSpace_cons (c := ':') rfl, hbody, h]
  rfl

end Steps

/-! ## Reading -/

/-- A document is read off the front of a text, given fuel for its characters. -/
def ReadsBack (j : Json) : Prop :=
  ∀ fuel rest, j.write.length < fuel → EndsNumber rest →
    readValue fuel (j.write ++ rest) = some (j, rest)

/-- A number is read off the front of a text. -/
theorem readsBack_number {lexeme : List Char} (h : IsNumeral lexeme) :
    ReadsBack (.number lexeme) := by
  intro fuel rest hfuel hrest
  obtain ⟨fuel, rfl⟩ : ∃ n, fuel = n + 1 := ⟨fuel - 1, by omega⟩
  obtain ⟨c, cs, rfl, hc⟩ := h.head
  have hnumber := h.readNumber?_append hrest
  have hne : c ≠ 'n' ∧ c ≠ 't' ∧ c ≠ 'f' ∧ c ≠ '"' ∧ c ≠ '[' ∧ c ≠ '\x7b' := by
    refine ⟨?_, ?_, ?_, ?_, ?_, ?_⟩ <;> rintro rfl <;> rcases hc with hc | hc <;> cases hc
  obtain ⟨hn, ht, hf, hquote, hbracket, hbrace⟩ := hne
  rw [List.cons_append] at hnumber
  rw [write, List.cons_append, readValue, skipSpace_cons (startsDocument_of_number hc).visible]
  -- None of the other tokens starts with a minus or a digit.
  split
  · next heq => exact absurd (List.cons.inj heq).1 hn
  · next heq => exact absurd (List.cons.inj heq).1 ht
  · next heq => exact absurd (List.cons.inj heq).1 hf
  · next heq => exact absurd (List.cons.inj heq).1 hquote
  · next heq => exact absurd (List.cons.inj heq).1 hbracket
  · next heq => exact absurd (List.cons.inj heq).1 hbrace
  · rw [hnumber]
    rfl

/-- A text is read off the front of a text. -/
theorem readsBack_string {body : List Char} (h : IsBody body) : ReadsBack (.string body) := by
  intro fuel rest hfuel hrest
  obtain ⟨fuel, rfl⟩ : ∃ n, fuel = n + 1 := ⟨fuel - 1, by omega⟩
  rw [write, List.cons_append, List.append_assoc, List.singleton_append, readValue_quote, h rest]
  rfl

/-- Items are written one after another with commas between them. -/
theorem separated_writeItems (j k : Json) (items : List Json) :
    separated (writeItems (j :: k :: items)) =
      j.write ++ ',' :: separated (writeItems (k :: items)) := rfl

/-- Items are read off the front of a text up to the closing bracket. -/
theorem readItems_separated {items : List Json} (hne : items ≠ [])
    (hread : ∀ j ∈ items, ReadsBack j) {fuel : Nat}
    (hfuel : (separated (writeItems items)).length + 1 < fuel) (rest : List Char) :
    readItems fuel (separated (writeItems items) ++ ']' :: rest) = some (items, rest) := by
  induction items generalizing fuel with
  | nil => exact absurd rfl hne
  | cons j items ih =>
    obtain ⟨hj, hitems⟩ := List.forall_mem_cons.mp hread
    obtain ⟨fuel, rfl⟩ : ∃ n, fuel = n + 1 := ⟨fuel - 1, by omega⟩
    cases items with
    | nil =>
      rw [writeItems, writeItems, separated] at hfuel ⊢
      exact readItems_bracket (hj fuel _ (by omega) (endsNumber_cons (by decide) rest))
    | cons k items =>
      rw [separated_writeItems, List.length_append, List.length_cons] at hfuel
      rw [separated_writeItems, List.append_assoc, List.cons_append,
        readItems_comma (hj fuel _ (by omega) (endsNumber_cons (by decide) _)),
        ih (by nofun) hitems (by omega)]
      rfl

/-- Members are read off the front of a text up to the closing brace. -/
theorem readMembers_separated {members : List (List Char × Json)} (hne : members ≠ [])
    (hnames : ∀ m ∈ members, IsBody m.1) (hread : ∀ m ∈ members, ReadsBack m.2) {fuel : Nat}
    (hfuel : (separated (writeMembers members)).length + 1 < fuel) (rest : List Char) :
    readMembers fuel (separated (writeMembers members) ++ '\x7d' :: rest) =
      some (members, rest) := by
  induction members generalizing fuel with
  | nil => exact absurd rfl hne
  | cons m members ih =>
    obtain ⟨name, j⟩ := m
    obtain ⟨hname, hnames⟩ := List.forall_mem_cons.mp hnames
    obtain ⟨hj, hmembers⟩ := List.forall_mem_cons.mp hread
    replace hj : ReadsBack j := hj
    obtain ⟨fuel, rfl⟩ : ∃ n, fuel = n + 1 := ⟨fuel - 1, by omega⟩
    cases members with
    | nil =>
      have htext : separated (writeMembers [(name, j)]) ++ '\x7d' :: rest =
          '"' :: (name ++ '"' :: ':' :: (j.write ++ '\x7d' :: rest)) := by
        simp [separated]
      have hlength : j.write.length ≤ (separated (writeMembers [(name, j)])).length := by
        simp only [writeMembers, separated, List.length_cons, List.length_append]
        omega
      rw [htext]
      exact readMembers_brace hname (hj fuel _ (by omega) (endsNumber_cons (by decide) rest))
    | cons k members =>
      have htext : separated (writeMembers ((name, j) :: k :: members)) ++ '\x7d' :: rest =
          '"' :: (name ++ '"' :: ':' :: (j.write ++
            ',' :: (separated (writeMembers (k :: members)) ++ '\x7d' :: rest))) := by
        simp [separated]
      have hlength : j.write.length + (separated (writeMembers (k :: members))).length + 1 ≤
          (separated (writeMembers ((name, j) :: k :: members))).length := by
        simp only [writeMembers, separated, List.length_cons, List.length_append]
        omega
      rw [htext, readMembers_comma hname
        (hj fuel _ (by omega) (endsNumber_cons (by decide) _)),
        ih (by nofun) hnames hmembers (by omega)]
      rfl

/-- A well-formed document is read off the front of a text. -/
theorem IsWritable.readsBack {j : Json} (h : j.IsWritable) : ReadsBack j := by
  induction h with
  | null =>
    intro fuel rest hfuel hrest
    obtain ⟨fuel, rfl⟩ : ∃ n, fuel = n + 1 := ⟨fuel - 1, by omega⟩
    rfl
  | bool b =>
    intro fuel rest hfuel hrest
    obtain ⟨fuel, rfl⟩ : ∃ n, fuel = n + 1 := ⟨fuel - 1, by omega⟩
    cases b <;> rfl
  | number h => exact readsBack_number h
  | string h => exact readsBack_string h
  | @array items h ih =>
    intro fuel rest hfuel hrest
    obtain ⟨fuel, rfl⟩ : ∃ n, fuel = n + 1 := ⟨fuel - 1, by omega⟩
    rw [write, List.length_cons, List.length_append, List.length_singleton] at hfuel
    rw [write, List.cons_append, List.append_assoc, List.singleton_append]
    cases items with
    | nil => exact readValue_noItems fuel rest
    | cons j items =>
      have hlength : (separated (writeItems (j :: items))).length + 1 < fuel := by omega
      have hitems := readItems_separated (by nofun) ih hlength rest
      obtain ⟨c, cs, hwrite, hc⟩ := (h j List.mem_cons_self).start
      obtain ⟨tail, htail⟩ : ∃ tail, separated (writeItems (j :: items)) ++ ']' :: rest =
          c :: tail := by
        cases items with
        | nil =>
          have htext : separated (writeItems [j]) = j.write := rfl
          exact ⟨_, by rw [htext, hwrite]; rfl⟩
        | cons k items =>
          exact ⟨_, by rw [separated_writeItems, hwrite]; rfl⟩
      rw [htail] at hitems ⊢
      rw [readValue_items hc, hitems]
      rfl
  | @object members hnames h ih =>
    intro fuel rest hfuel hrest
    obtain ⟨fuel, rfl⟩ : ∃ n, fuel = n + 1 := ⟨fuel - 1, by omega⟩
    rw [write, List.length_cons, List.length_append, List.length_singleton] at hfuel
    rw [write, List.cons_append, List.append_assoc, List.singleton_append]
    cases members with
    | nil => exact readValue_noMembers fuel rest
    | cons m members =>
      have hlength : (separated (writeMembers (m :: members))).length + 1 < fuel := by omega
      have hmembers := readMembers_separated (by nofun) hnames ih hlength rest
      obtain ⟨tail, htail⟩ : ∃ tail, separated (writeMembers (m :: members)) ++ '\x7d' :: rest =
          '"' :: tail := by
        cases members with
        | nil => exact ⟨_, rfl⟩
        | cons k members => exact ⟨_, rfl⟩
      rw [htail] at hmembers ⊢
      rw [readValue_members, hmembers]
      rfl

/-- A well-formed document is read back from its text. -/
theorem IsWritable.read?_toText {j : Json} (h : j.IsWritable) : read? j.toText = some j := by
  have hread := h.readsBack (j.toText.length + 1) [] (by simp [toText]) endsNumber_nil
  rw [List.append_nil] at hread
  rw [read?, toText, String.toList_ofList, ← toText, hread]
  rfl

end QueryRelay.Json
