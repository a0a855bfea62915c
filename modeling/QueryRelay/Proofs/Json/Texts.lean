import QueryRelay.Json.Text

/-!
# Written texts

What is written for a text stands between quotes without being mistaken for their end, and means
the text. Main statements: the written form is read up to the closing quote, whatever follows, and
the text is read back from it.
-/

namespace QueryRelay.Json

/-! ## Escapes -/

/-- The values of hexadecimal digits are read back. -/
theorem hexValue_hexDigit (n : Nat) : hexValue (hexDigit n) = n % 16 := by
  have hall : ∀ d, d < 16 → hexValue (Nat.digitChar d) = d := by decide
  exact hall (n % 16) (Nat.mod_lt n (by decide))

/-- Hexadecimal digits are such. -/
theorem isHex_hexDigit (n : Nat) : isHex (hexDigit n) = true := by
  have hall : ∀ d, d < 16 → isHex (Nat.digitChar d) = true := by decide
  exact hall (n % 16) (Nat.mod_lt n (by decide))

/-- The four digits for a control character have its code. -/
theorem codeOf_control {n : Nat} (h : n < 32) :
    codeOf '0' '0' (hexDigit (n / 16)) (hexDigit n) = n := by
  have hzero : hexValue '0' = 0 := rfl
  rw [codeOf, hexValue_hexDigit, hexValue_hexDigit, hzero]
  omega

/-- How a character is written: as a backslash and a character that stands for it, as a backslash
and a code, or as itself. -/
inductive Escaped (c : Char) : Prop
  /-- A backslash and one character. -/
  | short (e : Char) (h : escapeChar c = ['\\', e]) (hescape : isEscape e = true)
      (hmeans : escapedChar e = c)
  /-- A backslash and the code of a control character. -/
  | code (hcontrol : c.toNat < 32)
      (h : escapeChar c = ['\\', 'u', '0', '0', hexDigit (c.toNat / 16), hexDigit c.toNat])
  /-- The character itself. -/
  | plain (h : escapeChar c = [c]) (hquote : c ≠ '"') (hbackslash : c ≠ '\\')
      (hvisible : ¬ c < ' ')

/-- Every character is written in one of the three ways. -/
theorem escaped (c : Char) : Escaped c := by
  by_cases hquote : c = '"'
  · exact .short '"' (by rw [hquote]; rfl) rfl hquote.symm
  by_cases hbackslash : c = '\\'
  · exact .short '\\' (by rw [hbackslash]; rfl) rfl hbackslash.symm
  by_cases hb : c = '\x08'
  · exact .short 'b' (by rw [hb]; rfl) rfl hb.symm
  by_cases hf : c = '\x0c'
  · exact .short 'f' (by rw [hf]; rfl) rfl hf.symm
  by_cases hn : c = '\n'
  · exact .short 'n' (by rw [hn]; rfl) rfl hn.symm
  by_cases hr : c = '\r'
  · exact .short 'r' (by rw [hr]; rfl) rfl hr.symm
  by_cases ht : c = '\t'
  · exact .short 't' (by rw [ht]; rfl) rfl ht.symm
  have hrest : escapeChar c = if c < ' ' then
      ['\\', 'u', '0', '0', hexDigit (c.toNat / 16), hexDigit c.toNat] else [c] := by
    rw [escapeChar, if_neg hquote, if_neg hbackslash, if_neg hb, if_neg hf, if_neg hn, if_neg hr,
      if_neg ht]
  by_cases hvisible : c < ' '
  · exact .code hvisible (hrest.trans (if_pos hvisible))
  · exact .plain (hrest.trans (if_neg hvisible)) hquote hbackslash hvisible

/-! ## Reading up to the quote -/

/-- What is written for a character is passed over. -/
theorem readBody_escapeChar (c : Char) (cs : List Char) :
    readBody (escapeChar c ++ cs) =
      (readBody cs).map fun (body, rest) => (escapeChar c ++ body, rest) := by
  cases escaped c with
  | short e h hescape hmeans =>
    rw [h]
    have hu : e ≠ 'u' := by
      rintro rfl
      cases hescape
    simp only [List.cons_append, List.nil_append]
    rw [readBody]
    · rw [if_pos hescape]
    · rintro a b c d rest rfl
      exact absurd rfl hu
  | code hcontrol h =>
    rw [h]
    simp only [List.cons_append, List.nil_append, readBody, isHex_hexDigit]
    rfl
  | plain h hquote hbackslash hvisible =>
    rw [h, List.singleton_append, readBody.eq_def]
    split
    · next heq => cases heq
    · next heq =>
      cases heq
      exact absurd rfl hquote
    · next heq =>
      cases heq
      exact absurd rfl hbackslash
    · next heq =>
      cases heq
      exact absurd rfl hbackslash
    · next heq =>
      cases heq
      rw [if_neg (not_or.mpr ⟨hbackslash, hvisible⟩)]
      rfl

/-- What stands between two quotes: the reader comes to the second one whatever follows it. -/
def IsBody (body : List Char) : Prop :=
  ∀ rest, readBody (body ++ '"' :: rest) = some (body, rest)

/-- What is written for a text stands between quotes. -/
theorem isBody_escape (cs : List Char) : IsBody (escape cs) := by
  intro rest
  induction cs with
  | nil => rfl
  | cons c cs ih =>
    rw [escape, List.flatMap_cons, List.append_assoc, readBody_escapeChar]
    rw [escape] at ih
    rw [ih]
    rfl

/-! ## Meaning -/

/-- What is written for a character means the character, whatever follows. -/
theorem unescape_escapeChar (c : Char) (cs : List Char) :
    unescape (escapeChar c ++ cs) = (unescape cs).map (c :: ·) := by
  cases escaped c with
  | short e h hescape hmeans =>
    have hu : e ≠ 'u' := by
      rintro rfl
      cases hescape
    rw [h, List.cons_append, List.singleton_append, unescape.eq_def]
    split
    · next heq => cases heq
    · next heq =>
      cases heq
      exact absurd rfl hu
    · next heq =>
      cases heq
      exact absurd rfl hu
    · next heq =>
      cases heq
      rw [hmeans]
    · next hescaped heq =>
      cases heq
      exact (hescaped e cs rfl rfl).elim
  | code hcontrol h =>
    have hcode := codeOf_control hcontrol
    have hlow : isLowSurrogate c.toNat = false := by
      rw [isLowSurrogate, decide_eq_false (by omega), Bool.false_and]
    have hhigh : isHighSurrogate c.toNat = false := by
      rw [isHighSurrogate, decide_eq_false (by omega), Bool.false_and]
    rw [h]
    simp only [List.cons_append, List.nil_append]
    rw [unescape.eq_def]
    -- A second code may follow; the first is no half of a pair.
    split
    · next heq => cases heq
    · next heq =>
      cases heq
      simp only [hcode, hlow, hhigh, Bool.false_eq_true, if_false, Char.ofNat_toNat]
    · next heq =>
      cases heq
      simp only [hcode, hlow, hhigh, Bool.or_self, Bool.false_eq_true, if_false, Char.ofNat_toNat]
    · next hcodes heq =>
      cases heq
      exact (hcodes _ _ _ _ _ rfl rfl).elim
    · next hescaped heq =>
      cases heq
      exact (hescaped _ _ rfl rfl).elim
  | plain h hquote hbackslash hvisible =>
    rw [h, List.singleton_append, unescape.eq_def]
    split
    · next heq => cases heq
    · next heq =>
      cases heq
      exact absurd rfl hbackslash
    · next heq =>
      cases heq
      exact absurd rfl hbackslash
    · next heq =>
      cases heq
      exact absurd rfl hbackslash
    · next heq =>
      cases heq
      rfl

/-- A text is read back from what is written for it. -/
theorem unescape_escape (cs : List Char) : unescape (escape cs) = some cs := by
  induction cs with
  | nil => rfl
  | cons c cs ih =>
    rw [escape] at ih ⊢
    rw [List.flatMap_cons, unescape_escapeChar, ih, Option.map_some]

/-- A text is read back from its body. -/
theorem bodyText?_escape (s : String) : bodyText? (escape s.toList) = some s := by
  rw [bodyText?, unescape_escape, Option.map_some, String.ofList_toList]

end QueryRelay.Json
