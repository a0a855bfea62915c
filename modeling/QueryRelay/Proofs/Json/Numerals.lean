import Mathlib.Data.List.TakeWhile
import QueryRelay.Json.Number

/-!
# Written numbers

A number is read off the front of a text together with what cannot go on with it, and what is
written for an integer denotes that integer. Main statements: a number that the reader takes whole
is taken whole in front of any character that ends numbers, and integers of 64 bits, signed or
not, are read back from their documents.
-/

namespace QueryRelay.Json

variable {lexeme cs ds rest left : List Char}

/-! ## Digits -/

/-- No digit stands in front of a text. -/
def NoDigit (cs : List Char) : Prop := ∀ c, cs.head? = some c → c.isDigit = false

/-- A text after which a number cannot go on. -/
structure EndsNumber (rest : List Char) : Prop where
  /-- No digit stands in front. -/
  noDigit : NoDigit rest
  /-- No point stands in front. -/
  noPoint : rest.head? ≠ some '.'
  /-- No exponent stands in front. -/
  noExponent : rest.head? ≠ some 'e' ∧ rest.head? ≠ some 'E'

/-- The end of a text ends a number. -/
theorem endsNumber_nil : EndsNumber [] := ⟨nofun, nofun, nofun, nofun⟩

/-- No digits are split off a text that starts with none. -/
theorem NoDigit.takeWhile (h : NoDigit rest) : rest.takeWhile Char.isDigit = [] := by
  cases rest with
  | nil => rfl
  | cons c rest => rw [List.takeWhile_cons, h c rfl]; rfl

/-- A text that starts with no digit is left as it is when digits are dropped. -/
theorem NoDigit.dropWhile (h : NoDigit rest) : rest.dropWhile Char.isDigit = rest := by
  cases rest with
  | nil => rfl
  | cons c rest => rw [List.dropWhile_cons, h c rfl]; rfl

/-- Digits are read off the front of a text as before when something follows it that starts with no
digit. -/
theorem readDigits?_append (h : readDigits? cs = some (ds, left)) (hrest : NoDigit rest) :
    readDigits? (cs ++ rest) = some (ds, left ++ rest) := by
  have htake : (cs ++ rest).takeWhile Char.isDigit = cs.takeWhile Char.isDigit := by
    rw [List.takeWhile_append, hrest.takeWhile, List.append_nil]
    split
    · next hall =>
      exact ((List.takeWhile_prefix Char.isDigit).eq_of_length hall).symm
    · rfl
  have hdrop : (cs ++ rest).dropWhile Char.isDigit = cs.dropWhile Char.isDigit ++ rest := by
    rw [List.dropWhile_append, hrest.dropWhile]
    split
    · next hall => rw [List.isEmpty_iff.mp hall, List.nil_append]
    · rfl
  rw [readDigits?] at h ⊢
  rw [htake, hdrop]
  split at h
  · cases h
  · next hsome =>
    cases h
    rw [if_neg hsome]

/-! ## Numbers in front of a text -/

/-- A whole part is read as before when something follows that ends numbers. -/
theorem readWhole?_append (h : readWhole? cs = some (ds, left)) (hrest : EndsNumber rest) :
    readWhole? (cs ++ rest) = some (ds, left ++ rest) := by
  unfold readWhole? at h
  split at h
  · split at h
    · next c tail =>
      split at h
      · cases h
      · next hdigit =>
        cases h
        simp only [List.cons_append, readWhole?, if_neg hdigit]
    · cases h
      cases rest with
      | nil => rfl
      | cons c rest =>
        simp only [List.cons_append, List.nil_append, readWhole?, hrest.noDigit c rfl,
          Bool.false_eq_true, if_false]
  · next hzero =>
    have hread := readDigits?_append h hrest.noDigit
    cases cs with
    | nil =>
      rw [readDigits?] at h
      cases h
    | cons c cs =>
      rw [List.cons_append] at hread ⊢
      unfold readWhole?
      split
      · next heq =>
        cases heq
        exact absurd rfl (hzero cs)
      · exact hread

/-- A fraction is read as before when something follows that ends numbers. -/
theorem readFraction?_append (h : readFraction? cs = some (ds, left)) (hrest : EndsNumber rest) :
    readFraction? (cs ++ rest) = some (ds, left ++ rest) := by
  unfold readFraction? at h
  split at h
  · obtain ⟨⟨digits, tail⟩, hread, heq⟩ := Option.map_eq_some_iff.mp h
    cases heq
    rw [List.cons_append, readFraction?, readDigits?_append hread hrest.noDigit]
    rfl
  · next hpoint =>
    cases h
    unfold readFraction?
    split
    · next tail heq =>
      cases cs with
      | nil =>
        rw [List.nil_append] at heq
        rw [heq] at hrest
        exact absurd rfl hrest.noPoint
      | cons c cs =>
        cases heq
        exact absurd rfl (hpoint cs)
    · rfl

/-- An exponent is read as before when something follows that ends numbers. -/
theorem readExponent?_append (h : readExponent? cs = some (ds, left)) (hrest : EndsNumber rest) :
    readExponent? (cs ++ rest) = some (ds, left ++ rest) := by
  cases cs with
  | nil =>
    cases h
    cases rest with
    | nil => rfl
    | cons c rest =>
      have hno : ¬ (c = 'e' ∨ c = 'E') := by
        rintro (rfl | rfl)
        · exact hrest.noExponent.1 rfl
        · exact hrest.noExponent.2 rfl
      simp only [List.nil_append, readExponent?, if_neg hno]
  | cons c cs =>
    unfold readExponent? at h ⊢
    rw [List.cons_append]
    dsimp only at h ⊢
    split at h
    · next hmark =>
      rw [if_pos hmark]
      cases cs with
      | nil => cases h
      | cons s cs =>
        rw [List.cons_append]
        dsimp only at h ⊢
        split at h
        · next hsign =>
          obtain ⟨⟨digits, tail⟩, hread, heq⟩ := Option.map_eq_some_iff.mp h
          cases heq
          rw [if_pos hsign, readDigits?_append hread hrest.noDigit]
          rfl
        · next hsign =>
          obtain ⟨⟨digits, tail⟩, hread, heq⟩ := Option.map_eq_some_iff.mp h
          cases heq
          have happend := readDigits?_append hread hrest.noDigit
          rw [List.cons_append] at happend
          rw [if_neg hsign, happend]
          rfl
    · next hmark =>
      cases h
      rw [if_neg hmark]
      rfl

/-- The parts of a number after its sign. -/
def readUnsigned? (sign cs : List Char) : Option (List Char × List Char) := do
  let (whole, cs) ← readWhole? cs
  let (fraction, cs) ← readFraction? cs
  let (exponent, cs) ← readExponent? cs
  return (sign ++ whole ++ fraction ++ exponent, cs)

/-- A minus in front is the sign. -/
theorem readNumber?_minus (cs : List Char) :
    readNumber? ('-' :: cs) = readUnsigned? ['-'] cs := rfl

/-- Without a minus in front there is no sign. -/
theorem readNumber?_of_ne (h : cs.head? ≠ some '-') : readNumber? cs = readUnsigned? [] cs := by
  cases cs with
  | nil => rfl
  | cons c cs =>
    have hminus : c ≠ '-' := fun heq => h (congrArg some heq)
    unfold readNumber?
    split
    next heq =>
      split at heq
      · next hcons =>
        cases hcons
        exact absurd rfl hminus
      · cases heq
        rfl

/-- The parts after the sign are read as before when something follows that ends numbers. -/
theorem readUnsigned?_append {sign : List Char} (h : readUnsigned? sign cs = some (ds, left))
    (hrest : EndsNumber rest) : readUnsigned? sign (cs ++ rest) = some (ds, left ++ rest) := by
  obtain ⟨⟨whole, tail⟩, hwhole, h⟩ := Option.bind_eq_some_iff.mp h
  obtain ⟨⟨fraction, tail⟩, hfraction, h⟩ := Option.bind_eq_some_iff.mp h
  obtain ⟨⟨exponent, tail⟩, hexponent, h⟩ := Option.bind_eq_some_iff.mp h
  cases h
  rw [readUnsigned?, readWhole?_append hwhole hrest]
  simp only [Option.bind_eq_bind, Option.bind_some, readFraction?_append hfraction hrest,
    readExponent?_append hexponent hrest]
  rfl

/-- Nothing is no whole part. -/
theorem readUnsigned?_nil (sign : List Char) : readUnsigned? sign [] = none := rfl

/-- A number is read as before when something follows that ends numbers. -/
theorem readNumber?_append (h : readNumber? cs = some (ds, left)) (hrest : EndsNumber rest) :
    readNumber? (cs ++ rest) = some (ds, left ++ rest) := by
  by_cases hminus : cs.head? = some '-'
  · obtain ⟨tail, rfl⟩ := List.head?_eq_some_iff.mp hminus
    rw [readNumber?_minus] at h
    rw [List.cons_append, readNumber?_minus]
    exact readUnsigned?_append h hrest
  · rw [readNumber?_of_ne hminus] at h
    have hfront : (cs ++ rest).head? ≠ some '-' := by
      cases cs with
      | nil =>
        rw [readUnsigned?_nil] at h
        cases h
      | cons c cs => exact hminus
    rw [readNumber?_of_ne hfront]
    exact readUnsigned?_append h hrest

/-- A text that is a number: the reader takes it whole. -/
def IsNumeral (lexeme : List Char) : Prop := readNumber? lexeme = some (lexeme, [])

instance : DecidablePred IsNumeral := fun lexeme =>
  inferInstanceAs (Decidable (readNumber? lexeme = some (lexeme, [])))

/-- A number is read off the front of a text that goes on with something else. -/
theorem IsNumeral.readNumber?_append (h : IsNumeral lexeme) (hrest : EndsNumber rest) :
    readNumber? (lexeme ++ rest) = some (lexeme, rest) :=
  Json.readNumber?_append h hrest

/-- A number starts with a minus or a digit. -/
theorem IsNumeral.head (h : IsNumeral lexeme) :
    ∃ c cs, lexeme = c :: cs ∧ (c = '-' ∨ c.isDigit = true) := by
  cases lexeme with
  | nil => cases h
  | cons c cs =>
    refine ⟨c, cs, rfl, ?_⟩
    by_cases hminus : c = '-'
    · exact .inl hminus
    · have hfront : (c :: cs).head? ≠ some '-' := fun h => hminus (Option.some.inj h)
      rw [IsNumeral, readNumber?_of_ne hfront] at h
      obtain ⟨⟨whole, tail⟩, hwhole, -⟩ := Option.bind_eq_some_iff.mp h
      unfold readWhole? at hwhole
      split at hwhole
      · next heq =>
        cases heq
        exact .inr rfl
      · rw [readDigits?] at hwhole
        split at hwhole
        · cases hwhole
        · next hsome =>
          rw [List.takeWhile_cons] at hsome
          split at hsome
          · next hdigit => exact .inr hdigit
          · exact absurd rfl hsome

/-! ## Integers -/

/-- The decimal digits of a natural are digits. -/
theorem isDigit_of_mem_toDigits {n : Nat} {c : Char} (h : c ∈ Nat.toDigits 10 n) :
    c.isDigit = true :=
  Nat.isDigit_of_mem_toDigits (by decide) (by decide) h

/-- The first decimal digit of a natural is zero only for zero. -/
theorem head?_toDigits_ne {n : Nat} (h : 0 < n) : (Nat.toDigits 10 n).head? ≠ some '0' := by
  induction n using Nat.base_induction 10 (by decide) with
  | single m hm =>
    rw [Nat.toDigits_of_lt_base hm, List.head?_cons, ne_eq, Option.some.injEq,
      Nat.digitChar_eq_zero]
    omega
  | digit m k hk hm ih =>
    rw [← Nat.toDigits_append_toDigits (by decide) hm hk, List.head?_append,
      List.head?_eq_some_head Nat.toDigits_ne_nil, Option.some_or,
      ← List.head?_eq_some_head Nat.toDigits_ne_nil]
    exact ih hm

/-- The digits of a natural are read as a whole part. -/
theorem readWhole?_toDigits (n : Nat) :
    readWhole? (Nat.toDigits 10 n) = some (Nat.toDigits 10 n, []) := by
  rcases Nat.eq_zero_or_pos n with rfl | hpos
  · rfl
  · have hall : ∀ c ∈ Nat.toDigits 10 n, c.isDigit = true := fun c => isDigit_of_mem_toDigits
    have hnonempty : (Nat.toDigits 10 n).isEmpty = false := by
      rw [List.isEmpty_eq_false_iff]
      exact Nat.toDigits_ne_nil
    unfold readWhole?
    split
    · next heq => exact absurd (congrArg List.head? heq) (head?_toDigits_ne hpos)
    · rw [readDigits?, List.takeWhile_eq_self_iff.mpr hall, List.dropWhile_eq_nil_iff.mpr hall]
      rw [hnonempty]
      rfl

/-- The digits of a natural, with a sign in front, are read whole. -/
theorem readUnsigned?_toDigits (sign : List Char) (n : Nat) :
    readUnsigned? sign (Nat.toDigits 10 n) = some (sign ++ Nat.toDigits 10 n, []) := by
  rw [readUnsigned?, readWhole?_toDigits]
  simp [readFraction?, readExponent?]

/-- What is written for a natural is a number. -/
theorem isNumeral_toDigits (n : Nat) : IsNumeral (Nat.toDigits 10 n) := by
  have hminus : (Nat.toDigits 10 n).head? ≠ some '-' := fun h => by
    have hdigit := isDigit_of_mem_toDigits (List.mem_of_head? h)
    cases hdigit
  rw [IsNumeral, readNumber?_of_ne hminus, readUnsigned?_toDigits, List.nil_append]

/-- What is written for a negative integer is a number. -/
theorem isNumeral_minus (n : Nat) : IsNumeral ('-' :: Nat.toDigits 10 n) := by
  rw [IsNumeral, readNumber?_minus, readUnsigned?_toDigits, List.singleton_append]

namespace Numeral

/-- Digits are all appended to a significand when the result fits. -/
theorem appendDigits_eq {n : Nat} (h : Nat.ofDigitChars 10 cs n ≤ maxSignificand) :
    appendDigits n cs = (Nat.ofDigitChars 10 cs n, []) := by
  induction cs generalizing n with
  | nil => rfl
  | cons c cs ih =>
    rw [Nat.ofDigitChars_cons] at h ⊢
    have hle : 10 * n + digit c ≤ Nat.ofDigitChars 10 cs (10 * n + digit c) := by
      rw [Nat.ofDigitChars_eq_ofDigitChars_zero]
      exact Nat.le_add_right_of_le (Nat.le_mul_of_pos_left _ (Nat.pow_pos (by decide)))
    rw [appendDigits, if_pos (Nat.le_trans hle h)]
    exact ih h

/-- The digits of a natural that fits give the natural. -/
theorem appendDigits_toDigits {n : Nat} (h : n ≤ maxSignificand) :
    appendDigits 0 (Nat.toDigits 10 n) = (n, []) := by
  rw [appendDigits_eq (by rwa [Nat.ofDigitChars_ten_toDigits]), Nat.ofDigitChars_ten_toDigits]

/-- A text of digits is split into all its digits and nothing. -/
theorem span_toDigits (n : Nat) :
    (Nat.toDigits 10 n).takeWhile Char.isDigit = Nat.toDigits 10 n ∧
      (Nat.toDigits 10 n).dropWhile Char.isDigit = [] := by
  have hall : ∀ c ∈ Nat.toDigits 10 n, c.isDigit = true := fun c => isDigit_of_mem_toDigits
  exact ⟨List.takeWhile_eq_self_iff.mpr hall, List.dropWhile_eq_nil_iff.mpr hall⟩

/-- What is written for a natural that fits denotes it. -/
theorem read?_toDigits {n : Nat} (h : n ≤ maxSignificand) :
    read? (Nat.toDigits 10 n) = some (.natural (.ofNat n)) := by
  obtain ⟨htake, hdrop⟩ := span_toDigits n
  unfold read?
  split
  next heq =>
    split at heq
    · next hcons =>
      have hdigit := isDigit_of_mem_toDigits (n := n) (hcons ▸ List.mem_cons_self)
      cases hdigit
    · cases heq
      simp [htake, hdrop, appendDigits_toDigits h]

/-- What is written for a negative integer of 64 bits denotes it. -/
theorem read?_minus {n : Nat} (hpos : 0 < n) (h : n ≤ 9223372036854775808) :
    read? ('-' :: Nat.toDigits 10 n) = some (.negative (.ofInt (-(n : Int)))) := by
  obtain ⟨htake, hdrop⟩ := span_toDigits n
  have hfits : n ≤ maxSignificand := Nat.le_trans h (by decide)
  have hrange : ¬ (n = 0 ∨ 9223372036854775808 < n) := by omega
  simp [read?, htake, hdrop, appendDigits_toDigits hfits, hrange]

end Numeral

/-- An unsigned integer of 64 bits is read back from its document. -/
theorem uint64?_ofNat (n : UInt64) : (ofNat n.toNat).uint64? = some n := by
  have hfits : n.toNat ≤ Numeral.maxSignificand := Nat.le_of_lt_succ n.toNat_lt
  rw [uint64?, ofNat, numeral?, Numeral.read?_toDigits hfits, UInt64.ofNat_toNat]

/-- A signed integer that is not negative is small as an unsigned one, which denotes it. -/
theorem ofNat_word {n : Int64} (h : ¬ n.toInt < 0) :
    (UInt64.ofNat n.toInt.toNat).toNat ≤ 9223372036854775807 ∧
      Int64.ofNat (UInt64.ofNat n.toInt.toNat).toNat = n := by
  have hhigh := n.toInt_lt
  have hnat : (n.toInt.toNat : Int) = n.toInt := by omega
  have hspace : n.toInt.toNat < UInt64.size := by
    rw [UInt64.size]
    omega
  rw [UInt64.toNat_ofNat_of_lt' hspace]
  refine ⟨by omega, ?_⟩
  rw [← Int64.ofInt_eq_ofNat, hnat, Int64.ofInt_toInt]

/-- A signed integer of 64 bits is read back from its document. -/
theorem int64?_ofInt (n : Int64) : (ofInt n.toInt).int64? = some n := by
  have hlow := n.le_toInt
  have hhigh := n.toInt_lt
  rw [int64?, ofInt]
  by_cases hneg : n.toInt < 0
  · have hnat : (n.toInt.natAbs : Int) = -n.toInt := by omega
    rw [if_pos hneg, numeral?, Numeral.read?_minus (by omega) (by omega), hnat, Int.neg_neg,
      Int64.ofInt_toInt]
  · have hfits : n.toInt.toNat ≤ Numeral.maxSignificand := by
      rw [Numeral.maxSignificand]
      omega
    obtain ⟨hsmall, hword⟩ := ofNat_word hneg
    rw [if_neg hneg, numeral?, Numeral.read?_toDigits hfits]
    dsimp only
    rw [if_pos hsmall, hword]

end QueryRelay.Json
