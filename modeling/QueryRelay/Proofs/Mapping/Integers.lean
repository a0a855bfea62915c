import Mathlib.Data.List.Induction
import Mathlib.Data.List.TakeWhile
import Mathlib.Data.Nat.Digits.Defs
import Mathlib.Data.Rat.Cast.Order
import Mathlib.Tactic.FieldSimp
import Mathlib.Tactic.Linarith
import QueryRelay.Mapping.Basic

/-!
# Integers out of raw values

Which integer a raw value denotes: an integer denotes itself, a finite floating-point number its
value if that is whole, and a text the numeral that is left of it without the white space at its
ends. Main statement: a result of an integer type is the integer that the value denotes, and there
is one exactly when that integer lies in the type and within signed 64 bits; everything else is
refused as a mismatch. Nothing is truncated or wrapped, but the upper half of the two widest types
is out of reach of texts and floating-point numbers.
-/

namespace QueryRelay

/-! ## Trimmed texts -/

namespace Text

variable {s : String} {front body back : List Char}

/-- White space in front of a solid character is removed. -/
theorem dropWhile_isBlank_append (hfront : ∀ c ∈ front, isBlank c = true)
    (hbody : ∀ c ∈ body.head?, isBlank c = false) :
    (front ++ body).dropWhile isBlank = body := by
  rw [List.dropWhile_append_of_pos hfront]
  cases body with
  | nil => rfl
  | cons c rest => simp [hbody c rfl]

/-- What is left of a text between white space, when its own ends are solid. -/
theorem trim_toList (hs : s.toList = front ++ body ++ back)
    (hfront : ∀ c ∈ front, isBlank c = true) (hback : ∀ c ∈ back, isBlank c = true)
    (hne : body ≠ []) (hbody : ∀ c ∈ body, isBlank c = false) : (trim s).toList = body := by
  have hhead : ∀ c ∈ (body ++ back).head?, isBlank c = false := by
    intro c hc
    rw [List.head?_append_of_ne_nil _ hne] at hc
    exact hbody c (List.mem_of_mem_head? hc)
  have hlast : ∀ c ∈ body.reverse.head?, isBlank c = false := fun c hc =>
    hbody c (List.mem_reverse.mp (List.mem_of_mem_head? hc))
  rw [trim, String.toList_ofList, trimStart, hs, List.append_assoc,
    dropWhile_isBlank_append hfront hhead, trimEnd, List.reverse_append,
    dropWhile_isBlank_append (fun c hc => hback c (List.mem_reverse.mp hc)) hlast,
    List.reverse_reverse]

/-- A text is what is left of it, between white space. -/
theorem exists_trim (s : String) : ∃ front back, s.toList = front ++ (trim s).toList ++ back ∧
    (∀ c ∈ front, isBlank c = true) ∧ ∀ c ∈ back, isBlank c = true := by
  refine ⟨s.toList.takeWhile isBlank, ((trimStart s.toList).reverse.takeWhile isBlank).reverse,
    ?_, fun c hc => List.mem_takeWhile_imp hc,
    fun c hc => List.mem_takeWhile_imp (List.mem_reverse.mp hc)⟩
  rw [trim, String.toList_ofList, trimEnd, List.append_assoc, ← List.reverse_append,
    List.takeWhile_append_dropWhile, List.reverse_reverse, trimStart,
    List.takeWhile_append_dropWhile]

/-- A digit is not white space. -/
theorem isBlank_of_isDigit {c : Char} (h : c.isDigit = true) : isBlank c = false := by
  rw [Char.isDigit, Bool.and_eq_true, decide_eq_true_eq, decide_eq_true_eq] at h
  have hlow : 48 ≤ c.toNat := h.1
  have hhigh : c.toNat ≤ 57 := h.2
  simp only [isBlank, blankSet, CodeSet.contains, CodeSet.containsCode]
  grind

end Text

/-! ## Numerals -/

/-- The natural that decimal digits denote, the last of them being the ones. -/
def decimalValue (digits : List Char) : Nat :=
  Nat.ofDigits 10 (digits.reverse.map fun c => c.toNat - '0'.toNat)

/-- Decimal digits with an optional sign before them, and the integer that they denote. -/
inductive Numeral : List Char → Int → Prop
  | unsigned {digits : List Char} (hne : digits ≠ []) (h : ∀ c ∈ digits, c.isDigit = true) :
      Numeral digits (decimalValue digits)
  | plus {digits : List Char} (hne : digits ≠ []) (h : ∀ c ∈ digits, c.isDigit = true) :
      Numeral ('+' :: digits) (decimalValue digits)
  | minus {digits : List Char} (hne : digits ≠ []) (h : ∀ c ∈ digits, c.isDigit = true) :
      Numeral ('-' :: digits) (-(decimalValue digits : Int))

/-- Reading digits from the front gives the natural that they denote. -/
theorem digitsValue_zero (digits : List Char) :
    Binary64.digitsValue 0 digits = decimalValue digits := by
  induction digits using List.reverseRecOn with
  | nil => rfl
  | append_singleton digits c ih =>
    have hread : Binary64.digitsValue 0 (digits ++ [c]) =
        10 * Binary64.digitsValue 0 digits + (c.toNat - '0'.toNat) := by
      rw [Binary64.digitsValue, List.foldl_append]
      rfl
    rw [hread, ih, decimalValue, decimalValue, List.reverse_append, List.reverse_singleton,
      List.singleton_append, List.map_cons, Nat.ofDigits_cons]
    exact Nat.add_comm ..

/-- Digits that start with no sign are not split. -/
theorem spanSign_of_isDigit {digits : List Char} (h : ∀ c ∈ digits, c.isDigit = true) :
    Binary64.spanSign digits = (false, digits) := by
  cases digits with
  | nil => rfl
  | cons c rest =>
    have hc := h c (List.mem_cons_self ..)
    unfold Binary64.spanSign
    split
    · rename_i heq
      rw [(List.cons.inj heq).1] at hc
      exact absurd hc (by decide)
    · rename_i heq
      rw [(List.cons.inj heq).1] at hc
      exact absurd hc (by decide)
    · rfl

/-- No character of a numeral is white space, and there is one. -/
theorem Numeral.solid {cs : List Char} {n : Int} (h : Numeral cs n) :
    cs ≠ [] ∧ ∀ c ∈ cs, Text.isBlank c = false := by
  cases h with
  | unsigned hne h => exact ⟨hne, fun c hc => Text.isBlank_of_isDigit (h c hc)⟩
  | plus hne h | minus hne h =>
    refine ⟨List.cons_ne_nil _ _, List.forall_mem_cons.mpr ⟨by decide, fun c hc => ?_⟩⟩
    exact Text.isBlank_of_isDigit (h c hc)

/-- The sign and the digits of a numeral. -/
theorem numeral_iff_spanSign {cs : List Char} {n : Int} : Numeral cs n ↔
    (Binary64.spanSign cs).2 ≠ [] ∧ (∀ c ∈ (Binary64.spanSign cs).2, c.isDigit = true) ∧
      n = if (Binary64.spanSign cs).1 then -(decimalValue (Binary64.spanSign cs).2 : Int)
        else decimalValue (Binary64.spanSign cs).2 := by
  constructor
  · rintro (⟨hne, h⟩ | ⟨hne, h⟩ | ⟨hne, h⟩)
    · rw [spanSign_of_isDigit h]
      exact ⟨hne, h, rfl⟩
    · exact ⟨hne, h, rfl⟩
    · exact ⟨hne, h, rfl⟩
  · unfold Binary64.spanSign
    split
    · rintro ⟨hne, h, rfl⟩
      exact .minus hne h
    · rintro ⟨hne, h, rfl⟩
      exact .plus hne h
    · rintro ⟨hne, h, rfl⟩
      exact .unsigned hne h

/-- A text is read as the integer that it denotes, unless that takes more than 64 bits. -/
theorem Int64.ofText?_eq_some {cs : List Char} {n : Int} : Int64.ofText? cs = some n ↔
    Numeral cs n ∧ Int64.minValue.toInt ≤ n ∧ n ≤ Int64.maxValue.toInt := by
  rw [numeral_iff_spanSign, Int64.ofText?]
  obtain ⟨isNegative, digits⟩ := Binary64.spanSign cs
  dsimp only
  rw [digitsValue_zero]
  by_cases hdigits : digits ≠ [] ∧ ∀ c ∈ digits, c.isDigit = true
  · have hnumeral : (digits.isEmpty || !digits.all Char.isDigit) = false := by
      simpa using hdigits
    rw [hnumeral, if_neg Bool.false_ne_true, Option.ite_none_right_eq_some, Option.some.injEq]
    constructor
    · rintro ⟨hrange, rfl⟩
      exact ⟨⟨hdigits.1, hdigits.2, rfl⟩, hrange⟩
    · rintro ⟨⟨-, -, rfl⟩, hrange⟩
      exact ⟨hrange, rfl⟩
  · have hnumeral : (digits.isEmpty || !digits.all Char.isDigit) = true := by
      by_contra hsome
      exact hdigits (by simpa using hsome)
    rw [hnumeral, if_pos rfl]
    constructor
    · intro h
      cases h
    · rintro ⟨⟨hne, h, -⟩, -⟩
      exact absurd ⟨hne, h⟩ hdigits

/-! ## Whole floating-point numbers -/

namespace Binary64

/-- The rational number that a finite floating-point number denotes. -/
def toRat (x : Binary64) : ℚ := x.signedSignificand * (2 : ℚ) ^ x.scale

/-- The significand with its sign is divided by what divides the significand. -/
theorem dvd_signedSignificand {x : Binary64} {d : Nat} :
    (d : Int) ∣ x.signedSignificand ↔ x.significand % d = 0 := by
  rw [signedSignificand, ← Nat.dvd_iff_mod_eq_zero]
  split
  · rw [Int.dvd_neg, Int.natCast_dvd_natCast]
  · rw [Int.natCast_dvd_natCast]

/-- The integer of a number is its value, if that is whole. -/
theorem toInt?_eq_some {x : Binary64} {n : Int} :
    x.toInt? = some n ↔ x.isFinite = true ∧ x.toRat = n := by
  rw [toInt?, toRat]
  cases hfinite : x.isFinite with
  | false => simp
  | true =>
    simp only [Bool.not_true, Bool.false_eq_true, if_false, true_and]
    by_cases hscale : 0 ≤ x.scale
    · obtain ⟨k, hk⟩ := Int.eq_ofNat_of_zero_le hscale
      rw [if_pos hscale, hk, Int.toNat_natCast, zpow_natCast, Option.some.injEq]
      exact_mod_cast Iff.rfl
    · obtain ⟨k, hk⟩ := Int.eq_ofNat_of_zero_le (show 0 ≤ -x.scale by omega)
      have hpos : (0 : ℚ) < 2 ^ k := by positivity
      rw [if_neg hscale, hk, Int.toNat_natCast, show x.scale = -(k : Int) by omega, zpow_neg,
        zpow_natCast, ← div_eq_mul_inv, div_eq_iff hpos.ne', Option.ite_none_right_eq_some,
        Option.some.injEq, ← dvd_signedSignificand]
      have hcast : ((x.signedSignificand : ℚ) = n * 2 ^ k) ↔
          x.signedSignificand = n * (Nat.pow 2 k : Nat) := by
        exact_mod_cast Iff.rfl
      have hne : ((Nat.pow 2 k : Nat) : Int) ≠ 0 :=
        Int.natCast_ne_zero.mpr (Nat.two_pow_pos k).ne'
      rw [hcast]
      constructor
      · rintro ⟨hdvd, rfl⟩
        exact (Int.ediv_mul_cancel hdvd).symm
      · intro h
        rw [h]
        exact ⟨Int.dvd_mul_left .., Int.mul_ediv_cancel _ hne⟩

end Binary64

/-! ## Denoted integers -/

namespace Value

/-- A raw value denotes an integer: an integer itself, a finite floating-point number the integer
that it is equal to, and a text the numeral that stands in it between white space. -/
inductive Denotes : Value → Int → Prop
  | int (n : Int64) : Denotes (.int n) n.toInt
  | float {x : Binary64} {n : Int} (hfinite : x.isFinite = true) (h : x.toRat = n) :
      Denotes (.float x) n
  | text {s : String} {front cs back : List Char} {n : Int} (hs : s.toList = front ++ cs ++ back)
      (hfront : ∀ c ∈ front, Text.isBlank c = true) (hback : ∀ c ∈ back, Text.isBlank c = true)
      (h : Numeral cs n) : Denotes (.text s) n

/-- A text denotes the numeral that is left of it without the white space at its ends. -/
theorem denotes_text_iff {s : String} {n : Int} :
    (Value.text s).Denotes n ↔ Numeral (Text.trim s).toList n := by
  constructor
  · rintro (_ | _ | ⟨hs, hfront, hback, h⟩)
    rwa [Text.trim_toList hs hfront hback h.solid.1 h.solid.2]
  · intro h
    obtain ⟨front, back, hs, hfront, hback⟩ := Text.exists_trim s
    exact .text hs hfront hback h

/-- A 64-bit integer lies between the least and the greatest one. -/
theorem int64_range (n : Int64) :
    Int64.minValue.toInt ≤ n.toInt ∧ n.toInt ≤ Int64.maxValue.toInt :=
  ⟨Int64.le_toInt n, Int64.toInt_le n⟩

/-- What conversion goes through is the denoted integer, within signed 64 bits. -/
theorem wholeNumber?_eq_some {v : Value} {n : Int} : v.wholeNumber? = some n ↔
    v.Denotes n ∧ Int64.minValue.toInt ≤ n ∧ n ≤ Int64.maxValue.toInt := by
  cases v with
  | int m =>
    rw [wholeNumber?, Option.some.injEq]
    constructor
    · rintro rfl
      exact ⟨.int m, int64_range m⟩
    · rintro ⟨⟨⟩, -⟩
      rfl
  | float x =>
    have hdenotes : (Value.float x).Denotes n ↔ x.toInt? = some n := by
      rw [Binary64.toInt?_eq_some]
      constructor
      · rintro (_ | ⟨hfinite, h⟩)
        exact ⟨hfinite, h⟩
      · rintro ⟨hfinite, h⟩
        exact .float hfinite h
    rw [wholeNumber?, hdenotes]
    cases x.toInt? with
    | none => simp
    | some m =>
      rw [Option.ite_none_right_eq_some, Option.some.injEq]
      constructor
      · rintro ⟨hrange, rfl⟩
        exact ⟨rfl, hrange⟩
      · rintro ⟨rfl, hrange⟩
        exact ⟨hrange, rfl⟩
  | text s => rw [wholeNumber?, Int64.ofText?_eq_some, denotes_text_iff]
  | _ =>
    constructor
    · intro h
      cases h
    · rintro ⟨⟨⟩, -⟩

/-- Conversion to a type of integers gives the denoted integer where it lies in the type and within
signed 64 bits. -/
theorem toInteger_eq_ok {v : Value} {t : IntegerType} {n : Int} : v.toInteger t = .ok n ↔
    v.Denotes n ∧ t.least ≤ n ∧ n ≤ t.greatest ∧ n ≤ Int64.maxValue.toInt := by
  have hleast : Int64.minValue.toInt ≤ t.least := by cases t <;> decide
  have hwhole {m : Int} := wholeNumber?_eq_some (v := v) (n := m)
  rw [toInteger]
  cases h : v.wholeNumber? with
  | none =>
    have hnone : ¬(v.Denotes n ∧ Int64.minValue.toInt ≤ n ∧ n ≤ Int64.maxValue.toInt) := by
      rw [← hwhole, h]
      exact nofun
    constructor
    · intro h
      cases h
    · rintro ⟨hdenotes, hlow, -, hhigh⟩
      exact absurd ⟨hdenotes, hleast.trans hlow, hhigh⟩ hnone
  | some m =>
    obtain ⟨hdenotes, -, hmax⟩ := hwhole.mp h
    dsimp only
    split
    next hrange =>
      rw [Except.ok.injEq]
      constructor
      · rintro rfl
        exact ⟨hdenotes, hrange.1, hrange.2, hmax⟩
      · rintro ⟨hn, hlow, -, hhigh⟩
        exact Option.some.inj (h.symm.trans (hwhole.mpr ⟨hn, hleast.trans hlow, hhigh⟩))
    next hrange =>
      constructor
      · intro h
        cases h
      · rintro ⟨hn, hlow, hgreatest, hhigh⟩
        have heq := Option.some.inj (h.symm.trans (hwhole.mpr ⟨hn, hleast.trans hlow, hhigh⟩))
        exact absurd ⟨heq ▸ hlow, heq ▸ hgreatest⟩ hrange

/-- What is not converted to a type of integers is a mismatch with that type. -/
theorem toInteger_eq_error_or (v : Value) (t : IntegerType) :
    (∃ n, v.toInteger t = .ok n) ∨ v.toInteger t = .error (v.mismatch t.name) := by
  rw [toInteger]
  split
  · split
    · exact .inl ⟨_, rfl⟩
    · exact .inr rfl
  · exact .inr rfl

end Value

namespace Target

/-- Mapping into a type of integers is conversion. -/
theorem map_integer_eq (types : RecordTargets) (t : IntegerType) (v : Value) :
    (Target.integer t).map types v = match v.toInteger t with
      | .ok n => .ok ⟨.integer n, []⟩
      | .error f => .error (.mapping f) := by
  have hfuel : Mapping.fuelFor types (.integer t) v ≠ 0 := by
    rw [Mapping.fuelFor]
    exact (Nat.pow_pos (Nat.succ_pos _)).ne'
  obtain ⟨fuel, hfuel⟩ := Nat.exists_eq_succ_of_ne_zero hfuel
  rw [map, hfuel]
  cases h : v.toInteger t with
  | ok n => simp only [Mapping.build, h, Mapping.convert]; rfl
  | error f => simp only [Mapping.build, h, Mapping.convert]; rfl

/-- A value is mapped into a type of integers exactly when the integer that it denotes lies in the
type and within signed 64 bits; the result is that integer, and every other value is refused as a
mismatch with the type. -/
theorem map_integer (types : RecordTargets) (t : IntegerType) (v : Value) :
    (∀ g, (Target.integer t).map types v = .ok g ↔ ∃ n, v.Denotes n ∧ t.least ≤ n ∧
      n ≤ t.greatest ∧ n ≤ Int64.maxValue.toInt ∧ g = ⟨.integer n, []⟩) ∧
      ((∃ g, (Target.integer t).map types v = .ok g) ∨
        (Target.integer t).map types v = .error (.mapping (v.mismatch t.name))) := by
  rw [map_integer_eq]
  rcases v.toInteger_eq_error_or t with ⟨n, hn⟩ | herror
  · rw [hn]
    refine ⟨fun g => ?_, .inl ⟨_, rfl⟩⟩
    rw [Except.ok.injEq]
    constructor
    · rintro rfl
      obtain ⟨hdenotes, hleast, hgreatest, hmax⟩ := Value.toInteger_eq_ok.mp hn
      exact ⟨n, hdenotes, hleast, hgreatest, hmax, rfl⟩
    · rintro ⟨m, hdenotes, hleast, hgreatest, hmax, rfl⟩
      have hm := Value.toInteger_eq_ok.mpr ⟨hdenotes, hleast, hgreatest, hmax⟩
      rw [Except.ok.inj (hn.symm.trans hm)]
  · rw [herror]
    refine ⟨fun g => ⟨nofun, ?_⟩, .inr rfl⟩
    rintro ⟨m, hdenotes, hleast, hgreatest, hmax, -⟩
    have hm := Value.toInteger_eq_ok.mpr ⟨hdenotes, hleast, hgreatest, hmax⟩
    cases herror.symm.trans hm

/-- The upper half of the widest types is out of reach of texts: one that denotes `2 ^ 63` is
refused, though the type has it. -/
theorem map_text_beyond_int64 : ¬∀ (types : RecordTargets) (t : IntegerType) (v : Value)
    (n : Int), (Target.integer t).map types v = .ok ⟨.integer n, []⟩ ↔
      v.Denotes n ∧ t.least ≤ n ∧ n ≤ t.greatest := by
  intro h
  have hnumeral : Numeral "9223372036854775808".toList 9223372036854775808 :=
    .unsigned (List.cons_ne_nil _ _) (List.all_eq_true.mp (by rfl))
  have hdenotes : (Value.text "9223372036854775808").Denotes 9223372036854775808 :=
    Value.denotes_text_iff.mpr hnumeral
  have hmapped := (h [] .nat64 _ _).mpr ⟨hdenotes, by decide, by decide⟩
  rw [map_integer_eq] at hmapped
  cases hmapped

end Target
end QueryRelay
