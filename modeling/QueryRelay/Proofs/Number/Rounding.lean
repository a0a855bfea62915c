import QueryRelay.Number.Binary64

/-!
# Rounding integers

The number nearest to an integer, and the total order on numbers. Rounding keeps the order of
integers: the magnitude of a rounded natural lies between the magnitudes of the two powers of two
around it, and between the same powers it grows with the quotient that is rounded. Two integers may
be rounded to one number, but not two of at most fifty-three bits.
-/

namespace QueryRelay.Binary64

/-! ## The nearest multiple -/

/-- A quotient is rounded down or up. -/
theorem divideToEven_bounds (n d : Nat) :
    n / d ≤ divideToEven n d ∧ divideToEven n d ≤ n / d + 1 := by
  unfold divideToEven
  dsimp only
  split
  · omega
  · split
    · omega
    · split <;> omega

/-- Of two quotients by the same number the larger one is not rounded to less. -/
theorem divideToEven_mono {m n : Nat} (h : m ≤ n) (d : Nat) :
    divideToEven m d ≤ divideToEven n d := by
  have hquotient : m / d ≤ n / d := Nat.div_le_div_right h
  rcases Nat.lt_or_eq_of_le hquotient with hlt | heq
  · have hm := (divideToEven_bounds m d).2
    have hn := (divideToEven_bounds n d).1
    omega
  · have hm := Nat.div_add_mod m d
    have hn := Nat.div_add_mod n d
    rw [heq] at hm
    have hrest : m % d ≤ n % d := by omega
    unfold divideToEven
    rw [heq]
    dsimp only
    grind

/-- An integer is not rounded. -/
theorem divideToEven_one (n : Nat) : divideToEven n 1 = n := by
  unfold divideToEven
  dsimp only
  rw [Nat.mod_one, Nat.div_one, if_pos (by decide)]

/-! ## Magnitudes of rounded naturals -/

/-- A positive natural in units of the last of its first fifty-three bits, rounded. -/
def roundedSignificand (n : Nat) : Nat :=
  if 52 ≤ n.log2 then divideToEven n (Nat.pow 2 (n.log2 - 52)) else n * Nat.pow 2 (52 - n.log2)

/-- The magnitude of the number nearest to a natural, as long as it is finite. -/
def roundedMagnitude (n : Nat) : Nat :=
  if n = 0 then 0 else (n.log2 + 1022) * hiddenBit + roundedSignificand n

/-- The exponent of a natural is that of its first bit. -/
theorem floorLog2_one {n : Nat} (hn : n ≠ 0) : floorLog2 n 1 = n.log2 := by
  have hlog : (1 : Nat).log2 = 0 := rfl
  have hestimate : (n.log2 : Int) - ((1 : Nat).log2 : Int) = n.log2 := by
    rw [hlog]
    omega
  have hreached : if 0 ≤ (n.log2 : Int) then 1 * Nat.pow 2 (n.log2 : Int).toNat ≤ n
      else 1 ≤ n * Nat.pow 2 (-(n.log2 : Int)).toNat := by
    rw [if_pos (Int.natCast_nonneg _), Nat.one_mul, Int.toNat_natCast]
    exact Nat.log2_self_le hn
  unfold floorLog2
  dsimp only
  rw [hestimate]
  exact if_pos hreached

/-- The number nearest to a natural, of either sign. -/
theorem nearest_one (negative : Bool) (n : Nat) :
    nearest negative n 1 = ofMagnitude negative (min (roundedMagnitude n) infiniteMagnitude) := by
  by_cases hn : n = 0
  · subst hn
    rfl
  · have hunit : max (floorLog2 n 1 - 52) (-1074) = (n.log2 : Int) - 52 := by
      rw [floorLog2_one hn]
      omega
    have hcount : ((n.log2 : Int) - 52 + 1075).toNat = n.log2 + 1022 + 1 := by omega
    have hrounded : (if 0 ≤ (n.log2 : Int) - 52 then
          divideToEven n (1 * Nat.pow 2 ((n.log2 : Int) - 52).toNat)
        else divideToEven (n * Nat.pow 2 (-((n.log2 : Int) - 52)).toNat) 1) =
        roundedSignificand n := by
      unfold roundedSignificand
      by_cases hlog : 52 ≤ n.log2
      · have hexponent : ((n.log2 : Int) - 52).toNat = n.log2 - 52 := by omega
        rw [if_pos hlog, if_pos (by omega), hexponent, Nat.one_mul]
      · have hexponent : (-((n.log2 : Int) - 52)).toNat = 52 - n.log2 := by omega
        rw [if_neg hlog, if_neg (by omega), hexponent, divideToEven_one]
    have hmagnitude : (n.log2 + 1022 + 1) * hiddenBit + roundedSignificand n - hiddenBit =
        (n.log2 + 1022) * hiddenBit + roundedSignificand n := by
      rw [Nat.succ_mul]
      omega
    unfold nearest
    rw [if_neg hn]
    dsimp only
    rw [hunit, hcount, hrounded, hmagnitude, roundedMagnitude, if_neg hn]

/-- A natural between two powers of two has fifty-three bits in its own units. -/
theorem roundedSignificand_bounds {n : Nat} (hn : n ≠ 0) :
    hiddenBit ≤ roundedSignificand n ∧ roundedSignificand n ≤ 2 * hiddenBit := by
  have hlow : Nat.pow 2 n.log2 ≤ n := Nat.log2_self_le hn
  have hhigh : n < Nat.pow 2 (n.log2 + 1) := Nat.lt_log2_self
  have hhidden : hiddenBit = Nat.pow 2 52 := rfl
  unfold roundedSignificand
  split
  · next hlog =>
    have hpos : 0 < Nat.pow 2 (n.log2 - 52) := Nat.pow_pos (by decide)
    have hsplit : Nat.pow 2 n.log2 = hiddenBit * Nat.pow 2 (n.log2 - 52) := by
      rw [hhidden]
      exact (Nat.pow_add 2 52 (n.log2 - 52)) ▸ congrArg (Nat.pow 2) (by omega)
    have hdouble : Nat.pow 2 (n.log2 + 1) = 2 * hiddenBit * Nat.pow 2 (n.log2 - 52) := by
      rw [Nat.mul_assoc, ← hsplit]
      exact Nat.pow_succ'
    rw [hsplit] at hlow
    rw [hdouble] at hhigh
    have hquotient : hiddenBit ≤ n / Nat.pow 2 (n.log2 - 52) :=
      (Nat.le_div_iff_mul_le hpos).mpr hlow
    have hbelow : n / Nat.pow 2 (n.log2 - 52) < 2 * hiddenBit :=
      (Nat.div_lt_iff_lt_mul hpos).mpr hhigh
    have hbounds := divideToEven_bounds n (Nat.pow 2 (n.log2 - 52))
    omega
  · next hlog =>
    have hsplit : hiddenBit = Nat.pow 2 n.log2 * Nat.pow 2 (52 - n.log2) := by
      rw [hhidden]
      exact (Nat.pow_add 2 n.log2 (52 - n.log2)) ▸ congrArg (Nat.pow 2) (by omega)
    have hdouble : 2 * hiddenBit = Nat.pow 2 (n.log2 + 1) * Nat.pow 2 (52 - n.log2) := by
      rw [hsplit, ← Nat.mul_assoc]
      exact congrArg (· * Nat.pow 2 (52 - n.log2)) Nat.pow_succ'.symm
    constructor
    · rw [hsplit]
      exact Nat.mul_le_mul_right _ hlow
    · rw [hdouble]
      exact Nat.mul_le_mul_right _ (Nat.le_of_lt hhigh)

/-- Between the same powers of two the larger natural is not rounded to less. -/
theorem roundedSignificand_mono {m n : Nat} (h : m ≤ n) (hlog : m.log2 = n.log2) :
    roundedSignificand m ≤ roundedSignificand n := by
  unfold roundedSignificand
  rw [hlog]
  split
  · exact divideToEven_mono h _
  · exact Nat.mul_le_mul_right _ h

/-- A larger natural has its first bit no lower. -/
theorem log2_mono {m n : Nat} (hm : m ≠ 0) (h : m ≤ n) : m.log2 ≤ n.log2 := by
  have hn : n ≠ 0 := by omega
  exact (Nat.le_log2 hn).mpr (Nat.le_trans (Nat.log2_self_le hm) h)

/-- The larger natural is not rounded to less. -/
theorem roundedMagnitude_mono {m n : Nat} (h : m ≤ n) :
    roundedMagnitude m ≤ roundedMagnitude n := by
  by_cases hm : m = 0
  · subst hm
    exact Nat.zero_le _
  · have hn : n ≠ 0 := by omega
    rw [roundedMagnitude, roundedMagnitude, if_neg hm, if_neg hn]
    rcases Nat.lt_or_eq_of_le (log2_mono hm h) with hlt | heq
    · have hbelow := (roundedSignificand_bounds hm).2
      have habove := (roundedSignificand_bounds hn).1
      have hstep : (m.log2 + 1022 + 1) * hiddenBit ≤ (n.log2 + 1022) * hiddenBit :=
        Nat.mul_le_mul_right _ (by omega)
      rw [Nat.succ_mul] at hstep
      omega
    · have hsignificand := roundedSignificand_mono h heq
      rw [heq]
      omega

/-- A natural of at most fifty-three bits is not rounded. -/
theorem roundedSignificand_of_log2_le {n : Nat} (h : n.log2 ≤ 52) :
    roundedSignificand n = n * Nat.pow 2 (52 - n.log2) := by
  unfold roundedSignificand
  split
  · next hlog =>
    have heq : n.log2 = 52 := by omega
    rw [heq]
    exact (divideToEven_one n).trans (Nat.mul_one n).symm
  · rfl

/-- Up to two to the fifty-third the larger natural has the larger magnitude. -/
theorem roundedMagnitude_lt {m n : Nat} (h : m < n) (hn : n ≤ 2 * hiddenBit) :
    roundedMagnitude m < roundedMagnitude n := by
  have hhidden : hiddenBit = 4503599627370496 := rfl
  have hn' : n ≠ 0 := by omega
  have habove := (roundedSignificand_bounds hn').1
  by_cases hm : m = 0
  · subst hm
    rw [roundedMagnitude, roundedMagnitude, if_pos rfl, if_neg hn']
    omega
  · have hlog : m.log2 ≤ 52 := Nat.lt_succ_iff.mp ((Nat.log2_lt hm).mpr (by omega))
    have hpos : 0 < Nat.pow 2 (52 - m.log2) := Nat.pow_pos (by decide)
    rw [roundedMagnitude, roundedMagnitude, if_neg hm, if_neg hn']
    rcases Nat.lt_or_eq_of_le (log2_mono hm (Nat.le_of_lt h)) with hlt | heq
    · have hhigh : m < Nat.pow 2 (m.log2 + 1) := Nat.lt_log2_self
      have hdouble : Nat.pow 2 (m.log2 + 1) * Nat.pow 2 (52 - m.log2) = 2 * hiddenBit :=
        (Nat.pow_add 2 (m.log2 + 1) (52 - m.log2)).symm.trans
          (congrArg (Nat.pow 2) (by omega : m.log2 + 1 + (52 - m.log2) = 53))
      have hbelow : roundedSignificand m < 2 * hiddenBit := by
        rw [roundedSignificand_of_log2_le hlog, ← hdouble]
        exact Nat.mul_lt_mul_of_pos_right hhigh hpos
      have hstep : (m.log2 + 1022 + 1) * hiddenBit ≤ (n.log2 + 1022) * hiddenBit :=
        Nat.mul_le_mul_right _ (by omega)
      rw [Nat.succ_mul] at hstep
      omega
    · have hsignificand : roundedSignificand m < roundedSignificand n := by
        rw [roundedSignificand_of_log2_le hlog, roundedSignificand_of_log2_le (heq ▸ hlog), ← heq]
        exact Nat.mul_lt_mul_of_pos_right h hpos
      rw [heq]
      omega

/-! ## The total order -/

/-- The parts of a number put together from a sign and a magnitude. -/
theorem totalKey_ofMagnitude (negative : Bool) {magnitude : Nat} (h : magnitude < signBit) :
    (ofMagnitude negative magnitude).totalKey =
      if negative then -(magnitude : Int) - 1 else magnitude := by
  have hsign : signBit = 9223372036854775808 := rfl
  cases negative with
  | true =>
    have hbits : (ofMagnitude true magnitude).bits.toNat = signBit + magnitude := by
      rw [ofMagnitude, if_pos rfl, UInt64.toNat_ofNat']
      omega
    have hmagnitude : (ofMagnitude true magnitude).magnitude = magnitude := by
      rw [Binary64.magnitude, hbits, hsign]
      omega
    have hnegative : (ofMagnitude true magnitude).isNegative = true := by
      rw [isNegative, hbits]
      exact decide_eq_true (by omega)
    rw [totalKey, hmagnitude, hnegative]
  | false =>
    have hbits : (ofMagnitude false magnitude).bits.toNat = magnitude := by
      rw [ofMagnitude, if_neg Bool.false_ne_true, UInt64.toNat_ofNat']
      omega
    have hmagnitude : (ofMagnitude false magnitude).magnitude = magnitude := by
      rw [Binary64.magnitude, hbits, hsign]
      omega
    have hnegative : (ofMagnitude false magnitude).isNegative = false := by
      rw [isNegative, hbits]
      exact decide_eq_false (by omega)
    rw [totalKey, hmagnitude, hnegative]

/-- Numbers at the same place of the order are the same. -/
theorem totalKey_injective {x y : Binary64} (h : x.totalKey = y.totalKey) : x = y := by
  have hsign : signBit = 9223372036854775808 := rfl
  have hx := x.bits.toNat_lt
  have hy := y.bits.toNat_lt
  have hbits : x.bits.toNat = y.bits.toNat := by
    simp only [totalKey, isNegative, magnitude, decide_eq_true_eq, hsign] at h
    split at h <;> split at h <;> omega
  cases x
  cases y
  exact congrArg Binary64.mk (UInt64.toNat_inj.mp hbits)

/-- The place of the number nearest to an integer. -/
theorem totalKey_ofInt (n : Int) :
    (ofInt n).totalKey =
      if n < 0 then -(min (roundedMagnitude n.natAbs) infiniteMagnitude : Int) - 1
      else min (roundedMagnitude n.natAbs) infiniteMagnitude := by
  have hfinite : min (roundedMagnitude n.natAbs) infiniteMagnitude < signBit :=
    Nat.lt_of_le_of_lt (Nat.min_le_right _ _) (by decide)
  rw [ofInt, nearest_one, totalKey_ofMagnitude _ hfinite]
  by_cases hn : n < 0
  · rw [decide_eq_true hn, if_pos rfl, if_pos hn]
    omega
  · rw [decide_eq_false hn, if_neg Bool.false_ne_true, if_neg hn]
    omega

/-- The larger integer is not rounded to a number before that of the smaller. -/
theorem totalKey_ofInt_mono {m n : Int} (h : m ≤ n) :
    (ofInt m).totalKey ≤ (ofInt n).totalKey := by
  rw [totalKey_ofInt, totalKey_ofInt]
  split
  · next hm =>
    split
    · have hrounded := roundedMagnitude_mono (m := n.natAbs) (n := m.natAbs) (by omega)
      omega
    · omega
  · next hm =>
    rw [if_neg (by omega)]
    have hrounded := roundedMagnitude_mono (m := m.natAbs) (n := n.natAbs) (by omega)
    omega

/-- Up to two to the fifty-third on either side of zero the larger integer is rounded to a number
after that of the smaller. -/
theorem totalKey_ofInt_lt {m n : Int} (h : m < n) (hm : m.natAbs ≤ 2 * hiddenBit)
    (hn : n.natAbs ≤ 2 * hiddenBit) : (ofInt m).totalKey < (ofInt n).totalKey := by
  have hlargest : roundedMagnitude (2 * hiddenBit) ≤ infiniteMagnitude := by decide
  have hm' := Nat.le_trans (roundedMagnitude_mono hm) hlargest
  have hn' := Nat.le_trans (roundedMagnitude_mono hn) hlargest
  rw [totalKey_ofInt, totalKey_ofInt]
  split
  · split
    · have hrounded := roundedMagnitude_lt (m := n.natAbs) (n := m.natAbs) (by omega) hm
      omega
    · omega
  · rw [if_neg (by omega)]
    have hrounded := roundedMagnitude_lt (m := m.natAbs) (n := n.natAbs) (by omega) hn
    omega

end QueryRelay.Binary64
