import CatalogQuery.Proofs.ValueOrder
import Mathlib.Data.Nat.Log
/-!
# Rounded integers

In the scale of the smallest positive number, rounding is a function on integers. It is monotone
and keeps every floating-point number, so that it moves no integer over one of these. It keeps the
integers up to two to the power of 53 as well.
-/
namespace CatalogQuery

theorem pow2_add (m n : Nat) : pow2 (m + n) = pow2 m * pow2 n := Nat.pow_add 2 m n

namespace Binary64

def magnitudeValue (m : Nat) : Nat :=
  (if m / pow2 52 = 0 then m % pow2 52 else pow2 52 + m % pow2 52) * pow2 (m / pow2 52 - 1)

theorem scaledMagnitude_eq (x : Binary64) :
    x.scaledMagnitude = magnitudeValue x.magnitudeBits := rfl

/-- How many bits a value has beyond the significand. -/
def excessBits (n : Nat) : Nat := Nat.log2 n - 52

/-- The quotient, or the number after it where the rest is more than half a unit, or half a unit past
an odd quotient. -/
def nearestQuotient (unit n : Nat) : Nat :=
  if unit < 2 * (n % unit) ∨ (2 * (n % unit) = unit ∧ n / unit % 2 = 1) then n / unit + 1
  else n / unit

/-- The magnitude bits of the number nearest to a value, if the exponent had no limit. -/
def nearestBits (n : Nat) : Nat :=
  excessBits n * pow2 52 + nearestQuotient (pow2 (excessBits n)) n

theorem roundRatio_one (n : Nat) :
    roundRatio n 1 = min (nearestBits (n * pow2 scaleExponent)) infinityBits := by
  rw [roundRatio, Nat.div_one, Nat.one_mul]
  rfl

theorem nearestQuotient_le (unit n : Nat) : nearestQuotient unit n ≤ n / unit + 1 := by
  rw [nearestQuotient]
  split <;> omega

theorem le_nearestQuotient (unit n : Nat) : n / unit ≤ nearestQuotient unit n := by
  rw [nearestQuotient]
  split <;> omega

theorem nearestQuotient_mono {unit m n : Nat} (h : m ≤ n) :
    nearestQuotient unit m ≤ nearestQuotient unit n := by
  rcases (Nat.div_le_div_right (c := unit) h).lt_or_eq with hlt | heq
  · exact (nearestQuotient_le unit m).trans (Nat.le_trans hlt (le_nearestQuotient unit n))
  · -- With one quotient the rests are in the order of the values.
    have hrest : m % unit ≤ n % unit := by
      have hm := Nat.div_add_mod m unit
      have hn := Nat.div_add_mod n unit
      rw [heq] at hm
      omega
    rw [nearestQuotient, nearestQuotient, heq]
    split <;> split <;> omega

theorem nearestQuotient_of_dvd {unit n : Nat} (hunit : 0 < unit) (h : unit ∣ n) :
    nearestQuotient unit n = n / unit := by
  rw [nearestQuotient, Nat.mod_eq_zero_of_dvd h, if_neg (by omega)]

/-- The quotient fits the significand. -/
theorem div_excess_lt (n : Nat) : n / pow2 (excessBits n) < pow2 53 := by
  rw [Nat.div_lt_iff_lt_mul (pow2_pos _), ← pow2_add]
  refine Nat.lt_log2_self.trans_le (Nat.pow_le_pow_right Nat.two_pos ?_)
  rw [excessBits]
  omega

/-- A value with bits beyond the significand fills it. -/
theorem le_div_excess {n : Nat} (h : 52 ≤ Nat.log2 n) : pow2 52 ≤ n / pow2 (excessBits n) := by
  have hn : n ≠ 0 := by
    rintro rfl
    exact absurd h (by decide)
  rw [Nat.le_div_iff_mul_le (pow2_pos _), ← pow2_add, excessBits, Nat.add_sub_cancel' h]
  exact Nat.log2_self_le hn

theorem excessBits_mono {m n : Nat} (h : m ≤ n) : excessBits m ≤ excessBits n := by
  rw [excessBits, excessBits, Nat.log2_eq_log_two, Nat.log2_eq_log_two]
  exact Nat.sub_le_sub_right (Nat.log_mono_right h) 52

theorem nearestBits_mono {m n : Nat} (h : m ≤ n) : nearestBits m ≤ nearestBits n := by
  rcases (excessBits_mono h).lt_or_eq with hlt | heq
  · -- The greatest significand of one exponent goes over into the least of the next.
    have hlog : 52 ≤ Nat.log2 n := by
      rw [excessBits, excessBits] at hlt
      omega
    have hm := (nearestQuotient_le _ m).trans (div_excess_lt m)
    have hn := (le_div_excess hlog).trans (le_nearestQuotient (pow2 (excessBits n)) n)
    have hstep : (excessBits m + 1) * pow2 52 ≤ excessBits n * pow2 52 :=
      Nat.mul_le_mul_right _ hlt
    have hdouble : pow2 53 = pow2 52 + pow2 52 := rfl
    rw [nearestBits, nearestBits]
    rw [Nat.add_mul, Nat.one_mul] at hstep
    omega
  · rw [nearestBits, nearestBits, heq]
    exact Nat.add_le_add_left (nearestQuotient_mono h) _

theorem magnitudeValue_of_lt {f : Nat} (hf : f < pow2 52) : magnitudeValue f = f := by
  rw [magnitudeValue, Nat.div_eq_of_lt hf, if_pos rfl, Nat.mod_eq_of_lt hf]
  exact Nat.mul_one f

/-- Bits with an exponent stand for a full significand. -/
theorem magnitudeValue_full (shift : Nat) {q : Nat} (hlow : pow2 52 ≤ q) (hhigh : q < pow2 53) :
    magnitudeValue (shift * pow2 52 + q) = q * pow2 shift := by
  have hdouble : pow2 53 = pow2 52 + pow2 52 := rfl
  obtain ⟨f, rfl⟩ := Nat.exists_eq_add_of_le hlow
  have hf : f < pow2 52 := by omega
  have hsplit : shift * pow2 52 + (pow2 52 + f) = f + pow2 52 * (shift + 1) := by
    rw [Nat.mul_add, Nat.mul_one, Nat.mul_comm]
    omega
  rw [magnitudeValue, hsplit, Nat.add_mul_div_left _ _ (pow2_pos _), Nat.add_mul_mod_self_left,
    Nat.div_eq_of_lt hf, Nat.mod_eq_of_lt hf, Nat.zero_add, if_neg (Nat.succ_ne_zero _),
    Nat.add_sub_cancel]

/-- The bits of a value that needs no rounding stand for it. -/
theorem magnitudeValue_nearestBits {n : Nat} (h : pow2 (excessBits n) ∣ n) :
    magnitudeValue (nearestBits n) = n := by
  rw [nearestBits, nearestQuotient_of_dvd (pow2_pos _) h]
  by_cases hlog : 52 ≤ Nat.log2 n
  · rw [magnitudeValue_full _ (le_div_excess hlog) (div_excess_lt n), Nat.div_mul_cancel h]
  · have hexcess : excessBits n = 0 := by
      rw [excessBits]
      omega
    have hn : n < pow2 52 :=
      Nat.lt_log2_self.trans_le (Nat.pow_le_pow_right Nat.two_pos (by omega))
    rw [hexcess, Nat.zero_mul, Nat.zero_add, Nat.div_one, magnitudeValue_of_lt hn]

theorem excessBits_full (shift : Nat) {q : Nat} (hlow : pow2 52 ≤ q) (hhigh : q < pow2 53) :
    excessBits (q * pow2 shift) = shift := by
  have hq : q * pow2 shift ≠ 0 :=
    (Nat.mul_pos ((pow2_pos 52).trans_le hlow) (pow2_pos shift)).ne'
  have hlog : Nat.log2 (q * pow2 shift) = 52 + shift := by
    rw [Nat.log2_eq_iff hq]
    constructor
    · exact (pow2_add 52 shift).trans_le (Nat.mul_le_mul_right _ hlow)
    · have hstep : 52 + shift + 1 = 53 + shift := by omega
      rw [hstep]
      exact (Nat.mul_lt_mul_of_pos_right hhigh (pow2_pos shift)).trans_eq (pow2_add 53 shift).symm
  rw [excessBits, hlog, Nat.add_sub_cancel_left]

/-- The nearest bits to the value of bits are these bits. -/
theorem nearestBits_magnitudeValue (m : Nat) : nearestBits (magnitudeValue m) = m := by
  have hdouble : pow2 53 = pow2 52 + pow2 52 := rfl
  by_cases hm : m < pow2 52
  · have hlog : excessBits m = 0 := by
      rw [excessBits, Nat.sub_eq_zero_iff_le]
      by_cases hzero : m = 0
      · simp [hzero]
      · exact Nat.le_of_lt ((Nat.log2_lt hzero).mpr hm)
    rw [magnitudeValue_of_lt hm, nearestBits, hlog, Nat.zero_mul, Nat.zero_add,
      nearestQuotient_of_dvd Nat.one_pos (Nat.one_dvd m), Nat.div_one]
  · -- Beyond the least exponent the bits are an exponent and a full significand.
    have hfield : 1 ≤ m / pow2 52 := (Nat.one_le_div_iff (pow2_pos 52)).mpr (Nat.le_of_not_lt hm)
    have hsplit : m = (m / pow2 52 - 1) * pow2 52 + (pow2 52 + m % pow2 52) := by
      have hdiv := Nat.div_add_mod m (pow2 52)
      rw [Nat.sub_mul, Nat.one_mul, Nat.mul_comm]
      have hle : pow2 52 ≤ pow2 52 * (m / pow2 52) := Nat.le_mul_of_pos_right _ hfield
      omega
    have hlow : pow2 52 ≤ pow2 52 + m % pow2 52 := Nat.le_add_right _ _
    have hhigh : pow2 52 + m % pow2 52 < pow2 53 := by
      have hlt := Nat.mod_lt m (pow2_pos 52)
      omega
    generalize m / pow2 52 - 1 = shift at hsplit
    generalize pow2 52 + m % pow2 52 = q at hsplit hlow hhigh
    subst hsplit
    rw [magnitudeValue_full shift hlow hhigh, nearestBits, excessBits_full shift hlow hhigh,
      nearestQuotient_of_dvd (pow2_pos shift) (Nat.dvd_mul_left _ _),
      Nat.mul_div_cancel _ (pow2_pos shift)]

theorem magnitudeValue_le_iff {m n : Nat} : magnitudeValue m ≤ magnitudeValue n ↔ m ≤ n := by
  have hle {m n : Nat} (h : magnitudeValue m ≤ magnitudeValue n) : m ≤ n := by
    have hbits := nearestBits_mono h
    rwa [nearestBits_magnitudeValue, nearestBits_magnitudeValue] at hbits
  refine ⟨hle, fun h => Nat.le_of_not_lt fun hlt => ?_⟩
  rw [Nat.le_antisymm h (hle (Nat.le_of_lt hlt))] at hlt
  exact Nat.lt_irrefl _ hlt

/-- The nearest value that bits stand for, infinity where there is none. -/
def roundMagnitude (n : Nat) : Nat := magnitudeValue (min (nearestBits n) infinityBits)

theorem roundMagnitude_mono {m n : Nat} (h : m ≤ n) : roundMagnitude m ≤ roundMagnitude n := by
  have hbits := nearestBits_mono h
  exact magnitudeValue_le_iff.mpr (by omega)

theorem roundMagnitude_magnitudeValue {m : Nat} (h : m ≤ infinityBits) :
    roundMagnitude (magnitudeValue m) = magnitudeValue m := by
  rw [roundMagnitude, nearestBits_magnitudeValue, Nat.min_eq_left h]

/-- A value rounded, in the scale of the smallest positive number. -/
def roundScaled (n : Int) : Int :=
  if n < 0 then -(roundMagnitude n.natAbs : Int) else roundMagnitude n.natAbs

theorem roundScaled_mono {m n : Int} (h : m ≤ n) : roundScaled m ≤ roundScaled n := by
  rw [roundScaled, roundScaled]
  split
  · split
    · exact Int.neg_le_neg (Int.ofNat_le.mpr (roundMagnitude_mono (by omega)))
    · omega
  · rw [if_neg (by omega)]
    exact Int.ofNat_le.mpr (roundMagnitude_mono (by omega))

/-- A number keeps its value. -/
theorem roundScaled_scaled {x : Binary64} (h : x.isNaN = false) :
    roundScaled x.scaled = x.scaled := by
  have hbits : x.magnitudeBits ≤ infinityBits := by simpa [isNaN] using h
  have hround := roundMagnitude_magnitudeValue hbits
  rw [scaled, scaledMagnitude_eq]
  generalize magnitudeValue x.magnitudeBits = value at hround
  split
  · rw [roundScaled, Int.natAbs_neg, Int.natAbs_natCast, hround]
    split
    · rfl
    · -- Minus zero has the value zero.
      omega
  · rw [roundScaled, if_neg (by omega), Int.natAbs_natCast, hround]

theorem toNat_bits_ofMagnitude (negative : Bool) {m : Nat} (h : m < pow2 63) :
    (ofMagnitude negative m).bits.toNat = if negative then pow2 63 + m else m := by
  have hdouble : pow2 63 + pow2 63 = 2 ^ 64 := rfl
  rw [ofMagnitude, UInt64.toNat_ofNat', Nat.mod_eq_of_lt]
  split <;> omega

theorem magnitudeBits_ofMagnitude (negative : Bool) {m : Nat} (h : m < pow2 63) :
    (ofMagnitude negative m).magnitudeBits = m := by
  rw [magnitudeBits, toNat_bits_ofMagnitude negative h]
  cases negative with
  | false => exact Nat.mod_eq_of_lt h
  | true => rw [if_pos rfl, Nat.add_mod_left, Nat.mod_eq_of_lt h]

theorem isNegative_ofMagnitude (negative : Bool) {m : Nat} (h : m < pow2 63) :
    (ofMagnitude negative m).isNegative = negative := by
  rw [isNegative, toNat_bits_ofMagnitude negative h]
  cases negative with
  | false => exact decide_eq_false (Nat.not_le_of_lt h)
  | true => exact decide_eq_true (Nat.le_add_right _ _)

theorem magnitudeBits_ofInt (n : Int) :
    (ofInt n).magnitudeBits = min (nearestBits (n.natAbs * pow2 scaleExponent)) infinityBits := by
  rw [ofInt, ofRatio, roundRatio_one]
  exact magnitudeBits_ofMagnitude _ ((Nat.min_le_right _ _).trans_lt (by decide))

theorem not_isNaN_ofInt (n : Int) : (ofInt n).isNaN = false := by
  rw [isNaN, magnitudeBits_ofInt]
  exact decide_eq_false (Nat.not_lt.mpr (Nat.min_le_right _ _))

theorem scaleInt_lt_zero_iff (n : Int) : scaleInt n < 0 ↔ n < 0 := by
  have hscale : (0 : Int) < pow2 scaleExponent := Int.natCast_pos.mpr (pow2_pos _)
  rw [scaleInt]
  constructor
  · intro h
    exact Int.lt_of_not_ge fun hn => Int.not_lt.mpr (Int.mul_nonneg hn hscale.le) h
  · exact fun h => Int.mul_neg_of_neg_of_pos h hscale

/-- Rounding an integer rounds its value. -/
theorem scaled_ofInt (n : Int) : (ofInt n).scaled = roundScaled (scaleInt n) := by
  have hnegative : (ofInt n).isNegative = decide (n < 0) := by
    rw [ofInt, ofRatio, roundRatio_one]
    exact isNegative_ofMagnitude _ ((Nat.min_le_right _ _).trans_lt (by decide))
  have hvalue : (ofInt n).scaledMagnitude = roundMagnitude (scaleInt n).natAbs := by
    rw [scaledMagnitude_eq, magnitudeBits_ofInt, scaleInt, Int.natAbs_mul, Int.natAbs_natCast]
    rfl
  rw [scaled, hnegative, hvalue, roundScaled]
  simp only [decide_eq_true_iff, scaleInt_lt_zero_iff]

/-- Integers keep their order, if not strictly. -/
theorem scaled_ofInt_mono {m n : Int} (h : m ≤ n) : (ofInt m).scaled ≤ (ofInt n).scaled := by
  rw [scaled_ofInt, scaled_ofInt]
  exact roundScaled_mono (Int.mul_le_mul_of_nonneg_right h (Int.natCast_nonneg _))

/-- An integer is not rounded over a number above it. -/
theorem scaled_ofInt_le {n : Int} {x : Binary64} (hx : x.isNaN = false)
    (h : scaleInt n ≤ x.scaled) : (ofInt n).scaled ≤ x.scaled := by
  rw [scaled_ofInt, ← roundScaled_scaled hx]
  exact roundScaled_mono h

/-- An integer is not rounded over a number below it. -/
theorem le_scaled_ofInt {n : Int} {x : Binary64} (hx : x.isNaN = false)
    (h : x.scaled ≤ scaleInt n) : x.scaled ≤ (ofInt n).scaled := by
  rw [scaled_ofInt, ← roundScaled_scaled hx]
  exact roundScaled_mono h

theorem nearestBits_lt_infinityBits {n : Nat} (h : n ≤ pow2 64) :
    nearestBits (n * pow2 scaleExponent) < infinityBits := by
  have hbound : nearestBits (pow2 64 * pow2 scaleExponent) < infinityBits := by decide +kernel
  exact (nearestBits_mono (Nat.mul_le_mul_right _ h)).trans_lt hbound

/-- The integers of sixty-four bits, with and without a sign, are rounded to finite numbers. -/
theorem isFinite_ofInt {n : Int} (h : n.natAbs ≤ pow2 64) : (ofInt n).isFinite = true := by
  rw [isFinite, magnitudeBits_ofInt, decide_eq_true_iff]
  exact (Nat.min_le_left _ _).trans_lt (nearestBits_lt_infinityBits h)

theorem pow2_excessBits_dvd {n : Nat} (h : n ≤ pow2 53) (k : Nat) :
    pow2 (excessBits (n * pow2 k)) ∣ n * pow2 k := by
  rcases h.lt_or_eq with hlt | rfl
  · have hbound : n * pow2 k < pow2 (53 + k) :=
      (Nat.mul_lt_mul_of_pos_right hlt (pow2_pos k)).trans_eq (pow2_add 53 k).symm
    have hexcess : excessBits (n * pow2 k) ≤ k := by
      by_cases hzero : n * pow2 k = 0
      · rw [hzero]
        exact Nat.zero_le k
      · have hlog := (Nat.log2_lt hzero).mpr hbound
        rw [excessBits]
        omega
    exact Nat.dvd_trans (Nat.pow_dvd_pow 2 hexcess) (Nat.dvd_mul_left _ _)
  · -- The power itself has one bit more, which is zero.
    have hmove : pow2 53 * pow2 k = pow2 52 * pow2 (1 + k) := by
      rw [pow2_add 1 k, ← Nat.mul_assoc, ← pow2_add 52 1]
    rw [hmove, excessBits_full _ (Nat.le_refl _) (by decide)]
    exact Nat.dvd_mul_left _ _

/-- Integers that fit the significand need no rounding. -/
theorem scaled_ofInt_eq {n : Int} (h : n.natAbs ≤ pow2 53) : (ofInt n).scaled = scaleInt n := by
  have hround : roundMagnitude (scaleInt n).natAbs = (scaleInt n).natAbs := by
    have hbits := nearestBits_lt_infinityBits (h.trans (by decide))
    rw [scaleInt, Int.natAbs_mul, Int.natAbs_natCast, roundMagnitude,
      Nat.min_eq_left (Nat.le_of_lt hbits),
      magnitudeValue_nearestBits (pow2_excessBits_dvd h scaleExponent)]
  rw [scaled_ofInt, roundScaled, hround]
  split <;> omega

end Binary64

end CatalogQuery
