import Mathlib.Algebra.Order.Field.Power
import Mathlib.Data.Int.Log
import Mathlib.Data.Rat.Floor
import Mathlib.Tactic.NormNum
import Mathlib.Tactic.Positivity
import Mathlib.Tactic.Ring
import RemoteRecords.Binary64.Reader
import RemoteRecords.Proofs.Text.Integers

/-!
# How far rounding moves a number

A power of two from one on is a number of the format, so what is at least this power stays so when
it is rounded, and only what is beyond the largest finite number becomes infinite (`ofRatio_cases`).
The same holds of a product whose other factor is at least one (`reaches_mul`).
-/

namespace RemoteRecords

/-! ## Ratios as rational numbers -/

namespace Ratio

/-- The rational number that the ratio stands for. -/
def value (ratio : Ratio) : ℚ := ratio.num / ratio.den

theorem cast_twoTo (exponent : Nat) : (twoTo exponent : ℚ) = 2 ^ exponent := by
  have same : twoTo exponent = 2 ^ exponent := rfl
  rw [same, Nat.cast_pow, Nat.cast_ofNat]

theorem twoTo_pos (exponent : Nat) : 0 < twoTo exponent := Nat.two_pow_pos exponent

theorem le_value_iff {ratio : Ratio} (positive : 0 < ratio.den) (bound : Nat) :
    (bound : ℚ) ≤ ratio.value ↔ bound * ratio.den ≤ ratio.num := by
  have denominator : (0 : ℚ) < ratio.den := Nat.cast_pos.2 positive
  rw [value, le_div_iff₀ denominator]
  exact_mod_cast Iff.rfl

theorem value_le_iff {ratio : Ratio} (positive : 0 < ratio.den) (bound : Nat) :
    ratio.value ≤ bound ↔ ratio.num ≤ bound * ratio.den := by
  have denominator : (0 : ℚ) < ratio.den := Nat.cast_pos.2 positive
  rw [value, div_le_iff₀ denominator]
  exact_mod_cast Iff.rfl

/-- The two forms of a power of two, for the exponents on either side of zero. -/
theorem two_zpow (exponent : Int) :
    (2 : ℚ) ^ exponent =
      if exponent < 0 then 1 / (twoTo exponent.natAbs : ℚ) else (twoTo exponent.natAbs : ℚ) := by
  rw [cast_twoTo, ← zpow_natCast]
  split
  · next negative =>
      have flipped : (exponent.natAbs : Int) = -exponent := by omega
      rw [flipped, zpow_neg, one_div, inv_inv]
  · next notNegative =>
      have same : (exponent.natAbs : Int) = exponent := by omega
      rw [same]

theorem den_shift_pos {ratio : Ratio} (positive : 0 < ratio.den) (exponent : Int) :
    0 < (ratio.shift exponent).den := by
  rw [shift]
  split
  · exact Nat.mul_pos positive (twoTo_pos _)
  · exact positive

theorem value_shift (ratio : Ratio) (exponent : Int) :
    (ratio.shift exponent).value = ratio.value * 2 ^ exponent := by
  rw [shift, two_zpow]
  split
  · simp only [value, Nat.cast_mul]
    rw [div_mul_div_comm, mul_one]
  · simp only [value, Nat.cast_mul]
    rw [div_mul_eq_mul_div]

theorem den_scaled_pos (number : Nat) (exponent : Int) : 0 < (scaled number exponent).den := by
  rw [scaled]
  split
  · exact twoTo_pos _
  · exact Nat.one_pos

theorem value_scaled (number : Nat) (exponent : Int) :
    (scaled number exponent).value = number * 2 ^ exponent := by
  rw [scaled, two_zpow]
  split
  · rw [value, mul_one_div]
  · simp only [value, Nat.cast_mul, Nat.cast_one, div_one]

theorem value_mul (left right : Ratio) : (left.mul right).value = left.value * right.value := by
  simp only [value, mul, Nat.cast_mul]
  rw [div_mul_div_comm]

/-! ## Rounding to a natural number -/

theorem le_roundEven {ratio : Ratio} {bound : Nat} (positive : 0 < ratio.den)
    (above : bound ≤ ratio.value) : bound ≤ ratio.roundEven := by
  have low : bound ≤ ratio.num / ratio.den :=
    (Nat.le_div_iff_mul_le positive).2 ((le_value_iff positive bound).1 above)
  simp only [roundEven]
  split
  · exact low
  · split
    · split <;> omega
    · omega

theorem roundEven_le {ratio : Ratio} {bound : Nat} (positive : 0 < ratio.den)
    (below : ratio.value ≤ bound) : ratio.roundEven ≤ bound := by
  have product := (value_le_iff positive bound).1 below
  have high : ratio.num / ratio.den ≤ bound := by
    rw [Nat.mul_comm] at product
    exact Nat.div_le_of_le_mul product
  have parts := Nat.div_add_mod ratio.num ratio.den
  simp only [roundEven]
  -- Where the quotient is the bound, nothing remains, so the quotient itself is nearest.
  rcases Nat.lt_or_eq_of_le high with less | equal
  · split
    · exact high
    · split
      · split <;> omega
      · omega
  · have nothing : ratio.num % ratio.den = 0 := by
      rw [equal, Nat.mul_comm] at parts
      omega
    rw [nothing, if_pos (by omega)]
    exact high

theorem le_roundHalfUp {ratio : Ratio} {bound : Nat} (positive : 0 < ratio.den)
    (above : bound ≤ ratio.value) : bound ≤ ratio.roundHalfUp := by
  have product := (le_value_iff positive bound).1 above
  rw [roundHalfUp]
  refine (Nat.le_div_iff_mul_le (by omega)).2 ?_
  calc bound * (2 * ratio.den) = 2 * (bound * ratio.den) := by ring
    _ ≤ 2 * ratio.num + ratio.den := by omega

end Ratio

/-! ## Rounding to the format -/

namespace Binary64

open Ratio

/-- The number is finite and its absolute value is at least `bound`. -/
def Reaches (bound : ℚ) (number : Binary64) : Prop :=
  (∃ negative mantissa exponent, number = finite negative mantissa exponent) ∧
    bound ≤ number.magnitude.value

/-- The largest finite number of the format. -/
def largest : ℚ := (2 * leastNormal - 1 : Nat) * 2 ^ (971 : Int)

theorem largest_eq : largest = ((2 * leastNormal - 1) * 2 ^ 971 : Nat) := by
  rw [Nat.cast_mul, Nat.cast_pow]
  rfl

theorem tenTo_le_tenTo {low high : Nat} (bounded : low ≤ high) : tenTo low ≤ tenTo high :=
  Nat.pow_le_pow_right (by decide) bounded

theorem log2_bounds {number : Nat} (nonzero : number ≠ 0) :
    (2 : ℚ) ^ number.log2 ≤ number ∧ (number : ℚ) < 2 ^ (number.log2 + 1) :=
  ⟨by exact_mod_cast Nat.log2_self_le nonzero, by exact_mod_cast Nat.lt_log2_self⟩

theorem value_bounds {ratio : Ratio} (numerator : ratio.num ≠ 0) (denominator : ratio.den ≠ 0) :
    (2 : ℚ) ^ ((ratio.num.log2 : Int) - ratio.den.log2 - 1) < ratio.value ∧
      ratio.value < 2 ^ ((ratio.num.log2 : Int) - ratio.den.log2 + 1) := by
  obtain ⟨numLow, numHigh⟩ := log2_bounds numerator
  obtain ⟨denLow, denHigh⟩ := log2_bounds denominator
  have two : (2 : ℚ) ≠ 0 := by norm_num
  have positive : (0 : ℚ) < ratio.den := Nat.cast_pos.2 (Nat.pos_of_ne_zero denominator)
  have numPositive : (0 : ℚ) < ratio.num := Nat.cast_pos.2 (Nat.pos_of_ne_zero numerator)
  have below : (ratio.num.log2 : Int) - ratio.den.log2 - 1 =
      (ratio.num.log2 : Int) - (ratio.den.log2 + 1 : Nat) := by omega
  have above : (ratio.num.log2 : Int) - ratio.den.log2 + 1 =
      (ratio.num.log2 + 1 : Nat) - (ratio.den.log2 : Int) := by omega
  rw [value, below, above, zpow_sub₀ two, zpow_sub₀ two]
  simp only [zpow_natCast]
  constructor
  · rw [div_lt_div_iff₀ (by positivity) positive]
    calc (2 : ℚ) ^ ratio.num.log2 * ratio.den ≤ ratio.num * ratio.den := by gcongr
      _ < ratio.num * 2 ^ (ratio.den.log2 + 1) := by gcongr
  · rw [div_lt_div_iff₀ positive (by positivity)]
    calc (ratio.num : ℚ) * 2 ^ ratio.den.log2 ≤ ratio.num * ratio.den := by gcongr
      _ < 2 ^ (ratio.num.log2 + 1) * ratio.den := by gcongr

theorem two_zpow_le_iff {exponent : Int} {number : ℚ} (positive : 0 < number) :
    (2 : ℚ) ^ exponent ≤ number ↔ exponent ≤ Int.log 2 number := by
  exact_mod_cast Int.zpow_le_iff_le_log Nat.one_lt_two positive

theorem lt_two_zpow_iff {exponent : Int} {number : ℚ} (positive : 0 < number) :
    number < (2 : ℚ) ^ exponent ↔ Int.log 2 number < exponent := by
  exact_mod_cast Int.lt_zpow_iff_log_lt Nat.one_lt_two positive

theorem value_pos {ratio : Ratio} (numerator : ratio.num ≠ 0) (positive : 0 < ratio.den) :
    0 < ratio.value :=
  div_pos (Nat.cast_pos.2 (Nat.pos_of_ne_zero numerator)) (Nat.cast_pos.2 positive)

theorem le_value_shift_iff {ratio : Ratio} (numerator : ratio.num ≠ 0) (positive : 0 < ratio.den)
    (power : Nat) (exponent : Int) :
    ((2 ^ power : Nat) : ℚ) ≤ (ratio.shift exponent).value ↔
      power - exponent ≤ Int.log 2 ratio.value := by
  have two : (0 : ℚ) < 2 ^ exponent := by positivity
  rw [value_shift, ← two_zpow_le_iff (value_pos numerator positive), zpow_sub₀ (by norm_num),
    div_le_iff₀ two, zpow_natCast, Nat.cast_pow, Nat.cast_ofNat]

/-- The exponent is the one under which the mantissa has 53 bits, if the format has it. -/
theorem exponentOf_eq {ratio : Ratio} (numerator : ratio.num ≠ 0) (positive : 0 < ratio.den) :
    exponentOf ratio = max (Int.log 2 ratio.value - 52) (-1074) := by
  obtain ⟨low, high⟩ := value_bounds numerator (Nat.ne_of_gt positive)
  have valuePositive := value_pos numerator positive
  have fits (exponent : Int) :
      2 * leastNormal * (ratio.shift exponent).den ≤ (ratio.shift exponent).num ↔
        53 - exponent ≤ Int.log 2 ratio.value := by
    rw [← le_value_iff (den_shift_pos positive exponent)]
    exact le_value_shift_iff numerator positive 53 exponent
  have atLeast := (two_zpow_le_iff valuePositive).1 low.le
  have atMost := (lt_two_zpow_iff valuePositive).1 high
  simp only [exponentOf, fits]
  split <;> omega

theorem reaches_of_normal {negative : Bool} {power mantissa : Nat} {exponent : Int}
    (normal : leastNormal ≤ mantissa) (width : (power : Int) ≤ exponent + 52) :
    Reaches (2 ^ power) (finite negative mantissa exponent) := by
  refine ⟨⟨_, _, _, rfl⟩, ?_⟩
  have mantissaLow : (2 : ℚ) ^ (52 : Int) ≤ mantissa := by
    have cast : ((leastNormal : Nat) : ℚ) ≤ mantissa := Nat.cast_le.2 normal
    calc (2 : ℚ) ^ (52 : Int) = leastNormal := by norm_num [leastNormal]
      _ ≤ mantissa := cast
  rw [magnitude, value_scaled]
  calc (2 : ℚ) ^ power = 2 ^ (power : Int) := (zpow_natCast 2 power).symm
    _ ≤ 2 ^ (52 + exponent) := zpow_le_zpow_right₀ (by norm_num) (by omega)
    _ = 2 ^ (52 : Int) * 2 ^ exponent := zpow_add₀ (by norm_num) 52 exponent
    _ ≤ mantissa * 2 ^ exponent := by gcongr

theorem log_le_of_le_largest {number : ℚ} (positive : 0 < number) (small : number ≤ largest) :
    Int.log 2 number ≤ 1023 := by
  have below : number < (2 : ℚ) ^ (1024 : Int) := by
    have mantissa : ((2 * leastNormal - 1 : Nat) : ℚ) < 2 ^ (53 : Int) := by norm_num [leastNormal]
    calc number ≤ largest := small
      _ < 2 ^ (53 : Int) * 2 ^ (971 : Int) := by rw [largest]; gcongr
      _ = 2 ^ (1024 : Int) := (zpow_add₀ (by norm_num) 53 971).symm
  have less := (lt_two_zpow_iff positive).1 below
  omega

theorem roundEven_le_of_le_largest {ratio : Ratio} (positive : 0 < ratio.den)
    (small : ratio.value ≤ largest) :
    (ratio.shift (-971)).roundEven ≤ 2 * leastNormal - 1 := by
  apply roundEven_le (den_shift_pos positive _)
  rw [value_shift]
  calc ratio.value * 2 ^ (-971 : Int) ≤ largest * 2 ^ (-971 : Int) := by gcongr
    _ = (2 * leastNormal - 1 : Nat) := by
        rw [largest, mul_assoc, ← zpow_add₀ (by norm_num)]
        norm_num

/-- What is no more than the largest number of the format has its exponents, also where the
mantissa is rounded up to the next power of two. -/
theorem exponentOf_of_le_largest {ratio : Ratio} (numerator : ratio.num ≠ 0)
    (positive : 0 < ratio.den) (small : ratio.value ≤ largest) :
    exponentOf ratio ≤ 971 ∧ (exponentOf ratio = 971 →
      (ratio.shift (-exponentOf ratio)).roundEven ≠ 2 * leastNormal) := by
  have narrow := log_le_of_le_largest (value_pos numerator positive) small
  have exponentIs := exponentOf_eq numerator positive
  refine ⟨by omega, ?_⟩
  intro last
  have mantissaHigh := roundEven_le_of_le_largest positive small
  rw [last]
  rw [leastNormal] at mantissaHigh ⊢
  omega

theorem normal_of_one_le {ratio : Ratio} (numerator : ratio.num ≠ 0) (positive : 0 < ratio.den)
    (wide : 0 ≤ Int.log 2 ratio.value) :
    leastNormal ≤ (ratio.shift (-exponentOf ratio)).roundEven := by
  have exponentIs := exponentOf_eq numerator positive
  apply le_roundEven (den_shift_pos positive _)
  refine (le_value_shift_iff numerator positive 52 _).2 ?_
  omega

/-- A number that is at least a power of two stays so, and infinite becomes only what is beyond the
largest number of the format. -/
theorem ofRatio_cases (negative : Bool) {ratio : Ratio} {power : Nat} (positive : 0 < ratio.den)
    (above : (2 : ℚ) ^ power ≤ ratio.value) :
    Reaches (2 ^ power) (ofRatio negative ratio) ∨
      ofRatio negative ratio = infinite negative ∧ largest < ratio.value := by
  have numerator : ratio.num ≠ 0 := by
    intro zero
    rw [value, zero, Nat.cast_zero, zero_div] at above
    exact absurd above (not_le.2 (by positivity))
  have width : (power : Int) ≤ Int.log 2 ratio.value := by
    rw [← two_zpow_le_iff (value_pos numerator positive), zpow_natCast]
    exact above
  have exponentIs := exponentOf_eq numerator positive
  have normal := normal_of_one_le numerator positive (by omega)
  have inside := exponentOf_of_le_largest numerator positive
  rw [ofRatio, if_neg numerator]
  dsimp only
  generalize (ratio.shift (-exponentOf ratio)).roundEven = mantissa at normal inside ⊢
  generalize exponentOf ratio = exponent at exponentIs inside ⊢
  by_cases carry : mantissa = 2 * leastNormal
  · rw [if_pos carry]
    dsimp only
    split
    · next beyond =>
        refine .inr ⟨rfl, lt_of_not_ge fun small => ?_⟩
        obtain ⟨bounded, notLast⟩ := inside small
        exact notLast (by omega) carry
    · exact .inl (reaches_of_normal le_rfl (by omega))
  · rw [if_neg carry]
    dsimp only
    split
    · next beyond =>
        refine .inr ⟨rfl, lt_of_not_ge fun small => ?_⟩
        have bounded := (inside small).1
        omega
    · exact .inl (reaches_of_normal normal (by omega))

theorem isNegative_ofRatio (negative : Bool) (ratio : Ratio) :
    (ofRatio negative ratio).isNegative = negative := by
  rw [ofRatio]
  split
  · rfl
  · dsimp only
    split <;> split <;> rfl

/-! ## Products -/

theorem den_magnitude_pos (number : Binary64) : 0 < number.magnitude.den := by
  cases number with
  | finite negative mantissa exponent => exact den_scaled_pos mantissa exponent
  | infinite negative => exact Nat.one_pos
  | nan => exact Nat.one_pos

theorem reaches_ofNat {number power : Nat} (above : 2 ^ power ≤ number)
    (small : (number : ℚ) ≤ largest) : Reaches (2 ^ power) (ofNat number) := by
  have same : Ratio.value ⟨number, 1⟩ = number := by
    rw [value, Nat.cast_one, div_one]
  have aboveValue : (2 : ℚ) ^ power ≤ Ratio.value ⟨number, 1⟩ := by
    rw [same]
    exact_mod_cast above
  rcases ofRatio_cases false Nat.one_pos aboveValue with reaches | ⟨-, beyond⟩
  · exact reaches
  · rw [same] at beyond
    exact absurd small (not_le.2 beyond)

theorem reaches_mul {left right : Binary64} {power : Nat} (reaches : Reaches (2 ^ power) left)
    (unit : Reaches 1 right) :
    Reaches (2 ^ power) (left.mul right) ∨ ∃ negative, left.mul right = infinite negative := by
  have positive : 0 < (left.magnitude.mul right.magnitude).den :=
    Nat.mul_pos (den_magnitude_pos left) (den_magnitude_pos right)
  have above : (2 : ℚ) ^ power ≤ (left.magnitude.mul right.magnitude).value := by
    rw [value_mul]
    calc (2 : ℚ) ^ power = 2 ^ power * 1 := (mul_one _).symm
      _ ≤ left.magnitude.value * right.magnitude.value :=
        mul_le_mul reaches.2 unit.2 (by norm_num) (le_trans (by positivity) reaches.2)
  rcases ofRatio_cases _ positive above with product | ⟨infinite, -⟩
  · exact .inl product
  · exact .inr ⟨_, infinite⟩

/-! ## Decimals -/

theorem ofUnsigned?_of_ofDigits? (negative : Bool) {digits : List Char} {number : Nat}
    (spelled : Text.ofDigits? digits = some number) :
    ofUnsigned? negative digits = some (ofDecimal negative number 0) := by
  have allDigits := Text.isDigit_of_ofDigits? spelled
  have parts : digits.span Char.isDigit = (digits, []) := by
    rw [List.span_eq_takeWhile_dropWhile, List.takeWhile_eq_self_iff.2 allDigits,
      List.dropWhile_eq_nil_iff.2 allDigits]
  simp only [ofUnsigned?, parts, List.append_nil, spelled, exponentOf?]
  rfl

theorem ofChars?_of_signedDigits? {chars : List Char} {n : Int}
    (spelled : Text.signedDigits? chars = some n) :
    ∃ negative number, ofChars? chars = some (ofDecimal negative number 0) ∧
      n = if negative then -(number : Int) else number := by
  rw [Text.signedDigits?.eq_def] at spelled
  split at spelled
  · obtain ⟨number, digitsSpelled, rfl⟩ := Option.map_eq_some_iff.1 spelled
    exact ⟨true, number, ofUnsigned?_of_ofDigits? true digitsSpelled, rfl⟩
  · obtain ⟨number, digitsSpelled, rfl⟩ := Option.map_eq_some_iff.1 spelled
    exact ⟨false, number, ofUnsigned?_of_ofDigits? false digitsSpelled, rfl⟩
  · next notMinus notPlus =>
      obtain ⟨number, digitsSpelled, rfl⟩ := Option.map_eq_some_iff.1 spelled
      refine ⟨false, number, ?_, rfl⟩
      rw [ofChars?]
      · exact ofUnsigned?_of_ofDigits? false digitsSpelled
      · exact notMinus
      · exact notPlus

theorem isNegative_ofDecimal (negative : Bool) (significand : Nat) (exponent : Int) :
    (ofDecimal negative significand exponent).isNegative = negative := by
  simp only [ofDecimal]
  split
  · rfl
  · split
    · rfl
    · split
      · rfl
      · exact isNegative_ofRatio negative _

end Binary64

end RemoteRecords
