import SelectionEngine.Double.Decimal

namespace SelectionEngine.Double

theorem halfEven_mul (num den : Nat) {k : Nat} (positive : 0 < k) :
    halfEven (num * k) (den * k) = halfEven num den := by
  have below : 2 * (num % den * k) < den * k ↔ 2 * (num % den) < den := by
    rw [← Nat.mul_assoc]
    exact Nat.mul_lt_mul_right positive
  have above : den * k < 2 * (num % den * k) ↔ den < 2 * (num % den) := by
    rw [← Nat.mul_assoc]
    exact Nat.mul_lt_mul_right positive
  simp only [halfEven, Nat.mul_div_mul_right _ _ positive, Nat.mul_mod_mul_right, below, above]

theorem halfEven_mul_self (n : Nat) {den : Nat} (positive : 0 < den) : halfEven (n * den) den = n := by
  simp [halfEven, Nat.mul_div_cancel _ positive, positive]

theorem halfEven_eq_zero {num den : Nat} (small : 2 * num < den) : halfEven num den = 0 := by
  have less : num < den := by omega
  simp [halfEven, Nat.div_eq_of_lt less, Nat.mod_eq_of_lt less, small]

variable {negative : Bool}

/-- A quotient is rounded in the same way after both of its sides
are multiplied. -/
theorem nearest?_mul (num den : Nat) {k : Nat} (positive : 0 < k) :
    nearest? negative (num * k) (den * k) = nearest? negative num den := by
  have units : (num * k) <<< 1074 = num <<< 1074 * k := by
    rw [Nat.shiftLeft_eq, Nat.shiftLeft_eq, Nat.mul_right_comm]
  have steps (scale : Nat) : (den * k) <<< scale = den <<< scale * k := by
    rw [Nat.shiftLeft_eq, Nat.shiftLeft_eq, Nat.mul_right_comm]
  simp only [nearest?, units, steps, Nat.mul_div_mul_right _ _ positive, halfEven_mul _ _ positive]

theorem nearest?_congr {num den num' den' : Nat} (positive : 0 < den) (positive' : 0 < den')
    (same : num * den' = num' * den) : nearest? negative num den = nearest? negative num' den' := by
  rw [← nearest?_mul num den positive', same, Nat.mul_comm den den', nearest?_mul num' den' positive]

theorem ofParts?_self (d : Double) : ofParts? d.negative d.mantissa d.scale = some d := by
  rw [ofParts?, dif_pos d.canonical]

/-- The place of the first bit tells by how much a number is scaled. -/
theorem log2_magnitude (d : Double) : Nat.log2 (d.mantissa <<< d.scale) - 52 = d.scale := by
  obtain ⟨small, normal, _⟩ := d.canonical
  have small : d.mantissa < 2 ^ 53 := small
  rcases normal with large | unscaled
  · have large : 2 ^ 52 ≤ d.mantissa := large
    have lower : 2 ^ (52 + d.scale) ≤ d.mantissa <<< d.scale := by
      rw [Nat.shiftLeft_eq, Nat.pow_add]
      exact Nat.mul_le_mul_right _ large
    have upper : d.mantissa <<< d.scale < 2 ^ (53 + d.scale) := by
      rw [Nat.shiftLeft_eq, Nat.pow_add]
      exact Nat.mul_lt_mul_of_pos_right small (Nat.two_pow_pos _)
    have positive : d.mantissa <<< d.scale ≠ 0 :=
      Nat.ne_of_gt (Nat.lt_of_lt_of_le (Nat.two_pow_pos _) lower)
    have reaches := (Nat.le_log2 positive).mpr lower
    have stays := (Nat.log2_lt positive).mpr upper
    omega
  · rw [unscaled, Nat.shiftLeft_zero]
    by_cases zero : d.mantissa = 0
    · simp [zero]
    · have stays := (Nat.log2_lt zero).mpr small
      omega

/-- A number is the nearest one to itself. -/
theorem nearest?_magnitude (d : Double) {num den : Nat} (positive : 0 < den)
    (exact : num <<< 1074 = d.mantissa <<< d.scale * den) : nearest? d.negative num den = some d := by
  have mantissa : halfEven (d.mantissa <<< d.scale * den) (den <<< d.scale) = d.mantissa := by
    rw [Nat.shiftLeft_eq, Nat.shiftLeft_eq, Nat.mul_assoc, Nat.mul_comm (2 ^ d.scale) den]
    exact halfEven_mul_self d.mantissa (Nat.mul_pos positive (Nat.two_pow_pos _))
  simp only [nearest?, exact, Nat.mul_div_cancel _ positive, log2_magnitude, mantissa, if_pos d.canonical.1]
  exact ofParts?_self d

/-- What is far below the smallest positive number is rounded to zero. -/
theorem mantissa_eq_zero_of_nearest? {num den : Nat} {d : Double} (small : 2 * num <<< 1074 < den)
    (rounded : nearest? negative num den = some d) : d.mantissa = 0 := by
  have none : num <<< 1074 / den = 0 := Nat.div_eq_of_lt (by omega)
  have mantissa : halfEven (num <<< 1074) (den <<< 0) = 0 := halfEven_eq_zero small
  have scale : Nat.log2 0 - 52 = 0 := by simp
  simp only [nearest?, none, scale, mantissa] at rounded
  rw [if_pos (by decide), ofParts?, dif_pos (by decide)] at rounded
  cases rounded
  rfl

theorem scale_le_of_ofParts? {mantissa scale : Nat} {d : Double}
    (built : ofParts? negative mantissa scale = some d) : scale ≤ 2045 := by
  rw [ofParts?] at built
  split at built
  · next canonical => exact canonical.2.2
  · cases built

/-- What is rounded to a finite number is not too large. -/
theorem lt_of_nearest? {num den : Nat} {d : Double} (positive : 0 < den)
    (rounded : nearest? negative num den = some d) : num < den <<< 1024 := by
  have scale : Nat.log2 (num <<< 1074 / den) - 52 ≤ 2045 := by
    simp only [nearest?] at rounded
    split at rounded
    · exact scale_le_of_ofParts? rounded
    · have := scale_le_of_ofParts? rounded
      omega
  -- named, so that no power of them is ever computed
  obtain ⟨places, isPlaces⟩ : ∃ places, places = 1074 := ⟨_, rfl⟩
  obtain ⟨bits, isBits⟩ : ∃ bits, bits = 1024 := ⟨_, rfl⟩
  rw [← isPlaces] at scale
  rw [← isBits, Nat.shiftLeft_eq]
  have quotient : num <<< places / den < 2 ^ (bits + places) := by
    by_cases zero : num <<< places / den = 0
    · rw [zero]
      exact Nat.two_pow_pos (bits + places)
    · refine (Nat.log2_lt zero).mp ?_
      omega
  have units := (Nat.div_lt_iff_lt_mul positive).mp quotient
  rw [Nat.shiftLeft_eq, Nat.pow_add, Nat.mul_right_comm, Nat.mul_comm _ den] at units
  exact Nat.lt_of_mul_lt_mul_right units

end SelectionEngine.Double

namespace SelectionEngine

theorem pow_ten_pos (k : Nat) : 0 < Nat.pow 10 k := Nat.pow_pos (by decide)

/-- A decimal digit is worth more than three bits. -/
theorem two_pow_le_pow_ten {bits k : Nat} (few : bits ≤ 3 * k) : Nat.pow 2 bits ≤ Nat.pow 10 k := by
  have grouped : 2 ^ (3 * k) = 8 ^ k := Nat.pow_mul 2 3 k
  have smaller : 8 ^ k ≤ Nat.pow 10 k := Nat.pow_le_pow_left (by decide) k
  exact Nat.le_trans (Nat.pow_le_pow_right (by decide) few) (grouped ▸ smaller)

namespace Decimal

variable {decimal : Decimal} {num den bits : Nat} {d : Double}

/-- Whether a numeral stands for a quotient. -/
def StandsFor (decimal : Decimal) (num den : Nat) : Prop :=
  decimal.coefficient * Nat.pow 10 decimal.exponent.toNat * den = num * Nat.pow 10 (-decimal.exponent).toNat

theorem coefficient_ne_zero (nonzero : d.mantissa ≠ 0) (positive : 0 < den) (stands : decimal.StandsFor num den)
    (rounded : Double.nearest? d.negative num den = some d) : decimal.coefficient ≠ 0 := by
  intro zero
  rw [StandsFor, zero, Nat.zero_mul, Nat.zero_mul] at stands
  have none : num = 0 := (Nat.mul_eq_zero.mp stands.symm).resolve_right (Nat.ne_of_gt (pow_ten_pos _))
  subst none
  exact nonzero (Double.mantissa_eq_zero_of_nearest? (by simpa using positive) rounded)

/-- A numeral for a number that is not too large has few digits
before its point. -/
theorem exponent_le (coefficient : decimal.coefficient ≠ 0) (few : bits ≤ 1200) (bounded : num < den <<< bits)
    (stands : decimal.coefficient * Nat.pow 10 decimal.exponent.toNat * den = num) : decimal.exponent ≤ 400 := by
  refine Int.not_lt.mp fun large => Nat.not_le_of_lt bounded ?_
  have many : 2 ^ bits ≤ Nat.pow 10 decimal.exponent.toNat := two_pow_le_pow_ten (by omega)
  have huge := Nat.le_trans many (Nat.le_mul_of_pos_left _ (Nat.pos_of_ne_zero coefficient))
  rw [Nat.shiftLeft_eq, Nat.mul_comm, ← stands]
  exact Nat.mul_le_mul_right den huge

/-- A numeral for a number that is not too small has few zeros after its point. -/
theorem places_le (positive : 0 < den) (few : bits ≤ 1200) (bounded : den ≤ num <<< bits)
    (stands : decimal.coefficient * den = num * Nat.pow 10 decimal.exponent.natAbs) :
    decimal.exponent.natAbs ≤ Nat.log2 decimal.coefficient + 401 := by
  refine Nat.not_lt.mp fun tiny => Nat.not_le_of_lt ?_ bounded
  have digits : decimal.coefficient < 2 ^ (Nat.log2 decimal.coefficient + 1) := Nat.lt_log2_self
  have zeros : 2 ^ (Nat.log2 decimal.coefficient + 1 + bits) ≤ Nat.pow 10 decimal.exponent.natAbs :=
    two_pow_le_pow_ten (by omega)
  rw [Nat.shiftLeft_eq]
  refine Nat.lt_of_mul_lt_mul_right (a := Nat.pow 10 decimal.exponent.natAbs) ?_
  calc num * 2 ^ bits * Nat.pow 10 decimal.exponent.natAbs = decimal.coefficient * den * 2 ^ bits := by
        rw [stands, Nat.mul_right_comm]
    _ < 2 ^ (Nat.log2 decimal.coefficient + 1) * den * 2 ^ bits :=
        Nat.mul_lt_mul_of_pos_right (Nat.mul_lt_mul_of_pos_right digits positive) (Nat.two_pow_pos _)
    _ = den * 2 ^ (Nat.log2 decimal.coefficient + 1 + bits) := by
        rw [Nat.pow_add 2 _ bits, Nat.mul_comm _ den, Nat.mul_assoc]
    _ ≤ den * Nat.pow 10 decimal.exponent.natAbs := Nat.mul_le_mul_left den zeros

/-- A numeral for a quotient that is rounded to a number is read as that number.
The two shortcuts, for very large and for very small numerals, are not taken. -/
theorem toDouble?_of_standsFor (nonzero : d.mantissa ≠ 0) (sign : decimal.negative = d.negative)
    (positive : 0 < den)
    (stands : decimal.StandsFor num den) (rounded : Double.nearest? d.negative num den = some d) :
    decimal.toDouble? = some d := by
  have coefficient := coefficient_ne_zero nonzero positive stands rounded
  rw [StandsFor] at stands
  rw [toDouble?, if_neg coefficient, sign]
  split
  · next whole =>
    have places : (-decimal.exponent).toNat = 0 := by omega
    rw [places, show Nat.pow 10 0 = 1 from rfl, Nat.mul_one] at stands
    have few := exponent_le coefficient (by decide) (Double.lt_of_nearest? positive rounded) stands
    rw [if_neg (by omega), Double.nearest?_congr Nat.one_pos positive (by rw [stands, Nat.mul_one]), rounded]
  · next fractional =>
    have digits : decimal.exponent.toNat = 0 := by omega
    have places : (-decimal.exponent).toNat = decimal.exponent.natAbs := by omega
    rw [digits, places, show Nat.pow 10 0 = 1 from rfl, Nat.mul_one] at stands
    have visible : den ≤ num <<< 1075 := by
      rw [Nat.shiftLeft_succ]
      exact Nat.not_lt.mp fun small => nonzero (Double.mantissa_eq_zero_of_nearest? small rounded)
    have few := places_le positive (by decide) visible stands
    rw [if_neg (Nat.not_lt.mpr few), Double.nearest?_congr (pow_ten_pos _) positive stands, rounded]

end Decimal

end SelectionEngine
