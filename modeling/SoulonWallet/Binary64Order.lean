import SoulonWallet.Binary64

/-!
# Rounding keeps the order

Rounding to a double is monotone on positive values and does not move the
powers of two, so that nothing crosses a power of two by being rounded.
-/

namespace SoulonWallet.Binary64

/-! ## To an integer -/

theorem floor_le_roundHalfEven (value : ℚ) :
    ⌊value⌋ ≤ roundHalfEven value := by
  unfold roundHalfEven
  simp only
  split_ifs <;> omega

theorem roundHalfEven_le_floor_add_one (value : ℚ) :
    roundHalfEven value ≤ ⌊value⌋ + 1 := by
  unfold roundHalfEven
  simp only
  split_ifs <;> omega

theorem le_roundHalfEven
    {value : ℚ} {bound : ℤ} (hbound : (bound : ℚ) ≤ value) :
    bound ≤ roundHalfEven value :=
  (Int.le_floor.mpr hbound).trans (floor_le_roundHalfEven value)

theorem roundHalfEven_intCast (value : ℤ) :
    roundHalfEven (value : ℚ) = value := by
  simp [roundHalfEven]

theorem roundHalfEven_mono : Monotone roundHalfEven := by
  intro lower upper hle
  have hfloor : ⌊lower⌋ ≤ ⌊upper⌋ := Int.floor_le_floor hle
  rcases hfloor.lt_or_eq with hlt | heq
  · have hlow := roundHalfEven_le_floor_add_one lower
    have hhigh := floor_le_roundHalfEven upper
    omega
  · unfold roundHalfEven
    simp only [heq]
    split_ifs <;> first | omega | linarith

theorem roundHalfEven_le
    {value : ℚ} {bound : ℤ} (hbound : value ≤ bound) :
    roundHalfEven value ≤ bound := by
  rw [← roundHalfEven_intCast bound]
  exact roundHalfEven_mono hbound

/-! ## To a double -/

/-- The rounded value, before it is compared with the largest double. -/
def rounded (value : ℚ) : ℚ :=
  roundHalfEven (value / 2 ^ lastPlace value) * 2 ^ lastPlace value

theorem round_eq (value : ℚ) :
    round value =
      if 2 ^ 1024 ≤ |rounded value| then infinity (value < 0)
      else finite (rounded value) :=
  rfl

theorem rounded_le
    {value : ℚ} {places : ℤ}
    (hle : value ≤ places * 2 ^ lastPlace value) :
    rounded value ≤ places * 2 ^ lastPlace value := by
  have hplace : (0 : ℚ) < 2 ^ lastPlace value := by positivity
  have hround : (roundHalfEven (value / 2 ^ lastPlace value) : ℚ) ≤
      places := by
    exact_mod_cast roundHalfEven_le ((div_le_iff₀ hplace).mpr hle)
  exact mul_le_mul_of_nonneg_right hround hplace.le

theorem le_rounded
    {value : ℚ} {places : ℤ}
    (hle : places * 2 ^ lastPlace value ≤ value) :
    places * 2 ^ lastPlace value ≤ rounded value := by
  have hplace : (0 : ℚ) < 2 ^ lastPlace value := by positivity
  have hround : (places : ℚ) ≤
      roundHalfEven (value / 2 ^ lastPlace value) := by
    exact_mod_cast le_roundHalfEven ((le_div_iff₀ hplace).mpr hle)
  exact mul_le_mul_of_nonneg_right hround hplace.le

theorem lt_two_zpow_lastPlace {value : ℚ} (hpositive : 0 < value) :
    value < 2 ^ (lastPlace value + 53) := by
  have hlog : value < (2 : ℚ) ^ (Int.log 2 value + 1) := by
    exact_mod_cast Int.lt_zpow_succ_log_self Nat.one_lt_two value
  refine hlog.trans_le (zpow_le_zpow_right₀ one_le_two ?_)
  have hplace : Int.log 2 value - 52 ≤ lastPlace value := by
    unfold lastPlace
    rw [abs_of_pos hpositive]
    exact le_max_left _ _
  omega

/-- Above the subnormal numbers the last place is 52 places below the leading
one. -/
theorem two_zpow_lastPlace_le
    {value : ℚ} (hpositive : 0 < value) (hnormal : -1074 < lastPlace value) :
    2 ^ (lastPlace value + 52) ≤ value := by
  have hplace : lastPlace value = Int.log 2 value - 52 := by
    unfold lastPlace at hnormal ⊢
    rw [abs_of_pos hpositive] at hnormal ⊢
    omega
  rw [hplace, sub_add_cancel]
  exact_mod_cast Int.zpow_log_le_self Nat.one_lt_two hpositive

theorem lastPlace_mono
    {lower upper : ℚ} (hpositive : 0 < lower) (hle : lower ≤ upper) :
    lastPlace lower ≤ lastPlace upper := by
  have hlog : Int.log 2 lower ≤ Int.log 2 upper :=
    Int.log_mono_right hpositive hle
  unfold lastPlace
  rw [abs_of_pos hpositive, abs_of_pos (hpositive.trans_le hle)]
  exact max_le_max (by omega) le_rfl

theorem rounded_mono
    {lower upper : ℚ} (hpositive : 0 < lower) (hle : lower ≤ upper) :
    rounded lower ≤ rounded upper := by
  have hplaces := lastPlace_mono hpositive hle
  rcases hplaces.eq_or_lt with hsame | hlt
  · have hplace : (0 : ℚ) < 2 ^ lastPlace upper := by positivity
    unfold rounded
    rw [hsame]
    have hdiv : lower / 2 ^ lastPlace upper ≤ upper / 2 ^ lastPlace upper :=
      div_le_div_of_nonneg_right hle hplace.le
    have hround : (roundHalfEven (lower / 2 ^ lastPlace upper) : ℚ) ≤
        roundHalfEven (upper / 2 ^ lastPlace upper) := by
      exact_mod_cast roundHalfEven_mono hdiv
    exact mul_le_mul_of_nonneg_right hround hplace.le
  · -- the power of two of the last place of `upper` stands between them
    have hnormal : -1074 < lastPlace upper :=
      lt_of_le_of_lt (le_max_right _ _) hlt
    have hlower : rounded lower ≤ 2 ^ (lastPlace upper + 52) := by
      obtain ⟨gap, hgap⟩ : ∃ gap : ℕ,
          lastPlace upper + 52 = lastPlace lower + gap :=
        ⟨(lastPlace upper + 52 - lastPlace lower).toNat, by omega⟩
      have hpower : (2 : ℚ) ^ (lastPlace upper + 52) =
          ((2 ^ gap : ℤ) : ℚ) * 2 ^ lastPlace lower := by
        rw [hgap, zpow_add₀ two_ne_zero, zpow_natCast, mul_comm]
        norm_cast
      rw [hpower]
      apply rounded_le
      rw [← hpower]
      refine (lt_two_zpow_lastPlace hpositive).le.trans ?_
      exact zpow_le_zpow_right₀ one_le_two (by omega)
    have hupper : 2 ^ (lastPlace upper + 52) ≤ rounded upper := by
      have hpower : (2 : ℚ) ^ (lastPlace upper + 52) =
          ((2 ^ 52 : ℤ) : ℚ) * 2 ^ lastPlace upper := by
        rw [zpow_add₀ two_ne_zero, mul_comm]
        norm_cast
      rw [hpower]
      apply le_rounded
      rw [← hpower]
      exact two_zpow_lastPlace_le (hpositive.trans_le hle) hnormal
    exact hlower.trans hupper

theorem rounded_two_pow (exponent : ℕ) :
    rounded (2 ^ exponent) = 2 ^ exponent := by
  have hzpow : Int.log 2 (((2 : ℕ) : ℚ) ^ (exponent : ℤ)) = exponent :=
    Int.log_zpow Nat.one_lt_two exponent
  have hlog : Int.log 2 |(2 : ℚ) ^ exponent| = exponent := by
    rwa [abs_of_pos (by positivity), ← zpow_natCast]
  have hplace : lastPlace (2 ^ exponent) = exponent - 52 := by
    unfold lastPlace
    rw [hlog]
    omega
  have hpower : (2 : ℚ) ^ exponent / 2 ^ ((exponent : ℤ) - 52) =
      ((2 ^ 52 : ℤ) : ℚ) := by
    rw [zpow_sub₀ two_ne_zero, zpow_natCast]
    field_simp
    norm_cast
  rw [rounded, hplace, hpower, roundHalfEven_intCast, ← hpower]
  exact div_mul_cancel₀ _ (by positivity)

/-! ## Of integers and ratios -/

@[simp] theorem ge_nan (value : Binary64) : value.ge nan = false := by
  cases value <;> rfl

theorem one_le_rounded {value : ℚ} (hvalue : 1 ≤ value) :
    1 ≤ rounded value := by
  have hmono := rounded_mono one_pos hvalue
  have hone := rounded_two_pow 0
  rw [pow_zero] at hone
  rwa [hone] at hmono

/-- A value of at least one is rounded to at least every bound up to one. -/
theorem round_ge
    {value bound : ℚ} (hvalue : 1 ≤ value) (hbound : bound ≤ 1) :
    (round value).ge (finite bound) = true := by
  rw [round_eq]
  split_ifs
  · have hpositive : ¬ value < 0 := by linarith
    simp [ge, hpositive]
  · simpa [ge] using hbound.trans (one_le_rounded hvalue)

theorem ofInt_eq_finite
    {value : ℤ} (hlow : 1 ≤ value) (hhigh : value < 2 ^ 63) :
    ofInt value = finite (rounded value) := by
  have hone : (1 : ℚ) ≤ value := by exact_mod_cast hlow
  have hle : (value : ℚ) ≤ 2 ^ 63 := by exact_mod_cast hhigh.le
  have hrounded : rounded value ≤ 2 ^ 63 := by
    have hmono := rounded_mono (zero_lt_one.trans_le hone) hle
    rwa [rounded_two_pow] at hmono
  have hpositive : 0 ≤ rounded value :=
    zero_le_one.trans (one_le_rounded hone)
  have hsmall : ¬ (2 : ℚ) ^ 1024 ≤ |rounded value| := by
    rw [abs_of_nonneg hpositive, not_le]
    exact hrounded.trans_lt (pow_lt_pow_right₀ one_lt_two (by decide))
  rw [ofInt, round_eq, if_neg hsmall]

/-- The ratio of an integer and one that is not larger reaches every bound up
to one, in spite of the three roundings. -/
theorem div_ofInt_ge
    {numerator denominator : ℤ} {bound : ℚ} (hpositive : 1 ≤ denominator)
    (hle : denominator ≤ numerator) (hhigh : numerator < 2 ^ 63)
    (hbound : bound ≤ 1) :
    ((ofInt numerator).div (ofInt denominator)).ge (finite bound) = true := by
  have hone : (1 : ℚ) ≤ denominator := by exact_mod_cast hpositive
  have hcast : (denominator : ℚ) ≤ numerator := by exact_mod_cast hle
  have hdenominator : 1 ≤ rounded denominator := one_le_rounded hone
  have hrounded : rounded denominator ≤ rounded numerator :=
    rounded_mono (zero_lt_one.trans_le hone) hcast
  have hnonzero : rounded denominator ≠ 0 := by
    intro hzero
    rw [hzero] at hdenominator
    exact absurd hdenominator (by norm_num)
  rw [ofInt_eq_finite (hpositive.trans hle) hhigh,
    ofInt_eq_finite hpositive (hle.trans_lt hhigh), div, if_neg hnonzero]
  exact round_ge ((one_le_div (by linarith)).mpr hrounded) hbound

end SoulonWallet.Binary64
