import Mathlib.Algebra.Order.Field.Power
import Mathlib.Algebra.Order.Floor.Semifield
import Mathlib.Data.Int.Log
import Mathlib.Data.Rat.Floor
import Mathlib.Tactic.FieldSimp
import Mathlib.Tactic.Linarith
import Mathlib.Tactic.Positivity
import TemplateLinker.Decimal.Shortest

/-!
# Proofs.Decimal.Rounding — what `ofRatio` rounds

`ofRat` is the rounding of a rational number, with no numerator and denominator to choose: `ofRatio`
and `ofDecimal` compute it (`ofRatio_eq_ofRat`, `ofDecimal_eq_ofRat`), so they depend on the value of
what they are given and on nothing else.  A finite number is where its own size is rounded to
(`ofRat_size`).
-/

namespace TemplateLinker.Binary64

/-- The natural number nearest to `q`, a half going to the even neighbour. -/
def roundRat (q : ℚ) : ℕ :=
  if 2 * (q - ⌊q⌋₊) < 1 then ⌊q⌋₊
  else if 1 < 2 * (q - ⌊q⌋₊) then ⌊q⌋₊ + 1
  else ⌊q⌋₊ + ⌊q⌋₊ % 2

/-- The exponent of the unit in which `q` has 53 bits before the point, at least the smallest one. -/
def unitAt (q : ℚ) : ℤ := max (-1074) (Int.log 2 q - 52)

/-- The number nearest to `q`. -/
def ofRat (negative : Bool) (q : ℚ) : Binary64 :=
  if q = 0 then zero negative
  else ofMagnitude negative
    ((unitAt q + 1074).toNat * fractions + roundRat (q / (2 : ℚ) ^ unitAt q))

/-- The magnitude of a finite number. -/
def size (x : Binary64) : ℚ := x.significand * (2 : ℚ) ^ x.exponent

/-- The number that a decimal writes. -/
def Decimal.value (d : Decimal) : ℚ := d.digits * (10 : ℚ) ^ d.exponent

/-! ### Powers with an exponent of either sign -/

theorem zpow_of_nonneg (b : ℚ) {u : ℤ} (hu : 0 ≤ u) : b ^ u = b ^ u.toNat := by
  rw [← zpow_natCast, Int.toNat_of_nonneg hu]

theorem zpow_of_neg (b : ℚ) {u : ℤ} (hu : ¬ 0 ≤ u) : b ^ u = (b ^ (-u).toNat)⁻¹ := by
  rw [← zpow_of_nonneg b (by omega), zpow_neg, inv_inv]

/-! ### The parts of `ofRatio` -/

theorem roundDiv_eq (num den : ℕ) (hd : den ≠ 0) : roundDiv num den = roundRat (num / den) := by
  have hden : (0 : ℚ) < den := by exact_mod_cast Nat.pos_of_ne_zero hd
  have hfloor : ⌊(num / den : ℚ)⌋₊ = num / den := Nat.floor_div_eq_div num den
  have hrest : 2 * ((num / den : ℚ) - (num / den : ℕ)) = (2 * (num % den) : ℕ) / den := by
    have hsplit : (num : ℚ) = den * (num / den : ℕ) + (num % den : ℕ) := by
      exact_mod_cast (Nat.div_add_mod num den).symm
    field_simp
    push_cast
    linarith
  unfold roundDiv roundRat
  simp only [hfloor, hrest, div_lt_one hden, one_lt_div hden, Nat.cast_lt]

/-- The quotient of `inUnits` is the quotient in the unit. -/
theorem inUnits_value (num den : ℕ) (unit : ℤ) (hd : den ≠ 0) :
    (inUnits num den unit).2 ≠ 0 ∧
      ((inUnits num den unit).1 / (inUnits num den unit).2 : ℚ) = num / den / (2 : ℚ) ^ unit := by
  unfold inUnits
  by_cases hu : 0 ≤ unit
  · rw [if_pos hu, zpow_of_nonneg 2 hu]
    refine ⟨by simp [hd], ?_⟩
    simp [div_div]
  · rw [if_neg hu, zpow_of_neg 2 hu]
    refine ⟨hd, ?_⟩
    simp only [Nat.pow_eq, Nat.cast_mul, Nat.cast_pow, Nat.cast_ofNat, div_inv_eq_mul]
    ring

/-- The binary logarithm of a quotient, up to one. -/
theorem log_div_bounds {num den : ℕ} (hn : num ≠ 0) (hd : den ≠ 0) :
    (Nat.log2 num : ℤ) - Nat.log2 den - 1 ≤ Int.log 2 (num / den : ℚ) ∧
      Int.log 2 (num / den : ℚ) ≤ (Nat.log2 num : ℤ) - Nat.log2 den := by
  have hnum : (0 : ℚ) < num := by exact_mod_cast Nat.pos_of_ne_zero hn
  have hden : (0 : ℚ) < den := by exact_mod_cast Nat.pos_of_ne_zero hd
  have hq : (0 : ℚ) < num / den := div_pos hnum hden
  have hnlow : (2 : ℚ) ^ Nat.log2 num ≤ num := by exact_mod_cast Nat.log2_self_le hn
  have hdlow : (2 : ℚ) ^ Nat.log2 den ≤ den := by exact_mod_cast Nat.log2_self_le hd
  have hnhigh : (num : ℚ) < (2 : ℚ) ^ (Nat.log2 num + 1) := by exact_mod_cast Nat.lt_log2_self
  have hdhigh : (den : ℚ) < (2 : ℚ) ^ (Nat.log2 den + 1) := by exact_mod_cast Nat.lt_log2_self
  constructor
  · rw [← Int.zpow_le_iff_le_log (by norm_num) hq, le_div_iff₀ hden]
    have hpow : (2 : ℚ) ^ ((Nat.log2 num : ℤ) - Nat.log2 den - 1) * 2 ^ (Nat.log2 den + 1) =
        2 ^ Nat.log2 num := by
      rw [← zpow_natCast, ← zpow_natCast, ← zpow_add₀ (by norm_num)]
      congr 1
      push_cast
      omega
    calc _ ≤ (2 : ℚ) ^ ((Nat.log2 num : ℤ) - Nat.log2 den - 1) * 2 ^ (Nat.log2 den + 1) := by
            exact mul_le_mul_of_nonneg_left hdhigh.le (by positivity)
      _ ≤ num := by rw [hpow]; exact hnlow
  · rw [← Int.lt_add_one_iff, ← Int.lt_zpow_iff_log_lt (by norm_num) hq, div_lt_iff₀ hden]
    have hpow : (2 : ℚ) ^ ((Nat.log2 num : ℤ) - Nat.log2 den + 1) * 2 ^ Nat.log2 den =
        2 ^ (Nat.log2 num + 1) := by
      rw [← zpow_natCast, ← zpow_natCast, ← zpow_add₀ (by norm_num)]
      congr 1
      push_cast
      omega
    calc (num : ℚ) < (2 : ℚ) ^ ((Nat.log2 num : ℤ) - Nat.log2 den + 1) * 2 ^ Nat.log2 den := by
            rw [hpow]; exact hnhigh
      _ ≤ _ := mul_le_mul_of_nonneg_left hdlow (by positivity)

theorem unitOf_eq {num den : ℕ} (hn : num ≠ 0) (hd : den ≠ 0) :
    unitOf num den = unitAt (num / den) := by
  have hq : (0 : ℚ) < num / den := by positivity
  obtain ⟨hlow, hhigh⟩ := log_div_bounds hn hd
  unfold unitOf unitAt
  generalize hl : (Nat.log2 num : ℤ) - Nat.log2 den - 53 = low
  obtain ⟨hd', hvalue⟩ := inUnits_value num den low hd
  dsimp only
  generalize (inUnits num den low).1 = n at hvalue
  generalize (inUnits num den low).2 = d at hvalue hd'
  have hden : (0 : ℚ) < d := by exact_mod_cast Nat.pos_of_ne_zero hd'
  have hless : n < 2 * fractions * d ↔ Int.log 2 (num / den : ℚ) < low + 53 := by
    rw [← Int.lt_zpow_iff_log_lt (by norm_num) hq]
    have hcast : n < 2 * fractions * d ↔ (n / d : ℚ) < 2 ^ (53 : ℤ) := by
      rw [div_lt_iff₀ hden]
      unfold fractions
      norm_num
      exact_mod_cast Iff.rfl
    rw [hcast, hvalue, div_lt_iff₀ (by positivity), ← zpow_add₀ (by norm_num)]
    norm_num [add_comm]
  congr 1
  split
  · have := hless.mp ‹_›
    omega
  · have := mt hless.mpr ‹_›
    omega

/-- **`ofRatio` rounds the quotient**, whatever numerator and denominator write it. -/
theorem ofRatio_eq_ofRat (negative : Bool) (num : ℕ) {den : ℕ} (hd : den ≠ 0) :
    ofRatio negative num den = ofRat negative (num / den) := by
  unfold ofRatio ofRat
  by_cases hn : num = 0
  · simp [hn]
  · have hq : (num / den : ℚ) ≠ 0 := by positivity
    obtain ⟨hd', hvalue⟩ := inUnits_value num den (unitOf num den) hd
    rw [if_neg hn, if_neg hq]
    dsimp only
    rw [roundDiv_eq _ _ hd', hvalue, unitOf_eq hn hd]

/-- **`ofDecimal` rounds the value of the decimal**, whatever digits and exponent write it. -/
theorem ofDecimal_eq_ofRat (negative : Bool) (d : Decimal) :
    ofDecimal negative d = ofRat negative d.value := by
  unfold ofDecimal Decimal.value
  by_cases he : 0 ≤ d.exponent
  · rw [if_pos he, ofRatio_eq_ofRat negative _ one_ne_zero, zpow_of_nonneg 10 he]
    simp
  · rw [if_neg he, ofRatio_eq_ofRat negative _ (by simp), zpow_of_neg 10 he]
    simp [div_eq_mul_inv]

/-! ### Where rounding does nothing, and where it leaves the finite numbers -/

@[simp] theorem roundRat_natCast (n : ℕ) : roundRat n = n := by
  simp [roundRat]

theorem roundRat_of_lt_half {q : ℚ} (h : q < 1 / 2) : roundRat q = 0 := by
  have hfloor : ⌊q⌋₊ = 0 := Nat.floor_eq_zero.mpr (by linarith)
  unfold roundRat
  rw [hfloor, if_pos]
  push_cast
  linarith

theorem significand_bounds (x : Binary64) :
    (x.magnitude.val < fractions ∧ x.exponent = -1074 ∧ x.significand = x.magnitude.val) ∨
      (-1074 ≤ x.exponent ∧ fractions ≤ x.significand ∧ x.significand < 2 * fractions ∧
        (x.exponent + 1074).toNat * fractions + x.significand = x.magnitude.val) := by
  unfold significand exponent fractions
  by_cases hm : x.magnitude.val < 0x10000000000000
  · left
    refine ⟨hm, ?_, if_pos hm⟩
    omega
  · right
    rw [if_neg hm]
    omega

theorem significand_eq_zero_iff (x : Binary64) : x.significand = 0 ↔ x.magnitude.val = 0 := by
  obtain ⟨-, -, hs⟩ | ⟨-, hs, -, hm⟩ := significand_bounds x
  · rw [hs]
  · unfold fractions at hs hm
    omega

/-- A finite number is in the unit of its own exponent. -/
theorem unitAt_size (x : Binary64) (hx : x.significand ≠ 0) : unitAt x.size = x.exponent := by
  have hs : (0 : ℚ) < x.significand := by exact_mod_cast Nat.pos_of_ne_zero hx
  have hsize : 0 < x.size := mul_pos hs (by positivity)
  have hbelow : ∀ k : ℕ, x.significand < 2 ^ k → Int.log 2 x.size < x.exponent + k := fun k hk => by
    rw [← Int.lt_zpow_iff_log_lt (by norm_num) hsize, size, add_comm, zpow_add₀ (by norm_num)]
    refine mul_lt_mul_of_pos_right ?_ (by positivity)
    exact_mod_cast hk
  have habove : ∀ k : ℕ, 2 ^ k ≤ x.significand → x.exponent + k ≤ Int.log 2 x.size := fun k hk => by
    rw [← Int.zpow_le_iff_le_log (by norm_num) hsize, size, add_comm, zpow_add₀ (by norm_num)]
    refine mul_le_mul_of_nonneg_right ?_ (by positivity)
    exact_mod_cast hk
  unfold unitAt
  obtain ⟨hm, he, hs⟩ | ⟨he, hlow, hhigh, -⟩ := significand_bounds x
  · have := hbelow 52 (by rw [hs]; exact hm)
    omega
  · have := hbelow 53 (by unfold fractions at hhigh; omega)
    have := habove 52 hlow
    omega

/-- **A finite number is the one nearest to its own size.** -/
theorem ofRat_size (x : Binary64) (hx : x.isFinite) : ofRat x.negative x.size = x := by
  have hcode : ∀ code, code = x.magnitude.val → ofMagnitude x.negative code = x := by
    rintro _ rfl
    have hle : x.magnitude.val ≤ infinityMagnitude := (of_decide_eq_true hx).le
    obtain ⟨negative, magnitude⟩ := x
    exact congrArg _ (Fin.ext (min_eq_left hle))
  unfold ofRat
  by_cases hs : x.significand = 0
  · rw [if_pos (by simp [size, hs])]
    exact hcode 0 ((significand_eq_zero_iff x).mp hs).symm
  · have hsize : x.size ≠ 0 := mul_ne_zero (by exact_mod_cast hs) (by positivity)
    rw [if_neg hsize, unitAt_size x hs, size, mul_div_assoc, div_self (by positivity), mul_one,
      roundRat_natCast]
    apply hcode
    obtain ⟨hm, he, hs⟩ | ⟨-, -, -, hsum⟩ := significand_bounds x
    · rw [he, hs]
      simp
    · exact hsum

/-- What is below half of the smallest number is rounded to zero. -/
theorem ofRat_of_small (negative : Bool) {q : ℚ} (hq : 0 ≤ q) (h : q < (2 : ℚ) ^ (-1075 : ℤ)) :
    ofRat negative q = zero negative := by
  unfold ofRat
  split
  · rfl
  · have hpos : 0 < q := lt_of_le_of_ne hq (Ne.symm ‹_›)
    have hlog : Int.log 2 q < -1075 := (Int.lt_zpow_iff_log_lt (by norm_num) hpos).mp h
    have hunit : unitAt q = -1074 := by
      unfold unitAt
      omega
    have hhalf : q / (2 : ℚ) ^ (-1074 : ℤ) < 1 / 2 := by
      rw [div_lt_iff₀ (by positivity)]
      calc q < (2 : ℚ) ^ (-1075 : ℤ) := h
        _ = 1 / 2 * (2 : ℚ) ^ (-1074 : ℤ) := by
            rw [show (-1075 : ℤ) = -1 + -1074 by norm_num, zpow_add₀ (by norm_num), zpow_neg_one,
              one_div]
    rw [hunit, roundRat_of_lt_half hhalf]
    rfl

/-- What is at least `2 ^ 1024` is rounded to infinity. -/
theorem ofRat_of_large (negative : Bool) {q : ℚ} (h : (2 : ℚ) ^ (1024 : ℤ) ≤ q) :
    ofRat negative q = infinity negative := by
  have hpos : 0 < q := lt_of_lt_of_le (by positivity) h
  have hlog : 1024 ≤ Int.log 2 q := (Int.zpow_le_iff_le_log (by norm_num) hpos).mp h
  have hunit : unitAt q = Int.log 2 q - 52 := by
    unfold unitAt
    omega
  have hround : fractions ≤ roundRat (q / (2 : ℚ) ^ unitAt q) := by
    have hfloor : fractions ≤ ⌊q / (2 : ℚ) ^ unitAt q⌋₊ := by
      rw [Nat.le_floor_iff (by positivity), le_div_iff₀ (by positivity), hunit]
      calc (fractions : ℚ) * (2 : ℚ) ^ (Int.log 2 q - 52) = (2 : ℚ) ^ Int.log 2 q := by
            rw [zpow_sub₀ (by norm_num)]
            unfold fractions
            norm_num
            field_simp
        _ ≤ q := Int.zpow_log_le_self (by norm_num) hpos
    unfold roundRat
    split_ifs <;> omega
  unfold ofRat
  rw [if_neg hpos.ne']
  unfold infinity ofMagnitude
  congr 2
  unfold fractions infinityMagnitude at *
  have : 2046 ≤ (unitAt q + 1074).toNat := by omega
  omega

end TemplateLinker.Binary64
