import TemplateLinker.Decimal.Numeral
import TemplateLinker.Proofs.Decimal.Rounding

/-!
# Proofs.Decimal.Shortest — decimals and the numbers they are rounded to

The shortest decimal of a finite number is rounded to it (`ofDecimal_shortest`), whether a short grid
has a point near enough or all digits are needed.  The bounds of `nearest` cut off only what rounding
takes to zero or to infinity anyway (`nearest_eq_ofDecimal`).
-/

namespace TemplateLinker.Binary64

/-! ### The shortest decimal -/

theorem roundDiv_mem (num den : ℕ) :
    roundDiv num den = num / den ∨ roundDiv num den = num / den + 1 := by
  unfold roundDiv
  dsimp only
  split_ifs <;> omega

theorem gridPoint?_readsBack {x : Binary64} {num den : ℕ} {k : ℤ} {d : Decimal}
    (h : gridPoint? x num den k = some d) : readsBack x d = true := by
  unfold gridPoint? at h
  dsimp only at h
  generalize (if 0 ≤ k then (num, den * Nat.pow 10 k.toNat)
    else (num * Nat.pow 10 (-k).toNat, den)) = grid at h
  split at h
  · cases h
    rcases roundDiv_mem grid.1 grid.2 with hr | hr <;> rw [hr] <;> assumption
  · cases h
    assumption
  · cases h
    assumption
  · cases h

theorem exactDecimal_value (x : Binary64) : x.exactDecimal.value = x.size := by
  unfold exactDecimal size Decimal.value
  by_cases he : 0 ≤ x.exponent
  · rw [if_pos he, zpow_of_nonneg 2 he]
    simp
  · have hfive : (5 : ℚ) ^ (-x.exponent).toNat ≠ 0 := by positivity
    rw [if_neg he, zpow_of_neg 2 he]
    dsimp only
    rw [zpow_of_neg 10 he, show (10 : ℚ) = 5 * 2 by norm_num, mul_pow]
    simp only [Nat.pow_eq, Nat.cast_mul, Nat.cast_pow, Nat.cast_ofNat]
    field_simp

/-- **The shortest decimal of a finite number reads back.** -/
theorem ofDecimal_shortest (x : Binary64) (hx : x.isFinite) :
    ofDecimal x.negative x.shortest = x := by
  unfold shortest
  dsimp only
  cases hfind : (List.range 17).findSome? fun n : ℕ =>
      gridPoint? x x.toRatio.1 x.toRatio.2 (leadingExponent x.toRatio.1 x.toRatio.2 - n) with
  | some d =>
    obtain ⟨n, -, hn⟩ := List.exists_of_findSome?_eq_some hfind
    exact eq_of_beq (gridPoint?_readsBack hn)
  | none =>
    rw [Option.getD_none, ofDecimal_eq_ofRat, exactDecimal_value, ofRat_size x hx]

/-! ### The range of `nearest` -/

theorem lt_pow_digitCount (n : ℕ) : n < 10 ^ digitCount n :=
  (Nat.length_toDigits_le_iff (by omega) Nat.length_toDigits_pos).mp le_rfl

theorem pow_le_of_lt_digitCount {n k : ℕ} (hk : k ≠ 0) (h : k < digitCount n) : 10 ^ k ≤ n := by
  by_contra hlt
  have := (Nat.length_toDigits_le_iff (by omega) (Nat.pos_of_ne_zero hk)).mpr (not_le.mp hlt)
  unfold digitCount at h
  omega

theorem value_lt (d : Decimal) : d.value < (10 : ℚ) ^ (d.exponent + digitCount d.digits) := by
  rw [add_comm, zpow_add₀ (by norm_num), zpow_natCast]
  refine mul_lt_mul_of_pos_right ?_ (by positivity)
  exact_mod_cast lt_pow_digitCount d.digits

theorem le_value (d : Decimal) (h : d.digits ≠ 0) :
    (10 : ℚ) ^ (d.exponent + digitCount d.digits - 1) ≤ d.value := by
  have hlow : 10 ^ (digitCount d.digits - 1) ≤ d.digits := by
    by_cases hk : digitCount d.digits - 1 = 0
    · rw [hk]
      omega
    · exact pow_le_of_lt_digitCount hk (by omega)
  have hcount : 0 < digitCount d.digits := Nat.length_toDigits_pos
  have hsplit : d.exponent + digitCount d.digits - 1 = (digitCount d.digits - 1 : ℕ) + d.exponent := by
    omega
  rw [hsplit, zpow_add₀ (by norm_num), zpow_natCast]
  refine mul_le_mul_of_nonneg_right ?_ (by positivity)
  exact_mod_cast hlow

/-- **The bounds of `nearest` change nothing**: what they cut off is rounded there anyway. -/
theorem nearest_eq_ofDecimal (negative : Bool) (digits : ℕ) (exponent : ℤ) :
    nearest negative digits exponent = ofDecimal negative ⟨digits, exponent⟩ := by
  unfold nearest
  dsimp only
  rw [ofDecimal_eq_ofRat]
  have hhigh := value_lt ⟨digits, exponent⟩
  have hlow := le_value ⟨digits, exponent⟩
  dsimp only at hhigh hlow
  split_ifs with hzero hlarge
  · rcases hzero with rfl | hlead
    · simp [ofRat, Decimal.value]
    · refine (ofRat_of_small negative (by unfold Decimal.value; positivity) ?_).symm
      refine lt_of_lt_of_le hhigh ?_
      calc (10 : ℚ) ^ (exponent + digitCount digits) ≤ 10 ^ (-(330 : ℕ) : ℤ) :=
            zpow_le_zpow_right₀ (by norm_num) (by omega)
        _ ≤ 2 ^ (-(1075 : ℕ) : ℤ) := by
            rw [zpow_neg, zpow_neg, zpow_natCast, zpow_natCast]
            refine inv_anti₀ (by positivity) ?_
            exact_mod_cast (by decide +kernel : 2 ^ 1075 ≤ 10 ^ 330)
  · refine (ofRat_of_large negative (le_trans ?_ (hlow (by tauto)))).symm
    calc (2 : ℚ) ^ ((1024 : ℕ) : ℤ) ≤ 10 ^ ((310 : ℕ) : ℤ) := by
          rw [zpow_natCast, zpow_natCast]
          exact_mod_cast (by decide +kernel : 2 ^ 1024 ≤ 10 ^ 310)
      _ ≤ 10 ^ (exponent + digitCount digits - 1) :=
          zpow_le_zpow_right₀ (by norm_num) (by omega)
  · rfl

end TemplateLinker.Binary64
