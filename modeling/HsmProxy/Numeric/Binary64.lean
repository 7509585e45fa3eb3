import Mathlib.Data.Int.Log
import Mathlib.Data.Rat.Floor
import Mathlib.Tactic.Linarith

/-!
# Rounding to binary64

`roundHalfEven` rounds a rational number to the nearest integer, and a half to the even one.
`toBinary64` rounds a number so that 53 binary digits are left, which is how the basic operations
on binary64 numbers round their exact results.  The exponent has no bounds here, so there is no
overflow, no infinity and no loss of digits near zero.

Rounding to binary64 keeps the order of two numbers (`toBinary64_mono`) but not a strict order, and
a decimal fraction such as `0.95` is moved by it (`toBinary64_lt_ninetyFive`): a comparison of
rounded numbers is not one of the exact ones.
-/

namespace Binary64

/-! ## To an integer -/

/-- The nearest integer; halves go to the even one. -/
def roundHalfEven (q : ℚ) : ℤ :=
  let below := q.floor
  let rest := q - below
  if rest < 1 / 2 ∨ (rest = 1 / 2 ∧ below % 2 = 0) then below else below + 1

variable {q : ℚ} {n : ℤ}

/-- Rounding goes down below the half. -/
lemma roundHalfEven_le (h : q < n + 1 / 2) : roundHalfEven q ≤ n := by
  have hfloor : (q.floor : ℚ) ≤ q := Rat.floor_le q
  unfold roundHalfEven
  dsimp only
  split
  · have hlt : (q.floor : ℚ) < n + 1 := by linarith
    exact Int.lt_add_one_iff.mp (by exact_mod_cast hlt)
  · rename_i hup
    have hrest : 1 / 2 ≤ q - q.floor := not_lt.mp fun hlt => hup (Or.inl hlt)
    have hlt : (q.floor : ℚ) < n := by linarith
    exact_mod_cast hlt

/-- Rounding does not go below an integer. -/
lemma le_roundHalfEven (h : (n : ℚ) ≤ q) : n ≤ roundHalfEven q := by
  have hfloor : n ≤ q.floor := Rat.le_floor_iff.mpr h
  unfold roundHalfEven
  dsimp only
  split <;> omega

/-- Rounding keeps the order. -/
lemma roundHalfEven_mono {x y : ℚ} (h : x ≤ y) : roundHalfEven x ≤ roundHalfEven y := by
  have hle : x.floor ≤ y.floor := Rat.floor_monotone h
  rcases hle.eq_or_lt with heq | hlt
  · -- between the same two integers, only the distance from the lower one counts
    unfold roundHalfEven
    dsimp only
    rw [heq]
    split
    · split <;> omega
    · rename_i hup
      rw [if_neg]
      rintro (hlow | ⟨hhalf, heven⟩)
      · exact hup (Or.inl (by linarith))
      · rcases h.eq_or_lt with rfl | hxy
        · exact hup (Or.inr ⟨hhalf, heven⟩)
        · exact hup (Or.inl (by linarith))
  · have hup : roundHalfEven x ≤ x.floor + 1 := by
      unfold roundHalfEven
      dsimp only
      split <;> omega
    have hdown : y.floor ≤ roundHalfEven y := le_roundHalfEven (Rat.floor_le y)
    omega

/-- The nearest integer is at most a half away. -/
lemma abs_roundHalfEven_sub_le (q : ℚ) : |(roundHalfEven q : ℚ) - q| ≤ 1 / 2 := by
  have hfloor : (q.floor : ℚ) ≤ q := Rat.floor_le q
  have hlt : q < q.floor + 1 := by exact_mod_cast Rat.lt_floor_add_one q
  unfold roundHalfEven
  dsimp only
  rw [abs_le]
  split
  · rename_i hdown
    have hrest : q - q.floor ≤ 1 / 2 := hdown.elim le_of_lt fun hhalf => hhalf.1.le
    constructor <;> linarith
  · rename_i hup
    have hrest : 1 / 2 ≤ q - q.floor := not_lt.mp fun hlt => hup (Or.inl hlt)
    push_cast
    constructor <;> linarith

/-! ## To 53 binary digits -/

/-- The binary64 number nearest to a number, of an exponent without bounds. -/
def toBinary64 (q : ℚ) : ℚ :=
  let unit : ℚ := 2 ^ (Int.log 2 |q| - 52)
  roundHalfEven (q / unit) * unit

/-- The distance between the binary64 numbers in the binade of a number. -/
lemma toBinary64_of_pos (hq : 0 < q) :
    toBinary64 q =
      roundHalfEven (q / 2 ^ (Int.log 2 q - 52)) * (2 : ℚ) ^ (Int.log 2 q - 52) := by
  unfold toBinary64
  rw [abs_of_pos hq]

/-- A power of two in units of the last of 53 digits. -/
lemma zpow_eq_mul_unit (k : ℤ) (d : ℕ) :
    (2 : ℚ) ^ (k + d) = ((2 ^ (d + 52) : ℤ) : ℚ) * 2 ^ (k - 52) := by
  rw [show k + (d : ℤ) = ((d + 52 : ℕ) : ℤ) + (k - 52) by push_cast; ring, zpow_add₀ two_ne_zero,
    zpow_natCast]
  push_cast
  rfl

/-- Rounding does not go below the power of two below a number. -/
lemma zpow_log_le_toBinary64 (hq : 0 < q) : (2 : ℚ) ^ Int.log 2 q ≤ toBinary64 q := by
  have hunit : (0 : ℚ) < 2 ^ (Int.log 2 q - 52) := zpow_pos two_pos _
  have hle : (2 : ℚ) ^ Int.log 2 q ≤ q := Int.zpow_log_le_self one_lt_two hq
  have hpower := zpow_eq_mul_unit (Int.log 2 q) 0
  rw [Nat.cast_zero, add_zero] at hpower
  rw [toBinary64_of_pos hq]
  rw [hpower] at hle ⊢
  refine mul_le_mul_of_nonneg_right ?_ hunit.le
  exact_mod_cast le_roundHalfEven ((le_div_iff₀ hunit).mpr hle)

/-- Rounding does not go above the power of two above a number. -/
lemma toBinary64_le_zpow_log (hq : 0 < q) : toBinary64 q ≤ (2 : ℚ) ^ (Int.log 2 q + 1) := by
  have hunit : (0 : ℚ) < 2 ^ (Int.log 2 q - 52) := zpow_pos two_pos _
  have hlt : q < (2 : ℚ) ^ (Int.log 2 q + 1) := Int.lt_zpow_succ_log_self one_lt_two q
  have hpower := zpow_eq_mul_unit (Int.log 2 q) 1
  rw [Nat.cast_one] at hpower
  rw [toBinary64_of_pos hq]
  rw [hpower] at hlt ⊢
  refine mul_le_mul_of_nonneg_right ?_ hunit.le
  have hdiv := (div_lt_iff₀ hunit).mpr hlt
  exact_mod_cast roundHalfEven_le (hdiv.trans (by linarith))

/-- Rounding does not go below zero. -/
lemma toBinary64_nonneg (hq : 0 ≤ q) : 0 ≤ toBinary64 q := by
  have hunit : (0 : ℚ) < 2 ^ (Int.log 2 |q| - 52) := zpow_pos two_pos _
  refine mul_nonneg ?_ hunit.le
  exact_mod_cast le_roundHalfEven (by exact_mod_cast div_nonneg hq hunit.le)

/-- Rounding keeps the order. -/
lemma toBinary64_mono {x y : ℚ} (hx : 0 ≤ x) (h : x ≤ y) : toBinary64 x ≤ toBinary64 y := by
  rcases hx.eq_or_lt with rfl | hx
  · have hzero : toBinary64 0 = 0 := by decide +kernel
    rw [hzero]
    exact toBinary64_nonneg h
  have hy : 0 < y := hx.trans_le h
  rcases (Int.log_mono_right (b := 2) hx h).eq_or_lt with heq | hlt
  · -- in one binade both are rounded to multiples of one unit
    have hunit : (0 : ℚ) < 2 ^ (Int.log 2 y - 52) := zpow_pos two_pos _
    rw [toBinary64_of_pos hx, toBinary64_of_pos hy, heq]
    refine mul_le_mul_of_nonneg_right ?_ hunit.le
    exact_mod_cast roundHalfEven_mono ((div_le_div_iff_of_pos_right hunit).mpr h)
  · -- otherwise a power of two is between them
    calc toBinary64 x ≤ (2 : ℚ) ^ (Int.log 2 x + 1) := toBinary64_le_zpow_log hx
      _ ≤ 2 ^ Int.log 2 y := zpow_le_zpow_right₀ one_le_two hlt
      _ ≤ toBinary64 y := zpow_log_le_toBinary64 hy

/-- The rounding error is at most one part in `2 ^ 53`. -/
lemma abs_toBinary64_sub_le (q : ℚ) : |toBinary64 q - q| ≤ |q| / 2 ^ 53 := by
  rcases eq_or_ne q 0 with rfl | hq
  · decide +kernel
  · have hunit : (0 : ℚ) < 2 ^ (Int.log 2 |q| - 52) := zpow_pos two_pos _
    have hle : (2 : ℚ) ^ Int.log 2 |q| ≤ |q| := Int.zpow_log_le_self one_lt_two (abs_pos.mpr hq)
    have hpower := zpow_eq_mul_unit (Int.log 2 |q|) 0
    rw [Nat.cast_zero, add_zero] at hpower
    have hround := abs_roundHalfEven_sub_le (q / 2 ^ (Int.log 2 |q| - 52))
    have herror : toBinary64 q - q =
        (roundHalfEven (q / 2 ^ (Int.log 2 |q| - 52)) - q / 2 ^ (Int.log 2 |q| - 52)) *
          2 ^ (Int.log 2 |q| - 52) := by
      rw [sub_mul, div_mul_cancel₀ _ hunit.ne']
      rfl
    rw [herror, abs_mul, abs_of_pos hunit]
    have hhalf := mul_le_mul_of_nonneg_right hround hunit.le
    push_cast at hpower
    linarith

/-- An integer of few digits stays as it is. -/
lemma toBinary64_one : toBinary64 1 = 1 := by
  decide +kernel

/-- The binary64 number nearest to 0.95 is below it. -/
lemma toBinary64_lt_ninetyFive : toBinary64 (95 / 100) < 95 / 100 := by
  decide +kernel

end Binary64
