import Mathlib.Algebra.Order.Floor.Ring
import Mathlib.Data.Int.Log
import Mathlib.Data.Rat.Floor
import Mathlib.Tactic.FieldSimp
import Mathlib.Tactic.Linarith
import Mathlib.Tactic.Positivity

/-!
# Rounding to a binary format

A format has numbers `m * 2 ^ e` with a significand of so many bits and an
exponent from a least one on. `nearest` rounds a rational to the format as
arithmetic does, halves to the even significand and as if exponents had no
upper end. It is monotone, leaves the numbers of the format alone, and is off
by half a quantum at most.
-/

namespace Floating

-- ---------------------------------------------------------------------------
-- Integers
-- ---------------------------------------------------------------------------

/-- The nearest integer, or the even one of two. -/
def roundEven (x : ℚ) : ℤ :=
  if Int.fract x < 1 / 2 then ⌊x⌋
  else if 1 / 2 < Int.fract x then ⌊x⌋ + 1
  else if Even ⌊x⌋ then ⌊x⌋
  else ⌊x⌋ + 1

theorem floor_le_roundEven (x : ℚ) : ⌊x⌋ ≤ roundEven x := by
  unfold roundEven
  split_ifs <;> omega

theorem roundEven_le_floor_add_one (x : ℚ) : roundEven x ≤ ⌊x⌋ + 1 := by
  unfold roundEven
  split_ifs <;> omega

@[simp] theorem roundEven_intCast (n : ℤ) : roundEven n = n := by
  simp [roundEven]

theorem abs_roundEven_sub_le (x : ℚ) : |(roundEven x : ℚ) - x| ≤ 1 / 2 := by
  have hparts := Int.floor_add_fract x
  have hnonneg := Int.fract_nonneg x
  have hlt := Int.fract_lt_one x
  unfold roundEven
  rw [abs_le]
  split_ifs <;> push_cast <;> constructor <;> linarith

theorem roundEven_mono {x y : ℚ} (h : x ≤ y) : roundEven x ≤ roundEven y := by
  rcases (Int.floor_le_floor h).lt_or_eq with hlt | heq
  · calc
      roundEven x ≤ ⌊x⌋ + 1 := roundEven_le_floor_add_one x
      _ ≤ ⌊y⌋ := hlt
      _ ≤ roundEven y := floor_le_roundEven y
  · -- between the same two integers, further along means rounded up sooner
    have hfract : Int.fract x ≤ Int.fract y := by
      rw [← Int.self_sub_floor, ← Int.self_sub_floor, heq]
      linarith
    unfold roundEven
    rw [heq]
    split_ifs <;> first | omega | linarith

theorem le_roundEven {n : ℤ} {x : ℚ} (h : (n : ℚ) ≤ x) : n ≤ roundEven x := by
  simpa using roundEven_mono h

theorem roundEven_le {n : ℤ} {x : ℚ} (h : x ≤ n) : roundEven x ≤ n := by
  simpa using roundEven_mono h

-- ---------------------------------------------------------------------------
-- Formats
-- ---------------------------------------------------------------------------

/-- Significands have `precision` bits; the least positive number is
`2 ^ minExp`, and all numbers are below `2 ^ maxExp`. The integers that a
significand can be are numbers of the format. -/
structure Format where
  precision : ℕ
  minExp : ℤ
  maxExp : ℤ
  one_le_precision : 1 ≤ precision
  minExp_nonpos : minExp ≤ 0
  precision_le_maxExp : precision ≤ maxExp

def binary32 : Format where
  precision := 24
  minExp := -149
  maxExp := 128
  one_le_precision := by decide
  minExp_nonpos := by decide
  precision_le_maxExp := by decide

def binary64 : Format where
  precision := 53
  minExp := -1074
  maxExp := 1024
  one_le_precision := by decide
  minExp_nonpos := by decide
  precision_le_maxExp := by decide

namespace Format

variable (F : Format)

/-- A number of the format, but for the upper end of its exponents. -/
def Representable (x : ℚ) : Prop :=
  ∃ m e : ℤ, F.minExp ≤ e ∧ |m| < 2 ^ F.precision ∧ x = m * 2 ^ e

/-- The exponent of the last place of a number. -/
def exponent (x : ℚ) : ℤ := max F.minExp (Int.log 2 |x| + 1 - F.precision)

def quantum (x : ℚ) : ℚ := 2 ^ F.exponent x

def nearest (x : ℚ) : ℚ := roundEven (x / F.quantum x) * F.quantum x

variable {F}

theorem quantum_pos (x : ℚ) : 0 < F.quantum x := zpow_pos (by norm_num) _

theorem minExp_le_exponent (x : ℚ) : F.minExp ≤ F.exponent x := le_max_left ..

theorem abs_nearest_sub_le (x : ℚ) : |F.nearest x - x| ≤ F.quantum x / 2 := by
  have hpos := F.quantum_pos x
  have hround := abs_roundEven_sub_le (x / F.quantum x)
  have hscale : F.nearest x - x =
      ((roundEven (x / F.quantum x) : ℚ) - x / F.quantum x) * F.quantum x := by
    rw [nearest]
    field_simp
  rw [hscale, abs_mul, abs_of_pos hpos]
  nlinarith

-- ---------------------------------------------------------------------------
-- Powers of two
-- ---------------------------------------------------------------------------

theorem zpow_eq_mul {a b : ℤ} (h : b ≤ a) :
    (2 : ℚ) ^ a = ((2 ^ (a - b).toNat : ℤ) : ℚ) * 2 ^ b := by
  obtain ⟨n, rfl⟩ := Int.le.dest h
  rw [add_sub_cancel_left, Int.toNat_natCast, add_comm, zpow_add₀ (by norm_num), zpow_natCast]
  norm_cast

theorem log_lt_of_abs_lt {x : ℚ} {k : ℤ} (hx : x ≠ 0) (h : |x| < 2 ^ k) : Int.log 2 |x| < k :=
  (Int.lt_zpow_iff_log_lt (by norm_num) (abs_pos.mpr hx)).mp (by exact_mod_cast h)

theorem exponent_le {x : ℚ} {k : ℤ} (hx : x ≠ 0) (h : |x| < 2 ^ k) :
    F.exponent x ≤ max F.minExp (k - F.precision) := by
  have hlog := log_lt_of_abs_lt hx h
  unfold exponent
  omega

theorem quantum_le {x : ℚ} {k : ℤ} (hx : x ≠ 0) (h : |x| < 2 ^ k) :
    F.quantum x ≤ 2 ^ max F.minExp (k - F.precision) :=
  zpow_le_zpow_right₀ (by norm_num) (exponent_le hx h)

theorem nearest_of_multiple {x : ℚ} {n : ℤ} (h : x = n * F.quantum x) : F.nearest x = x := by
  have hdiv : x / F.quantum x = n := by
    rw [div_eq_iff (ne_of_gt (quantum_pos x))]
    exact h
  rw [nearest, hdiv, roundEven_intCast]
  exact h.symm

@[simp] theorem nearest_zero : F.nearest 0 = 0 := nearest_of_multiple (n := 0) (by simp)

/-- The numbers of the format are where they belong. -/
theorem nearest_of_representable {x : ℚ} (h : F.Representable x) : F.nearest x = x := by
  obtain ⟨m, e, he, hm, rfl⟩ := h
  rcases eq_or_ne ((m : ℚ) * 2 ^ e) 0 with hzero | hzero
  · rw [hzero, nearest_zero]
  · have hlt : |(m : ℚ) * 2 ^ e| < 2 ^ (F.precision + e) := by
      have hm' : |(m : ℚ)| < 2 ^ F.precision := by exact_mod_cast hm
      have hpow : (0 : ℚ) < 2 ^ e := zpow_pos (by norm_num) e
      rw [abs_mul, abs_of_pos hpow, zpow_add₀ (by norm_num), zpow_natCast]
      gcongr
    have hle := exponent_le (F := F) hzero hlt
    have hexp : F.exponent (m * 2 ^ e) ≤ e := by omega
    refine nearest_of_multiple (n := m * 2 ^ (e - F.exponent (m * 2 ^ e)).toNat) ?_
    rw [quantum, Int.cast_mul, mul_assoc, ← zpow_eq_mul hexp]

theorem nearest_nonneg {x : ℚ} (h : 0 ≤ x) : 0 ≤ F.nearest x := by
  have hpos := F.quantum_pos x
  have hround : 0 ≤ roundEven (x / F.quantum x) := le_roundEven (by positivity)
  have hcast : (0 : ℚ) ≤ roundEven (x / F.quantum x) := by exact_mod_cast hround
  exact mul_nonneg hcast hpos.le

theorem nearest_le_of_multiple {x b : ℚ} {n : ℤ} (hb : b = n * F.quantum x) (h : x ≤ b) :
    F.nearest x ≤ b := by
  have hpos := F.quantum_pos x
  have hround : roundEven (x / F.quantum x) ≤ n := by
    apply roundEven_le
    rw [div_le_iff₀ hpos, ← hb]
    exact h
  rw [hb, nearest]
  gcongr

theorem le_nearest_of_multiple {x b : ℚ} {n : ℤ} (hb : b = n * F.quantum x) (h : b ≤ x) :
    b ≤ F.nearest x := by
  have hpos := F.quantum_pos x
  have hround : n ≤ roundEven (x / F.quantum x) := by
    apply le_roundEven
    rw [le_div_iff₀ hpos, ← hb]
    exact h
  rw [hb, nearest]
  gcongr

theorem nearest_le_zpow {x : ℚ} {k : ℤ} (hx : 0 ≤ x) (h : x < 2 ^ k) (hk : F.minExp ≤ k) :
    F.nearest x ≤ 2 ^ k := by
  rcases hx.eq_or_lt with rfl | hpos
  · rw [nearest_zero]
    positivity
  · have habs : |x| < 2 ^ k := by rwa [abs_of_pos hpos]
    have hexp := exponent_le (F := F) hpos.ne' habs
    exact nearest_le_of_multiple (zpow_eq_mul (by omega)) h.le

theorem zpow_log_le_nearest {x : ℚ} (hx : 0 < x) (hk : F.minExp ≤ Int.log 2 x) :
    2 ^ Int.log 2 x ≤ F.nearest x := by
  have hone := F.one_le_precision
  have hexp : F.exponent x ≤ Int.log 2 x := by
    rw [exponent, abs_of_pos hx]
    omega
  have hle := Int.zpow_log_le_self (b := 2) (by norm_num) hx
  exact le_nearest_of_multiple (zpow_eq_mul hexp) (by exact_mod_cast hle)

theorem nearest_mono {x y : ℚ} (hx : 0 ≤ x) (h : x ≤ y) : F.nearest x ≤ F.nearest y := by
  rcases hx.eq_or_lt with rfl | hpos
  · rw [nearest_zero]
    exact nearest_nonneg h
  have hy : 0 < y := hpos.trans_le h
  rcases eq_or_ne (F.exponent x) (F.exponent y) with heq | hne
  · have hquantum : F.quantum x = F.quantum y := by rw [quantum, heq, quantum]
    have hround : roundEven (x / F.quantum x) ≤ roundEven (y / F.quantum y) := by
      apply roundEven_mono
      rw [hquantum]
      have := F.quantum_pos y
      gcongr
    rw [nearest, nearest, hquantum] at *
    have := F.quantum_pos y
    gcongr
  · -- a power of two lies between the two, and rounding does not pass it
    have hlog : Int.log 2 x ≤ Int.log 2 y := Int.log_mono_right hpos h
    have hbetween : Int.log 2 x < Int.log 2 y ∧ F.minExp ≤ Int.log 2 y := by
      have hone := F.one_le_precision
      rw [exponent, exponent, abs_of_pos hpos, abs_of_pos hy] at hne
      omega
    have hlt : x < 2 ^ Int.log 2 y :=
      (Int.lt_zpow_iff_log_lt (by norm_num) hpos).mpr hbetween.1
    exact (nearest_le_zpow hx hlt hbetween.2).trans (zpow_log_le_nearest hy hbetween.2)

-- ---------------------------------------------------------------------------
-- The numbers of a format
-- ---------------------------------------------------------------------------

theorem abs_div_quantum_lt (x : ℚ) : |x / F.quantum x| < 2 ^ F.precision := by
  have hpos := F.quantum_pos x
  have hlt : |x| < 2 ^ (Int.log 2 |x| + 1) := by
    exact_mod_cast Int.lt_zpow_succ_log_self (b := 2) (by norm_num) |x|
  have hquantum : (2 : ℚ) ^ (Int.log 2 |x| + 1 - F.precision) ≤ F.quantum x :=
    zpow_le_zpow_right₀ (by norm_num) (le_max_right ..)
  rw [abs_div, abs_of_pos hpos, div_lt_iff₀ hpos]
  calc
    |x| < 2 ^ (Int.log 2 |x| + 1) := hlt
    _ = 2 ^ F.precision * 2 ^ (Int.log 2 |x| + 1 - F.precision) := by
      rw [← zpow_natCast, ← zpow_add₀ (by norm_num), add_sub_cancel]
    _ ≤ 2 ^ F.precision * F.quantum x := by gcongr

theorem representable_nearest (x : ℚ) : F.Representable (F.nearest x) := by
  have hone := F.one_le_precision
  have hlt := F.abs_div_quantum_lt x
  rw [abs_lt] at hlt
  have hupper : roundEven (x / F.quantum x) ≤ 2 ^ F.precision :=
    roundEven_le (by push_cast; exact hlt.2.le)
  have hlower : -2 ^ F.precision ≤ roundEven (x / F.quantum x) :=
    le_roundEven (by push_cast; exact hlt.1.le)
  rcases (abs_le.mpr ⟨hlower, hupper⟩).lt_or_eq with hm | hm
  · exact ⟨_, _, minExp_le_exponent x, hm, rfl⟩
  · -- rounded up to the next power of two
    have hhalf : (2 : ℤ) ^ F.precision = 2 ^ (F.precision - 1) * 2 := by
      rw [← pow_succ, Nat.sub_add_cancel hone]
    have hexp := F.minExp_le_exponent x
    have hpow : (0 : ℤ) < 2 ^ (F.precision - 1) := by positivity
    have hquantum : (2 : ℚ) ^ (F.exponent x + 1) = 2 * F.quantum x := by
      rw [zpow_add₀ (by norm_num), quantum, zpow_one, mul_comm]
    rcases abs_choice (roundEven (x / F.quantum x)) with hsign | hsign
    · refine ⟨2 ^ (F.precision - 1), F.exponent x + 1, by omega, by rw [abs_of_pos hpow]; omega, ?_⟩
      have hvalue : roundEven (x / F.quantum x) = 2 ^ (F.precision - 1) * 2 := by omega
      rw [nearest, hvalue, hquantum]
      push_cast
      ring
    · refine ⟨-2 ^ (F.precision - 1), F.exponent x + 1, by omega,
        by rw [abs_neg, abs_of_pos hpow]; omega, ?_⟩
      have hvalue : roundEven (x / F.quantum x) = -2 ^ (F.precision - 1) * 2 := by omega
      rw [nearest, hvalue, hquantum]
      push_cast
      ring

theorem representable_intCast {n : ℤ} (h : |n| < 2 ^ F.precision) : F.Representable n :=
  ⟨n, 0, F.minExp_nonpos, h, by simp⟩

/-- The error below a power of two. -/
theorem abs_nearest_sub_le_of_lt {x : ℚ} {k : ℤ} (h : |x| < 2 ^ k) :
    |F.nearest x - x| ≤ 2 ^ max F.minExp (k - F.precision) / 2 := by
  rcases eq_or_ne x 0 with rfl | hx
  · rw [nearest_zero, sub_zero, abs_zero]
    exact div_nonneg (zpow_nonneg (by norm_num) _) (by norm_num)
  · have hquantum := quantum_le (F := F) hx h
    have herror := F.abs_nearest_sub_le x
    linarith

end Format

end Floating
