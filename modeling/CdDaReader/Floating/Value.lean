import CdDaReader.Floating.Rounding

/-!
# Floating-point values

The values of a format with their arithmetic. A finite value is a number of
the format; the two zeros are one value, so nothing here may be divided by a
negative zero. Conversion to an unsigned word saturates. On values that are
not negative, operations with a value that is not negative are monotone.
-/

namespace Floating

variable {F : Format}

/-- The nearest integer, or the one further from zero of two. -/
def roundAway (x : ℚ) : ℤ := if 0 ≤ x then ⌊x + 1 / 2⌋ else -⌊-x + 1 / 2⌋

inductive Value (F : Format)
  | nan
  | infinite (negative : Bool)
  | finite (x : ℚ) (representable : F.Representable x) (fits : |x| < 2 ^ F.maxExp)

-- ---------------------------------------------------------------------------
-- Rounding to an integer
-- ---------------------------------------------------------------------------

theorem roundAway_mono {x y : ℚ} (h : x ≤ y) : roundAway x ≤ roundAway y := by
  unfold roundAway
  split_ifs with hx hy hy
  · exact Int.floor_le_floor (by linarith)
  · linarith
  · have hleft : 0 ≤ ⌊-x + 1 / 2⌋ := Int.floor_nonneg.mpr (by linarith)
    have hright : 0 ≤ ⌊y + 1 / 2⌋ := Int.floor_nonneg.mpr (by linarith)
    omega
  · have hfloor : ⌊-y + 1 / 2⌋ ≤ ⌊-x + 1 / 2⌋ := Int.floor_le_floor (by linarith)
    omega

theorem abs_roundAway_sub_le (x : ℚ) : |(roundAway x : ℚ) - x| ≤ 1 / 2 := by
  unfold roundAway
  rw [abs_le]
  split_ifs
  · have hle := Int.floor_le (x + 1 / 2)
    have hlt := Int.lt_floor_add_one (x + 1 / 2)
    constructor <;> linarith
  · have hle := Int.floor_le (-x + 1 / 2)
    have hlt := Int.lt_floor_add_one (-x + 1 / 2)
    push_cast
    constructor <;> linarith

/-- An integer closer than a half is the nearest. -/
theorem roundAway_eq {x : ℚ} {n : ℤ} (h : |x - n| < 1 / 2) : roundAway x = n := by
  have hround := abs_roundAway_sub_le x
  rw [abs_lt] at h
  rw [abs_le] at hround
  have hlt : ((roundAway x - n : ℤ) : ℚ) < 1 := by push_cast; linarith
  have hgt : (-1 : ℚ) < ((roundAway x - n : ℤ) : ℚ) := by push_cast; linarith
  have hlt' : roundAway x - n < 1 := by exact_mod_cast hlt
  have hgt' : -1 < roundAway x - n := by exact_mod_cast hgt
  omega

@[simp] theorem roundAway_intCast (n : ℤ) : roundAway n = n := roundAway_eq (by simp)

theorem le_roundAway {n : ℤ} {x : ℚ} (h : (n : ℚ) ≤ x) : n ≤ roundAway x := by
  simpa using roundAway_mono h

theorem roundAway_le {n : ℤ} {x : ℚ} (h : x ≤ n) : roundAway x ≤ n := by
  simpa using roundAway_mono h

/-- A number of a format is an integer, or small enough for its nearest
integer to be a significand. -/
theorem roundAway_cases {x : ℚ} (h : F.Representable x) :
    (roundAway x : ℚ) = x ∨ |roundAway x| < 2 ^ F.precision := by
  obtain ⟨m, e, -, hm, rfl⟩ := h
  rcases le_or_gt 0 e with he | he
  · left
    have hint : (m : ℚ) * 2 ^ e = ((m * 2 ^ e.toNat : ℤ) : ℚ) := by
      rw [Format.zpow_eq_mul he]
      simp
    rw [hint, roundAway_intCast]
  · right
    have hpow : (2 : ℚ) ^ e ≤ 1 / 2 := by
      have hle : (2 : ℚ) ^ e ≤ 2 ^ (-1 : ℤ) := zpow_le_zpow_right₀ (by norm_num) (by omega)
      simpa using hle
    have hsmall : |(m : ℚ) * 2 ^ e| ≤ |(m : ℚ)| / 2 := by
      have hpos : (0 : ℚ) < 2 ^ e := zpow_pos (by norm_num) e
      rw [abs_mul, abs_of_pos hpos]
      nlinarith [abs_nonneg (m : ℚ)]
    have hbound : |(m : ℚ)| + 1 ≤ 2 ^ F.precision := by exact_mod_cast hm
    have htriangle := abs_sub_abs_le_abs_sub (roundAway (m * 2 ^ e) : ℚ) (m * 2 ^ e)
    have hround := abs_roundAway_sub_le (m * 2 ^ e)
    have hlt : |(roundAway (m * 2 ^ e) : ℚ)| < 2 ^ F.precision := by
      have hpos : (0 : ℚ) < 2 ^ F.precision := by positivity
      linarith
    exact_mod_cast hlt

theorem representable_roundAway {x : ℚ} (h : F.Representable x) :
    F.Representable (roundAway x) := by
  rcases roundAway_cases h with heq | hlt
  · rwa [heq]
  · exact F.representable_intCast hlt

theorem zpow_precision_le (F : Format) : (2 : ℚ) ^ F.precision ≤ 2 ^ F.maxExp := by
  rw [← zpow_natCast]
  exact zpow_le_zpow_right₀ (by norm_num) F.precision_le_maxExp

theorem roundAway_fits {x : ℚ} (h : F.Representable x) (hfits : |x| < 2 ^ F.maxExp) :
    |(roundAway x : ℚ)| < 2 ^ F.maxExp := by
  rcases roundAway_cases h with heq | hlt
  · rwa [heq]
  · have hlt' : |(roundAway x : ℚ)| < 2 ^ F.precision := by exact_mod_cast hlt
    exact hlt'.trans_le (zpow_precision_le F)

-- ---------------------------------------------------------------------------
-- Arithmetic
-- ---------------------------------------------------------------------------

namespace Value

/-- An exact result, rounded. -/
def ofRat (x : ℚ) : Value F :=
  if h : |F.nearest x| < 2 ^ F.maxExp then
    .finite (F.nearest x) (F.representable_nearest x) h
  else .infinite (decide (x < 0))

/-- The value of an integer, rounded. -/
def ofNat (n : ℕ) : Value F := ofRat n

def isFinite : Value F → Bool
  | .nan | .infinite _ => false
  | .finite .. => true

/-- Less than zero, which no NaN is. -/
def isNegative : Value F → Bool
  | .nan => false
  | .infinite negative => negative
  | .finite x .. => decide (x < 0)

def mul : Value F → Value F → Value F
  | .finite x .., .finite y .. => ofRat (x * y)
  | .infinite negative, .finite y .. | .finite y .., .infinite negative =>
    if y = 0 then .nan else .infinite (negative != decide (y < 0))
  | .infinite negative, .infinite negative' => .infinite (negative != negative')
  | .nan, _ | _, .nan => .nan

def div : Value F → Value F → Value F
  | .finite x .., .finite y .. =>
    if y = 0 then if x = 0 then .nan else .infinite (decide (x < 0)) else ofRat (x / y)
  | .infinite negative, .finite y .. => .infinite (negative != decide (y < 0))
  | .finite .., .infinite _ => ofRat 0
  | .infinite _, .infinite _ => .nan
  | .nan, _ | _, .nan => .nan

/-- To the nearest integer, halves away from zero. -/
def round : Value F → Value F
  | .finite x representable fits =>
    .finite (roundAway x) (representable_roundAway representable)
      (roundAway_fits representable fits)
  | .infinite negative => .infinite negative
  | .nan => .nan

/-- The integer part, at the nearest end where there is none in range. -/
def toU32 : Value F → UInt32
  | .nan => 0
  | .infinite negative => if negative then 0 else .ofNat (2 ^ 32 - 1)
  | .finite x .. => .ofNat (min ⌊x⌋.toNat (2 ^ 32 - 1))

/-- The order of values, in which a NaN has no place. -/
def Le : Value F → Value F → Prop
  | .nan, _ | _, .nan => False
  | .infinite true, _ | _, .infinite false => True
  | .finite x .., .finite y .. => x ≤ y
  | .infinite false, _ | _, .infinite true => False

-- ---------------------------------------------------------------------------
-- Finite values
-- ---------------------------------------------------------------------------

/-- The value is this number. -/
def Is (v : Value F) (x : ℚ) : Prop :=
  match v with
  | .finite y .. => y = x
  | .nan | .infinite _ => False

theorem Is.exists_eq {v : Value F} (h : v.Is x) :
    ∃ representable fits, v = .finite x representable fits := by
  cases v with
  | nan => exact h.elim
  | infinite => exact h.elim
  | finite y representable fits =>
    obtain rfl : y = x := h
    exact ⟨representable, fits, rfl⟩

theorem is_finite {x : ℚ} (representable : F.Representable x) (fits : |x| < 2 ^ F.maxExp) :
    (finite x representable fits).Is x := rfl

theorem ofRat_is {x : ℚ} (h : |F.nearest x| < 2 ^ F.maxExp) :
    (ofRat x : Value F).Is (F.nearest x) := by
  rw [ofRat, dif_pos h]
  rfl

/-- A result below a power of two that is a number of the format. -/
theorem ofRat_is_of_lt {x : ℚ} {k : ℤ} (hx : 0 ≤ x) (h : x < 2 ^ k) (hmin : F.minExp ≤ k)
    (hmax : k < F.maxExp) : (ofRat x : Value F).Is (F.nearest x) := by
  apply ofRat_is
  rw [abs_of_nonneg (F.nearest_nonneg hx)]
  exact (F.nearest_le_zpow hx h hmin).trans_lt (zpow_lt_zpow_right₀ (by norm_num) hmax)

theorem ofNat_is {n : ℕ} (h : n < 2 ^ F.precision) : (ofNat n : Value F).Is n := by
  have hint : |(n : ℤ)| < 2 ^ F.precision := by
    rw [abs_of_nonneg (Int.natCast_nonneg n)]
    exact_mod_cast h
  have hnearest : F.nearest n = n := F.nearest_of_representable (F.representable_intCast hint)
  have hlt : |(n : ℚ)| < 2 ^ F.maxExp := by
    rw [Nat.abs_cast]
    exact lt_of_lt_of_le (by exact_mod_cast h) (zpow_precision_le F)
  have his := ofRat_is (F := F) (x := n) (by rwa [hnearest])
  rwa [hnearest] at his

section
variable {a b : Value F} {x y : ℚ}

theorem Is.isFinite_eq (ha : a.Is x) : a.isFinite = true := by
  obtain ⟨_, _, rfl⟩ := ha.exists_eq
  rfl

theorem Is.isNegative_eq (ha : a.Is x) (hx : 0 ≤ x) : a.isNegative = false := by
  obtain ⟨_, _, rfl⟩ := ha.exists_eq
  exact decide_eq_false (not_lt.mpr hx)

theorem Is.mul (ha : a.Is x) (hb : b.Is y) : a.mul b = ofRat (x * y) := by
  obtain ⟨_, _, rfl⟩ := ha.exists_eq
  obtain ⟨_, _, rfl⟩ := hb.exists_eq
  rfl

theorem Is.div (ha : a.Is x) (hb : b.Is y) (hy : y ≠ 0) : a.div b = ofRat (x / y) := by
  obtain ⟨_, _, rfl⟩ := ha.exists_eq
  obtain ⟨_, _, rfl⟩ := hb.exists_eq
  exact if_neg hy

theorem Is.round (ha : a.Is x) : a.round.Is (roundAway x) := by
  obtain ⟨_, _, rfl⟩ := ha.exists_eq
  rfl

theorem Is.toNat_toU32 (ha : a.Is x) : a.toU32.toNat = min ⌊x⌋.toNat (2 ^ 32 - 1) := by
  obtain ⟨_, _, rfl⟩ := ha.exists_eq
  exact UInt32.toNat_ofNat_of_lt' (by have : UInt32.size = 2 ^ 32 := rfl; omega)

end

-- ---------------------------------------------------------------------------
-- Order
-- ---------------------------------------------------------------------------

@[simp] theorem le_infinite {a : Value F} : Le a (.infinite false) ↔ a ≠ .nan := by
  rcases a with _ | (_ | _) | _ <;> simp [Le]

@[simp] theorem infinite_le {a : Value F} : Le (.infinite false) a ↔ a = .infinite false := by
  rcases a with _ | (_ | _) | _ <;> simp [Le]

theorem Is.le {a b : Value F} (ha : a.Is x) (hb : b.Is y) : Le a b ↔ x ≤ y := by
  obtain ⟨_, _, rfl⟩ := ha.exists_eq
  obtain ⟨_, _, rfl⟩ := hb.exists_eq
  rfl

theorem ofRat_ne_nan (x : ℚ) : (ofRat x : Value F) ≠ .nan := by
  unfold ofRat
  split <;> simp

theorem ofRat_mono {x y : ℚ} (hx : 0 ≤ x) (h : x ≤ y) : Le (ofRat x : Value F) (ofRat y) := by
  have hy : 0 ≤ y := hx.trans h
  by_cases hfits : |F.nearest y| < 2 ^ F.maxExp
  · have hle := F.nearest_mono hx h
    have hfits' : |F.nearest x| < 2 ^ F.maxExp := by
      rw [abs_of_nonneg (F.nearest_nonneg hx)]
      rw [abs_of_nonneg (F.nearest_nonneg hy)] at hfits
      exact hle.trans_lt hfits
    exact ((ofRat_is hfits').le (ofRat_is hfits)).mpr hle
  · have hinf : (ofRat y : Value F) = .infinite false := by
      rw [ofRat, dif_neg hfits, decide_eq_false (not_lt.mpr hy)]
    rw [hinf, le_infinite]
    exact ofRat_ne_nan x

theorem round_mono {a b : Value F} (h : Le a b) : Le a.round b.round := by
  rcases a with _ | (_ | _) | x <;> rcases b with _ | (_ | _) | y <;>
    simp only [Le, round] at h ⊢
  exact_mod_cast roundAway_mono h

theorem toU32_mono {a b : Value F} (h : Le a b) : a.toU32 ≤ b.toU32 := by
  have hzero : ∀ n : UInt32, 0 ≤ n := fun n => UInt32.le_iff_toNat_le.mpr (Nat.zero_le _)
  have hmax : ∀ n : UInt32, n ≤ .ofNat (2 ^ 32 - 1) :=
    fun n => UInt32.le_iff_toNat_le.mpr (Nat.le_pred_of_lt n.toNat_lt)
  rcases a with _ | (_ | _) | ⟨x, hx, hx'⟩ <;> rcases b with _ | (_ | _) | ⟨y, hy, hy'⟩ <;>
    first | exact h.elim | exact hmax _ | exact hzero _ | skip
  have hfloor : ⌊x⌋ ≤ ⌊y⌋ := Int.floor_le_floor h
  rw [UInt32.le_iff_toNat_le, (is_finite hx hx').toNat_toU32, (is_finite hy hy').toNat_toU32]
  omega

section
variable {a b c : Value F} {x z : ℚ}

theorem Is.le_cases (ha : a.Is x) (h : Le a b) : b = .infinite false ∨ ∃ y, x ≤ y ∧ b.Is y := by
  obtain ⟨_, _, rfl⟩ := ha.exists_eq
  rcases b with _ | (_ | _) | ⟨y, hy, hy'⟩
  · exact h.elim
  · exact .inl rfl
  · exact h.elim
  · exact .inr ⟨y, h, is_finite hy hy'⟩

theorem ofNat_zero_is : (ofNat 0 : Value F).Is 0 := by
  simpa using ofNat_is (F := F) (n := 0) (by positivity)

theorem infinite_mul (hc : c.Is z) (hz : 0 < z) : (infinite false).mul c = .infinite false := by
  obtain ⟨_, _, rfl⟩ := hc.exists_eq
  simp [mul, hz.ne', hz.le]

theorem infinite_div (hc : c.Is z) (hz : 0 < z) : (infinite false).div c = .infinite false := by
  obtain ⟨_, _, rfl⟩ := hc.exists_eq
  simp [div, hz.le]

theorem mul_mono (ha : Le (ofNat 0) a) (h : Le a b) (hc : c.Is z) (hz : 0 < z) :
    Le (a.mul c) (b.mul c) := by
  rcases ofNat_zero_is.le_cases ha with rfl | ⟨x, hx, ha⟩
  · rw [infinite_le.mp h, infinite_mul hc hz]
    exact trivial
  · rcases ha.le_cases h with rfl | ⟨y, hxy, hb⟩
    · rw [infinite_mul hc hz, ha.mul hc, le_infinite]
      exact ofRat_ne_nan _
    · rw [ha.mul hc, hb.mul hc]
      exact ofRat_mono (by positivity) (by gcongr)

theorem div_mono (ha : Le (ofNat 0) a) (h : Le a b) (hc : c.Is z) (hz : 0 < z) :
    Le (a.div c) (b.div c) := by
  rcases ofNat_zero_is.le_cases ha with rfl | ⟨x, hx, ha⟩
  · rw [infinite_le.mp h, infinite_div hc hz]
    exact trivial
  · rcases ha.le_cases h with rfl | ⟨y, hxy, hb⟩
    · rw [infinite_div hc hz, ha.div hc hz.ne', le_infinite]
      exact ofRat_ne_nan _
    · rw [ha.div hc hz.ne', hb.div hc hz.ne']
      exact ofRat_mono (by positivity) (by gcongr)

end

end Value

end Floating
