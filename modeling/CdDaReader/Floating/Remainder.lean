import CdDaReader.Floating.Value

/-!
# Integer parts and remainders

An integer part survives rounding as long as the next integer is not reached.
The remainder of a division is a number of the format, whatever the quotient,
so it is exact.
-/

namespace Floating

variable {F : Format}

-- ---------------------------------------------------------------------------
-- Integer parts
-- ---------------------------------------------------------------------------

theorem sub_floor_mul_le {x y : ℚ} (hx : 0 ≤ x) (hy : 0 < y) : x - ⌊x / y⌋ * y ≤ x := by
  have hfloor : (0 : ℚ) ≤ ⌊x / y⌋ := by exact_mod_cast Int.floor_nonneg.mpr (by positivity)
  have hmul := mul_nonneg hfloor hy.le
  linarith

namespace Format

theorem le_nearest_of_intCast_le {n : ℤ} {x : ℚ} (hn : 0 ≤ n) (hfits : n < 2 ^ F.precision)
    (h : (n : ℚ) ≤ x) : (n : ℚ) ≤ F.nearest x := by
  have hint : F.Representable (n : ℚ) := F.representable_intCast (by rwa [abs_of_nonneg hn])
  have hmono := F.nearest_mono (x := n) (y := x) (by exact_mod_cast hn) h
  rwa [F.nearest_of_representable hint] at hmono

theorem nearest_le_add {x : ℚ} {k : ℤ} (hx : 0 ≤ x) (h : x < 2 ^ k) :
    F.nearest x ≤ x + 2 ^ max F.minExp (k - F.precision) / 2 := by
  have herror := F.abs_nearest_sub_le_of_lt (x := x) (k := k) (by rwa [abs_of_nonneg hx])
  rw [abs_le] at herror
  linarith

/-- Where the error below a power of two does not reach the next integer,
rounding keeps the integer part. -/
theorem floor_nearest {x : ℚ} {k : ℤ} (hx : 0 ≤ x) (h : x < 2 ^ k) (hk : k ≤ F.precision)
    (hgap : x + 2 ^ max F.minExp (k - F.precision) / 2 < ⌊x⌋ + 1) : ⌊F.nearest x⌋ = ⌊x⌋ := by
  have hfits : (⌊x⌋ : ℚ) < 2 ^ F.precision := by
    calc
      (⌊x⌋ : ℚ) ≤ x := Int.floor_le x
      _ < 2 ^ k := h
      _ ≤ 2 ^ (F.precision : ℤ) := zpow_le_zpow_right₀ (by norm_num) hk
      _ = 2 ^ F.precision := zpow_natCast ..
  rw [Int.floor_eq_iff]
  refine ⟨F.le_nearest_of_intCast_le (Int.floor_nonneg.mpr hx) ?_ (Int.floor_le x), ?_⟩
  · exact_mod_cast hfits
  · exact (F.nearest_le_add hx h).trans_lt hgap

-- ---------------------------------------------------------------------------
-- Remainders
-- ---------------------------------------------------------------------------

/-- A multiple of a power of two up to a number with that exponent. -/
theorem representable_of_le {n m e : ℤ} (he : F.minExp ≤ e) (hm : |m| < 2 ^ F.precision)
    (hn : (0 : ℚ) ≤ n * 2 ^ e) (h : (n : ℚ) * 2 ^ e ≤ m * 2 ^ e) :
    F.Representable (n * 2 ^ e) := by
  have hpos : (0 : ℚ) < 2 ^ e := zpow_pos (by norm_num) e
  have hn' : 0 ≤ n := by exact_mod_cast nonneg_of_mul_nonneg_left hn hpos
  have hle : n ≤ m := by exact_mod_cast le_of_mul_le_mul_right h hpos
  refine ⟨n, e, he, ?_, rfl⟩
  rw [abs_of_nonneg hn']
  exact (hle.trans (le_abs_self m)).trans_lt hm

theorem representable_rem {x y : ℚ} (hx : F.Representable x) (hy : F.Representable y)
    (hnonneg : 0 ≤ x) (hpos : 0 < y) : F.Representable (x - ⌊x / y⌋ * y) := by
  have hrem := Int.sub_floor_div_mul_nonneg x hpos
  have hlt := Int.sub_floor_div_mul_lt x hpos
  have hle := sub_floor_mul_le hnonneg hpos
  obtain ⟨m, e, he, hm, hxeq⟩ := hx
  obtain ⟨n, d, hd, hn, hyeq⟩ := hy
  generalize ⌊x / y⌋ = q at hrem hlt hle ⊢
  -- a multiple of the finer of the two units, below the number it belongs to
  rcases le_total e d with hed | hde
  · have heq : x - q * y = ((m - q * (n * 2 ^ (d - e).toNat) : ℤ) : ℚ) * 2 ^ e := by
      rw [hxeq, hyeq, zpow_eq_mul hed]
      push_cast
      ring
    rw [heq] at hrem hle ⊢
    exact representable_of_le he hm hrem (hxeq ▸ hle)
  · have heq : x - q * y = ((m * 2 ^ (e - d).toNat - q * n : ℤ) : ℚ) * 2 ^ d := by
      rw [hxeq, hyeq, zpow_eq_mul hde]
      push_cast
      ring
    rw [heq] at hrem hlt ⊢
    exact representable_of_le hd hn hrem (hyeq ▸ hlt.le)

end Format

/-- Towards zero. -/
def truncate (x : ℚ) : ℤ := if 0 ≤ x then ⌊x⌋ else -⌊-x⌋

namespace Value

/-- What is left of a value after a division with an integer quotient, with
its sign. -/
def rem : Value F → Value F → Value F
  | .finite x .., .finite y .. => if y = 0 then .nan else ofRat (x - truncate (x / y) * y)
  | .finite x representable fits, .infinite _ => .finite x representable fits
  | .infinite _, _ | .nan, _ | _, .nan => .nan

theorem Is.rem {a b : Value F} {x y : ℚ} (ha : a.Is x) (hb : b.Is y) (hx : 0 ≤ x) (hy : 0 < y) :
    (a.rem b).Is (x - ⌊x / y⌋ * y) := by
  obtain ⟨hrepx, hfits, rfl⟩ := ha.exists_eq
  obtain ⟨hrepy, _, rfl⟩ := hb.exists_eq
  have hquotient : 0 ≤ x / y := by positivity
  have hnearest := F.nearest_of_representable (F.representable_rem hrepx hrepy hx hy)
  have hlt : |F.nearest (x - ⌊x / y⌋ * y)| < 2 ^ F.maxExp := by
    rw [hnearest, abs_of_nonneg (Int.sub_floor_div_mul_nonneg x hy)]
    rw [abs_of_nonneg hx] at hfits
    exact (sub_floor_mul_le hx hy).trans_lt hfits
  have his := ofRat_is hlt
  rw [hnearest] at his
  simpa [Value.rem, hy.ne', truncate, hquotient] using his

end Value

end Floating
