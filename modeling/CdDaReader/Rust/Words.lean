import CdDaReader.Rust.Exec
import Mathlib.Algebra.Group.Nat.Defs

/-!
# Fixed-width words, bytes and indexing

`+`, `-` and `*` on `u32` panic on overflow when overflow checks are on and
wrap when they are off; indexing out of bounds panics in every build. Each
operation has one lemma that says when it is plain arithmetic. Big-endian
encodings are stated on the values, so that `omega` decides their round trips.
-/

namespace Rust

variable {α : Type}

-- ---------------------------------------------------------------------------
-- Checked arithmetic
-- ---------------------------------------------------------------------------

def add32 (checks : Bool) (a b : UInt32) : Checked UInt32 :=
  if checks && decide (2 ^ 32 ≤ a.toNat + b.toNat) then .error .arithmeticOverflow
  else .ok (a + b)

def sub32 (checks : Bool) (a b : UInt32) : Checked UInt32 :=
  if checks && decide (a < b) then .error .arithmeticOverflow else .ok (a - b)

def mul32 (checks : Bool) (a b : UInt32) : Checked UInt32 :=
  if checks && decide (2 ^ 32 ≤ a.toNat * b.toNat) then .error .arithmeticOverflow
  else .ok (a * b)

/-- `u32::checked_add`. -/
def checkedAdd32 (a b : UInt32) : Option UInt32 :=
  if a.toNat + b.toNat < 2 ^ 32 then some (a + b) else none

/-- `u32::checked_sub`. -/
def checkedSub32 (a b : UInt32) : Option UInt32 :=
  if b ≤ a then some (a - b) else none

theorem toNat_ofNat32 (h : n < 2 ^ 32) : (UInt32.ofNat n).toNat = n :=
  UInt32.toNat_ofNat_of_lt' h

theorem toNat_add32 {a b : UInt32} (h : a.toNat + b.toNat < 2 ^ 32) :
    (a + b).toNat = a.toNat + b.toNat := by
  rw [UInt32.toNat_add, Nat.mod_eq_of_lt h]

theorem toNat_sub32 {a b : UInt32} (h : b ≤ a) : (a - b).toNat = a.toNat - b.toNat :=
  UInt32.toNat_sub_of_le a b h

theorem toNat_min32 (a b : UInt32) : (min a b).toNat = min a.toNat b.toNat := by
  simp only [Min.min, UInt32.le_iff_toNat_le]
  split <;> omega

theorem toNat_max32 (a b : UInt32) : (max a b).toNat = max a.toNat b.toNat := by
  simp only [Max.max, UInt32.le_iff_toNat_le]
  split <;> omega

/-- The product of two words fits twice their width. -/
theorem toNat_mul64 (a b : UInt32) : (a.toUInt64 * b.toUInt64).toNat = a.toNat * b.toNat := by
  have hlt : a.toNat * b.toNat < 2 ^ 32 * 2 ^ 32 := Nat.mul_lt_mul'' a.toNat_lt b.toNat_lt
  rw [UInt64.toNat_mul, UInt32.toNat_toUInt64, UInt32.toNat_toUInt64]
  exact Nat.mod_eq_of_lt hlt

theorem add32_ok {a b : UInt32} (h : a.toNat + b.toNat < 2 ^ 32) :
    (add32 checks a b : Checked UInt32) = .ok (a + b) := by
  have hfits : (checks && decide (2 ^ 32 ≤ a.toNat + b.toNat)) = false := by
    rw [decide_eq_false (Nat.not_le.mpr h), Bool.and_false]
  rw [add32, hfits]
  rfl

theorem mul32_ok {a b : UInt32} (h : a.toNat * b.toNat < 2 ^ 32) :
    (mul32 checks a b : Checked UInt32) = .ok (a * b) := by
  have hfits : (checks && decide (2 ^ 32 ≤ a.toNat * b.toNat)) = false := by
    rw [decide_eq_false (Nat.not_le.mpr h), Bool.and_false]
  rw [mul32, hfits]
  rfl

theorem mul32_overflow {a b : UInt32} (h : 2 ^ 32 ≤ a.toNat * b.toNat) :
    mul32 true a b = .error .arithmeticOverflow := by
  rw [mul32, decide_eq_true h]
  rfl

theorem sub32_overflow {a b : UInt32} (h : a < b) :
    sub32 true a b = .error .arithmeticOverflow := by
  rw [sub32, decide_eq_true h]
  rfl

theorem sub32_ok {a b : UInt32} (h : b ≤ a) :
    (sub32 checks a b : Checked UInt32) = .ok (a - b) := by
  have hn : ¬ a < b := by
    rw [UInt32.lt_iff_toNat_lt]
    rw [UInt32.le_iff_toNat_le] at h
    omega
  simp [sub32, hn]

-- ---------------------------------------------------------------------------
-- Indexing
-- ---------------------------------------------------------------------------

/-- `xs[i]`. -/
def index (xs : List α) (i : Nat) : Checked α :=
  match xs[i]? with
  | some a => .ok a
  | none => .error .indexOutOfBounds

/-- `&xs[i..]`. -/
def sliceFrom (xs : List α) (i : Nat) : Checked (List α) :=
  if i ≤ xs.length then .ok (xs.drop i) else .error .indexOutOfBounds

/-- `&xs[i..j]`. -/
def slice (xs : List α) (i j : Nat) : Checked (List α) :=
  if i ≤ j ∧ j ≤ xs.length then .ok ((xs.drop i).take (j - i)) else .error .indexOutOfBounds

theorem slice_ok {xs : List α} (hij : i ≤ j) (hj : j ≤ xs.length) :
    (slice xs i j : Checked (List α)) = .ok ((xs.drop i).take (j - i)) := by
  simp [slice, hij, hj]

theorem index_ok {xs : List α} (h : xs[i]? = some a) : (index xs i : Checked α) = .ok a := by
  simp [index, h]

theorem index_getD {xs : List α} (d : α) (h : i < xs.length) :
    (index xs i : Checked α) = .ok (xs.getD i d) := by
  apply index_ok
  rw [List.getD_eq_getElem?_getD, List.getElem?_eq_getElem h]
  rfl

/-- `xs[i] = a`. -/
def update (xs : List α) (i : Nat) (a : α) : Checked (List α) :=
  if i < xs.length then .ok (xs.set i a) else .error .indexOutOfBounds

theorem update_ok {xs : List α} (h : i < xs.length) :
    (update xs i a : Checked (List α)) = .ok (xs.set i a) := by
  simp [update, h]

theorem update_append {xs ys : List α} (h : i < ys.length) :
    (update (xs ++ ys) (xs.length + i) a : Checked (List α)) = .ok (xs ++ ys.set i a) := by
  have hlt : xs.length + i < (xs ++ ys).length := by
    rw [List.length_append]
    omega
  rw [update_ok hlt, List.set_append_right _ _ (Nat.le_add_right ..), Nat.add_sub_cancel_left]

theorem sliceFrom_ok {xs : List α} (h : i ≤ xs.length) :
    (sliceFrom xs i : Checked (List α)) = .ok (xs.drop i) := by
  simp [sliceFrom, h]

-- ---------------------------------------------------------------------------
-- Big-endian bytes
-- ---------------------------------------------------------------------------

/-- `u16::from_be_bytes`. -/
def u16FromBeBytes (a b : UInt8) : UInt16 := UInt16.ofNat (a.toNat * 256 + b.toNat)

/-- `u32::from_be_bytes`. -/
def u32FromBeBytes (a b c d : UInt8) : UInt32 :=
  UInt32.ofNat (((a.toNat * 256 + b.toNat) * 256 + c.toNat) * 256 + d.toNat)

/-- `u16::to_be_bytes`. -/
def u16ToBeBytes (n : UInt16) : List UInt8 := [UInt8.ofNat (n.toNat / 2 ^ 8), UInt8.ofNat n.toNat]

/-- `u32::to_be_bytes`. -/
def u32ToBeBytes (n : UInt32) : List UInt8 :=
  [UInt8.ofNat (n.toNat / 2 ^ 24), UInt8.ofNat (n.toNat / 2 ^ 16), UInt8.ofNat (n.toNat / 2 ^ 8),
    UInt8.ofNat n.toNat]

theorem toNat_u16FromBeBytes (a b : UInt8) :
    (u16FromBeBytes a b).toNat = a.toNat * 256 + b.toNat := by
  have ha := a.toNat_lt
  have hb := b.toNat_lt
  simp only [u16FromBeBytes, UInt16.toNat_ofNat']
  omega

theorem u16FromBeBytes_inj :
    u16FromBeBytes a b = u16FromBeBytes a' b' ↔ a = a' ∧ b = b' := by
  constructor
  · intro h
    have heq := congrArg UInt16.toNat h
    rw [toNat_u16FromBeBytes, toNat_u16FromBeBytes] at heq
    have hb := b.toNat_lt
    have hb' := b'.toNat_lt
    constructor <;> apply UInt8.toNat_inj.mp <;> omega
  · rintro ⟨rfl, rfl⟩
    rfl

theorem toNat_u32FromBeBytes (a b c d : UInt8) : (u32FromBeBytes a b c d).toNat =
    ((a.toNat * 256 + b.toNat) * 256 + c.toNat) * 256 + d.toNat := by
  have ha := a.toNat_lt
  have hb := b.toNat_lt
  have hc := c.toNat_lt
  have hd := d.toNat_lt
  simp only [u32FromBeBytes, UInt32.toNat_ofNat']
  omega

theorem shiftedByte (n : UInt32) (k : UInt32) (hk : k.toNat < 32) :
    (n >>> k &&& 0xFF).toUInt8 = UInt8.ofNat (n.toNat / 2 ^ k.toNat) := by
  have hand := Nat.and_two_pow_sub_one_eq_mod (n.toNat / 2 ^ k.toNat) 8
  have h255 : (0xFF : UInt32).toNat = 2 ^ 8 - 1 := rfl
  apply UInt8.toNat_inj.mp
  rw [UInt32.toNat_toUInt8, UInt32.toNat_and, UInt32.toNat_shiftRight, Nat.mod_eq_of_lt hk,
    Nat.shiftRight_eq_div_pow, h255, hand, UInt8.toNat_ofNat', Nat.mod_mod]

theorem lowByte (n : UInt32) : (n &&& 0xFF).toUInt8 = UInt8.ofNat n.toNat := by
  have hand := Nat.and_two_pow_sub_one_eq_mod n.toNat 8
  have h255 : (0xFF : UInt32).toNat = 2 ^ 8 - 1 := rfl
  apply UInt8.toNat_inj.mp
  rw [UInt32.toNat_toUInt8, UInt32.toNat_and, h255, hand, UInt8.toNat_ofNat', Nat.mod_mod]

/-- The number that some bytes are in big-endian order. -/
def beNat (bytes : List UInt8) : Nat := bytes.foldl (fun n byte => n * 256 + byte.toNat) 0

theorem beNat_toBeBytes (n : UInt32) : beNat (u32ToBeBytes n) = n.toNat := by
  have hn := n.toNat_lt
  simp only [beNat, u32ToBeBytes, List.foldl_cons, List.foldl_nil, UInt8.toNat_ofNat']
  omega

theorem u32FromBeBytes_toBeBytes (n : UInt32) :
    u32FromBeBytes (UInt8.ofNat (n.toNat / 2 ^ 24)) (UInt8.ofNat (n.toNat / 2 ^ 16))
      (UInt8.ofNat (n.toNat / 2 ^ 8)) (UInt8.ofNat n.toNat) = n := by
  have hn := n.toNat_lt
  apply UInt32.toNat_inj.mp
  simp only [toNat_u32FromBeBytes, UInt8.toNat_ofNat']
  omega

-- ---------------------------------------------------------------------------
-- Little-endian bytes
-- ---------------------------------------------------------------------------

/-- `u16::to_le_bytes`. -/
def u16ToLeBytes (n : UInt16) : List UInt8 := [UInt8.ofNat n.toNat, UInt8.ofNat (n.toNat / 2 ^ 8)]

/-- `u32::to_le_bytes`. -/
def u32ToLeBytes (n : UInt32) : List UInt8 :=
  [UInt8.ofNat n.toNat, UInt8.ofNat (n.toNat / 2 ^ 8), UInt8.ofNat (n.toNat / 2 ^ 16),
    UInt8.ofNat (n.toNat / 2 ^ 24)]

/-- The number that some bytes are in little-endian order. -/
def leNat (bytes : List UInt8) : Nat := bytes.foldr (fun byte n => byte.toNat + 256 * n) 0

theorem leNat_toLeBytes32 (n : UInt32) : leNat (u32ToLeBytes n) = n.toNat := by
  have hn := n.toNat_lt
  simp only [leNat, u32ToLeBytes, List.foldr_cons, List.foldr_nil, UInt8.toNat_ofNat']
  omega

theorem leNat_lt (bytes : List UInt8) : leNat bytes < 256 ^ bytes.length := by
  induction bytes with
  | nil => exact Nat.one_pos
  | cons byte bytes ih =>
    have hbyte := byte.toNat_lt
    have hcons : leNat (byte :: bytes) = byte.toNat + 256 * leNat bytes := rfl
    rw [hcons, List.length_cons, Nat.pow_succ]
    omega

end Rust
