/-!
# Blocks at consecutive addresses

`blocks f start n` is the concatenation of the blocks `f` gives for the `n`
addresses from `start` on. Ranges that meet concatenate, and blocks of one
size have a length; a reader that goes through a range piece by piece is
compared with the range itself through these.
-/

namespace Rust

variable {α : Type}

def blocks (f : Nat → List α) (start n : Nat) : List α := (List.range' start n).flatMap f

theorem blocks_append (f : Nat → List α) (start m n : Nat) :
    blocks f start m ++ blocks f (start + m) n = blocks f start (m + n) := by
  rw [blocks, blocks, ← List.flatMap_append, List.range'_append_1, blocks]

theorem length_blocks {f : Nat → List α} (h : ∀ a, (f a).length = size) (start n : Nat) :
    (blocks f start n).length = n * size := by
  induction n generalizing start with
  | zero => simp [blocks]
  | succ n ih =>
    have hsplit := blocks_append f start 1 n
    have hone : (blocks f start 1).length = size := by simp [blocks, List.range'_succ, h]
    rw [Nat.add_comm n 1, ← hsplit, List.length_append, ih, hone, Nat.add_mul, Nat.one_mul]

/-- The same of blocks that have the size in the range only. -/
theorem length_blocks_range {f : Nat → List α}
    (h : ∀ a, start ≤ a → a < start + n → (f a).length = size) :
    (blocks f start n).length = n * size := by
  induction n generalizing start with
  | zero => simp [blocks]
  | succ n ih =>
    have hfirst := h start (Nat.le_refl _) (by omega)
    have hrest : (blocks f (start + 1) n).length = n * size :=
      ih fun a hlo hhi => h a (by omega) (by omega)
    have hcons : blocks f start (n + 1) = f start ++ blocks f (start + 1) n := by
      rw [blocks, List.range'_succ, List.flatMap_cons]
      rfl
    rw [hcons, List.length_append, hfirst, hrest, Nat.add_mul, Nat.one_mul, Nat.add_comm]

theorem blocks_congr {f g : Nat → List α}
    (h : ∀ a, start ≤ a → a < start + n → f a = g a) : blocks f start n = blocks g start n := by
  have hrange : ∀ a ∈ List.range' start n, f a = g a := by
    intro a ha
    obtain ⟨hlo, hhi⟩ := List.mem_range'_1.mp ha
    exact h a hlo hhi
  rw [blocks, blocks, List.flatMap_def, List.flatMap_def, List.map_congr_left hrange]

/-- One block of a range of blocks of one size. -/
theorem blocks_slice {f : Nat → List α}
    (h : ∀ a, start ≤ a → a < start + n → (f a).length = size) (hi : i < n) :
    ((blocks f start n).drop (i * size)).take size = f (start + i) := by
  have hbefore : (blocks f start i).length = i * size :=
    length_blocks_range fun a hlo hhi => h a hlo (by omega)
  have hone : (f (start + i)).length = size := h _ (by omega) (by omega)
  have hsplit := blocks_append f start i (n - i)
  have hrest : blocks f (start + i) (n - i) =
      f (start + i) ++ blocks f (start + i + 1) (n - i - 1) := by
    obtain ⟨m, hm⟩ : ∃ m, n - i = m + 1 := ⟨n - i - 1, by omega⟩
    simp [hm, blocks, List.range'_succ]
  rw [Nat.add_sub_cancel' (Nat.le_of_lt hi)] at hsplit
  rw [← hsplit, ← hbefore, List.drop_left, hrest, ← hone, List.take_left]

end Rust
