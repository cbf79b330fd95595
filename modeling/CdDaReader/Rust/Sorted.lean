import Mathlib.Data.List.Sort

/-!
# Sorted lists without repetitions

`Vec::sort` and `Vec::dedup`, one after the other: the members in strictly
increasing order, which is one list only. To do it again changes nothing.
-/

namespace Rust

variable {α : Type} [LinearOrder α]

/-- `Vec::sort`. -/
def sort (l : List α) : List α := l.insertionSort (· ≤ ·)

/-- `Vec::dedup`: of elements that follow an equal one, none stays. -/
def dedup : List α → List α
  | [] => []
  | [a] => [a]
  | a :: b :: l => if a = b then dedup (b :: l) else a :: dedup (b :: l)

example : dedup (sort [3, 1, 2, 3, 1]) = [1, 2, 3] := by decide

@[simp] theorem mem_sort {a : α} {l : List α} : a ∈ sort l ↔ a ∈ l := List.mem_insertionSort _

theorem pairwise_sort (l : List α) : (sort l).Pairwise (· ≤ ·) := List.pairwise_insertionSort _ l

@[simp] theorem mem_dedup {a : α} {l : List α} : a ∈ dedup l ↔ a ∈ l := by
  induction l using dedup.induct with
  | case1 => rfl
  | case2 => rfl
  | case3 b l ih => simp [dedup, ih]
  | case4 b c l hne ih => simp [dedup, hne, ih]

theorem pairwise_dedup {l : List α} (h : l.Pairwise (· ≤ ·)) : (dedup l).Pairwise (· < ·) := by
  induction l using dedup.induct with
  | case1 => exact .nil
  | case2 a => exact List.pairwise_singleton ..
  | case3 b l ih =>
    simp only [dedup, ↓reduceIte]
    exact ih h.of_cons
  | case4 a b l hne ih =>
    obtain ⟨hfirst, hrest⟩ := List.pairwise_cons.mp h
    simp only [dedup, hne, ↓reduceIte]
    refine List.pairwise_cons.mpr ⟨?_, ih hrest⟩
    intro c hc
    have hab := lt_of_le_of_ne (hfirst b (List.mem_cons_self ..)) hne
    rcases List.mem_cons.mp (mem_dedup.mp hc) with rfl | hmem
    · exact hab
    · exact lt_of_lt_of_le hab (List.rel_of_pairwise_cons hrest hmem)

/-- The members of a list, once each and in order. -/
theorem pairwise_dedup_sort (l : List α) : (dedup (sort l)).Pairwise (· < ·) :=
  pairwise_dedup (pairwise_sort l)

end Rust
