import Mathlib.Order.SuccPred.IntervalSucc
import Mathlib.Algebra.Order.SuccPred
import Mathlib.Data.Nat.SuccPred
import Mathlib.Order.CompletePartialOrder

/-!
# Spans between successive marks

A line is cut at successive marks, and from each mark a span reaches at most
to the next one. The spans are disjoint, and what they leave of the line are
the gaps before the next marks.
-/

/-- `count` spans: the one from `mark i` ends at `stop i`. -/
structure Spans (α : Type) [LinearOrder α] where
  count : ℕ
  mark : ℕ → α
  stop : ℕ → α
  mono : Monotone mark
  stop_le : ∀ i, stop i ≤ mark (i + 1)

namespace Spans

variable {α : Type} [LinearOrder α] (s : Spans α)

def cell (i : ℕ) : Set α := Set.Ico (s.mark i) (s.mark (i + 1))

def span (i : ℕ) : Set α := Set.Ico (s.mark i) (s.stop i)

def gap (i : ℕ) : Set α := Set.Ico (max (s.mark i) (s.stop i)) (s.mark (i + 1))

theorem span_subset_cell (i : ℕ) : s.span i ⊆ s.cell i := Set.Ico_subset_Ico_right (s.stop_le i)

theorem gap_subset_cell (i : ℕ) : s.gap i ⊆ s.cell i := Set.Ico_subset_Ico_left (le_max_left ..)

theorem disjoint_cell (h : i ≠ j) : Disjoint (s.cell i) (s.cell j) :=
  s.mono.pairwise_disjoint_on_Ico_succ h

theorem cell_unique (hi : x ∈ s.cell i) (hj : x ∈ s.cell j) : i = j := by
  by_contra hne
  exact Set.disjoint_left.mp (s.disjoint_cell hne) hi hj

theorem span_or_gap (h : x ∈ s.cell i) : x ∈ s.span i ∨ x ∈ s.gap i := by
  obtain ⟨hlo, hhi⟩ := h
  rcases lt_or_ge x (s.stop i) with hstop | hstop
  · exact .inl ⟨hlo, hstop⟩
  · exact .inr ⟨max_le hlo hstop, hhi⟩

theorem disjoint_span_gap (i j : ℕ) : Disjoint (s.span i) (s.gap j) := by
  rw [Set.disjoint_left]
  intro x hspan hgap
  obtain rfl := s.cell_unique (s.span_subset_cell i hspan) (s.gap_subset_cell j hgap)
  exact absurd hspan.2 (not_lt.mpr (le_trans (le_max_right ..) hgap.1))

theorem mem_cell_bounds (hi : i < s.count) (h : x ∈ s.cell i) :
    x ∈ Set.Ico (s.mark 0) (s.mark s.count) :=
  ⟨le_trans (s.mono (Nat.zero_le i)) h.1, lt_of_lt_of_le h.2 (s.mono hi)⟩

theorem exists_cell (h : x ∈ Set.Ico (s.mark 0) (s.mark s.count)) :
    ∃ i < s.count, x ∈ s.cell i := by
  obtain ⟨hlo, hhi⟩ := h
  generalize s.count = n at hhi ⊢
  induction n with
  | zero => exact absurd hhi (not_lt.mpr hlo)
  | succ n ih =>
    rcases lt_or_ge x (s.mark n) with hlt | hge
    · obtain ⟨i, hi, hx⟩ := ih hlt
      exact ⟨i, Nat.lt_succ_of_lt hi, hx⟩
    · exact ⟨n, Nat.lt_succ_self n, hge, hhi⟩

/-- Of the points between the first mark and the last, those in no span are
those of a gap. -/
theorem uncovered_iff (h : x ∈ Set.Ico (s.mark 0) (s.mark s.count)) :
    (∀ i < s.count, x ∉ s.span i) ↔ ∃ i < s.count, x ∈ s.gap i := by
  constructor
  · intro hnone
    obtain ⟨i, hi, hx⟩ := s.exists_cell h
    exact ⟨i, hi, (s.span_or_gap hx).resolve_left (hnone i hi)⟩
  · rintro ⟨j, -, hgap⟩ i - hspan
    exact Set.disjoint_left.mp (s.disjoint_span_gap i j) hspan hgap

end Spans
