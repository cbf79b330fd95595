/-!
# Loops in a monad

A `while` loop runs at most a given number of passes and ends in `diverged`
when it is still going after them. `whileLoop_induction` is its rule: a
property of computations that the exit has and one pass hands on holds of the
whole loop, whenever a measure that every pass lowers starts below the number
of passes. The property may well say that the loop is not `diverged`.

A `for` loop over a list is `List.foldlM`. Its rule `foldlM_ok` carries a
property of the items done so far.
-/

namespace Rust

variable {m : Type → Type} {α : Type}

def whileLoop [Monad m] (diverged : m α) (cond : α → Bool) (body : α → m α) : Nat → α → m α
  | 0, _ => diverged
  | passes + 1, a =>
    if cond a then body a >>= whileLoop diverged cond body passes else pure a

theorem whileLoop_stop [Monad m] {diverged : m α} {cond : α → Bool} {body : α → m α}
    (h : cond a = false) : whileLoop diverged cond body (passes + 1) a = pure a := by
  simp [whileLoop, h]

/-- `hstop` is the exit; `hpass` is one pass before any continuation that
already has the property at the states with a smaller measure. -/
theorem whileLoop_induction [Monad m] {diverged : m α} {cond : α → Bool} {body : α → m α}
    (I : α → Prop) (measure : α → Nat) (P : α → m α → Prop)
    (hstop : ∀ a, I a → cond a = false → P a (pure a))
    (hpass : ∀ a, I a → cond a = true → ∀ k : α → m α,
      (∀ a', I a' → measure a' < measure a → P a' (k a')) → P a (body a >>= k))
    (hI : I a) (hn : measure a < passes) : P a (whileLoop diverged cond body passes a) := by
  induction passes generalizing a with
  | zero => omega
  | succ passes ih =>
    cases hc : cond a with
    | false =>
      rw [whileLoop_stop hc]
      exact hstop a hI hc
    | true =>
      have h := hpass a hI hc (whileLoop diverged cond body passes)
        fun a' hI' hlt => ih hI' (by omega)
      simpa [whileLoop, hc] using h

theorem foldlM_ok {ε β : Type} {step : β → α → Except ε β} (P : List α → β → Prop)
    (hstep : ∀ done b a, P done b → ∃ b', step b a = .ok b' ∧ P (done ++ [a]) b')
    {done : List α} {b : β} (h : P done b) (items : List α) :
    ∃ b', items.foldlM step b = .ok b' ∧ P (done ++ items) b' := by
  induction items generalizing done b with
  | nil => exact ⟨b, rfl, by rwa [List.append_nil]⟩
  | cons a items ih =>
    obtain ⟨b₁, hpass, h₁⟩ := hstep done b a h
    obtain ⟨b₂, hrest, h₂⟩ := ih h₁
    refine ⟨b₂, ?_, by rwa [List.append_assoc, List.singleton_append] at h₂⟩
    rw [List.foldlM_cons, hpass]
    exact hrest

end Rust
