import CdDaReader.Rust.Exec
import Mathlib.Data.List.Basic

/-!
# Two computations side by side

A state that is only ever added to is a log. `Exec.Prolongs` compares two
computations on a log: the one does what the other does, and may go on where
the other returns an `Err`. `Exec.Agrees` compares what two computations
return, from states that are alike. Both pass through `>>=` and through
`while`, so a comparison of two loops is one of their bodies.
-/

namespace Rust

variable {σ ν ε α β : Type}

namespace Exec

-- ---------------------------------------------------------------------------
-- Logs
-- ---------------------------------------------------------------------------

/-- Nothing is taken back from the log. -/
def Appends (x : Exec (List ν) ε α) : Prop := ∀ s, s <+: (x.exec s).2

theorem appends_outcome (x : Outcome ε α) : (liftM x : Exec (List ν) ε α).Appends :=
  fun s => List.prefix_refl s

theorem appends_pure (a : α) : (pure a : Exec (List ν) ε α).Appends :=
  appends_outcome (.ok a)

theorem appends_fail (err : ε) : (fail err : Exec (List ν) ε α).Appends :=
  appends_outcome (.error (.error err))

theorem appends_get : (get : Exec (List ν) ε (List ν)).Appends := fun s => List.prefix_refl s

theorem Appends.bind {x : Exec (List ν) ε α} {f : α → Exec (List ν) ε β} (hx : x.Appends)
    (hf : ∀ a, (f a).Appends) : (x >>= f).Appends := by
  intro s
  have hs := hx s
  rcases hexec : x.exec s with ⟨_ | a, s'⟩
  · rw [exec_bind_error hexec]
    rwa [hexec] at hs
  · rw [exec_bind_ok hexec]
    rw [hexec] at hs
    exact hs.trans (hf a s')

theorem Appends.whileLoop {cond : α → Bool} {body : α → Exec (List ν) ε α}
    (hbody : ∀ a, (body a).Appends) (passes : Nat) (a : α) :
    (whileLoop (throw .diverged) cond body passes a).Appends := by
  induction passes generalizing a with
  | zero => exact appends_outcome (.error .diverged)
  | succ passes ih =>
    simp only [Rust.whileLoop]
    split
    · exact (hbody a).bind ih
    · exact appends_pure a

-- ---------------------------------------------------------------------------
-- One computation goes on where another gives up
-- ---------------------------------------------------------------------------

/-- `y` does what `x` does, or `x` returns an `Err` and what it logged is the
beginning of what `y` logs. -/
def Prolongs (y x : Exec (List ν) ε α) : Prop := ∀ s,
  y.exec s = x.exec s ∨
    (∃ err, (x.exec s).1 = .error (.error err)) ∧ (x.exec s).2 <+: (y.exec s).2

theorem Prolongs.refl (x : Exec (List ν) ε α) : x.Prolongs x := fun _ => .inl rfl

theorem Appends.prolongs_fail {y : Exec (List ν) ε α} (hy : y.Appends) (err : ε) :
    y.Prolongs (fail err) := fun s => .inr ⟨⟨err, rfl⟩, hy s⟩

theorem Prolongs.after (x : Exec (List ν) ε α) {f g : α → Exec (List ν) ε β}
    (hfg : ∀ a, (g a).Prolongs (f a)) : (x >>= g).Prolongs (x >>= f) := by
  intro s
  rcases hexec : x.exec s with ⟨_ | a, s'⟩
  · exact .inl (by rw [exec_bind_error hexec, exec_bind_error hexec])
  · rw [exec_bind_ok hexec, exec_bind_ok hexec]
    exact hfg a s'

theorem Prolongs.bind {x y : Exec (List ν) ε α} {f g : α → Exec (List ν) ε β}
    (hxy : y.Prolongs x) (hfg : ∀ a, (g a).Prolongs (f a)) (hg : ∀ a, (g a).Appends) :
    (y >>= g).Prolongs (x >>= f) := by
  intro s
  rcases hexec : x.exec s with ⟨result, s'⟩
  have hs := hxy s
  rw [hexec] at hs
  rcases hs with heq | ⟨⟨err, rfl⟩, hlog⟩
  · -- the same so far
    cases result with
    | error e => exact .inl (by rw [exec_bind_error heq, exec_bind_error hexec])
    | ok a =>
      rw [exec_bind_ok heq, exec_bind_ok hexec]
      exact hfg a s'
  · rw [exec_bind_error hexec]
    refine .inr ⟨⟨err, rfl⟩, ?_⟩
    rcases hexec' : y.exec s with ⟨_ | a, s''⟩
    · rw [exec_bind_error hexec']
      rwa [hexec'] at hlog
    · rw [exec_bind_ok hexec']
      rw [hexec'] at hlog
      exact hlog.trans (hg a s'')

theorem Prolongs.whileLoop {cond : α → Bool} {body body' : α → Exec (List ν) ε α}
    (hbody : ∀ a, (body' a).Prolongs (body a)) (happends : ∀ a, (body' a).Appends) (passes : Nat)
    (a : α) : (whileLoop (throw .diverged) cond body' passes a).Prolongs
      (whileLoop (throw .diverged) cond body passes a) := by
  induction passes generalizing a with
  | zero => exact .refl _
  | succ passes ih =>
    simp only [Rust.whileLoop]
    split
    · exact (hbody a).bind ih fun a' => Appends.whileLoop happends passes a'
    · exact .refl _

-- ---------------------------------------------------------------------------
-- Two computations return the same
-- ---------------------------------------------------------------------------

/-- From states that are alike the two return the same, and leave states that
are alike. -/
def Agrees (Alike : σ → σ → Prop) (x y : Exec σ ε α) : Prop := ∀ s s', Alike s s' →
  (x.exec s).1 = (y.exec s').1 ∧ Alike (x.exec s).2 (y.exec s').2

variable {Alike : σ → σ → Prop}

theorem agrees_outcome (x : Outcome ε α) :
    Agrees Alike (liftM x : Exec σ ε α) (liftM x) := fun _ _ hs => ⟨rfl, hs⟩

theorem agrees_pure (a : α) : Agrees Alike (pure a : Exec σ ε α) (pure a) :=
  agrees_outcome (.ok a)

theorem Agrees.symm {x y : Exec σ ε α} (hsymm : ∀ s s', Alike s s' → Alike s' s)
    (h : x.Agrees Alike y) : y.Agrees Alike x := by
  intro s s' hs
  obtain ⟨hresult, ht⟩ := h s' s (hsymm s s' hs)
  exact ⟨hresult.symm, hsymm _ _ ht⟩

theorem Agrees.bind {x y : Exec σ ε α} {f g : α → Exec σ ε β} (hxy : x.Agrees Alike y)
    (hfg : ∀ a, (f a).Agrees Alike (g a)) : (x >>= f).Agrees Alike (y >>= g) := by
  intro s s' hs
  obtain ⟨hresult, ht⟩ := hxy s s' hs
  rcases hexec : x.exec s with ⟨result, t⟩
  rcases hexec' : y.exec s' with ⟨_, t'⟩
  rw [hexec, hexec'] at hresult ht
  cases hresult
  cases result with
  | error e =>
    rw [exec_bind_error hexec, exec_bind_error hexec']
    exact ⟨rfl, ht⟩
  | ok a =>
    rw [exec_bind_ok hexec, exec_bind_ok hexec']
    exact hfg a t t' ht

theorem Agrees.whileLoop {cond : α → Bool} {body body' : α → Exec σ ε α}
    (hbody : ∀ a, (body a).Agrees Alike (body' a)) (passes : Nat) (a : α) :
    (whileLoop (throw .diverged) cond body passes a).Agrees Alike
      (whileLoop (throw .diverged) cond body' passes a) := by
  induction passes generalizing a with
  | zero => exact agrees_outcome (.error .diverged)
  | succ passes ih =>
    simp only [Rust.whileLoop]
    split
    · exact (hbody a).bind ih
    · exact agrees_pure a

end Exec

end Rust
