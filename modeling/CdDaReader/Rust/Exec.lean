import CdDaReader.Rust.Loop

/-!
# Outcomes of a Rust function

A function returns a value, returns an `Err`, panics, or (only in the model)
has a loop that is still going after the passes it was given. `Outcome` is
such a result; `Exec` is a computation that also changes a state, which an
`Err` leaves as it stands at that point.
-/

namespace Rust

inductive Panic
  | arithmeticOverflow
  | indexOutOfBounds
  deriving DecidableEq, Repr

inductive Fault (ε : Type)
  | error (err : ε)
  | panic (p : Panic)
  | diverged

abbrev Outcome (ε α : Type) := Except (Fault ε) α

/-- An operation that panics or gives a value. -/
abbrev Checked (α : Type) := Except Panic α

instance : MonadLift (Except Panic) (Except (Fault ε)) where
  monadLift
    | .ok a => .ok a
    | .error p => .error (.panic p)

abbrev Exec (σ ε : Type) := ExceptT (Fault ε) (StateM σ)

variable {σ ε α β : Type}

/-- Run a computation from a state. -/
def Exec.exec (x : Exec σ ε α) (s : σ) : Outcome ε α × σ := x.run.run s

/-- A computation on a part of a larger state. -/
def Exec.zoom (part : τ → σ) (put : τ → σ → τ) (x : Exec σ ε α) : Exec τ ε α :=
  ExceptT.mk fun s => let (result, s') := x.exec (part s); (result, put s s')

/-- A computation whose `Err` the caller matches on. -/
def Exec.attempt (x : Exec σ ε α) : Exec σ ε' (Except ε α) :=
  ExceptT.mk fun s => match x.exec s with
    | (.ok a, s') => (.ok (.ok a), s')
    | (.error (.error err), s') => (.ok (.error err), s')
    | (.error (.panic p), s') => (.error (.panic p), s')
    | (.error .diverged, s') => (.error .diverged, s')

/-- `map_err` on a call, or the conversion that `?` makes. -/
def Exec.mapErr (f : ε → ε') (x : Exec σ ε α) : Exec σ ε' α :=
  ExceptT.mk fun s => match x.exec s with
    | (.ok a, s') => (.ok a, s')
    | (.error (.error err), s') => (.error (.error (f err)), s')
    | (.error (.panic p), s') => (.error (.panic p), s')
    | (.error .diverged, s') => (.error .diverged, s')

/-- An `Err` of the function's own. -/
def fail [MonadExceptOf (Fault ε) m] (err : ε) : m α := throw (.error err)

def Outcome.mapErr (f : ε → ε') : Outcome ε α → Outcome ε' α
  | .ok a => .ok a
  | .error (.error e) => .error (.error (f e))
  | .error (.panic p) => .error (.panic p)
  | .error .diverged => .error .diverged

/-- `Option::ok_or_else`. -/
def okOr (o : Option α) (err : ε) : Outcome ε α :=
  match o with
  | some a => .ok a
  | none => .error (.error err)

/-- A returned `Result`, out of a computation that can only return. -/
def ofResult : Except ε α → Outcome ε α
  | .ok a => .ok a
  | .error e => .error (.error e)

@[simp] theorem okOr_some (a : α) (err : ε) : okOr (some a) err = .ok a := rfl

@[simp] theorem okOr_none (err : ε) : okOr (none : Option α) err = .error (.error err) := rfl

theorem okOr_eq_ok {o : Option α} {err : ε} : okOr o err = .ok a ↔ o = some a := by
  cases o with
  | none => exact ⟨nofun, nofun⟩
  | some b => rw [okOr_some, Except.ok.injEq, Option.some.injEq]

@[simp] theorem ofResult_ok (a : α) : (ofResult (.ok a) : Outcome ε α) = .ok a := rfl

@[simp] theorem ofResult_error (e : ε) :
    (ofResult (.error e) : Outcome ε α) = .error (.error e) := rfl

theorem ofResult_mapError_eq_ok {result : Except ε α} {f : ε → ε'}
    (h : .ok a = ofResult (result.mapError f)) : result = .ok a := by
  cases result with
  | ok b =>
    cases h
    rfl
  | error e => cases h

theorem ofResult_mapError_eq_error {result : Except ε α} {f : ε → ε'}
    (h : .error fault = ofResult (result.mapError f)) :
    ∃ e, result = .error e ∧ fault = .error (f e) := by
  cases result with
  | ok b => cases h
  | error e =>
    cases h
    exact ⟨e, rfl, rfl⟩

-- ---------------------------------------------------------------------------
-- Outcomes
-- ---------------------------------------------------------------------------

@[simp] theorem Outcome.bind_ok (a : α) (f : α → Outcome ε β) :
    ((.ok a : Outcome ε α) >>= f) = f a := rfl

@[simp] theorem Outcome.bind_error (e : Fault ε) (f : α → Outcome ε β) :
    ((.error e : Outcome ε α) >>= f) = .error e := rfl

@[simp] theorem Outcome.pure_eq (a : α) : (pure a : Outcome ε α) = .ok a := rfl

@[simp] theorem Outcome.lift_ok (a : α) :
    (liftM (.ok a : Checked α) : Outcome ε α) = .ok a := rfl

-- ---------------------------------------------------------------------------
-- Computations
-- ---------------------------------------------------------------------------

@[simp] theorem exec_pure (a : α) (s : σ) : (pure a : Exec σ ε α).exec s = (.ok a, s) := rfl

theorem exec_bind (x : Exec σ ε α) (f : α → Exec σ ε β) (s : σ) :
    (x >>= f).exec s = match x.exec s with
      | (.ok a, s') => (f a).exec s'
      | (.error e, s') => (.error e, s') := by
  simp only [Exec.exec, ExceptT.run_bind, StateT.run_bind]
  show (match (StateT.run x.run s) with
    | (a, s') => _) = _
  rcases StateT.run x.run s with ⟨_ | _, _⟩ <;> rfl

theorem exec_bind_ok {x : Exec σ ε α} {f : α → Exec σ ε β} (h : x.exec s = (.ok a, s')) :
    (x >>= f).exec s = (f a).exec s' := by
  rw [exec_bind, h]

theorem exec_bind_error {x : Exec σ ε α} {f : α → Exec σ ε β}
    (h : x.exec s = (.error e, s')) : (x >>= f).exec s = (.error e, s') := by
  rw [exec_bind, h]

theorem fail_bind (err : ε) (f : α → Exec σ ε β) : (fail err >>= f) = fail err := rfl

@[simp] theorem exec_lift (x : Outcome ε α) (s : σ) :
    (liftM x : Exec σ ε α).exec s = (x, s) := rfl

theorem exec_bind_checked {x : Checked α} {f : α → Exec σ ε β} (h : x = .ok a) :
    (liftM x >>= f).exec s = (f a).exec s := by
  have hx : (liftM x : Exec σ ε α).exec s = (.ok a, s) := by rw [h]; rfl
  exact exec_bind_ok hx

@[simp] theorem exec_get (s : σ) : (get : Exec σ ε σ).exec s = (.ok s, s) := rfl

@[simp] theorem exec_modify (f : σ → σ) (s : σ) :
    (modify f : Exec σ ε Unit).exec s = (.ok (), f s) := rfl

theorem exec_zoom {part : τ → σ} {put : τ → σ → τ} {x : Exec σ ε α} {s : τ}
    (h : x.exec (part s) = (result, s')) : (x.zoom part put).exec s = (result, put s s') := by
  show (let (result, s') := x.exec (part s); (result, put s s')) = _
  rw [h]

/-- A computation that returns leaves what it returned to the caller. -/
theorem exec_attempt {x : Exec σ ε α} {result : Except ε α} {s : σ}
    (h : x.exec s = (ofResult result, s')) :
    (x.attempt : Exec σ ε' (Except ε α)).exec s = (.ok result, s') := by
  show (match x.exec s with
    | (.ok a, s') => (.ok (.ok a), s')
    | (.error (.error err), s') => (.ok (.error err), s')
    | (.error (.panic p), s') => (.error (.panic p), s')
    | (.error .diverged, s') => (.error .diverged, s') : Outcome ε' (Except ε α) × σ) = _
  rw [h]
  cases result <;> rfl

theorem exec_mapErr {f : ε → ε'} {x : Exec σ ε α} {result : Except ε α} {s : σ}
    (h : x.exec s = (ofResult result, s')) :
    (x.mapErr f).exec s = (ofResult (result.mapError f), s') := by
  show (match x.exec s with
    | (.ok a, s') => (.ok a, s')
    | (.error (.error err), s') => (.error (.error (f err)), s')
    | (.error (.panic p), s') => (.error (.panic p), s')
    | (.error .diverged, s') => (.error .diverged, s') : Outcome ε' α × σ) = _
  rw [h]
  cases result <;> rfl

/-- The rule of a `while` loop: every pass either keeps an invariant and lowers
a measure, or leaves the loop. -/
theorem exec_whileLoop {cond : α → Bool} {body : α → Exec σ ε α}
    (I : α → σ → Prop) (measure : α → σ → Nat) (Left : Fault ε → σ → Prop)
    (hpass : ∀ a s, I a s → cond a = true →
      (∃ a' s', (body a).exec s = (.ok a', s') ∧ I a' s' ∧ measure a' s' < measure a s) ∨
        ∃ e s', (body a).exec s = (.error e, s') ∧ Left e s') {a : α} {s : σ}
    (hI : I a s) (hn : measure a s < passes) :
    (∃ a' s', (whileLoop (throw .diverged) cond body passes a).exec s = (.ok a', s') ∧
        I a' s' ∧ cond a' = false) ∨
      ∃ e s', (whileLoop (throw .diverged) cond body passes a).exec s = (.error e, s') ∧
        Left e s' := by
  induction passes generalizing a s with
  | zero => omega
  | succ passes ih =>
    cases hc : cond a with
    | false =>
      rw [whileLoop_stop hc]
      exact .inl ⟨a, s, rfl, hI, hc⟩
    | true =>
      simp only [whileLoop, hc, if_true]
      rcases hpass a s hI hc with ⟨a', s', hexec, hI', hlt⟩ | ⟨e, s', hexec, hleft⟩
      · rw [exec_bind_ok hexec]
        exact ih hI' (by omega)
      · rw [exec_bind_error hexec]
        exact .inr ⟨e, s', rfl, hleft⟩

/-- The rule of a `for` loop with an accumulator: every pass either hands on a
property of the items done so far, or leaves the loop. -/
theorem exec_foldlM {body : β → α → Exec σ ε β} {items : List α}
    (P : List α → β → σ → Prop) (Left : Fault ε → σ → Prop)
    (hpass : ∀ done a rest b s, items = done ++ a :: rest → P done b s →
      (∃ b' s', (body b a).exec s = (.ok b', s') ∧ P (done ++ [a]) b' s') ∨
        ∃ e s', (body b a).exec s = (.error e, s') ∧ Left e s') {b : β} {s : σ}
    (hstart : P [] b s) :
    (∃ b' s', (items.foldlM body b).exec s = (.ok b', s') ∧ P items b' s') ∨
      ∃ e s', (items.foldlM body b).exec s = (.error e, s') ∧ Left e s' := by
  suffices hrest : ∀ rest done b s, items = done ++ rest → P done b s →
      (∃ b' s', (rest.foldlM body b).exec s = (.ok b', s') ∧ P items b' s') ∨
        ∃ e s', (rest.foldlM body b).exec s = (.error e, s') ∧ Left e s' from
    hrest items [] b s rfl hstart
  intro rest
  induction rest with
  | nil =>
    intro done b s hitems h
    rw [List.append_nil] at hitems
    exact .inl ⟨b, s, rfl, hitems ▸ h⟩
  | cons a rest ih =>
    intro done b s hitems h
    rw [List.foldlM_cons]
    rcases hpass done a rest b s hitems h with ⟨b', s', hexec, h'⟩ | ⟨e, s', hexec, hleft⟩
    · rw [exec_bind_ok hexec]
      exact ih (done ++ [a]) b' s' (by simpa using hitems) h'
    · rw [exec_bind_error hexec]
      exact .inr ⟨e, s', rfl, hleft⟩

end Rust
