import CdDaReader.ReadLoop.Retries
import CdDaReader.Rust.Relational

/-!
# Two policies side by side

What a retry policy can change about a read. More attempts never change a
read that succeeds, and one that fails is the beginning of what happens with
more of them. The delays change nothing but the pauses, as long as the drive
does not answer by the clock.
-/

namespace CdDaReader

open Rust

section
variable {host : Host} {format : SectorReadFormat} {cfg cfg' : RetryConfig} {readChunk : ReadChunk}

-- ---------------------------------------------------------------------------
-- The loop only adds to the history
-- ---------------------------------------------------------------------------

theorem appends_log (event : Event) : (Run.log event).Appends := fun _ => List.prefix_append ..

theorem readAttempt_appends (lba n : UInt32) :
    (readAttempt host format readChunk lba n).Appends := by
  unfold readAttempt
  apply Exec.appends_get.bind
  intro h
  apply (appends_log _).bind
  intro _
  cases readChunk h lba n with
  | error err => exact Exec.appends_pure _
  | ok chunk =>
    apply (Exec.appends_outcome _).bind
    intro expectedLen
    split <;> exact Exec.appends_pure _

/-- The locals after a served command, as the loop computes them. -/
def ReadState.served (host : Host) (state : ReadState) (n : UInt32) (chunk : Bytes) :
    Run (Except CdReaderError ReadState) := do
  let remaining ← sub32 host.overflowChecks state.remaining n
  let lba ← if 0 < remaining then add32 host.overflowChecks state.lba n else pure state.lba
  return .ok { out := state.out ++ chunk, remaining, lba }

theorem appends_served (state : ReadState) (n : UInt32) (chunk : Bytes) :
    (state.served host n chunk).Appends := by
  apply (Exec.appends_outcome _).bind
  intro remaining
  split
  · exact (Exec.appends_outcome _).bind fun _ => Exec.appends_pure _
  · exact Exec.appends_pure _

/-- What follows a failed attempt: the loop is left, or goes on with `next`. -/
theorem appends_failed {next : Run (Except CdReaderError ReadState)} (hnext : next.Appends)
    (left : Nat) (backoff : Duration) (err : CdReaderError) :
    (if left = 0 then pure (.error err)
      else if !backoff.isZero then (do Run.sleep backoff; next) else next).Appends := by
  split
  · exact Exec.appends_pure _
  · split
    · exact (appends_log _).bind fun _ => hnext
    · exact hnext

theorem attemptLoop_appends (minChunk : UInt32) (state : ReadState) (left : Nat) (n : UInt32)
    (backoff : Duration) :
    (attemptLoop host format cfg readChunk minChunk state left n backoff).Appends := by
  induction left generalizing n backoff with
  | zero => exact Exec.appends_pure _
  | succ left ih =>
    unfold attemptLoop
    apply (readAttempt_appends _ _).bind
    intro answer
    cases answer with
    | ok chunk => exact appends_served state n chunk
    | error err => exact appends_failed (ih _ _) left backoff err

/-- An `Err` of the attempts leaves the read. -/
def settle : Except CdReaderError ReadState → Run ReadState
  | .ok state => return state
  | .error err => fail err

theorem appends_settle (result : Except CdReaderError ReadState) : (settle result).Appends := by
  cases result with
  | ok state => exact Exec.appends_pure state
  | error err => exact Exec.appends_fail err

theorem readRound_eq (host : Host) (format : SectorReadFormat) (cfg : RetryConfig)
    (readChunk : ReadChunk) (minChunk : UInt32) (state : ReadState) :
    readRound host format cfg readChunk (max cfg.maxAttempts 1) minChunk state =
      attemptLoop host format cfg readChunk minChunk state cfg.attempts
        (min state.remaining format.maxSectorsPerXfer)
        (cfg.initialBackoff.min cfg.maxBackoff) >>= settle := rfl

theorem readRound_appends (minChunk : UInt32) (state : ReadState) :
    (readRound host format cfg readChunk (max cfg.maxAttempts 1) minChunk state).Appends := by
  rw [readRound_eq]
  exact (attemptLoop_appends _ _ _ _ _).bind appends_settle

-- ---------------------------------------------------------------------------
-- More attempts
-- ---------------------------------------------------------------------------

@[simp] theorem RetryConfig.reduceChunkOnRetry_withMaxAttempts (cfg : RetryConfig)
    (attempts : UInt8) :
    (cfg.withMaxAttempts attempts).reduceChunkOnRetry = cfg.reduceChunkOnRetry := rfl

@[simp] theorem RetryConfig.maxBackoff_withMaxAttempts (cfg : RetryConfig) (attempts : UInt8) :
    (cfg.withMaxAttempts attempts).maxBackoff = cfg.maxBackoff := rfl

/-- None asked for is one made, with the builder and without. -/
theorem RetryConfig.attempts_withMaxAttempts (cfg : RetryConfig) (attempts : UInt8) :
    (cfg.withMaxAttempts attempts).attempts = max attempts.toNat 1 := by
  have hclamped : (cfg.withMaxAttempts attempts).maxAttempts.toNat = max attempts.toNat 1 :=
    { cfg with maxAttempts := attempts }.attempts_eq
  rw [attempts_eq, hclamped, Nat.max_assoc, Nat.max_self]

theorem attemptLoop_prolongs (attempts : UInt8) (minChunk : UInt32) (state : ReadState)
    (hleft : 1 ≤ left) (hle : left ≤ left') (n : UInt32) (backoff : Duration) :
    (attemptLoop host format (cfg.withMaxAttempts attempts) readChunk minChunk state left' n
        backoff >>= settle).Prolongs
      (attemptLoop host format cfg readChunk minChunk state left n backoff >>= settle) := by
  induction left generalizing left' n backoff with
  | zero => omega
  | succ left ih =>
    obtain ⟨left', rfl⟩ := Nat.exists_eq_add_of_le' (Nat.le_trans hleft hle)
    unfold attemptLoop
    simp only [bind_assoc]
    apply Exec.Prolongs.after
    intro answer
    cases answer with
    | ok chunk => exact .refl _
    | error err =>
      by_cases hlast : left = 0
      · -- the one loop gives up, and whatever the other does is more
        simp only [hlast, ↓reduceIte, pure_bind]
        apply Exec.Appends.prolongs_fail
        apply Exec.Appends.bind (appends_failed _ left' backoff err) appends_settle
        exact attemptLoop_appends _ _ _ _ _
      · have hmore : left' ≠ 0 := by omega
        simp only [hlast, hmore, ↓reduceIte, RetryConfig.reduceChunkOnRetry_withMaxAttempts,
          RetryConfig.maxBackoff_withMaxAttempts]
        split
        · simp only [bind_assoc]
          exact .after _ fun _ => ih (by omega) (by omega) _ _
        · exact ih (by omega) (by omega) _ _

theorem readRound_prolongs (hle : cfg.maxAttempts ≤ attempts) (minChunk : UInt32)
    (state : ReadState) :
    (readRound host format (cfg.withMaxAttempts attempts) readChunk
        (max (cfg.withMaxAttempts attempts).maxAttempts 1) minChunk state).Prolongs
      (readRound host format cfg readChunk (max cfg.maxAttempts 1) minChunk state) := by
  have hattempts : cfg.attempts ≤ (cfg.withMaxAttempts attempts).attempts := by
    have hnat := UInt8.le_iff_toNat_le.mp hle
    rw [cfg.attempts_withMaxAttempts, cfg.attempts_eq]
    omega
  rw [readRound_eq, readRound_eq]
  exact attemptLoop_prolongs attempts minChunk state cfg.one_le_attempts hattempts _ _

/-- With more attempts a read that succeeds is the same, command by command,
and one that fails is how the longer one begins. -/
theorem readSectorsChunked_budget (host : Host) (format : SectorReadFormat)
    (readChunk : ReadChunk) (start sectors : UInt32) (hle : cfg.maxAttempts ≤ attempts) :
    (readSectorsChunked host format (cfg.withMaxAttempts attempts) readChunk start
        sectors).Prolongs
      (readSectorsChunked host format cfg readChunk start sectors) := by
  unfold readSectorsChunked
  apply Exec.Prolongs.after
  rintro (_ | _) <;> simp only [Bool.false_eq_true, ↓reduceIte, fail_bind]
  · apply Exec.Prolongs.after
    intro totalBytes
    split
    · exact .refl _
    · refine Exec.Prolongs.bind ?_ (fun _ => .refl _) (fun _ => Exec.appends_pure _)
      exact .whileLoop (readRound_prolongs hle _) (readRound_appends _) _ _
  · exact .refl _

theorem readSectorsChunked_budget_warmingUp :
    (readSectorsChunked .desktop .audio (RetryConfig.default.withMaxAttempts 9)
        ((Disc.blank 7).warmingUp .audio) 100 60).Prolongs
      (readSectorsChunked .desktop .audio .default ((Disc.blank 7).warmingUp .audio) 100 60) :=
  readSectorsChunked_budget .desktop .audio _ 100 60 (by decide)

-- ---------------------------------------------------------------------------
-- Other delays
-- ---------------------------------------------------------------------------

/-- The history less its pauses. -/
def commands : History → History
  | [] => []
  | .command cmd answer :: h => .command cmd answer :: commands h
  | .slept _ :: h => commands h

theorem commands_append (h h' : History) : commands (h ++ h') = commands h ++ commands h' := by
  induction h with
  | nil => rfl
  | cons event h ih => cases event <;> simp [commands, ih]

def SameCommands (h h' : History) : Prop := commands h = commands h'

/-- The drive answers by what it was asked before, not by how long ago. -/
def TimeBlind (readChunk : ReadChunk) : Prop :=
  ∀ h h', SameCommands h h' → readChunk h = readChunk h'

def RetryConfig.withBackoff (cfg : RetryConfig) (initial cap : Duration) : RetryConfig :=
  (cfg.withInitialBackoff initial).withMaxBackoff cap

theorem SameCommands.append (hsame : SameCommands h h') (events : List Event) :
    SameCommands (h ++ events) (h' ++ events) := by
  simp only [SameCommands, commands_append] at hsame ⊢
  rw [hsame]

theorem SameCommands.slept (hsame : SameCommands h h') (pause : Duration) :
    SameCommands (h ++ [.slept pause]) h' := by
  simpa [SameCommands, commands_append, commands] using hsame

theorem SameCommands.symm (hsame : SameCommands h h') : SameCommands h' h := Eq.symm hsame

theorem agrees_slept {x y : Run α} (h : x.Agrees SameCommands y) (backoff : Duration) :
    (if !backoff.isZero then (do Run.sleep backoff; x) else x).Agrees SameCommands y := by
  split
  · intro s s' hsame
    rw [exec_bind_ok (exec_sleep backoff s)]
    exact h _ _ (hsame.slept backoff)
  · exact h

theorem agrees_sleeping {x y : Run α} (h : x.Agrees SameCommands y) (backoff backoff' : Duration) :
    (if !backoff.isZero then (do Run.sleep backoff; x) else x).Agrees SameCommands
      (if !backoff'.isZero then (do Run.sleep backoff'; y) else y) := by
  have hsymm : ∀ h h', SameCommands h h' → SameCommands h' h := fun _ _ => SameCommands.symm
  exact (agrees_slept ((agrees_slept h backoff).symm hsymm) backoff').symm hsymm

theorem agrees_log (event : Event) :
    (Run.log event).Agrees SameCommands (Run.log event) :=
  fun _ _ hsame => ⟨rfl, hsame.append [event]⟩

theorem readAttempt_agrees (hblind : TimeBlind readChunk) (lba n : UInt32) :
    (readAttempt host format readChunk lba n).Agrees SameCommands
      (readAttempt host format readChunk lba n) := by
  intro h h' hsame
  unfold readAttempt
  rw [exec_bind_ok (exec_get h), exec_bind_ok (exec_get h'), hblind h h' hsame]
  refine (agrees_log _).bind ?_ h h' hsame
  intro _
  cases readChunk h' lba n with
  | error err => exact Exec.agrees_pure _
  | ok chunk =>
    apply (Exec.agrees_outcome _).bind
    intro expectedLen
    split <;> exact Exec.agrees_pure _

theorem agrees_served (state : ReadState) (n : UInt32) (chunk : Bytes) :
    (state.served host n chunk).Agrees SameCommands (state.served host n chunk) := by
  apply (Exec.agrees_outcome _).bind
  intro remaining
  split
  · exact (Exec.agrees_outcome _).bind fun _ => Exec.agrees_pure _
  · exact Exec.agrees_pure _

theorem attemptLoop_agrees (hblind : TimeBlind readChunk) (initial cap : Duration)
    (minChunk : UInt32) (state : ReadState) (left : Nat) (n : UInt32)
    (backoff backoff' : Duration) :
    (attemptLoop host format (cfg.withBackoff initial cap) readChunk minChunk state left n
        backoff).Agrees SameCommands
      (attemptLoop host format cfg readChunk minChunk state left n backoff') := by
  induction left generalizing n backoff backoff' with
  | zero => exact Exec.agrees_pure _
  | succ left ih =>
    unfold attemptLoop
    apply (readAttempt_agrees hblind _ _).bind
    intro answer
    cases answer with
    | ok chunk => exact agrees_served state n chunk
    | error err =>
      simp only
      split
      · exact Exec.agrees_pure _
      · exact agrees_sleeping (ih _ _ _) backoff backoff'

theorem readRound_agrees (hblind : TimeBlind readChunk) (initial cap : Duration)
    (minChunk : UInt32) (state : ReadState) :
    (readRound host format (cfg.withBackoff initial cap) readChunk
        (max (cfg.withBackoff initial cap).maxAttempts 1) minChunk state).Agrees SameCommands
      (readRound host format cfg readChunk (max cfg.maxAttempts 1) minChunk state) := by
  rw [readRound_eq, readRound_eq]
  apply (attemptLoop_agrees hblind initial cap minChunk state _ _ _ _).bind
  rintro (err | state)
  · exact Exec.agrees_outcome _
  · exact Exec.agrees_pure state

/-- With other delays a read returns the same and sends the same commands. -/
theorem readSectorsChunked_delays (host : Host) (format : SectorReadFormat) (cfg : RetryConfig)
    (hblind : TimeBlind readChunk) (start sectors : UInt32) (initial cap : Duration) :
    (readSectorsChunked host format (cfg.withBackoff initial cap) readChunk start sectors).Agrees
      SameCommands (readSectorsChunked host format cfg readChunk start sectors) := by
  unfold readSectorsChunked
  apply (Exec.agrees_outcome _).bind
  rintro (_ | _) <;> simp only [Bool.false_eq_true, ↓reduceIte, fail_bind]
  · apply (Exec.agrees_outcome _).bind
    intro totalBytes
    split
    · exact Exec.agrees_outcome _
    · refine Exec.Agrees.bind ?_ fun _ => Exec.agrees_pure _
      exact .whileLoop (readRound_agrees hblind initial cap _) _ _
  · exact Exec.agrees_outcome _

theorem calls_commands (h : History) : calls (commands h) = calls h := by
  induction h with
  | nil => rfl
  | cons event h ih =>
    obtain ⟨cmd, answer⟩ | pause := event
    · cases cmd <;> simp [commands, calls, ih]
    · exact ih

theorem Disc.timeBlind_worn (disc : Disc) (format : SectorReadFormat) :
    TimeBlind (disc.worn format) := by
  intro h h' hsame
  have hcalls : calls h = calls h' := by rw [← calls_commands h, hsame, calls_commands]
  funext lba n
  simp only [worn, triedAlone, hcalls]
  rfl

theorem readSectorsChunked_delays_worn :
    (readSectorsChunked .desktop .audio (RetryConfig.default.withBackoff .zero .zero)
        ((Disc.blank 7).worn .audio) 100 60).Agrees SameCommands
      (readSectorsChunked .desktop .audio .default ((Disc.blank 7).worn .audio) 100 60) :=
  readSectorsChunked_delays .desktop .audio .default ((Disc.blank 7).timeBlind_worn .audio)
    100 60 .zero .zero

end

end CdDaReader
