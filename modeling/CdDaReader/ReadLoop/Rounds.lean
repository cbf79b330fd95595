import CdDaReader.ReadLoop

/-!
# The read loop as rounds of attempts

`Attempts` is what one `for attempt` loop can do when the drive may answer
anything, and `Rounds` what the whole loop can do: the events it appends and
the result it returns. `readSectorsChunked_rounds` reads the code as these
rules. It is total: on a range that passes the checks the loop ends, without
a panic, for every drive; `Reads` adds the requests that fail a check.
Everything about runs is then induction over the relations.
-/

namespace CdDaReader

open Rust

def RetryConfig.attempts (cfg : RetryConfig) : Nat := (max cfg.maxAttempts 1).toNat

def RetryConfig.minChunk (cfg : RetryConfig) : UInt32 := max cfg.minSectorsPerRead 1

def RetryConfig.shrink (cfg : RetryConfig) (chunkSectors : UInt32) : UInt32 :=
  if cfg.reduceChunkOnRetry && decide (cfg.minChunk < chunkSectors) then
    nextChunkSize chunkSectors cfg.minChunk else chunkSectors

def RetryConfig.grow (cfg : RetryConfig) (backoff : Duration) : Duration :=
  (backoff.saturatingMul 2).min cfg.maxBackoff

def SectorReadFormat.firstChunk (format : SectorReadFormat) (remaining : Nat) : UInt32 :=
  min (.ofNat remaining) format.maxSectorsPerXfer

def pauses (backoff : Duration) : List Event := if backoff.isZero then [] else [.slept backoff]

def checkChunk (format : SectorReadFormat) (lba chunkSectors : UInt32) : Answer → Answer
  | .error err => .error err
  | .ok chunk =>
    let expectedLen := chunkSectors.toNat * format.sectorSize
    if chunk.length = expectedLen then .ok chunk
    else .error (shortRead lba expectedLen chunk.length)

/-- One round: up to `left` attempts at one address, the first of them for
`chunkSectors` sectors. -/
inductive Attempts (format : SectorReadFormat) (cfg : RetryConfig) (lba : UInt32) :
    Nat → UInt32 → Duration → List Event → Except CdReaderError (UInt32 × Bytes) → Prop
  | served (hc : checkChunk format lba chunkSectors answer = .ok chunk) :
      Attempts format cfg lba (left + 1) chunkSectors backoff
        [.readCd lba chunkSectors format answer] (.ok (chunkSectors, chunk))
  | gaveUp (hc : checkChunk format lba chunkSectors answer = .error err) :
      Attempts format cfg lba 1 chunkSectors backoff
        [.readCd lba chunkSectors format answer] (.error err)
  | retried (hc : checkChunk format lba chunkSectors answer = .error err)
      (rest : Attempts format cfg lba (left + 1) (cfg.shrink chunkSectors) (cfg.grow backoff)
        events result) :
      Attempts format cfg lba (left + 2) chunkSectors backoff
        (.readCd lba chunkSectors format answer :: (pauses backoff ++ events)) result

/-- Rounds until `remaining` sectors from `lba` on are read, or one gives up. -/
inductive Rounds (format : SectorReadFormat) (cfg : RetryConfig) :
    Nat → Nat → List Event → Answer → Prop
  | done : Rounds format cfg lba 0 [] (.ok [])
  | gaveUp (hr : 0 < remaining)
      (round : Attempts format cfg (.ofNat lba) cfg.attempts (format.firstChunk remaining)
        (cfg.initialBackoff.min cfg.maxBackoff) events (.error err)) :
      Rounds format cfg lba remaining events (.error err)
  | served (hr : 0 < remaining)
      (round : Attempts format cfg (.ofNat lba) cfg.attempts (format.firstChunk remaining)
        (cfg.initialBackoff.min cfg.maxBackoff) events (.ok (chunkSectors, chunk)))
      (rest : Rounds format cfg (lba + chunkSectors.toNat) (remaining - chunkSectors.toNat)
        events' result) :
      Rounds format cfg lba remaining (events ++ events') (result.map (chunk ++ ·))

/-- Every command among the events is one for `format`, with the answer the
closure gives to it at that point. -/
def Answered (readChunk : ReadChunk) (format : SectorReadFormat) : History → List Event → Prop
  | _, [] => True
  | h, event :: events =>
    (∀ cmd answer, event = .command cmd answer →
      ∃ lba sectors, cmd = .readCd lba sectors format ∧ answer = readChunk h lba sectors) ∧
    Answered readChunk format (h ++ [event]) events

theorem Answered.append : {h : History} → {events : List Event} →
    Answered readChunk format h events → Answered readChunk format (h ++ events) events' →
      Answered readChunk format h (events ++ events')
  | _, [], _, h2 => by simpa using h2
  | h, event :: events, h1, h2 => ⟨h1.1, h1.2.append (by simpa using h2)⟩

theorem command_not_mem_pauses (cmd : Command) (answer : Answer) (backoff : Duration) :
    .command cmd answer ∉ pauses backoff := by
  unfold pauses
  split <;> simp

theorem answered_pauses (backoff : Duration) :
    Answered readChunk format h (pauses backoff) := by
  unfold pauses
  split <;> simp [Answered]

theorem answered_readCd (h : History) (lba sectors : UInt32) :
    Answered readChunk format h [.readCd lba sectors format (readChunk h lba sectors)] := by
  simp only [Answered, and_true]
  rintro cmd answer heq
  cases heq
  exact ⟨lba, sectors, rfl, rfl⟩

-- ---------------------------------------------------------------------------
-- Chunk sizes
-- ---------------------------------------------------------------------------

theorem RetryConfig.attempts_eq (cfg : RetryConfig) :
    cfg.attempts = max cfg.maxAttempts.toNat 1 := by
  simp only [attempts, Max.max, UInt8.le_iff_toNat_le]
  split <;> rename_i h
  · exact (Nat.max_eq_right h).symm
  · exact (Nat.max_eq_left (by simpa using Nat.le_of_not_le h)).symm

theorem RetryConfig.one_le_attempts (cfg : RetryConfig) : 1 ≤ cfg.attempts := by
  rw [attempts_eq]
  exact Nat.le_max_right ..

theorem RetryConfig.maxAttempts_le_attempts (cfg : RetryConfig) :
    cfg.maxAttempts.toNat ≤ cfg.attempts := by
  rw [attempts_eq]
  exact Nat.le_max_left ..

theorem RetryConfig.one_le_minChunk (cfg : RetryConfig) : 1 ≤ cfg.minChunk.toNat := by
  rw [minChunk, toNat_max32]
  exact Nat.le_max_right ..

theorem toNat_nextChunkSize (current minChunk : UInt32) :
    (nextChunkSize current minChunk).toNat =
      if 8 < current.toNat then max 8 minChunk.toNat else minChunk.toNat := by
  unfold nextChunkSize
  simp only [UInt32.lt_iff_toNat_lt]
  split <;> rename_i h
  · rw [if_pos (by simpa using h), toNat_max32]
    rfl
  · rw [if_neg (by simpa using h)]

example : nextChunkSize 27 1 = 8 ∧ nextChunkSize 8 1 = 1 := by decide

/-- The two cases of a failed attempt: the size stays, or falls to a smaller
one that is still no less than the minimum. -/
theorem RetryConfig.shrink_cases (cfg : RetryConfig) (n : UInt32) :
    (cfg.shrink n = n ∧ (cfg.reduceChunkOnRetry = true → n.toNat ≤ cfg.minChunk.toNat)) ∨
      (cfg.reduceChunkOnRetry = true ∧ cfg.minChunk.toNat < n.toNat ∧
        cfg.minChunk.toNat ≤ (cfg.shrink n).toNat ∧ (cfg.shrink n).toNat < n.toNat ∧
        (n.toNat ≤ 8 → (cfg.shrink n).toNat = cfg.minChunk.toNat) ∧
        (cfg.shrink n).toNat ≤ max 8 cfg.minChunk.toNat) := by
  unfold shrink
  cases hr : cfg.reduceChunkOnRetry with
  | false => simp
  | true =>
    simp only [Bool.true_and, decide_eq_true_eq, UInt32.lt_iff_toNat_lt]
    split <;> rename_i h
    · right
      rw [toNat_nextChunkSize]
      refine ⟨trivial, h, ?_⟩
      split <;> omega
    · left
      exact ⟨rfl, fun _ => by omega⟩

theorem RetryConfig.shrink_le (cfg : RetryConfig) (n : UInt32) :
    (cfg.shrink n).toNat ≤ n.toNat := by
  rcases cfg.shrink_cases n with ⟨h, -⟩ | ⟨-, -, -, h, -⟩
  · exact Nat.le_of_eq (congrArg UInt32.toNat h)
  · omega

theorem RetryConfig.one_le_shrink (cfg : RetryConfig) (h : 1 ≤ n.toNat) :
    1 ≤ (cfg.shrink n).toNat := by
  have hm := cfg.one_le_minChunk
  rcases cfg.shrink_cases n with ⟨hs, -⟩ | ⟨-, -, hs, -⟩
  · rwa [hs]
  · omega

theorem SectorReadFormat.toNat_firstChunk (format : SectorReadFormat) (h : remaining < 2 ^ 32) :
    (format.firstChunk remaining).toNat = min remaining format.maxSectorsPerXfer.toNat := by
  rw [firstChunk, toNat_min32, toNat_ofNat32 h]

-- ---------------------------------------------------------------------------
-- The code follows the rules
-- ---------------------------------------------------------------------------

section
variable (host : Host) {format : SectorReadFormat} {cfg : RetryConfig} {readChunk : ReadChunk}

theorem readAttempt_exec (lba : UInt32) (h : History)
    (hn : n.toNat ≤ format.maxSectorsPerXfer.toNat) :
    (readAttempt host format readChunk lba n).exec h =
      (.ok (checkChunk format lba n (readChunk h lba n)),
        h ++ [.readCd lba n format (readChunk h lba n)]) := by
  have hsize : n.toNat * format.sectorSize ≤ host.pointerWidth.usizeMax := by
    have hcap := format.maxTransfer_le
    have hle := Nat.mul_le_mul_right format.sectorSize hn
    have husize := host.le_usizeMax
    omega
  unfold readAttempt
  rw [exec_bind_ok (exec_get h), exec_bind_ok (exec_log _ h)]
  cases hans : readChunk h lba n with
  | error err => rfl
  | ok chunk =>
    simp only [checkChunk]
    rw [exec_bind_checked (host.mulUsize_ok hsize)]
    split <;> simp_all

def ReadState.advance (state : ReadState) (chunkSectors : UInt32) (chunk : Bytes) : ReadState :=
  { out := state.out ++ chunk
    remaining := state.remaining - chunkSectors
    lba := if 0 < state.remaining - chunkSectors then state.lba + chunkSectors else state.lba }

/-- The sectors still to read end at or below the last address. -/
def ReadState.InRange (state : ReadState) : Prop :=
  0 < state.remaining.toNat → state.lba.toNat + state.remaining.toNat ≤ 2 ^ 32

theorem advance_exec (state : ReadState) (h : History) (hrange : state.InRange)
    (hn : 1 ≤ n.toNat) (hle : n.toNat ≤ state.remaining.toNat) :
    (do let remaining ← sub32 host.overflowChecks state.remaining n
        let lba ← if 0 < remaining then add32 host.overflowChecks state.lba n
          else pure state.lba
        return .ok { out := state.out ++ chunk, remaining, lba } :
      Run (Except CdReaderError ReadState)).exec h = (.ok (.ok (state.advance n chunk)), h) := by
  have hle' : n ≤ state.remaining := UInt32.le_iff_toNat_le.mpr hle
  rw [exec_bind_checked (sub32_ok hle')]
  unfold ReadState.advance
  split <;> rename_i hpos
  · have hpos' : 0 < state.remaining.toNat - n.toNat := by
      simpa [UInt32.lt_iff_toNat_lt, toNat_sub32 hle'] using hpos
    have hsum : state.lba.toNat + n.toNat < 2 ^ 32 := by
      have := hrange (by omega)
      omega
    rw [exec_bind_checked (add32_ok hsum)]
    rfl
  · rfl

theorem attemptLoop_rounds (state : ReadState) (hrange : state.InRange) (h : History)
    (backoff : Duration) (hn : 1 ≤ n.toNat) (hle : n.toNat ≤ state.remaining.toNat)
    (hcap : n.toNat ≤ format.maxSectorsPerXfer.toNat) (hleft : 1 ≤ left) :
    ∃ events result, Attempts format cfg state.lba left n backoff events result ∧
      Answered readChunk format h events ∧
      (attemptLoop host format cfg readChunk cfg.minChunk state left n backoff).exec h =
        (.ok (result.map fun read => state.advance read.1 read.2), h ++ events) := by
  induction left generalizing n h backoff with
  | zero => omega
  | succ left ih =>
    unfold attemptLoop
    rw [exec_bind_ok (readAttempt_exec host state.lba h hcap)]
    cases hc : checkChunk format state.lba n (readChunk h state.lba n) with
    | ok chunk =>
      refine ⟨_, _, .served hc, answered_readCd h _ _, ?_⟩
      exact advance_exec host state _ hrange hn hle
    | error err =>
      simp only
      cases left with
      | zero =>
        refine ⟨_, _, .gaveUp hc, answered_readCd h _ _, ?_⟩
        rfl
      | succ left =>
        have hshrink := cfg.shrink_le n
        let h' := h ++ [.readCd state.lba n format (readChunk h state.lba n)] ++ pauses backoff
        obtain ⟨events, result, hatt, hans, hexec⟩ :=
          ih h' (cfg.grow backoff) (cfg.one_le_shrink hn) (by omega) (by omega) (by omega)
        refine ⟨_, _, .retried hc hatt, ?_, ?_⟩
        · have hpause := (answered_pauses backoff).append hans
          exact (answered_readCd h _ _).append hpause
        · cases hz : backoff.isZero <;>
            simpa [exec_bind, pauses, hz, h', RetryConfig.shrink, RetryConfig.grow] using hexec

/-- What a served round reads is one whole command, no larger than its first. -/
theorem Attempts.served_bounds (hatt : Attempts format cfg lba left n backoff events result)
    (hresult : result = .ok (m, chunk)) (hn : 1 ≤ n.toNat) :
    1 ≤ m.toNat ∧ m.toNat ≤ n.toNat ∧ chunk.length = m.toNat * format.sectorSize := by
  induction hatt with
  | @served n left answer read backoff hc =>
    cases hresult
    refine ⟨hn, Nat.le_refl _, ?_⟩
    unfold checkChunk at hc
    split at hc
    · cases hc
    · simp only at hc
      split at hc
      · cases hc; assumption
      · cases hc
  | gaveUp => cases hresult
  | @retried n _ _ _ _ _ _ _ _ ih =>
    have hshrink := cfg.shrink_le n
    obtain ⟨h1, h2, h3⟩ := ih hresult (cfg.one_le_shrink hn)
    exact ⟨h1, by omega, h3⟩

theorem SectorReadFormat.firstChunk_bounds (format : SectorReadFormat) (hr : 0 < remaining)
    (hlt : remaining < 2 ^ 32) : 1 ≤ (format.firstChunk remaining).toNat ∧
      (format.firstChunk remaining).toNat ≤ remaining ∧
      (format.firstChunk remaining).toNat ≤ format.maxSectorsPerXfer.toNat := by
  have hmax := format.one_le_maxSectorsPerXfer
  rw [format.toNat_firstChunk hlt]
  omega

/-- What a round's served command reads of the sectors still to read. -/
theorem Attempts.round_bounds
    (hatt : Attempts format cfg lba left (format.firstChunk remaining) backoff events
      (.ok (m, chunk))) (hr : 0 < remaining) (hlt : remaining < 2 ^ 32) :
    1 ≤ m.toNat ∧ m.toNat ≤ remaining ∧ m.toNat ≤ format.maxSectorsPerXfer.toNat := by
  obtain ⟨h1, h2, h3⟩ := format.firstChunk_bounds hr hlt
  obtain ⟨hm, hle, -⟩ := hatt.served_bounds rfl h1
  exact ⟨hm, by omega, by omega⟩

theorem readRound_rounds (state : ReadState) (hrange : state.InRange)
    (hr : 0 < state.remaining.toNat) (h : History) :
    ∃ events result, Attempts format cfg state.lba cfg.attempts
        (format.firstChunk state.remaining.toNat) (cfg.initialBackoff.min cfg.maxBackoff)
        events result ∧
      Answered readChunk format h events ∧
      (readRound host format cfg readChunk (max cfg.maxAttempts 1) cfg.minChunk state).exec h =
        (ofResult (result.map fun read => state.advance read.1 read.2), h ++ events) := by
  obtain ⟨h1, h2, h3⟩ := format.firstChunk_bounds hr state.remaining.toNat_lt
  obtain ⟨events, result, hatt, hans, hexec⟩ :=
    attemptLoop_rounds host state hrange h (cfg.initialBackoff.min cfg.maxBackoff) h1 h2 h3
      cfg.one_le_attempts
  refine ⟨events, result, hatt, hans, ?_⟩
  have hfirst : format.firstChunk state.remaining.toNat =
      min state.remaining format.maxSectorsPerXfer := by
    simp [SectorReadFormat.firstChunk]
  rw [hfirst, RetryConfig.attempts] at hexec
  unfold readRound
  simp only
  rw [exec_bind_ok hexec]
  cases result <;> rfl

theorem ReadState.toNat_remaining_advance {state : ReadState}
    (hle : n.toNat ≤ state.remaining.toNat) :
    (state.advance n chunk).remaining.toNat = state.remaining.toNat - n.toNat :=
  toNat_sub32 (UInt32.le_iff_toNat_le.mpr hle)

/-- After a round the position is the next address, unless nothing is left. -/
theorem ReadState.toNat_lba_advance {state : ReadState} (hrange : state.InRange)
    (hle : n.toNat ≤ state.remaining.toNat)
    (hpos : 0 < (state.advance n chunk).remaining.toNat) :
    (state.advance n chunk).lba.toNat = state.lba.toNat + n.toNat := by
  have hsub : 0 < state.remaining - n := by
    rw [UInt32.lt_iff_toNat_lt]
    exact hpos
  rw [toNat_remaining_advance hle] at hpos
  have hsum := hrange (by omega)
  simp only [advance, hsub, ↓reduceIte]
  exact toNat_add32 (by omega)

theorem ReadState.InRange.advance {state : ReadState} (hrange : state.InRange)
    (hle : n.toNat ≤ state.remaining.toNat) : (state.advance n chunk).InRange := by
  intro hpos
  rw [toNat_lba_advance hrange hle hpos, toNat_remaining_advance hle]
  rw [toNat_remaining_advance hle] at hpos
  have hsum := hrange (by omega)
  omega

/-- From `state` on, a run performs rounds and returns what they read after
what was read before. -/
def ReadsOn (format : SectorReadFormat) (cfg : RetryConfig) (readChunk : ReadChunk)
    (state : ReadState) (run : Run ReadState) : Prop :=
  ∀ h lba, (0 < state.remaining.toNat → state.lba.toNat = lba) →
    ∃ events result, Rounds format cfg lba state.remaining.toNat events result ∧
      Answered readChunk format h events ∧
      (do let state ← run; return state.out : Run Bytes).exec h =
        (ofResult (result.map (state.out ++ ·)), h ++ events)

theorem readLoop_rounds (state : ReadState) (hrange : state.InRange)
    (hpasses : state.remaining.toNat < passes) :
    ReadsOn format cfg readChunk state
      (whileLoop (throw .diverged) (fun state => decide (0 < state.remaining))
        (readRound host format cfg readChunk (max cfg.maxAttempts 1) cfg.minChunk)
        passes state) := by
  refine whileLoop_induction ReadState.InRange (fun state => state.remaining.toNat)
    (ReadsOn format cfg readChunk) ?_ ?_ hrange hpasses
  · intro state _ hstop h lba _
    have hzero : state.remaining.toNat = 0 := by
      simpa [UInt32.lt_iff_toNat_lt] using hstop
    refine ⟨[], .ok [], hzero ▸ .done, trivial, ?_⟩
    simp [Except.map]
  · intro state hrange hgo k hk h lba hlba
    have hr : 0 < state.remaining.toNat := by
      simpa [UInt32.lt_iff_toNat_lt] using hgo
    obtain ⟨events, result, hatt, hans, hexec⟩ :=
      readRound_rounds host state hrange hr h
    have hofNat : UInt32.ofNat lba = state.lba := by rw [← hlba hr]; simp
    cases result with
    | error err =>
      refine ⟨events, .error err, .gaveUp hr (hofNat ▸ hatt), hans, ?_⟩
      rw [exec_bind, exec_bind_error hexec]
      rfl
    | ok read =>
      obtain ⟨n, chunk⟩ := read
      obtain ⟨hn, hle, -⟩ := hatt.round_bounds hr state.remaining.toNat_lt
      have hrem := @ReadState.toNat_remaining_advance n chunk state hle
      obtain ⟨events', result', hrest, hans', hexec'⟩ :=
        hk (state.advance n chunk) (hrange.advance hle) (by omega) (h ++ events)
          (lba + n.toNat) (fun hpos => by
            rw [ReadState.toNat_lba_advance hrange hle hpos, hlba hr])
      rw [hrem] at hrest
      refine ⟨_, _, .served hr (hofNat ▸ hatt) hrest, hans.append hans', ?_⟩
      rw [exec_bind, exec_bind_ok hexec, ← exec_bind, hexec']
      cases result' <;> simp [ReadState.advance, Except.map]

-- ---------------------------------------------------------------------------
-- The checks before the loop
-- ---------------------------------------------------------------------------

/-- The message of the first check a request fails, if it fails one. -/
def Host.rejection (host : Host) (format : SectorReadFormat) (start sectors : Nat) :
    Option String :=
  if 2 ^ 32 < start + sectors then some "sector range exceeds the maximum LBA"
  else if host.pointerWidth.usizeMax < sectors * format.sectorSize then
    some "requested byte count is too large"
  else if host.canReserve (sectors * format.sectorSize) then none
  else some "could not allocate the requested output buffer"

theorem overruns_eq (start sectors : UInt32) :
    overruns host start sectors = .ok (decide (2 ^ 32 < start.toNat + sectors.toNat)) := by
  have hstart := start.toNat_lt
  unfold overruns
  split <;> rename_i hpos
  · have hone : 0 < sectors.toNat := by simpa [UInt32.lt_iff_toNat_lt] using hpos
    have hle : 1 ≤ sectors := UInt32.le_iff_toNat_le.mpr hone
    have hlast : (sectors - 1).toNat = sectors.toNat - 1 := toNat_sub32 hle
    rw [sub32_ok hle]
    refine congrArg Except.ok ?_
    unfold checkedAdd32
    rw [hlast]
    by_cases hspan : 2 ^ 32 < start.toNat + sectors.toNat
    · have hover : ¬ start.toNat + (sectors.toNat - 1) < 2 ^ 32 := by omega
      rw [if_neg hover, decide_eq_true hspan]
      rfl
    · have hfits : start.toNat + (sectors.toNat - 1) < 2 ^ 32 := by omega
      rw [if_pos hfits, decide_eq_false hspan]
      rfl
  · have hzero : sectors.toNat = 0 := by
      rw [UInt32.lt_iff_toNat_lt] at hpos
      simpa using hpos
    have hspan : ¬ 2 ^ 32 < start.toNat + sectors.toNat := by omega
    rw [decide_eq_false hspan]
    rfl

/-- A request that fails a check returns its error before any command. -/
theorem readSectorsChunked_rejected (cfg : RetryConfig) (readChunk : ReadChunk)
    {start sectors : UInt32}
    (hr : host.rejection format start.toNat sectors.toNat = some message) (h : History) :
    (readSectorsChunked host format cfg readChunk start sectors).exec h =
      (.error (.error (invalidInput message)), h) := by
  unfold Host.rejection at hr
  unfold readSectorsChunked
  rw [exec_bind_checked (overruns_eq host start sectors)]
  split at hr <;> rename_i hspan
  · cases hr
    simp only [hspan, decide_true, ↓reduceIte]
    rfl
  · simp only [hspan, decide_false, Bool.false_eq_true, ↓reduceIte]
    split at hr <;> rename_i hbytes
    · cases hr
      simp only [Host.checkedMulUsize, Nat.not_le.mpr hbytes, ↓reduceIte, okOr_none]
      rfl
    · simp only [Host.checkedMulUsize, Nat.not_lt.mp hbytes, ↓reduceIte, okOr_some]
      split at hr <;> rename_i hreserve
      · cases hr
      · cases hr
        rw [exec_bind_ok (exec_lift _ _)]
        simp only [hreserve]
        rfl

/-- A request that passes the checks performs rounds, and ends. -/
theorem readSectorsChunked_rounds (cfg : RetryConfig) (readChunk : ReadChunk)
    {start sectors : UInt32}
    (hr : host.rejection format start.toNat sectors.toNat = none) (h : History) :
    ∃ events result, Rounds format cfg start.toNat sectors.toNat events result ∧
      Answered readChunk format h events ∧
      (readSectorsChunked host format cfg readChunk start sectors).exec h =
        (ofResult result, h ++ events) := by
  unfold Host.rejection at hr
  split at hr <;> rename_i hspan
  · cases hr
  split at hr <;> rename_i hbytes
  · cases hr
  split at hr <;> rename_i hreserve
  · have hloop : ReadsOn format cfg readChunk { out := [], remaining := sectors, lba := start } _ :=
      readLoop_rounds host _ (fun _ => by simpa using hspan) (Nat.lt_succ_self _)
    obtain ⟨events, result, hrounds, hans, hexec⟩ := hloop h start.toNat (fun _ => rfl)
    refine ⟨events, result, hrounds, hans, ?_⟩
    unfold readSectorsChunked
    rw [exec_bind_checked (overruns_eq host start sectors)]
    simp only [hspan, decide_false, Bool.false_eq_true, ↓reduceIte]
    simp only [Host.checkedMulUsize, Nat.not_lt.mp hbytes, ↓reduceIte, okOr_some]
    rw [exec_bind_ok (exec_lift _ _)]
    simp only [hreserve]
    refine Eq.trans hexec ?_
    cases result <;> simp [Except.map]
  · cases hr

/-- What such a request appends to the history are answers to its commands. -/
theorem readSectorsChunked_answered {start sectors : UInt32}
    (hr : host.rejection format start.toNat sectors.toNat = none)
    (hexec : (readSectorsChunked host format cfg readChunk start sectors).exec h =
      (outcome, h ++ events)) : Answered readChunk format h events := by
  obtain ⟨events', result, -, hans, hrun⟩ := readSectorsChunked_rounds host cfg readChunk hr h
  have heq := congrArg Prod.snd (hrun.symm.trans hexec)
  rwa [List.append_cancel_left heq] at hans

/-- What a request comes to: an error before any command, or rounds. -/
inductive Reads (host : Host) (format : SectorReadFormat) (cfg : RetryConfig)
    (readChunk : ReadChunk) (start sectors : Nat) (h : History) : List Event → Answer → Prop
  | refused (hr : host.rejection format start sectors = some message) :
      Reads host format cfg readChunk start sectors h [] (.error (invalidInput message))
  | accepted (hr : host.rejection format start sectors = none)
      (hrounds : Rounds format cfg start sectors events result)
      (hans : Answered readChunk format h events) :
      Reads host format cfg readChunk start sectors h events result

theorem readSectorsChunked_reads (format : SectorReadFormat) (cfg : RetryConfig)
    (readChunk : ReadChunk) (start sectors : UInt32) (h : History) :
    ∃ events result,
      Reads host format cfg readChunk start.toNat sectors.toNat h events result ∧
      (readSectorsChunked host format cfg readChunk start sectors).exec h =
        (ofResult result, h ++ events) := by
  cases hr : host.rejection format start.toNat sectors.toNat with
  | some message =>
    refine ⟨[], .error (invalidInput message), .refused hr, ?_⟩
    rw [readSectorsChunked_rejected host cfg readChunk hr h, List.append_nil]
    rfl
  | none =>
    obtain ⟨events, result, hrounds, hans, hexec⟩ :=
      readSectorsChunked_rounds host cfg readChunk hr h
    exact ⟨events, result, .accepted hr hrounds hans, hexec⟩

theorem Host.span_of_accepted (hr : host.rejection format start sectors = none) :
    start + sectors ≤ 2 ^ 32 := by
  unfold rejection at hr
  split at hr
  · cases hr
  · omega

end

end CdDaReader
