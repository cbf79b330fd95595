import CdDaReader.ReadLoop.Exact

/-!
# A read stays in its range

Every command of a read lies inside the range that was asked for, whatever
the drive answers, and the read always ends with a value or an `Err`: with a
value, if every command is served. An `Err` comes before any command or is
that of the last one.
-/

namespace CdDaReader

open Rust

/-- Every command among the events reads sectors of `format` from `lo` up to
`hi`, and at least one. -/
def ReadsWithin (format : SectorReadFormat) (lo hi : Nat) (events : List Event) : Prop :=
  ∀ cmd answer, .command cmd answer ∈ events →
    ∃ lba n, cmd = .readCd lba n format ∧ 1 ≤ n.toNat ∧ lo ≤ lba.toNat ∧
      lba.toNat + n.toNat ≤ hi

theorem readsWithin_nil : ReadsWithin format lo hi [] := by
  intro cmd answer hmem
  cases hmem

theorem ReadsWithin.append (h1 : ReadsWithin format lo hi events)
    (h2 : ReadsWithin format lo hi events') : ReadsWithin format lo hi (events ++ events') := by
  intro cmd answer hmem
  rcases List.mem_append.mp hmem with hmem | hmem
  · exact h1 cmd answer hmem
  · exact h2 cmd answer hmem

theorem ReadsWithin.mono (h : ReadsWithin format lo hi events) (hlo : lo' ≤ lo) (hhi : hi ≤ hi') :
    ReadsWithin format lo' hi' events := by
  intro cmd answer hmem
  obtain ⟨lba, n, rfl, hn, h1, h2⟩ := h cmd answer hmem
  exact ⟨lba, n, rfl, hn, by omega, by omega⟩

theorem readsWithin_pauses (backoff : Duration) : ReadsWithin format lo hi (pauses backoff) := by
  intro cmd answer hmem
  exact absurd hmem (command_not_mem_pauses cmd answer backoff)

theorem readsWithin_readCd (hn : 1 ≤ n.toNat) (hle : n.toNat ≤ m) :
    ReadsWithin format lba.toNat (lba.toNat + m) [.readCd lba n format answer] := by
  intro cmd answer' hmem
  cases List.mem_singleton.mp hmem
  exact ⟨lba, n, rfl, hn, Nat.le_refl _, Nat.add_le_add_left hle _⟩

theorem Attempts.readsWithin (hatt : Attempts format cfg lba left n backoff events result)
    (hn : 1 ≤ n.toNat) : ReadsWithin format lba.toNat (lba.toNat + n.toNat) events := by
  induction hatt with
  | served => exact readsWithin_readCd hn (Nat.le_refl _)
  | gaveUp => exact readsWithin_readCd hn (Nat.le_refl _)
  | @retried n _ _ left backoff events _ _ rest ih =>
    have hrest := ih (cfg.one_le_shrink hn)
    have hle := Nat.add_le_add_left (cfg.shrink_le n) lba.toNat
    have htail := (readsWithin_pauses backoff).append (hrest.mono (Nat.le_refl _) hle)
    exact (readsWithin_readCd hn (Nat.le_refl _)).append htail

theorem Attempts.readsWithin_round (hatt : Attempts format cfg (.ofNat lba) left
    (format.firstChunk remaining) backoff events result) (hr : 0 < remaining)
    (hlt : remaining < 2 ^ 32) (hlba : lba < 2 ^ 32) :
    ReadsWithin format lba (lba + remaining) events := by
  obtain ⟨hone, hle, -⟩ := format.firstChunk_bounds hr hlt
  have hround := hatt.readsWithin hone
  rw [toNat_ofNat32 hlba] at hround
  exact hround.mono (Nat.le_refl _) (Nat.add_le_add_left hle _)

theorem Rounds.readsWithin (hrounds : Rounds format cfg lba remaining events result)
    (hlt : remaining < 2 ^ 32) (hspan : lba + remaining ≤ 2 ^ 32) :
    ReadsWithin format lba (lba + remaining) events := by
  induction hrounds with
  | done => exact readsWithin_nil
  | gaveUp hr hatt => exact hatt.readsWithin_round hr hlt (by omega)
  | served hr hatt _ ih =>
    obtain ⟨-, hle, -⟩ := hatt.round_bounds hr hlt
    have hround := hatt.readsWithin_round hr hlt (by omega)
    have htail := ih (by omega) (by omega)
    exact hround.append (htail.mono (by omega) (by omega))

theorem Attempts.issues (hatt : Attempts format cfg lba left n backoff events result) :
    ∃ cmd answer, .command cmd answer ∈ events := by
  cases hatt <;> exact ⟨_, _, List.mem_cons_self ..⟩

/-- Rounds for any sectors at all contain a command. -/
theorem Rounds.issues (hrounds : Rounds format cfg lba remaining events result)
    (hr : 0 < remaining) : ∃ cmd answer, .command cmd answer ∈ events := by
  cases hrounds with
  | done => cases hr
  | gaveUp _ hatt => exact hatt.issues
  | served _ hatt =>
    obtain ⟨cmd, answer, hmem⟩ := hatt.issues
    exact ⟨cmd, answer, List.mem_append_left _ hmem⟩

theorem readSectorsChunked_total (host : Host) (format : SectorReadFormat) (cfg : RetryConfig)
    (readChunk : ReadChunk) (start sectors : UInt32) (h : History) :
    ∃ events result, ReadsWithin format start.toNat (start.toNat + sectors.toNat) events ∧
      (readSectorsChunked host format cfg readChunk start sectors).exec h =
        (ofResult result, h ++ events) := by
  obtain ⟨events, result, hreads, hexec⟩ :=
    readSectorsChunked_reads host format cfg readChunk start sectors h
  refine ⟨events, result, ?_, hexec⟩
  cases hreads with
  | refused => exact readsWithin_nil
  | accepted hr hrounds =>
    exact hrounds.readsWithin sectors.toNat_lt (host.span_of_accepted hr)

-- ---------------------------------------------------------------------------
-- What a read returns
-- ---------------------------------------------------------------------------

theorem Rounds.length_eq (hrounds : Rounds format cfg lba remaining events result)
    (hlt : remaining < 2 ^ 32) (hresult : result = .ok out) :
    out.length = remaining * format.sectorSize := by
  induction hrounds generalizing out with
  | done =>
    cases hresult
    rw [Nat.zero_mul]
    rfl
  | gaveUp => cases hresult
  | @served remaining lba events n chunk events' result hr hatt _ ih =>
    cases result with
    | error err => cases hresult
    | ok rest =>
      cases hresult
      obtain ⟨-, hle, -⟩ := hatt.round_bounds hr hlt
      obtain ⟨-, -, hchunk⟩ := hatt.served_bounds rfl (format.firstChunk_bounds hr hlt).1
      have hrest := ih (by omega) rfl
      rw [List.length_append, hchunk, hrest, ← Nat.add_mul, Nat.add_sub_cancel' hle]

theorem Attempts.served_mem (hatt : Attempts format cfg lba left n backoff events result)
    (hresult : result = .ok (m, chunk)) :
    .readCd lba m format (.ok chunk) ∈ events ∧ chunk.length = m.toNat * format.sectorSize := by
  induction hatt with
  | served hc =>
    cases hresult
    obtain ⟨rfl, hlen⟩ := checkChunk_ok hc
    exact ⟨List.mem_singleton.mpr rfl, hlen⟩
  | gaveUp => cases hresult
  | retried _ _ ih =>
    obtain ⟨hmem, hlen⟩ := ih hresult
    exact ⟨List.mem_cons_of_mem _ (List.mem_append_right _ hmem), hlen⟩

/-- What holds of every answer of full length, and of two that meet when they
are joined, holds of what a read returns. -/
theorem Rounds.join {P : Nat → Nat → Bytes → Prop}
    (hrounds : Rounds format cfg lba remaining events result) (hnil : ∀ a, P a 0 [])
    (happend : ∀ a m n chunk rest, P a m chunk → P (a + m) n rest → P a (m + n) (chunk ++ rest))
    (hserved : ∀ lba n chunk, .readCd lba n format (.ok chunk) ∈ events →
      chunk.length = n.toNat * format.sectorSize → P lba.toNat n.toNat chunk)
    (hlt : remaining < 2 ^ 32) (hspan : lba + remaining ≤ 2 ^ 32) (hresult : result = .ok out) :
    P lba remaining out := by
  induction hrounds generalizing out with
  | done =>
    cases hresult
    exact hnil _
  | gaveUp => cases hresult
  | @served remaining lba events n chunk events' result hr hatt hrest ih =>
    cases result with
    | error err => cases hresult
    | ok rest =>
      cases hresult
      obtain ⟨-, hle, -⟩ := hatt.round_bounds hr hlt
      obtain ⟨hmem, hlen⟩ := hatt.served_mem rfl
      have hlba : (UInt32.ofNat lba).toNat = lba := toNat_ofNat32 (by omega)
      have hchunk := hserved _ _ _ (List.mem_append_left _ hmem) hlen
      have htail := ih (fun _ _ _ hmem => hserved _ _ _ (List.mem_append_right _ hmem))
        (by omega) (by omega) rfl
      rw [hlba] at hchunk
      have hjoined := happend _ _ _ _ _ hchunk htail
      rwa [Nat.add_sub_cancel' hle] at hjoined

theorem Answered.exists_history (hans : Answered readChunk format h events)
    (hmem : .readCd lba n format answer ∈ events) : ∃ h', answer = readChunk h' lba n := by
  induction events generalizing h with
  | nil => cases hmem
  | cons event events ih =>
    obtain ⟨hfirst, hrest⟩ := hans
    rcases List.mem_cons.mp hmem with rfl | hmem
    · obtain ⟨lba', n', hcmd, hanswer⟩ := hfirst _ _ rfl
      cases hcmd
      exact ⟨h, hanswer⟩
    · exact ih hrest hmem

-- ---------------------------------------------------------------------------
-- How a read fails
-- ---------------------------------------------------------------------------

theorem Attempts.error_last (hatt : Attempts format cfg lba left n backoff events result)
    (hresult : result = .error err) : ∃ events' m answer,
      events = events' ++ [.readCd lba m format answer] ∧
      checkChunk format lba m answer = .error err := by
  induction hatt with
  | served => cases hresult
  | gaveUp hc =>
    cases hresult
    exact ⟨[], _, _, rfl, hc⟩
  | @retried n answer _ _ backoff _ _ _ _ ih =>
    obtain ⟨events', m, answer', rfl, hc⟩ := ih hresult
    refine ⟨.readCd lba n format answer :: (pauses backoff ++ events'), m, answer', ?_, hc⟩
    rw [List.cons_append, List.append_assoc]

/-- The error of a run is that of its last command. -/
theorem Rounds.error_last (hrounds : Rounds format cfg lba remaining events result)
    (hresult : result = .error err) : ∃ events' lba n answer,
      events = events' ++ [.readCd lba n format answer] ∧
      checkChunk format lba n answer = .error err := by
  induction hrounds with
  | done => cases hresult
  | gaveUp _ hatt =>
    cases hresult
    obtain ⟨events', n, answer, rfl, hc⟩ := hatt.error_last rfl
    exact ⟨events', _, n, answer, rfl, hc⟩
  | @served _ _ events _ _ _ result _ _ _ ih =>
    cases result with
    | ok rest => cases hresult
    | error err' =>
      cases hresult
      obtain ⟨events', lba, n, answer, rfl, hc⟩ := ih rfl
      exact ⟨events ++ events', lba, n, answer, (List.append_assoc ..).symm, hc⟩

/-- At least one sector, and none below `start` or from `stop` on. -/
structure InRange (start stop : Nat) (lba n : UInt32) : Prop where
  one_le : 1 ≤ n.toNat
  start_le : start ≤ lba.toNat
  le_stop : lba.toNat + n.toNat ≤ stop

/-- How a read of a range fails, and what happened: it is refused before any
command, or its last command is refused or answered at the wrong length. -/
inductive ReadFails (host : Host) (format : SectorReadFormat) (readChunk : ReadChunk)
    (start sectors : Nat) (h : History) : List Event → CdReaderError → Prop
  | refused (hr : host.rejection format start sectors = some message) :
      ReadFails host format readChunk start sectors h [] (invalidInput message)
  | command (hin : InRange start (start + sectors) lba n)
      (hc : checkChunk format lba n (readChunk (h ++ events) lba n) = .error err) :
      ReadFails host format readChunk start sectors h
        (events ++ [.readCd lba n format (readChunk (h ++ events) lba n)]) err

/-- A read that fails without an event was refused. -/
theorem ReadFails.refused_of_nil
    (h : ReadFails host format readChunk start sectors history [] err) :
    ∃ message, host.rejection format start sectors = some message ∧ err = invalidInput message := by
  generalize hnil : ([] : List Event) = events at h
  cases h with
  | refused hr => exact ⟨_, hr, rfl⟩
  | command => exact absurd hnil.symm (List.concat_ne_nil _ _)

theorem Answered.last {answer : Answer}
    (hans : Answered readChunk format h (events ++ [.readCd lba n format answer])) :
    answer = readChunk (h ++ events) lba n := by
  induction events generalizing h with
  | nil =>
    obtain ⟨lba', n', hcmd, rfl⟩ := hans.1 _ _ rfl
    cases hcmd
    rw [List.append_nil]
  | cons event events ih =>
    have hlast := ih hans.2
    rwa [List.append_assoc] at hlast

/-- What a read that returns an `Err` has done. -/
theorem readSectorsChunked_fails {start sectors : UInt32}
    (hexec : (readSectorsChunked host format cfg readChunk start sectors).exec h =
      (.error (.error err), h ++ events)) :
    ReadFails host format readChunk start.toNat sectors.toNat h events err := by
  obtain ⟨events', result, hreads, hrun⟩ :=
    readSectorsChunked_reads host format cfg readChunk start sectors h
  have heq := hrun.symm.trans hexec
  cases result with
  | ok out => cases heq
  | error err' =>
    obtain ⟨herr, hhistory⟩ := Prod.mk.inj heq
    cases herr
    cases List.append_cancel_left hhistory
    cases hreads with
    | refused hr => exact .refused hr
    | accepted hr hrounds hans =>
      have hwithin := hrounds.readsWithin sectors.toNat_lt (host.span_of_accepted hr)
      obtain ⟨before, lba, n, answer, rfl, hc⟩ := hrounds.error_last rfl
      obtain ⟨_, _, hcmd, hone, hstart, hstop⟩ := hwithin _ _ (List.mem_append_right _
        (List.mem_singleton.mpr rfl))
      cases hcmd
      cases hans.last
      exact .command ⟨hone, hstart, hstop⟩ hc

-- ---------------------------------------------------------------------------
-- Drives that serve every command
-- ---------------------------------------------------------------------------

/-- From `h` on, whatever happens, every command is served. -/
def Disc.ServesFrom (disc : Disc) (format : SectorReadFormat) (readChunk : ReadChunk)
    (h : History) : Prop :=
  ∀ events lba n, readChunk (h ++ events) lba n = .ok (disc.sectors format lba.toNat n.toNat)

section
variable {disc : Disc} {readChunk : ReadChunk}

theorem Disc.ServesFrom.append (hs : disc.ServesFrom format readChunk h) (events : List Event) :
    disc.ServesFrom format readChunk (h ++ events) := by
  intro events' lba n
  rw [List.append_assoc]
  exact hs (events ++ events') lba n

theorem Disc.ServesFrom.answers (hs : disc.ServesFrom format readChunk h)
    (hans : Answered readChunk format h events) (hmem : .readCd lba n format answer ∈ events) :
    checkChunk format lba n answer = .ok (disc.sectors format lba.toNat n.toNat) := by
  induction events generalizing h with
  | nil => cases hmem
  | cons event events ih =>
    obtain ⟨hfirst, hrest⟩ := hans
    rcases List.mem_cons.mp hmem with rfl | hmem
    · obtain ⟨lba', n', hcmd, rfl⟩ := hfirst _ _ rfl
      cases hcmd
      have hserved := hs [] lba n
      rw [List.append_nil] at hserved
      simp [hserved, checkChunk, disc.length_sectors]
    · exact ih (hs.append [event]) hrest hmem

theorem Attempts.ok_of_served (hatt : Attempts format cfg lba left n backoff events result)
    (hall : ∀ lba n answer, .readCd lba n format answer ∈ events →
      ∃ chunk, checkChunk format lba n answer = .ok chunk) : ∃ read, result = .ok read := by
  cases hatt with
  | served hc => exact ⟨_, rfl⟩
  | gaveUp hc =>
    obtain ⟨chunk, hok⟩ := hall _ _ _ (List.mem_singleton.mpr rfl)
    cases hc.symm.trans hok
  | retried hc _ =>
    obtain ⟨chunk, hok⟩ := hall _ _ _ (List.mem_cons_self ..)
    cases hc.symm.trans hok

theorem Rounds.ok_of_served (hrounds : Rounds format cfg lba remaining events result)
    (hall : ∀ lba n answer, .readCd lba n format answer ∈ events →
      ∃ chunk, checkChunk format lba n answer = .ok chunk) : ∃ out, result = .ok out := by
  induction hrounds with
  | done => exact ⟨[], rfl⟩
  | gaveUp hr hatt =>
    obtain ⟨read, heq⟩ := hatt.ok_of_served hall
    cases heq
  | served hr hatt hrest ih =>
    obtain ⟨out, rfl⟩ := ih fun lba n answer hmem =>
      hall lba n answer (List.mem_append_right _ hmem)
    exact ⟨_, rfl⟩

theorem readSectorsChunked_served (hs : disc.ServesFrom format readChunk h) (cfg : RetryConfig)
    (hr : host.rejection format start.toNat sectors.toNat = none) :
    ∃ out h', (readSectorsChunked host format cfg readChunk start sectors).exec h =
      (.ok out, h') := by
  obtain ⟨events, result, hrounds, hans, hexec⟩ := readSectorsChunked_rounds host cfg readChunk hr h
  obtain ⟨out, rfl⟩ := hrounds.ok_of_served fun lba n answer hmem => ⟨_, hs.answers hans hmem⟩
  exact ⟨out, _, hexec⟩

end

end CdDaReader
