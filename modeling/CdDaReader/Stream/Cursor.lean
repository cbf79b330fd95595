import CdDaReader.Reader.Requests

/-!
# A stream is a cursor over the sectors of its track

`Cursor.Step` says what a stream is for: a position between 0 and the number
of sectors, moved by reads and seeks. `TrackStream.atSector` is the one stream that
stands for a position, so that the three position fields agree by
construction, and `StreamOp.run_at` is the simulation: from the stream at a
position every operation takes a step of the cursor.
-/

namespace CdDaReader

open Rust

inductive StreamOp
  | nextChunk
  | seekToSector (sector : UInt32)
  | seekToSeconds (seconds : Seconds)
  | currentSector

inductive Reply
  | chunk (chunk : Option Bytes)
  | sector (sector : UInt32)
  | sought

def StreamOp.run (host : Host) : StreamOp → StreamRun Reply
  | .nextChunk => do
    let chunk ← TrackStream.nextChunk host
    return .chunk chunk
  | .seekToSector sector => do
    TrackStream.seekToSector host sector
    return .sought
  | .seekToSeconds seconds => do
    TrackStream.seekToSeconds host seconds
    return .sought
  | .currentSector => do
    let self := (← get).stream
    let sector ← self.currentSector host
    return .sector sector

/-- The state after some operations, whatever each returned. -/
def StreamState.after (host : Host) (s : StreamState) (ops : List StreamOp) : StreamState :=
  ops.foldl (fun s op => ((op.run host).exec s).2) s

-- ---------------------------------------------------------------------------
-- The cursor
-- ---------------------------------------------------------------------------

/-- A window of `total` sectors at `start`, read `size` sectors at a time. -/
structure Cursor where
  start : Nat
  total : Nat
  size : Nat
  format : SectorReadFormat
  one_le_size : 1 ≤ size

def Cursor.next (c : Cursor) (p : Nat) : Nat := min (c.total - p) c.size

/-- The events, the result and the next position of an operation at a
position; `content p m` are the chunks that `m` sectors at `p` may give. -/
inductive Cursor.Step (c : Cursor) (content : Nat → Nat → Bytes → Prop) :
    Nat → StreamOp → List Event → Outcome CdReaderError Reply → Nat → Prop
  | finished : Step c content c.total .nextChunk [] (.ok (.chunk none)) c.total
  | served (hp : p < c.total) (hc : content p (c.next p) bytes)
      (hr : ReadsWithin c.format (c.start + p) (c.start + p + c.next p) events) :
      Step c content p .nextChunk events (.ok (.chunk (some bytes))) (p + c.next p)
  | failed (hp : p < c.total)
      (hr : ReadsWithin c.format (c.start + p) (c.start + p + c.next p) events) :
      Step c content p .nextChunk events (.error (.error err)) p
  | sought (hk : k.toNat ≤ c.total) :
      Step c content p (.seekToSector k) [] (.ok .sought) k.toNat
  | outOfBounds (hk : c.total < k.toNat) :
      Step c content p (.seekToSector k) []
        (.error (.error (invalidInput "seek sector is out of track bounds"))) p
  | soughtTime (hf : seconds.isFinite = true) (hn : seconds.isNegative = false) :
      Step c content p (.seekToSeconds seconds) [] (.ok .sought)
        (min seconds.targetSector.toNat c.total)
  | notATime (hn : seconds.isFinite = false ∨ seconds.isNegative = true) :
      Step c content p (.seekToSeconds seconds) []
        (.error (.error (invalidInput "seek seconds must be a finite non-negative number"))) p
  | sector (hk : k.toNat = p) : Step c content p .currentSector [] (.ok (.sector k)) p

variable {c : Cursor} {content : Nat → Nat → Bytes → Prop}

theorem Cursor.one_le_next (c : Cursor) (hp : p < c.total) : 1 ≤ c.next p :=
  Nat.le_min.mpr ⟨Nat.sub_pos_of_lt hp, c.one_le_size⟩

theorem Cursor.add_next_le (c : Cursor) (hp : p ≤ c.total) : p + c.next p ≤ c.total := by
  unfold next
  omega

theorem Cursor.Step.le_total (h : c.Step content p op events result q) (hp : p ≤ c.total) :
    q ≤ c.total := by
  cases h with
  | finished => exact Nat.le_refl _
  | served => exact c.add_next_le hp
  | failed => exact hp
  | sought hk => exact hk
  | outOfBounds => exact hp
  | soughtTime => exact Nat.min_le_right ..
  | notATime => exact hp
  | sector => exact hp

theorem Cursor.Step.readsWithin (h : c.Step content p op events result q) (hp : p ≤ c.total) :
    ReadsWithin c.format c.start (c.start + c.total) events := by
  have hnext := c.add_next_le hp
  cases h with
  | served _ _ hr => exact hr.mono (Nat.le_add_right ..) (by omega)
  | failed _ hr => exact hr.mono (Nat.le_add_right ..) (by omega)
  | _ => exact readsWithin_nil

theorem Cursor.Step.of_error (h : c.Step content p op events (.error fault) q) : q = p := by
  cases h <;> rfl

theorem Cursor.Step.returns (h : c.Step content p op events result q) :
    ∃ returned, result = ofResult returned := by
  cases h with
  | finished | served | sought | soughtTime | sector => exact ⟨.ok _, rfl⟩
  | failed | outOfBounds | notATime => exact ⟨.error _, rfl⟩

-- ---------------------------------------------------------------------------
-- The stream at a position
-- ---------------------------------------------------------------------------

namespace TrackStream

/-- The stream with its fields set for a position. -/
def atSector (self : TrackStream) (p : Nat) : TrackStream :=
  { self with
    nextLba := .ofNat (self.startLba.toNat + p)
    remainingSectors := .ofNat (self.totalSectors.toNat - p) }

def cursor (self : TrackStream) : Cursor where
  start := self.startLba.toNat
  total := self.totalSectors.toNat
  size := self.options.sectorsPerChunk.toNat
  format := self.options.format
  one_le_size := self.options.one_le_sectorsPerChunk

/-- The last sector of the track has an address. -/
def Fits (self : TrackStream) : Prop := self.startLba.toNat + self.totalSectors.toNat < 2 ^ 32

/-- What a chunk of `m` sectors at `p` is on every disc the drive serves. -/
def Content (self : TrackStream) (p m : Nat) (bytes : Bytes) : Prop :=
  ∀ disc : Disc, disc.ServedBy self.options.format (self.reader.readCdChunk self.options.format) →
    bytes = disc.sectors self.options.format (self.startLba.toNat + p) m

variable {self : TrackStream}

theorem Fits.toNat_nextLba (hfits : self.Fits) (hp : p ≤ self.totalSectors.toNat) :
    (self.atSector p).nextLba.toNat = self.startLba.toNat + p := by
  unfold Fits at hfits
  exact toNat_ofNat32 (by omega)

theorem toNat_remainingSectors_at (self : TrackStream) (p : Nat) :
    (self.atSector p).remainingSectors.toNat = self.totalSectors.toNat - p :=
  toNat_ofNat32 (Nat.lt_of_le_of_lt (Nat.sub_le ..) self.totalSectors.toNat_lt)

/-- A stream whose two moving fields have the values for a position is the
stream at it. -/
theorem Fits.eq_at (hfits : self.Fits) (hq : q ≤ self.totalSectors.toNat)
    (hlba : lba.toNat = self.startLba.toNat + q) (hrem : n.toNat = self.totalSectors.toNat - q) :
    { self with nextLba := lba, remainingSectors := n } = self.atSector q := by
  have h1 : lba = (self.atSector q).nextLba :=
    UInt32.toNat_inj.mp (hlba.trans (hfits.toNat_nextLba hq).symm)
  have h2 : n = (self.atSector q).remainingSectors :=
    UInt32.toNat_inj.mp (hrem.trans (self.toNat_remainingSectors_at q).symm)
  subst h1 h2
  rfl

theorem opened_atSector (reader : CdReader) (start sectors : UInt32)
    (options : TrackStreamOptions) :
    (opened reader start sectors options).atSector 0 = opened reader start sectors options := by
  simp [atSector, opened]

theorem currentSector_at (host : Host) (self : TrackStream) (hp : p ≤ self.totalSectors.toNat) :
    ∃ k, (self.atSector p).currentSector host = .ok k ∧ k.toNat = p := by
  have hrem := self.toNat_remainingSectors_at p
  have hle : (self.atSector p).remainingSectors ≤ (self.atSector p).totalSectors := by
    rw [UInt32.le_iff_toNat_le, hrem]
    exact Nat.sub_le ..
  refine ⟨_, sub32_ok hle, ?_⟩
  rw [toNat_sub32 hle, hrem]
  exact Nat.sub_sub_self hp

-- ---------------------------------------------------------------------------
-- The methods from a position
-- ---------------------------------------------------------------------------

variable (host : Host)

theorem seekToSector_at (hfits : self.Fits) (k : UInt32) (h : History) :
    (seekToSector host k).exec ⟨self.atSector p, h⟩ =
      if k.toNat ≤ self.totalSectors.toNat then (.ok (), ⟨self.atSector k.toNat, h⟩)
      else (.error (.error (invalidInput "seek sector is out of track bounds")),
        ⟨self.atSector p, h⟩) := by
  unfold seekToSector
  rw [exec_bind_ok (exec_get _)]
  split <;> rename_i hk
  · have hin : ¬ (self.atSector p).totalSectors < k := by
      rw [UInt32.lt_iff_toNat_lt]
      exact Nat.not_lt.mpr hk
    have hsum : (self.atSector p).startLba.toNat + k.toNat < 2 ^ 32 :=
      Nat.lt_of_le_of_lt (Nat.add_le_add_left hk _) hfits
    have hle : k ≤ (self.atSector p).totalSectors := UInt32.le_iff_toNat_le.mpr hk
    simp only [hin, ↓reduceIte]
    rw [exec_bind_checked (add32_ok hsum), exec_bind_ok (exec_modify _ _),
      exec_bind_checked (sub32_ok hle), exec_modify]
    exact congrArg (fun stream => ((.ok () : Outcome CdReaderError Unit), StreamState.mk stream h))
      (hfits.eq_at hk (toNat_add32 hsum) (toNat_sub32 hle))
  · have hout : (self.atSector p).totalSectors < k := by
      rw [UInt32.lt_iff_toNat_lt]
      exact Nat.lt_of_not_le hk
    simp only [hout, ↓reduceIte]
    rfl

theorem seekToSeconds_at (hfits : self.Fits) (seconds : Seconds) (h : History) :
    (seekToSeconds host seconds).exec ⟨self.atSector p, h⟩ =
      if seconds.isFinite = false ∨ seconds.isNegative = true then
        (.error (.error (invalidInput "seek seconds must be a finite non-negative number")),
          ⟨self.atSector p, h⟩)
      else (.ok (),
        ⟨self.atSector (min seconds.targetSector.toNat self.totalSectors.toNat), h⟩) := by
  unfold seekToSeconds
  by_cases hbad : seconds.isFinite = false ∨ seconds.isNegative = true
  · have hguard : (!seconds.isFinite || seconds.isNegative) = true := by
      rcases hbad with hf | hn
      · rw [hf]; rfl
      · rw [hn, Bool.or_true]
    rw [if_pos hbad]
    simp only [hguard, ↓reduceIte]
    rfl
  · obtain ⟨hf, hn⟩ := not_or.mp hbad
    rw [Bool.not_eq_false] at hf
    rw [Bool.not_eq_true] at hn
    have hmin : (min seconds.targetSector self.totalSectors).toNat =
        min seconds.targetSector.toNat self.totalSectors.toNat := toNat_min32 ..
    have hseek := seekToSector_at (p := p) host hfits
      (min seconds.targetSector self.totalSectors) h
    rw [hmin, if_pos (Nat.min_le_right ..)] at hseek
    rw [if_neg hbad]
    simp only [hf, hn, Bool.not_true, Bool.or_self, Bool.false_eq_true, ↓reduceIte]
    exact (exec_bind_ok (exec_get _)).trans hseek

theorem nextChunk_end (self : TrackStream) (h : History) :
    (nextChunk host).exec ⟨self.atSector self.totalSectors.toNat, h⟩ =
      (.ok none, ⟨self.atSector self.totalSectors.toNat, h⟩) := by
  have hzero : (self.atSector self.totalSectors.toNat).remainingSectors = 0 := by
    apply UInt32.toNat_inj.mp
    rw [toNat_remainingSectors_at, Nat.sub_self]
    rfl
  unfold nextChunk nextChunkWith
  rw [exec_bind_ok (exec_get _), exec_bind_ok (exec_get _)]
  simp only [hzero, ↓reduceIte]
  rfl

theorem advance_at (hfits : self.Fits) (hle : p + n.toNat ≤ self.totalSectors.toNat)
    (chunk : Bytes) (h : History) :
    (do let nextLba ← add32 host.overflowChecks (self.atSector p).nextLba n
        modify fun s => { s with stream := { s.stream with nextLba } }
        let remainingSectors ← sub32 host.overflowChecks (self.atSector p).remainingSectors n
        modify fun s => { s with stream := { s.stream with remainingSectors } }
        return some chunk : StreamRun (Option Bytes)).exec ⟨self.atSector p, h⟩ =
      (.ok (some chunk), ⟨self.atSector (p + n.toNat), h⟩) := by
  have hspan : self.startLba.toNat + self.totalSectors.toNat < 2 ^ 32 := hfits
  have hlba := hfits.toNat_nextLba (Nat.le_trans (Nat.le_add_right p n.toNat) hle)
  have hrem := self.toNat_remainingSectors_at p
  have hsum : (self.atSector p).nextLba.toNat + n.toNat < 2 ^ 32 := by omega
  have hsub : n ≤ (self.atSector p).remainingSectors := by
    rw [UInt32.le_iff_toNat_le]
    omega
  rw [exec_bind_checked (add32_ok hsum), exec_bind_ok (exec_modify _ _),
    exec_bind_checked (sub32_ok hsub), exec_bind_ok (exec_modify _ _)]
  have hmoved : { self.atSector p with
      nextLba := (self.atSector p).nextLba + n
      remainingSectors := (self.atSector p).remainingSectors - n } =
      self.atSector (p + n.toNat) := by
    refine hfits.eq_at hle ?_ ?_
    · rw [toNat_add32 hsum, hlba, Nat.add_assoc]
    · rw [toNat_sub32 hsub, hrem, Nat.sub_sub]
  exact congrArg (fun stream => ((.ok (some chunk) : Outcome CdReaderError (Option Bytes)),
    StreamState.mk stream h)) hmoved

def readNext (self : TrackStream) (p : Nat) : Run Bytes :=
  self.reader.readSectorRange host (.ofNat (self.startLba.toNat + p)) (.ofNat (self.cursor.next p))
    ⟨self.options.format, self.options.retry⟩

/-- Before it, a call reads the next chunk and moves past it, or fails and
stays. -/
theorem nextChunk_at (hfits : self.Fits) (hp : p < self.totalSectors.toNat) (h : History) :
    ∃ (events : List Event) (result : Answer),
      (self.readNext host p).exec h = (ofResult result, h ++ events) ∧
      ReadsWithin self.cursor.format (self.cursor.start + p)
        (self.cursor.start + p + self.cursor.next p) events ∧
      (∀ bytes, result = .ok bytes → self.Content p (self.cursor.next p) bytes) ∧
      (nextChunk host).exec ⟨self.atSector p, h⟩ = match result with
        | .ok bytes =>
          (.ok (some bytes), ⟨self.atSector (p + self.cursor.next p), h ++ events⟩)
        | .error err => (.error (.error err), ⟨self.atSector p, h ++ events⟩) := by
  have hlba := hfits.toNat_nextLba (Nat.le_of_lt hp)
  have hrem := self.toNat_remainingSectors_at p
  let n := min (self.atSector p).remainingSectors (self.atSector p).options.sectorsPerChunk
  have hn : n.toNat = self.cursor.next p := by
    show (min _ _ : UInt32).toNat = _
    rw [toNat_min32, hrem]
    rfl
  have hle : p + self.cursor.next p ≤ self.totalSectors.toNat :=
    self.cursor.add_next_le (Nat.le_of_lt hp)
  let options : ReadOptions := ⟨self.options.format, self.options.retry⟩
  obtain ⟨events, result, hreads, hexec⟩ := self.reader.readSectorRange_total host
    (self.atSector p).nextLba n options h
  rw [hlba, hn] at hreads
  have hread : (self.readNext host p).exec h = (ofResult result, h ++ events) := by
    rw [← hexec, readNext, ← hn, UInt32.ofNat_toNat]
    rfl
  refine ⟨events, result, hread, hreads, ?_, ?_⟩
  · rintro bytes rfl disc hserved
    have hbytes := readSectorsChunked_sectors hserved hexec
    rwa [hlba, hn] at hbytes
  · have hpos : (self.atSector p).remainingSectors ≠ 0 := by
      intro hzero
      rw [hzero] at hrem
      have : (0 : UInt32).toNat = 0 := rfl
      omega
    unfold nextChunk nextChunkWith
    rw [exec_bind_ok (exec_get _), exec_bind_ok (exec_get _)]
    simp only [hpos, ↓reduceIte]
    have hzoom : ((self.reader.readSectorRange host (self.atSector p).nextLba n options).zoom
        StreamState.history fun s history => { s with history }).exec ⟨self.atSector p, h⟩ =
          (ofResult result, ⟨self.atSector p, h ++ events⟩) := exec_zoom hexec
    cases result with
    | error err => exact exec_bind_error hzoom
    | ok bytes =>
      rw [← hn] at hle ⊢
      exact (exec_bind_ok hzoom).trans (advance_at host hfits hle bytes _)

end TrackStream

-- ---------------------------------------------------------------------------
-- Operations and runs
-- ---------------------------------------------------------------------------

variable {self : TrackStream} (host : Host)

theorem StreamOp.run_at (hfits : self.Fits) (hp : p ≤ self.totalSectors.toNat) (op : StreamOp)
    (h : History) :
    ∃ events result q, self.cursor.Step self.Content p op events result q ∧
      (op.run host).exec ⟨self.atSector p, h⟩ = (result, ⟨self.atSector q, h ++ events⟩) := by
  cases op with
  | nextChunk =>
    rcases Nat.lt_or_ge p self.totalSectors.toNat with hlt | hge
    · obtain ⟨events, result, -, hreads, hcontent, hexec⟩ :=
        TrackStream.nextChunk_at host hfits hlt h
      cases result with
      | ok bytes =>
        exact ⟨events, _, _, .served hlt (hcontent bytes rfl) hreads, exec_bind_ok hexec⟩
      | error err => exact ⟨events, _, p, .failed hlt hreads, exec_bind_error hexec⟩
    · obtain rfl : p = self.totalSectors.toNat := Nat.le_antisymm hp hge
      refine ⟨[], _, _, .finished, ?_⟩
      rw [List.append_nil]
      exact exec_bind_ok (TrackStream.nextChunk_end host self h)
  | seekToSector k =>
    have hseek := TrackStream.seekToSector_at (p := p) host hfits k h
    split at hseek <;> rename_i hk
    · refine ⟨[], _, _, .sought hk, ?_⟩
      rw [List.append_nil]
      exact exec_bind_ok hseek
    · refine ⟨[], _, p, .outOfBounds (Nat.lt_of_not_le hk), ?_⟩
      rw [List.append_nil]
      exact exec_bind_error hseek
  | seekToSeconds seconds =>
    have hseek := TrackStream.seekToSeconds_at (p := p) host hfits seconds h
    split at hseek <;> rename_i hbad
    · refine ⟨[], _, p, .notATime hbad, ?_⟩
      rw [List.append_nil]
      exact exec_bind_error hseek
    · obtain ⟨hf, hn⟩ := not_or.mp hbad
      refine ⟨[], _, _, .soughtTime (by simpa using hf) (by simpa using hn), ?_⟩
      rw [List.append_nil]
      exact exec_bind_ok hseek
  | currentSector =>
    obtain ⟨k, hk, hkp⟩ := TrackStream.currentSector_at host self hp
    refine ⟨[], _, p, .sector hkp, ?_⟩
    rw [List.append_nil]
    exact (exec_bind_ok (exec_get _)).trans (exec_bind_checked hk)

theorem StreamState.after_append (s : StreamState) (ops ops' : List StreamOp) :
    s.after host (ops ++ ops') = (s.after host ops).after host ops' := List.foldl_append

theorem StreamState.after_at (hfits : self.Fits) (hp : p ≤ self.totalSectors.toNat)
    (ops : List StreamOp) (h : History) :
    ∃ events q, q ≤ self.totalSectors.toNat ∧
      ReadsWithin self.cursor.format self.cursor.start (self.cursor.start + self.cursor.total)
        events ∧
      StreamState.after host ⟨self.atSector p, h⟩ ops = ⟨self.atSector q, h ++ events⟩ := by
  induction ops generalizing p h with
  | nil => exact ⟨[], p, hp, readsWithin_nil, by rw [List.append_nil]; rfl⟩
  | cons op ops ih =>
    obtain ⟨events, result, q, hstep, hexec⟩ := op.run_at host hfits hp h
    obtain ⟨events', q', hq', hreads, hafter⟩ := ih (hstep.le_total hp) (h ++ events)
    refine ⟨events ++ events', q', hq', (hstep.readsWithin hp).append hreads, ?_⟩
    rw [← List.append_assoc, ← hafter]
    show StreamState.after host ((op.run host).exec ⟨self.atSector p, h⟩).2 ops = _
    rw [hexec]

theorem TrackStream.opened_fits {host : Host} (reader : CdReader) (options : TrackStreamOptions)
    (h : trackRequest host toc trackNo format = .ok (start, sectors)) :
    (TrackStream.opened reader start sectors options).Fits := by
  obtain ⟨i, track, hgranted⟩ := trackRequest_ok h
  exact hgranted.span_lt

/-- Every run of a stream that was opened stands at a position of its track. -/
theorem StreamState.after_opened {host : Host} {reader : CdReader} {stream : TrackStream}
    (hopen : reader.openTrackStreamWithOptions host toc trackNo options = .ok stream)
    (ops : List StreamOp) (h : History) :
    ∃ events p, stream.Fits ∧ p ≤ stream.totalSectors.toNat ∧
      ReadsWithin stream.cursor.format stream.cursor.start
        (stream.cursor.start + stream.cursor.total) events ∧
      StreamState.after host ⟨stream, h⟩ ops = ⟨stream.atSector p, h ++ events⟩ := by
  obtain ⟨start, sectors, hrequest, rfl⟩ := CdReader.openTrackStreamWithOptions_ok hopen
  have hfits := TrackStream.opened_fits reader options hrequest
  obtain ⟨events, p, hp, hreads, hafter⟩ := after_at host hfits (Nat.zero_le _) ops h
  rw [TrackStream.opened_atSector] at hafter
  exact ⟨events, p, hfits, hp, hreads, hafter⟩

end CdDaReader
