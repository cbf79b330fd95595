import CdDaReader.Stream.Cursor

/-!
# No table of contents makes a read panic

With overflow checks on, an addition or a subtraction that overflows is a
panic, as an index out of bounds is in every build. Nothing from the bounds
of a track to the reads of a stream panics, on any table and any drive.
-/

namespace CdDaReader

open Rust

theorem getTrackBounds_total (host : Host) (toc : Toc) (trackNo : UInt8) :
    ∃ result, getTrackBounds host toc trackNo = ofResult result := by
  rw [getTrackBounds_eq]
  split
  · exact ⟨.error _, rfl⟩
  · split
    · exact ⟨.ok _, rfl⟩
    · exact ⟨.error _, rfl⟩

theorem getTrackBounds_span (h : getTrackBounds host toc trackNo = .ok (start, sectors)) :
    start.toNat + sectors.toNat < 2 ^ 32 := by
  obtain ⟨i, -, -, -, hstop⟩ := getTrackBounds_ok.mp h
  rw [hstop]
  exact toc.stop_lt i

theorem overruns_of_span (host : Host) {start sectors : UInt32}
    (h : start.toNat + sectors.toNat ≤ 2 ^ 32) : overruns host start sectors = .ok false := by
  rw [overruns_eq, decide_eq_false (Nat.not_lt.mpr h)]

theorem Host.rejection_of_span {host : Host} (h : 2 ^ 32 < start + sectors) :
    host.rejection format start sectors = some "sector range exceeds the maximum LBA" :=
  if_pos h

/-- Below the limit a request is refused for its size, or not at all. -/
theorem Host.rejection_ne {host : Host} (h : start + sectors ≤ 2 ^ 32) :
    host.rejection format start sectors ≠ some "sector range exceeds the maximum LBA" := by
  unfold rejection
  rw [if_neg (Nat.not_lt.mpr h)]
  split
  · decide
  · split <;> decide

/-- The rejection of a range, before any command, is for ranges past the last
address and no others. -/
theorem readSectorRange_rejects_iff (host : Host) (reader : CdReader) (start sectors : UInt32)
    (options : ReadOptions) (h : History) :
    (reader.readSectorRange host start sectors options).exec h =
        (.error (.error (invalidInput "sector range exceeds the maximum LBA")), h) ↔
      2 ^ 32 < start.toNat + sectors.toNat := by
  constructor
  · intro hexec
    apply Nat.lt_of_not_le
    intro hle
    have hfails : ReadFails host options.format (reader.readCdChunk options.format) start.toNat
        sectors.toNat h [] _ := readSectorsChunked_fails (by rw [List.append_nil]; exact hexec)
    obtain ⟨message, hr, herr⟩ := hfails.refused_of_nil
    cases herr
    exact Host.rejection_ne hle hr
  · intro hspan
    exact readSectorsChunked_rejected host options.retry _ (Host.rejection_of_span hspan) h

/-- The sectors that `next_chunk` would ask for have addresses. -/
def TrackStream.NextInRange (host : Host) (self : TrackStream) : Prop :=
  overruns host self.nextLba (min self.remainingSectors self.options.sectorsPerChunk) = .ok false

theorem TrackStream.nextInRange_at (host : Host) {self : TrackStream} (hfits : self.Fits)
    (hp : p ≤ self.totalSectors.toNat) : (self.atSector p).NextInRange host := by
  have hspan : self.startLba.toNat + self.totalSectors.toNat < 2 ^ 32 := hfits
  apply overruns_of_span
  rw [toNat_min32, hfits.toNat_nextLba hp, self.toNat_remainingSectors_at]
  omega

/-- Every result on a table is a value or an `Err`: of the bounds of a track,
of reading it, of opening a stream on it and of every operation of any run of
the stream; and so is every result of reading a range directly. The check for
the last address refuses no range of a track or of a stream. -/
structure NeverPanics (host : Host) (reader : CdReader) (toc : Toc) (trackNo : UInt8) : Prop where
  bounds : ∃ result, getTrackBounds host toc trackNo = ofResult result
  inRange : ∀ start sectors, getTrackBounds host toc trackNo = .ok (start, sectors) →
    overruns host start sectors = .ok false
  readTrack : ∀ options h, ∃ result h',
    (reader.readTrackWithOptions host toc trackNo options).exec h = (ofResult result, h')
  openStream : ∀ options, ∃ result,
    reader.openTrackStreamWithOptions host toc trackNo options = ofResult result
  stream : ∀ options stream,
    reader.openTrackStreamWithOptions host toc trackNo options = .ok stream →
      ∀ ops (op : StreamOp) h, ∃ result s,
        (op.run host).exec (StreamState.after host ⟨stream, h⟩ ops) = (ofResult result, s)
  streamInRange : ∀ options stream,
    reader.openTrackStreamWithOptions host toc trackNo options = .ok stream →
      ∀ ops h, (StreamState.after host ⟨stream, h⟩ ops).stream.NextInRange host
  rejected : ∀ start sectors options h,
    (reader.readSectorRange host start sectors options).exec h =
        (.error (.error (invalidInput "sector range exceeds the maximum LBA")), h) ↔
      2 ^ 32 < start.toNat + sectors.toNat
  direct : ∀ start sectors options h, start.toNat + sectors.toNat ≤ 2 ^ 32 →
    overruns host start sectors = .ok false ∧ ∃ result h',
      (reader.readSectorRange host start sectors options).exec h = (ofResult result, h')

theorem reads_neverPanic (host : Host) (reader : CdReader) (toc : Toc) (trackNo : UInt8) :
    NeverPanics host reader toc trackNo := by
  constructor
  case bounds => exact getTrackBounds_total host toc trackNo
  case inRange =>
    intro start sectors hbounds
    exact overruns_of_span host (Nat.le_of_lt (getTrackBounds_span hbounds))
  case readTrack =>
    intro options h
    rw [CdReader.readTrackWithOptions_exec]
    rcases trackRequest_total host toc trackNo options.format with
      ⟨start, sectors, -, -, hrequest, -⟩ | ⟨err, hrequest⟩
    · obtain ⟨events, result, -, hexec⟩ :=
        reader.readSectorRange_total host start sectors options h
      rw [hrequest]
      exact ⟨result, h ++ events, hexec⟩
    · rw [hrequest]
      exact ⟨.error err, h, rfl⟩
  case openStream =>
    intro options
    rw [CdReader.openTrackStreamWithOptions_eq]
    rcases trackRequest_total host toc trackNo options.format with
      ⟨start, sectors, -, -, hrequest, -⟩ | ⟨err, hrequest⟩
    · rw [hrequest]
      exact ⟨.ok _, rfl⟩
    · rw [hrequest]
      exact ⟨.error err, rfl⟩
  case stream =>
    intro options stream hopen ops op h
    obtain ⟨events, p, hfits, hp, -, hafter⟩ := StreamState.after_opened hopen ops h
    obtain ⟨events', result, q, hstep, hexec⟩ := op.run_at host hfits hp (h ++ events)
    obtain ⟨returned, rfl⟩ := hstep.returns
    rw [hafter]
    exact ⟨returned, _, hexec⟩
  case streamInRange =>
    intro options stream hopen ops h
    obtain ⟨events, p, hfits, hp, -, hafter⟩ := StreamState.after_opened hopen ops h
    rw [hafter]
    exact TrackStream.nextInRange_at host hfits hp
  case rejected => exact readSectorRange_rejects_iff host reader
  case direct =>
    intro start sectors options h hspan
    obtain ⟨events, result, -, hexec⟩ := reader.readSectorRange_total host start sectors options h
    exact ⟨overruns_of_span host hspan, result, _, hexec⟩

end CdDaReader
