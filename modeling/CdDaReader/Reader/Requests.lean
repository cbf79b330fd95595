import CdDaReader.Stream
import CdDaReader.ReadLoop.Range

/-!
# Requests for a track

Reading a track and opening a stream on it begin with the same checks, each
in its own copy. `trackRequest` is the range those checks arrive at, and both
functions are read as what they do with it.
-/

namespace CdDaReader

open Rust

def trackRequest (host : Host) (toc : Toc) (trackNo : UInt8) (format : SectorReadFormat) :
    Outcome CdReaderError (UInt32 × UInt32) := do
  if let some track := toc.tracks.find? fun track => track.number == trackNo then
    validateTrackFormat track format
  (getTrackBounds host toc trackNo).mapErr CdReaderError.io

theorem Toc.find?_of_find {toc : Toc} (h : toc.find trackNo = some i) :
    (toc.tracks.find? fun track => track.number == trackNo) = toc.tracks[i]? := by
  unfold find at h
  rw [List.find?_eq_bind_findIdx?_getElem?, h]
  rfl

/-- A request that is granted: the first track of the number is of the
format's kind, and the range is that track's. -/
structure Granted (toc : Toc) (trackNo : UInt8) (format : SectorReadFormat)
    (start sectors : UInt32) (i : Nat) (track : Track) : Prop where
  find_eq : toc.find trackNo = some i
  track_eq : toc.tracks[i]? = some track
  number_eq : track.number = trackNo
  kind_eq : track.isAudio = format.isAudio
  mark_lt_stop : toc.mark i < toc.stop i
  start_eq : start.toNat = toc.mark i
  stop_eq : start.toNat + sectors.toNat = toc.stop i

theorem Granted.sectors_pos (h : Granted toc trackNo format start sectors i track) :
    0 < sectors.toNat := by
  have h1 := h.mark_lt_stop
  have h2 := h.start_eq
  have h3 := h.stop_eq
  omega

theorem Granted.span_lt (h : Granted toc trackNo format start sectors i track) :
    start.toNat + sectors.toNat < 2 ^ 32 := by
  rw [h.stop_eq]
  exact toc.stop_lt i

theorem validateTrackFormat_eq (track : Track) (format : SectorReadFormat) :
    validateTrackFormat track format =
      if track.isAudio = format.isAudio then .ok ()
      else .error (.error (.trackFormatMismatch track.number track.isAudio format)) := rfl

theorem trackRequest_total (host : Host) (toc : Toc) (trackNo : UInt8)
    (format : SectorReadFormat) :
    (∃ start sectors i track, trackRequest host toc trackNo format = .ok (start, sectors) ∧
      Granted toc trackNo format start sectors i track) ∨
    ∃ err, trackRequest host toc trackNo format = .error (.error err) := by
  unfold trackRequest
  have hbounds := getTrackBounds_eq host toc trackNo
  cases hfind : toc.find trackNo with
  | none =>
    rw [hfind] at hbounds
    have hnone : (toc.tracks.find? fun track => track.number == trackNo) = none := by
      have hidx : toc.tracks.findIdx? (fun track => track.number == trackNo) = none := hfind
      simpa [List.findIdx?_eq_none_iff] using hidx
    rw [hnone, hbounds]
    exact .inr ⟨_, rfl⟩
  | some i =>
    obtain ⟨track, htrack, hnumber⟩ := Toc.find_some hfind
    rw [hfind] at hbounds
    rw [Toc.find?_of_find hfind, htrack, hbounds]
    simp only [validateTrackFormat_eq]
    split <;> rename_i hkind
    · simp only [Outcome.bind_ok]
      split <;> rename_i hlt
      · simp only [hlt, ↓reduceIte] at hbounds
        obtain ⟨j, hj, -, hstart, hstop⟩ := getTrackBounds_ok.mp hbounds
        cases hfind.symm.trans hj
        exact .inl ⟨_, _, i, track, rfl, hfind, htrack, hnumber, hkind, hlt, hstart, hstop⟩
      · exact .inr ⟨_, rfl⟩
    · exact .inr ⟨_, rfl⟩

theorem trackRequest_ok (h : trackRequest host toc trackNo format = .ok (start, sectors)) :
    ∃ i track, Granted toc trackNo format start sectors i track := by
  rcases trackRequest_total host toc trackNo format with ⟨_, _, i, track, heq, hgranted⟩ | ⟨_, heq⟩
  · rw [h] at heq
    cases heq
    exact ⟨i, track, hgranted⟩
  · rw [h] at heq
    cases heq

theorem getTrackBounds_of_request
    (h : trackRequest host toc trackNo format = .ok (start, sectors)) :
    getTrackBounds host toc trackNo = .ok (start, sectors) := by
  obtain ⟨i, track, hgranted⟩ := trackRequest_ok h
  exact getTrackBounds_ok.mpr ⟨i, hgranted.find_eq, hgranted.mark_lt_stop, hgranted.start_eq,
    hgranted.stop_eq⟩

-- ---------------------------------------------------------------------------
-- The two users of a request
-- ---------------------------------------------------------------------------

namespace CdReader

variable (host : Host) (self : CdReader) (toc : Toc) (trackNo : UInt8)

theorem readTrackWithOptions_exec (options : ReadOptions) (h : History) :
    (self.readTrackWithOptions host toc trackNo options).exec h =
      match trackRequest host toc trackNo options.format with
      | .ok (start, sectors) => (self.readSectorRange host start sectors options).exec h
      | .error fault => (.error fault, h) := by
  unfold readTrackWithOptions trackRequest
  cases hfound : toc.tracks.find? fun track => track.number == trackNo with
  | none =>
    cases hbounds : getTrackBounds host toc trackNo with
    | ok range => rfl
    | error fault => cases fault <;> rfl
  | some track =>
    simp only [validateTrackFormat_eq]
    split <;> rename_i hkind
    · cases hbounds : getTrackBounds host toc trackNo with
      | ok range => rfl
      | error fault => cases fault <;> rfl
    · rfl

end CdReader

def TrackStream.opened (reader : CdReader) (start sectors : UInt32)
    (options : TrackStreamOptions) : TrackStream :=
  ⟨reader, start, start, sectors, sectors, options⟩

theorem CdReader.openTrackStreamWithOptions_eq (host : Host) (self : CdReader) (toc : Toc)
    (trackNo : UInt8) (options : TrackStreamOptions) :
    self.openTrackStreamWithOptions host toc trackNo options =
      match trackRequest host toc trackNo options.format with
      | .ok (start, sectors) => .ok (.opened self start sectors options)
      | .error fault => .error fault := by
  unfold openTrackStreamWithOptions trackRequest
  cases hfound : toc.tracks.find? fun track => track.number == trackNo with
  | none =>
    cases hbounds : getTrackBounds host toc trackNo with
    | ok range => rfl
    | error fault => cases fault <;> rfl
  | some track =>
    simp only [validateTrackFormat_eq]
    split <;> rename_i hkind
    · cases hbounds : getTrackBounds host toc trackNo with
      | ok range => rfl
      | error fault => cases fault <;> rfl
    · rfl

theorem CdReader.openTrackStreamWithOptions_ok {self : CdReader}
    (h : self.openTrackStreamWithOptions host toc trackNo options = .ok stream) :
    ∃ start sectors, trackRequest host toc trackNo options.format = .ok (start, sectors) ∧
      stream = .opened self start sectors options := by
  rw [openTrackStreamWithOptions_eq] at h
  split at h
  · cases h
    exact ⟨_, _, by assumption, rfl⟩
  · cases h

-- ---------------------------------------------------------------------------
-- How reads end
-- ---------------------------------------------------------------------------

/-- A range read ends with a value or an `Err`, and stays in its range. -/
theorem CdReader.readSectorRange_total (host : Host) (self : CdReader) (start sectors : UInt32)
    (options : ReadOptions) (h : History) :
    ∃ events result,
      ReadsWithin options.format start.toNat (start.toNat + sectors.toNat) events ∧
      (self.readSectorRange host start sectors options).exec h =
        (ofResult result, h ++ events) :=
  readSectorsChunked_total host options.format options.retry _ start sectors h

/-- How fetching a track fails, and what happened: its request is refused
without a command, or a read of some of its sectors fails. -/
inductive TrackFails (host : Host) (reader : CdReader) (toc : Toc) (trackNo : UInt8)
    (format : SectorReadFormat) (h : History) : List Event → CdReaderError → Prop
  | refused (hrequest : trackRequest host toc trackNo format = .error (.error err)) :
      TrackFails host reader toc trackNo format h [] err
  | unread (hrequest : trackRequest host toc trackNo format = .ok (start, sectors))
      (hn : 0 < n) (hle : p + n ≤ sectors.toNat)
      (hfails : ReadFails host format (reader.readCdChunk format) (start.toNat + p) n
        (h ++ before) events err) :
      TrackFails host reader toc trackNo format h (before ++ events) err

theorem CdReader.readTrackWithOptions_fails {self : CdReader}
    (hexec : (self.readTrackWithOptions host toc trackNo options).exec h =
      (.error (.error err), h ++ events)) :
    TrackFails host self toc trackNo options.format h events err := by
  rw [readTrackWithOptions_exec] at hexec
  cases hrequest : trackRequest host toc trackNo options.format with
  | error fault =>
    rw [hrequest] at hexec
    obtain ⟨herr, hhistory⟩ := Prod.mk.inj hexec
    cases herr
    rw [List.self_eq_append_right.mp hhistory]
    exact .refused hrequest
  | ok range =>
    rw [hrequest] at hexec
    obtain ⟨_, _, hgranted⟩ := trackRequest_ok hrequest
    have hfails := readSectorsChunked_fails hexec
    rw [← List.append_nil h, ← Nat.add_zero range.1.toNat] at hfails
    exact .unread hrequest hgranted.sectors_pos (Nat.le_of_eq (Nat.zero_add _)) hfails

end CdDaReader
