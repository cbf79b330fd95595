import CdDaReader.ParseToc.Overflow

/-!
# LBA and MSF

An MSF address has a byte for the minutes, so it goes up to 255:59:74. The
address of every track below that is recovered from its MSF address; one
above it is not, since the minutes are narrowed without a check.
`parseToc_interchangeable_iff` is the exact bound.
-/

namespace CdDaReader

open Rust

/-- The frames from MSF 00:00:00 to an MSF address. -/
def framesOf (msf : UInt8 × UInt8 × UInt8) : Nat :=
  (msf.1.toNat * 60 + msf.2.1.toNat) * 75 + msf.2.2.toNat

/-- The MSF address is a time of day, and is the LBA up to the bias. -/
structure Track.MsfIsLba (track : Track) : Prop where
  seconds_lt : track.startMsf.2.1.toNat < 60
  frames_lt : track.startMsf.2.2.toNat < 75
  frames_eq : framesOf track.startMsf = track.startLba.toNat + 150

/-- Each track is at the address its MSF says, and no two tracks at different
addresses have the same MSF. -/
structure Toc.Interchangeable (toc : Toc) : Prop where
  msfIsLba : ∀ track ∈ toc.tracks, track.MsfIsLba
  msf_injective : ∀ track ∈ toc.tracks, ∀ track' ∈ toc.tracks,
    track.startMsf = track'.startMsf → track.startLba = track'.startLba

/-- The address has an MSF address of at most 255:59:74. -/
def Descriptor.HasMsf (d : Descriptor) : Prop := d.lba.toNat + 150 < 256 * 60 * 75

instance (d : Descriptor) : Decidable d.HasMsf := inferInstanceAs (Decidable (_ < _))

theorem Track.MsfIsLba.lba_eq {track track' : Track} (h : track.MsfIsLba) (h' : track'.MsfIsLba)
    (hmsf : track.startMsf = track'.startMsf) : track.startLba = track'.startLba := by
  have hframes := h.frames_eq
  have hframes' := h'.frames_eq
  rw [hmsf] at hframes
  exact UInt32.toNat_inj.mp (by omega)

theorem Toc.interchangeable_iff (toc : Toc) :
    toc.Interchangeable ↔ ∀ track ∈ toc.tracks, track.MsfIsLba := by
  constructor
  · intro h
    exact h.msfIsLba
  · intro h
    refine ⟨h, ?_⟩
    intro track htrack track' htrack' hmsf
    exact (h track htrack).lba_eq (h track' htrack') hmsf

section
variable (d : Descriptor)

theorem Descriptor.toNat_seconds : d.startMsf.2.1.toNat = (d.lba + 150).toNat / 75 % 60 := by
  simp only [startMsf, UInt32.toNat_toUInt8, UInt32.toNat_mod, UInt32.toNat_div,
    UInt32.reduceToNat]
  omega

theorem Descriptor.toNat_frames : d.startMsf.2.2.toNat = (d.lba + 150).toNat % 75 := by
  simp only [startMsf, UInt32.toNat_toUInt8, UInt32.toNat_mod, UInt32.reduceToNat]
  omega

/-- The minutes are narrowed to a byte. -/
theorem Descriptor.toNat_minutes :
    d.startMsf.1.toNat = (d.lba + 150).toNat / 75 / 60 % 256 := by
  simp only [startMsf, UInt32.toNat_toUInt8, UInt32.toNat_div, UInt32.reduceToNat]

/-- The MSF address of a track says its LBA exactly when it can. -/
theorem Descriptor.track_msfIsLba_iff : d.track.MsfIsLba ↔ d.HasMsf := by
  unfold HasMsf
  have hminutes := d.toNat_minutes
  have hseconds := d.toNat_seconds
  have hframes := d.toNat_frames
  constructor
  · intro h
    have heq := h.frames_eq
    simp only [track, framesOf] at heq
    omega
  · intro hlt
    have hadd : (d.lba + 150).toNat = d.lba.toNat + 150 := toNat_add32 (by simp; omega)
    refine ⟨?_, ?_, ?_⟩
    · simp only [track]
      omega
    · simp only [track]
      omega
    · simp only [track, framesOf]
      omega

end

theorem forall_tracksOf (P : Track → Prop) (ds : List Descriptor) :
    (∀ track ∈ tracksOf ds, P track) ↔ ∀ d ∈ ds, d.isLeadOut = false → P d.track := by
  simp only [tracksOf, List.forall_mem_map, List.mem_filter, Bool.not_eq_true', and_imp]

theorem tocOf_tracks {tracks : List Track}
    (h : tocOf firstTrack lastTrack tracks leadOutLba = .ok toc) : toc.tracks = tracks := by
  cases leadOutLba with
  | some lba =>
    cases h
    rfl
  | none => cases h

theorem parseToc_tracks {data : Bytes} (h : parseToc host data = .ok toc) :
    toc.tracks = tracksOf (walked data) := by
  rcases short_or_header data with ⟨hlen, -⟩ | ⟨b0, b1, firstTrack, lastTrack, body, rfl⟩
  · rw [parseToc_short host hlen] at h
    cases h
  · rw [parseToc_header, decode] at h
    split at h
    · cases h
    · exact tocOf_tracks h

/-- The tracks of an accepted buffer have interchangeable addresses exactly
when each of their descriptors has an MSF address. -/
theorem parseToc_interchangeable_iff (host : Host) (data : Bytes) (toc : Toc)
    (h : parseToc host data = .ok toc) :
    toc.Interchangeable ↔ ∀ d ∈ walked data, d.isLeadOut = false → d.HasMsf := by
  rw [toc.interchangeable_iff, parseToc_tracks h, forall_tracksOf]
  simp only [Descriptor.track_msfIsLba_iff]

/-- An audio track at LBA 0 and a data track at `lba`. -/
def twoStarts (lba : UInt32) : Bytes :=
  [0, 26, 1, 2, 0, 0x10, 1, 0, 0, 0, 0, 0, 0, 0x14, 2, 0] ++ u32ToBeBytes lba ++
    [0, 0x10, 0xAA, 0, 0, 0x20, 0, 0]

theorem parseToc_interchangeable_iff_twoStarts :
    ∃ toc, parseToc .desktop (twoStarts 20000) = .ok toc ∧ toc.Interchangeable :=
  ⟨_, rfl, (parseToc_interchangeable_iff .desktop (twoStarts 20000) _ rfl).mpr (by decide)⟩

/-- Starts 256 minutes apart have the same MSF address. -/
theorem parseToc_interchangeable_sameMsf :
    ¬ ∀ toc, parseToc .desktop (twoStarts 1152000) = .ok toc → toc.Interchangeable := by
  intro h
  let first : Track := { number := 1, startLba := 0, startMsf := (0, 2, 0), isAudio := true }
  let second : Track :=
    { number := 2, startLba := 1152000, startMsf := (0, 2, 0), isAudio := false }
  have hok : parseToc .desktop (twoStarts 1152000) = .ok ⟨1, 2, [first, second], 0x200000⟩ := by
    rfl
  have hsame := (h _ hok).msf_injective first (by simp) second (by simp) rfl
  cases hsame

end CdDaReader
