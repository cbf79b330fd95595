import CdDaReader.Saving

/-!
# A preview of a track

The program of `examples/play_audio_track.rs`, from an open reader and a
number of seconds up to the player: save so many seconds of the first audio
track. The program finds the end of the track by itself, as the next start of
any track, and computes with `u32` that may overflow.
-/

namespace CdDaReader

open Rust

def previewFileName (n : UInt8) : String := s!"track{twoDigits n}_preview.wav"

/-- `track_end`. -/
def Toc.nextStart (toc : Toc) (track : Track) : UInt32 :=
  ((toc.tracks.map Track.startLba).filter fun lba => track.startLba < lba).min?.getD toc.leadoutLba

def previewSectors (host : Host) (toc : Toc) (track : Track) (seconds : UInt32) :
    Checked UInt32 := do
  let trackSectors ← sub32 host.overflowChecks (toc.nextStart track) track.startLba
  let sectors ← mul32 host.overflowChecks seconds 75
  return min sectors trackSectors

/-- The read of the preview. -/
def previewFetch (host : Host) (reader : CdReader) (seconds : UInt32) (toc : Toc)
    (track : Track) : Program Empty Bytes := do
  let sectors ← previewSectors host toc track seconds
  Program.call (reader.readSectorRange host track.startLba sectors .default)

def noAudioTracks : String := "no audio tracks found on this disc"

def playAudioTrack (host : Host) (disk : Disk) (reader : CdReader) (seconds : UInt32) :
    Program Empty Unit :=
  saveTrack host disk reader Toc.firstAudio noAudioTracks previewFileName
    (previewFetch host reader seconds)

-- ---------------------------------------------------------------------------
-- The sectors of a preview
-- ---------------------------------------------------------------------------

/-- What `previewSectors` returns, if it does: both operations wrap. -/
def Toc.preview (toc : Toc) (track : Track) (seconds : UInt32) : UInt32 :=
  min (seconds * 75) (toc.nextStart track - track.startLba)

/-- So many sectors from the start of a track are as much as there is of some
seconds, and no later track starts among them. -/
structure IsPreview (toc : Toc) (track : Track) (seconds sectors : UInt32) : Prop where
  le_seconds : sectors.toNat ≤ seconds.toNat * 75
  le_next : track.startLba.toNat + sectors.toNat ≤ (toc.nextStart track).toNat
  all : seconds.toNat * 75 < 2 ^ 32 → sectors.toNat = seconds.toNat * 75 ∨
    track.startLba.toNat + sectors.toNat = (toc.nextStart track).toNat
  apart : ∀ other ∈ toc.tracks, other.startLba ≤ track.startLba ∨
    track.startLba.toNat + sectors.toNat ≤ other.startLba.toNat

/-- What makes the program panic in a build with overflow checks. -/
def Toc.PreviewOverflows (toc : Toc) (track : Track) (seconds : UInt32) : Prop :=
  toc.nextStart track < track.startLba ∨ 2 ^ 32 ≤ seconds.toNat * 75

theorem Toc.nextStart_le {toc : Toc} (hmem : other ∈ toc.tracks)
    (hlt : track.startLba < other.startLba) : toc.nextStart track ≤ other.startLba := by
  have hstart : other.startLba ∈
      (toc.tracks.map Track.startLba).filter fun lba => track.startLba < lba := by
    simp only [List.mem_filter, List.mem_map, decide_eq_true_eq]
    exact ⟨⟨other, hmem, rfl⟩, hlt⟩
  unfold nextStart
  cases hmin : ((toc.tracks.map Track.startLba).filter fun lba => track.startLba < lba).min? with
  | none =>
    rw [List.min?_eq_none_iff.mp hmin] at hstart
    cases hstart
  | some lba => exact (List.min?_eq_some_iff.mp hmin).2 _ hstart

theorem Toc.nextStart_cases (toc : Toc) (track : Track) :
    toc.nextStart track = toc.leadoutLba ∨
      track.startLba < toc.nextStart track ∧ ∃ other ∈ toc.tracks,
        other.startLba = toc.nextStart track := by
  unfold nextStart
  cases hmin : ((toc.tracks.map Track.startLba).filter fun lba => track.startLba < lba).min? with
  | none => exact .inl rfl
  | some lba =>
    have hmem := (List.min?_eq_some_iff.mp hmin).1
    simp only [List.mem_filter, List.mem_map, decide_eq_true_eq] at hmem
    exact .inr ⟨hmem.2, hmem.1⟩

theorem toNat_nextStart_lt (disc : DiscLayout) (track : Track) :
    (disc.toc.nextStart track).toNat < 1151850 := by
  rcases disc.toc.nextStart_cases track with hlead | ⟨-, other, hmem, hother⟩
  · rw [hlead]
    exact disc.leadout_valid.lba_lt
  · rw [← hother]
    exact disc.startLba_lt hmem

theorem Toc.preview_isPreview {toc : Toc} (hle : track.startLba ≤ toc.nextStart track)
    (seconds : UInt32) : IsPreview toc track seconds (toc.preview track seconds) := by
  unfold preview
  have h75 : (75 : UInt32).toNat = 75 := rfl
  have hsub := toNat_sub32 hle
  have hmul : (seconds * 75).toNat = seconds.toNat * 75 % 2 ^ 32 := by
    rw [UInt32.toNat_mul, h75]
  rw [UInt32.le_iff_toNat_le] at hle
  constructor
  case le_seconds =>
    rw [toNat_min32, hmul]
    exact Nat.le_trans (Nat.min_le_left ..) (Nat.mod_le ..)
  case le_next =>
    rw [toNat_min32]
    omega
  case all =>
    intro hfits
    rw [toNat_min32, hmul, Nat.mod_eq_of_lt hfits]
    omega
  case apart =>
    intro other hmem
    rcases UInt32.le_or_lt other.startLba track.startLba with hother | hother
    · exact .inl hother
    · have hnext := UInt32.le_iff_toNat_le.mp (toc.nextStart_le hmem hother)
      rw [toNat_min32]
      exact .inr (by omega)

theorem previewSectors_cases (host : Host) (toc : Toc) (track : Track) (seconds : UInt32) :
    (previewSectors host toc track seconds = .error .arithmeticOverflow ∧
      host.overflowChecks = true ∧ toc.PreviewOverflows track seconds) ∨
    (previewSectors host toc track seconds = .ok (toc.preview track seconds) ∧
      (host.overflowChecks = true → ¬ toc.PreviewOverflows track seconds)) := by
  have h75 : (75 : UInt32).toNat = 75 := rfl
  unfold previewSectors
  cases hchecks : host.overflowChecks with
  | false => exact .inr ⟨rfl, nofun⟩
  | true =>
    rcases UInt32.lt_or_le (toc.nextStart track) track.startLba with hnext | hnext
    · rw [sub32_overflow hnext]
      exact .inl ⟨rfl, rfl, .inl hnext⟩
    · rw [sub32_ok hnext]
      rcases Nat.lt_or_ge (seconds.toNat * 75) (2 ^ 32) with hfits | hover
      · rw [mul32_ok (by rwa [h75])]
        refine .inr ⟨rfl, fun _ => ?_⟩
        rintro (hlt | hge)
        · exact absurd hlt (UInt32.not_lt.mpr hnext)
        · exact absurd hfits (Nat.not_lt.mpr hge)
      · rw [mul32_overflow (by rwa [h75])]
        exact .inl ⟨rfl, rfl, .inr hover⟩

-- ---------------------------------------------------------------------------
-- The program
-- ---------------------------------------------------------------------------

theorem createWav_unchecked {host : Host} (h : host.overflowChecks = false) (data : Bytes) :
    createWav host data = .ok (waveFile data) := by
  rw [createWav, createWavHeader, h]
  rfl

variable {medium : Medium}

/-- A preview is far from too long for a wave. -/
theorem preview_fits (hle : track.startLba ≤ medium.layout.toc.nextStart track)
    (hholds : medium.Holds .audio lba (medium.layout.toc.preview track seconds).toNat data) :
    data.length + 36 < 2 ^ 32 := by
  have hpreview := (Toc.preview_isPreview hle seconds).le_next
  have hnext := toNat_nextStart_lt medium.layout track
  have hsize : SectorReadFormat.audio.sectorSize = 2352 := rfl
  rw [hholds.length_eq, hsize]
  omega

/-- How the read of the preview ends. -/
inductive FetchesPreview (medium : Medium) (host : Host) (reader : CdReader) (seconds : UInt32)
    (track : Track) (s : ProgramState τ) : Outcome ProgramError Bytes → ProgramState τ → Prop
  | overflowed (hchecks : host.overflowChecks = true)
      (hover : medium.layout.toc.PreviewOverflows track seconds) :
      FetchesPreview medium host reader seconds track s
        (.error (.panic .arithmeticOverflow)) s
  | unread (hchecked : host.overflowChecks = true →
        ¬ medium.layout.toc.PreviewOverflows track seconds)
      (hwithin : ReadsWithin .audio track.startLba.toNat
        (track.startLba.toNat + (medium.layout.toc.preview track seconds).toNat) events)
      (hfails : ReadFails host .audio (reader.readCdChunk .audio) track.startLba.toNat
        (medium.layout.toc.preview track seconds).toNat s.history events err) :
      FetchesPreview medium host reader seconds track s (.error (.error (.reader err)))
        { s with history := s.history ++ events }
  | read (hchecked : host.overflowChecks = true →
        ¬ medium.layout.toc.PreviewOverflows track seconds)
      (hwithin : ReadsWithin .audio track.startLba.toNat
        (track.startLba.toNat + (medium.layout.toc.preview track seconds).toNat) events)
      (hholds : medium.Holds .audio track.startLba.toNat
        (medium.layout.toc.preview track seconds).toNat pcm) :
      FetchesPreview medium host reader seconds track s (.ok pcm)
        { s with history := s.history ++ events }

theorem previewFetch_exec (host : Host) {reader : CdReader} (hin : medium.In reader.drive)
    (seconds : UInt32) (track : Track) (s : ProgramState Empty) :
    ∃ outcome s', (previewFetch host reader seconds medium.layout.toc track).exec s =
        (outcome, s') ∧
      FetchesPreview medium host reader seconds track s outcome s' := by
  unfold previewFetch
  rcases previewSectors_cases host medium.layout.toc track seconds with
    ⟨hpanic, hchecks, hover⟩ | ⟨hsectors, hchecked⟩
  · rw [hpanic]
    exact ⟨_, _, rfl, .overflowed hchecks hover⟩
  · obtain ⟨events, result, hread, hrange⟩ := reader.readSectorRange_medium host hin track.startLba
      (medium.layout.toc.preview track seconds) .default s.history
    rw [exec_bind_checked hsectors, Program.call_exec hread]
    cases result with
    | error err => exact ⟨_, _, rfl, .unread hchecked hrange.within (hrange.fails err rfl)⟩
    | ok pcm => exact ⟨_, _, rfl, .read hchecked hrange.within (hrange.data pcm rfl)⟩

/-- The sectors of a preview fit in a wave, or the sum in its header wraps. -/
theorem createWav_preview (hchecked : host.overflowChecks = true →
      ¬ medium.layout.toc.PreviewOverflows track seconds)
    (hholds : medium.Holds .audio track.startLba.toNat
      (medium.layout.toc.preview track seconds).toNat pcm) :
    createWav host pcm = .ok (waveFile pcm) := by
  cases hchecks : host.overflowChecks with
  | false => exact createWav_unchecked hchecks pcm
  | true =>
    have hle := UInt32.not_lt.mp fun hlt => hchecked hchecks (.inl hlt)
    exact createWav_eq host (preview_fits hle hholds)

-- ---------------------------------------------------------------------------
-- How the program ends
-- ---------------------------------------------------------------------------

section
variable (medium : Medium) (host : Host) (disk : Disk) (reader : CdReader) (seconds : UInt32)
  (h : History)

/-- How the program ends, and the files that it leaves. Where the start of the
track is not past its end, the sectors are a preview and the file a wave. -/
inductive SavesPreview : Outcome ProgramError Unit → Files → History → Prop
  | unread (htable : medium.ReadsTable (reader.drive h .readToc) (.error err)) :
      SavesPreview (.error (.error (.reader err))) []
        (h ++ [.command .readToc (reader.drive h .readToc)])
  | missing (htable : medium.ReadsTable (reader.drive h .readToc) (.ok medium.layout.toc))
      (hpick : medium.layout.toc.firstAudio = none) :
      SavesPreview (.error (.error (.text noAudioTracks))) []
        (h ++ [.command .readToc (reader.drive h .readToc)])
  | overflowed (htable : medium.ReadsTable (reader.drive h .readToc) (.ok medium.layout.toc))
      (hpick : medium.layout.toc.firstAudio = some track)
      (hchecks : host.overflowChecks = true)
      (hover : medium.layout.toc.PreviewOverflows track seconds) :
      SavesPreview (.error (.panic .arithmeticOverflow)) []
        (h ++ [.command .readToc (reader.drive h .readToc)])
  | unfetched (htable : medium.ReadsTable (reader.drive h .readToc) (.ok medium.layout.toc))
      (hpick : medium.layout.toc.firstAudio = some track)
      (hchecked : host.overflowChecks = true →
        ¬ medium.layout.toc.PreviewOverflows track seconds)
      (hfails : ReadFails host .audio (reader.readCdChunk .audio) track.startLba.toNat
        (medium.layout.toc.preview track seconds).toNat
        (h ++ [.command .readToc (reader.drive h .readToc)]) events err) :
      SavesPreview (.error (.error (.reader err))) []
        (h ++ [.command .readToc (reader.drive h .readToc)] ++ events)
  | unwritten {failure : WriteFailure}
      (htable : medium.ReadsTable (reader.drive h .readToc) (.ok medium.layout.toc))
      (hpick : medium.layout.toc.firstAudio = some track)
      (hchecked : host.overflowChecks = true →
        ¬ medium.layout.toc.PreviewOverflows track seconds)
      (hholds : medium.Holds .audio track.startLba.toNat
        (medium.layout.toc.preview track seconds).toNat data)
      (hdisk : disk [] (previewFileName track.number) (waveFile data) = some failure) :
      SavesPreview (.error (.error (.write failure.err)))
        (failure.leave [] (previewFileName track.number) (waveFile data))
        (h ++ [.command .readToc (reader.drive h .readToc)] ++ events)
  | saved (htable : medium.ReadsTable (reader.drive h .readToc) (.ok medium.layout.toc))
      (hpick : medium.layout.toc.firstAudio = some track)
      (hchecked : host.overflowChecks = true →
        ¬ medium.layout.toc.PreviewOverflows track seconds)
      (hholds : medium.Holds .audio track.startLba.toNat
        (medium.layout.toc.preview track seconds).toNat data)
      (hdisk : disk [] (previewFileName track.number) (waveFile data) = none)
      (hpreview : track.startLba ≤ medium.layout.toc.nextStart track →
        IsPreview medium.layout.toc track seconds (medium.layout.toc.preview track seconds) ∧
        IsWaveOf (waveFile data) data) :
      SavesPreview (.ok ()) [(previewFileName track.number, waveFile data)]
        (h ++ [.command .readToc (reader.drive h .readToc)] ++ events)

/-- The table was read, and of the sectors only those of the preview. -/
def PreviewReads (history : History) : Prop :=
  ∃ answer events, history = h ++ .command .readToc answer :: events ∧
    ∀ cmd reply, .command cmd reply ∈ events → ∃ track lba n,
      medium.layout.toc.firstAudio = some track ∧ cmd = .readCd lba n .audio ∧
      track.startLba.toNat ≤ lba.toNat ∧ lba.toNat + n.toNat ≤
        track.startLba.toNat + (medium.layout.toc.preview track seconds).toNat

/-- What a run of the program may come to: the ways to end, and commands for
nothing but the table and the sectors of the preview. -/
structure Previews (result : Outcome ProgramError Unit) (s : ProgramState τ) : Prop where
  ends : SavesPreview medium host disk reader seconds h result s.files s.history
  reads : PreviewReads medium seconds h s.history

end

theorem PreviewReads.table (medium : Medium) (seconds : UInt32) (h : History) (answer : Answer) :
    PreviewReads medium seconds h (h ++ [.command .readToc answer]) := by
  refine ⟨answer, [], rfl, ?_⟩
  intro cmd reply hmem
  cases hmem

theorem PreviewReads.sectors (hpick : medium.layout.toc.firstAudio = some track)
    (hwithin : ReadsWithin .audio track.startLba.toNat
      (track.startLba.toNat + (medium.layout.toc.preview track seconds).toNat) events)
    (h : History) (answer : Answer) :
    PreviewReads medium seconds h (h ++ [.command .readToc answer] ++ events) := by
  refine ⟨answer, events, List.append_assoc .., ?_⟩
  intro cmd reply hmem
  obtain ⟨lba, n, rfl, -, hlo, hhi⟩ := hwithin cmd reply hmem
  exact ⟨track, lba, n, hpick, rfl, hlo, hhi⟩

/-- On any platform and for any number of seconds the program ends. It saves
as much of the first audio track as there is of that time, up to the next
start of a track, as a wave of the disc's sectors; or there is no such track,
or the table, the read or the write failed, and only the write leaves anything
behind. It panics where one of its two operations overflows and is checked;
unchecked, it saves the sectors of the wrapped numbers. -/
theorem playAudioTrack_platforms {platform : Platform} (hhonours : platform.Honours medium)
    (host : Host) (disk : Disk) (seconds : UInt32) (h : History) :
    ∃ result s',
      (playAudioTrack host disk platform.reader seconds).exec ⟨h, [], []⟩ = (result, s') ∧
      Previews medium host disk platform.reader seconds h result s' := by
  have hin := hhonours.in_drive
  have hfetched : ∀ track outcome s',
      (previewFetch host platform.reader seconds medium.layout.toc track).exec
        (.tableRead platform.reader h) = (outcome, s') →
      FetchesPreview medium host platform.reader seconds track (.tableRead platform.reader h)
        outcome s' := by
    intro track outcome s' hexec
    obtain ⟨_, _, hexec', hfetches⟩ :=
      previewFetch_exec host hin seconds track (.tableRead platform.reader h)
    cases hexec.symm.trans hexec'
    exact hfetches
  obtain ⟨outcome, s', hexec, hsaves⟩ := saveTrack_exec host disk hin h (by
    intro track pcm s' _ hexec
    cases hfetched track _ s' hexec with
    | read hchecked _ hholds => exact createWav_preview hchecked hholds)
  refine ⟨outcome, s', hexec, ?_⟩
  cases hsaves with
  | unread htable => exact ⟨.unread htable, .table ..⟩
  | missing htable hpick => exact ⟨.missing htable hpick, .table ..⟩
  | unfetched htable hpick hran =>
    cases hfetched _ _ _ hran with
    | overflowed hchecks hover =>
      exact ⟨.overflowed htable hpick hchecks hover, .table ..⟩
    | unread hchecked hwithin hfails =>
      exact ⟨.unfetched htable hpick hchecked hfails, .sectors hpick hwithin ..⟩
  | unwritten htable hpick hran hdisk =>
    cases hfetched _ _ _ hran with
    | read hchecked hwithin hholds =>
      exact ⟨.unwritten htable hpick hchecked hholds hdisk, .sectors hpick hwithin ..⟩
  | written htable hpick hran hdisk =>
    cases hfetched _ _ _ hran with
    | read hchecked hwithin hholds =>
      refine ⟨.saved htable hpick hchecked hholds hdisk ?_, .sectors hpick hwithin ..⟩
      intro hle
      exact ⟨Toc.preview_isPreview hle seconds, waveFile_isWaveOf (preview_fits hle hholds)⟩

theorem playAudioTrack_platforms_silent :
    ∃ result s', (playAudioTrack .desktop (fun _ _ _ => none) Platform.silent.reader 30).exec
        ⟨[], [], []⟩ = (result, s') ∧
      Previews Medium.silent .desktop (fun _ _ _ => none) Platform.silent.reader 30 [] result s' :=
  playAudioTrack_platforms Platform.silent_honours .desktop _ 30 []

end CdDaReader
