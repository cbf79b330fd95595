import CdDaReader.Stream.Refinement

/-!
# A read never leaves its track

On a well-ordered table every command of a whole-track read or of a stream
lies in the range of the requested track, so audio commands reach neither
data tracks nor the session gap, and data commands reach no audio track.
-/

namespace CdDaReader

open Rust

namespace Toc

/-- The sectors of the tracks of a kind, each up to the next mark. -/
def sectorsOf (toc : Toc) (isAudio : Bool) : Set ℕ :=
  {x | ∃ i track, toc.tracks[i]? = some track ∧ track.isAudio = isAudio ∧
    toc.mark i ≤ x ∧ x < toc.mark (i + 1)}

/-- A command for `n` sectors of `format` at `lba` keeps to a track of the
number, short of the session gap. -/
structure Confines (toc : Toc) (trackNo : UInt8) (format : SectorReadFormat) (lba n : Nat) :
    Prop where
  nonempty : 1 ≤ n
  inTrack : ∃ i track, toc.tracks[i]? = some track ∧ track.number = trackNo ∧
    track.startLba.toNat ≤ lba ∧ lba + n ≤ toc.mark (i + 1) ∧
    (toc.IsLastAudio i → i + 1 < toc.tracks.length → lba + n ≤ toc.mark (i + 1) - 11400)
  audio : format.isAudio = true → Disjoint (Set.Ico lba (lba + n)) (toc.sectorsOf false) ∧
    Disjoint (Set.Ico lba (lba + n)) toc.sessionGap
  data : format.isAudio = false → Disjoint (Set.Ico lba (lba + n)) (toc.sectorsOf true)

def Confined (toc : Toc) (trackNo : UInt8) (format : SectorReadFormat) (events : List Event) :
    Prop :=
  ∀ cmd answer, .command cmd answer ∈ events → ∃ lba n, cmd = .readCd lba n format ∧
    toc.Confines trackNo format lba.toNat n.toNat

end Toc

section
variable {toc : Toc}

theorem Granted.disjoint_sectorsOf (h : Granted toc trackNo format start sectors i track)
    (hord : toc.WellOrdered) (hlo : toc.mark i ≤ lba) (hhi : lba + n ≤ toc.stop i)
    (hkind : kind ≠ format.isAudio) : Disjoint (Set.Ico lba (lba + n)) (toc.sectorsOf kind) := by
  rw [Set.disjoint_left]
  rintro x ⟨hx, hx'⟩ ⟨j, track', htrack', hkind', hcell⟩
  have hmem : x ∈ hord.spans.cell i := hord.mem_cell (hlo.trans hx) (lt_of_lt_of_le hx' hhi)
  obtain rfl := hord.spans.cell_unique hmem hcell
  rw [h.track_eq] at htrack'
  cases htrack'
  exact hkind (hkind'.symm.trans h.kind_eq)

theorem Granted.disjoint_sessionGap (hord : toc.WellOrdered) (hlo : toc.mark i ≤ lba)
    (hhi : lba + n ≤ toc.stop i) : Disjoint (Set.Ico lba (lba + n)) toc.sessionGap := by
  rw [Set.disjoint_left]
  rintro x ⟨hx, hx'⟩ hgap
  obtain ⟨j, -, hgap⟩ := hord.mem_sessionGap.mp hgap
  exact Set.disjoint_left.mp (hord.spans.disjoint_span_gap i j)
    ⟨hlo.trans hx, lt_of_lt_of_le hx' hhi⟩ hgap

theorem Granted.confines (h : Granted toc trackNo format start sectors i track)
    (hord : toc.WellOrdered) (hn : 1 ≤ n) (hlo : start.toNat ≤ lba)
    (hhi : lba + n ≤ start.toNat + sectors.toNat) : toc.Confines trackNo format lba n := by
  rw [h.start_eq] at hlo
  rw [h.stop_eq] at hhi
  constructor
  case nonempty => exact hn
  case inTrack =>
    refine ⟨i, track, h.track_eq, h.number_eq, ?_, hhi.trans (toc.stop_le_mark i), ?_⟩
    · rwa [← Toc.mark_of_getElem? h.track_eq]
    · intro hlast hnext
      rwa [Toc.stop, Toc.boundary_iff.mpr ⟨hlast, hnext⟩, if_pos rfl] at hhi
  case audio =>
    intro haudio
    exact ⟨h.disjoint_sectorsOf hord hlo hhi (by simp [haudio]),
      disjoint_sessionGap hord hlo hhi⟩
  case data =>
    intro hdata
    exact h.disjoint_sectorsOf hord hlo hhi (by simp [hdata])

theorem Granted.confined (h : Granted toc trackNo format start sectors i track)
    (hord : toc.WellOrdered)
    (hreads : ReadsWithin format start.toNat (start.toNat + sectors.toNat) events) :
    toc.Confined trackNo format events := by
  intro cmd answer hmem
  obtain ⟨lba, n, rfl, hn, hlo, hhi⟩ := hreads cmd answer hmem
  exact ⟨lba, n, rfl, h.confines hord hn hlo hhi⟩

end

/-- No command of a read of a track, or of a stream on it, leaves the track,
and a request that is refused issues none. -/
structure StaysInTrack (host : Host) (reader : CdReader) (toc : Toc) (trackNo : UInt8) : Prop where
  readTrack : ∀ options h, ∃ events,
    ((reader.readTrackWithOptions host toc trackNo options).exec h).2 = h ++ events ∧
    toc.Confined trackNo options.format events
  stream : ∀ options stream,
    reader.openTrackStreamWithOptions host toc trackNo options = .ok stream →
      ∀ ops h, ∃ events, (StreamState.after host ⟨stream, h⟩ ops).history = h ++ events ∧
        toc.Confined trackNo options.format events
  mismatched : ∀ track options h,
    (toc.tracks.find? fun track => track.number == trackNo) = some track →
      track.isAudio ≠ options.format.isAudio →
        (reader.readTrackWithOptions host toc trackNo options).exec h =
          (.error (.error (.trackFormatMismatch track.number track.isAudio options.format)), h)
  outOfBounds : ∀ err options h, getTrackBounds host toc trackNo = .error (.error err) →
    ∃ err, (reader.readTrackWithOptions host toc trackNo options).exec h =
      (.error (.error err), h)

theorem reads_stayInTrack (host : Host) (reader : CdReader) (trackNo : UInt8) {toc : Toc}
    (hord : toc.WellOrdered) : StaysInTrack host reader toc trackNo := by
  constructor
  case readTrack =>
    intro options h
    rw [CdReader.readTrackWithOptions_exec]
    cases hrequest : trackRequest host toc trackNo options.format with
    | error fault =>
      refine ⟨[], (List.append_nil h).symm, ?_⟩
      intro cmd answer hmem
      cases hmem
    | ok range =>
      obtain ⟨start, sectors⟩ := range
      obtain ⟨i, track, hgranted⟩ := trackRequest_ok hrequest
      obtain ⟨events, result, hreads, hexec⟩ :=
        reader.readSectorRange_total host start sectors options h
      refine ⟨events, ?_, hgranted.confined hord hreads⟩
      simp only [hexec]
  case stream =>
    intro options stream hopen ops h
    obtain ⟨events, p, -, -, hreads, hafter⟩ := StreamState.after_opened hopen ops h
    obtain ⟨start, sectors, hrequest, rfl⟩ := CdReader.openTrackStreamWithOptions_ok hopen
    obtain ⟨i, track, hgranted⟩ := trackRequest_ok hrequest
    refine ⟨events, ?_, hgranted.confined hord hreads⟩
    rw [hafter]
  case mismatched =>
    intro track options h hfind hkind
    rw [CdReader.readTrackWithOptions_exec, trackRequest, hfind]
    simp only [validateTrackFormat_eq, hkind, ↓reduceIte]
    rfl
  case outOfBounds =>
    intro err options h hbounds
    rw [CdReader.readTrackWithOptions_exec]
    rcases trackRequest_total host toc trackNo options.format with
      ⟨start, sectors, i, track, hrequest, -⟩ | ⟨err', hrequest⟩
    · cases hbounds.symm.trans (getTrackBounds_of_request hrequest)
    · rw [hrequest]
      exact ⟨err', rfl⟩

theorem reads_stayInTrack_cdExtra :
    StaysInTrack .desktop ⟨(Disc.blank 7).coldDrive⟩ Toc.cdExtra 2 :=
  reads_stayInTrack .desktop _ 2 Toc.wellOrdered_cdExtra

end CdDaReader
