import CdDaReader.TrackBounds
import CdDaReader.Order.Spans

/-!
# The ranges of the tracks partition the disc

On a well-ordered table of contents the marks rise from track to track, so
the ranges the code returns are spans between them. They leave out one gap at
most: the one before the first of the trailing data tracks.
-/

namespace CdDaReader

open Rust

namespace Toc

/-- Distinct numbers, rising starts, and a lead-out after the last of them. -/
structure WellOrdered (toc : Toc) : Prop where
  numbers : (toc.tracks.map Track.number).Nodup
  starts : toc.tracks.Pairwise fun a b => a.startLba < b.startLba
  leadout : ∀ track ∈ toc.tracks.getLast?, track.startLba < toc.leadoutLba

/-- The last audio track of the list is at this index. -/
def IsLastAudio (toc : Toc) (i : Nat) : Prop :=
  (∃ track, toc.tracks[i]? = some track ∧ track.isAudio = true) ∧
    ∀ j track, i < j → toc.tracks[j]? = some track → track.isAudio = false

theorem IsLastAudio.unique {toc : Toc} (hi : toc.IsLastAudio i) (hj : toc.IsLastAudio j) :
    i = j := by
  obtain ⟨⟨a, ha, haudio⟩, hlast⟩ := hi
  obtain ⟨⟨b, hb, hbudio⟩, hlast'⟩ := hj
  rcases Nat.lt_trichotomy i j with hlt | heq | hgt
  · exact absurd hbudio (by simp [hlast j b hlt hb])
  · exact heq
  · exact absurd haudio (by simp [hlast' i a hgt ha])

theorem boundary_iff {toc : Toc} :
    toc.boundary i = true ↔ toc.IsLastAudio i ∧ i + 1 < toc.tracks.length := by
  unfold boundary IsLastAudio
  cases htrack : toc.tracks[i]? with
  | none => simp
  | some track =>
    simp only [Bool.and_eq_true, decide_eq_true_eq, List.all_eq_true, Bool.not_eq_true']
    constructor
    · rintro ⟨⟨haudio, hlt⟩, hall⟩
      refine ⟨⟨⟨track, rfl, haudio⟩, ?_⟩, hlt⟩
      intro j later hij hlater
      refine hall later (List.mem_of_getElem? (i := j - (i + 1)) ?_)
      rw [List.getElem?_drop, Nat.add_sub_cancel' hij, hlater]
    · rintro ⟨⟨⟨track', heq, haudio⟩, hall⟩, hlt⟩
      cases heq
      refine ⟨⟨haudio, hlt⟩, ?_⟩
      intro later hmem
      obtain ⟨k, hk⟩ := List.getElem?_of_mem hmem
      rw [List.getElem?_drop] at hk
      exact hall _ later (by omega) hk

-- ---------------------------------------------------------------------------
-- The spans of a well-ordered table
-- ---------------------------------------------------------------------------

theorem WellOrdered.mark_lt_succ {toc : Toc} (h : toc.WellOrdered) (hi : i < toc.tracks.length) :
    toc.mark i < toc.mark (i + 1) := by
  rw [mark_of_getElem? (List.getElem?_eq_getElem hi)]
  rcases Nat.lt_or_ge (i + 1) toc.tracks.length with hnext | hlast
  · rw [mark_of_getElem? (List.getElem?_eq_getElem hnext)]
    have hlt := List.pairwise_iff_getElem.mp h.starts i (i + 1) hi hnext (Nat.lt_succ_self i)
    exact UInt32.lt_iff_toNat_lt.mp hlt
  · rw [mark_of_length_le hlast]
    refine UInt32.lt_iff_toNat_lt.mp (h.leadout _ ?_)
    have heq : toc.tracks.length - 1 = i := by omega
    rw [List.getLast?_eq_getElem?, heq]
    exact List.getElem?_eq_getElem hi

theorem WellOrdered.mark_mono {toc : Toc} (h : toc.WellOrdered) : Monotone toc.mark := by
  refine monotone_nat_of_le_succ fun i => ?_
  rcases Nat.lt_or_ge i toc.tracks.length with hlt | hge
  · exact Nat.le_of_lt (h.mark_lt_succ hlt)
  · rw [mark_of_length_le hge, mark_of_length_le (Nat.le_succ_of_le hge)]

def WellOrdered.spans {toc : Toc} (h : toc.WellOrdered) : Spans ℕ where
  count := toc.tracks.length
  mark := toc.mark
  stop := toc.stop
  mono := h.mark_mono
  stop_le := toc.stop_le_mark

theorem WellOrdered.find_number {toc : Toc} (h : toc.WellOrdered)
    (htrack : toc.tracks[i]? = some track) : toc.find track.number = some i := by
  obtain ⟨hi, rfl⟩ := List.getElem?_eq_some_iff.mp htrack
  refine List.findIdx?_eq_some_iff_getElem.mpr ⟨hi, by simp, ?_⟩
  intro j hj
  have hne := List.pairwise_iff_getElem.mp h.numbers j i (by simpa using by omega) (by simpa) hj
  simpa using hne

theorem find_lt {toc : Toc} (h : toc.find trackNo = some i) : i < toc.tracks.length := by
  obtain ⟨track, htrack, -⟩ := find_some h
  exact (List.getElem?_eq_some_iff.mp htrack).1

def range (host : Host) (toc : Toc) (trackNo : UInt8) : Set ℕ :=
  {x | ∃ start sectors, getTrackBounds host toc trackNo = .ok (start, sectors) ∧
    start.toNat ≤ x ∧ x < start.toNat + sectors.toNat}

theorem mem_range {host : Host} {toc : Toc} :
    x ∈ range host toc trackNo ↔
      ∃ i, toc.find trackNo = some i ∧ toc.mark i ≤ x ∧ x < toc.stop i := by
  constructor
  · rintro ⟨start, sectors, hok, hlo, hhi⟩
    obtain ⟨i, hfind, -, hstart, hstop⟩ := getTrackBounds_ok.mp hok
    exact ⟨i, hfind, hstart ▸ hlo, hstop ▸ hhi⟩
  · rintro ⟨i, hfind, hlo, hhi⟩
    have hlt := Nat.lt_of_le_of_lt hlo hhi
    have hbounds := getTrackBounds_eq host toc trackNo
    rw [hfind] at hbounds
    simp only [hlt, ↓reduceIte] at hbounds
    obtain ⟨j, hj, -, hstart, hstop⟩ := getTrackBounds_ok.mp hbounds
    cases hfind.symm.trans hj
    exact ⟨_, _, hbounds, by omega, by omega⟩

/-- The sectors the boundary track loses: those before the track after it,
down to the boundary track's own start. -/
def sessionGap (toc : Toc) : Set ℕ :=
  {x | ∃ i track next, isCdExtraAudioSessionBoundary toc i = .ok true ∧
    toc.tracks[i]? = some track ∧ toc.tracks[i + 1]? = some next ∧
    next.startLba.toNat - min 11400 (next.startLba.toNat - track.startLba.toNat) ≤ x ∧
    x < next.startLba.toNat}

theorem exists_of_boundary {toc : Toc} (h : toc.boundary i = true) :
    ∃ track next, toc.tracks[i]? = some track ∧ toc.tracks[i + 1]? = some next := by
  have hlt := boundary_succ_lt h
  exact ⟨_, _, List.getElem?_eq_getElem (Nat.lt_of_succ_lt hlt), List.getElem?_eq_getElem hlt⟩

theorem boundary_of_code {toc : Toc} (h : isCdExtraAudioSessionBoundary toc i = .ok true) :
    toc.boundary i = true := by
  cases htrack : toc.tracks[i]? with
  | none =>
    unfold isCdExtraAudioSessionBoundary index at h
    rw [htrack] at h
    cases h
  | some track =>
    rw [isCdExtraAudioSessionBoundary_eq htrack] at h
    exact Except.ok.inj h

theorem code_of_boundary {toc : Toc} (h : toc.boundary i = true) :
    isCdExtraAudioSessionBoundary toc i = .ok true := by
  obtain ⟨track, -, htrack, -⟩ := exists_of_boundary h
  rw [isCdExtraAudioSessionBoundary_eq htrack, h]

theorem WellOrdered.mem_sessionGap {toc : Toc} (h : toc.WellOrdered) :
    x ∈ toc.sessionGap ↔ ∃ i < toc.tracks.length, x ∈ h.spans.gap i := by
  constructor
  · rintro ⟨i, track, next, hcode, htrack, hnext, hlo, hhi⟩
    have hi := (List.getElem?_eq_some_iff.mp htrack).1
    refine ⟨i, hi, ?_⟩
    have hrise := h.mark_lt_succ hi
    show max (toc.mark i) (toc.stop i) ≤ x ∧ x < toc.mark (i + 1)
    rw [stop, boundary_of_code hcode, mark_of_getElem? htrack, mark_of_getElem? hnext]
    rw [mark_of_getElem? htrack, mark_of_getElem? hnext] at hrise
    simp only [↓reduceIte]
    omega
  · rintro ⟨i, hi, hgap⟩
    have hrise := h.mark_lt_succ hi
    replace hgap : max (toc.mark i) (toc.stop i) ≤ x ∧ x < toc.mark (i + 1) := hgap
    cases hb : toc.boundary i with
    | false =>
      simp only [stop, hb, Bool.false_eq_true, ↓reduceIte] at hgap
      omega
    | true =>
      obtain ⟨track, next, htrack, hnext⟩ := exists_of_boundary hb
      refine ⟨i, track, next, code_of_boundary hb, htrack, hnext, ?_⟩
      rw [stop, hb, mark_of_getElem? htrack, mark_of_getElem? hnext] at hgap
      rw [mark_of_getElem? htrack, mark_of_getElem? hnext] at hrise
      simp only [↓reduceIte] at hgap
      omega

-- ---------------------------------------------------------------------------
-- The partition
-- ---------------------------------------------------------------------------

def program (toc : Toc) : Set ℕ := Set.Ico (toc.mark 0) toc.leadoutLba.toNat

/-- The boundary track is too short to lose the gap. -/
def TooShort (toc : Toc) (i : Nat) : Prop :=
  isCdExtraAudioSessionBoundary toc i = .ok true ∧
    ∃ track next, toc.tracks[i]? = some track ∧ toc.tracks[i + 1]? = some next ∧
      next.startLba.toNat - track.startLba.toNat ≤ 11400

/-- The ranges of the tracks partition the disc up to the session gap. -/
structure Partitioned (host : Host) (toc : Toc) : Prop where
  boundary_iff : ∀ i, isCdExtraAudioSessionBoundary toc i = .ok true ↔
    toc.IsLastAudio i ∧ i + 1 < toc.tracks.length
  boundary_unique : ∀ i j, isCdExtraAudioSessionBoundary toc i = .ok true →
    isCdExtraAudioSessionBoundary toc j = .ok true → i = j
  bounds : ∀ i track, toc.tracks[i]? = some track → ¬ toc.TooShort i →
    ∃ start sectors, getTrackBounds host toc track.number = .ok (start, sectors)
  tooShort : ∀ i track, toc.tracks[i]? = some track → toc.TooShort i →
    ∃ message, getTrackBounds host toc track.number = .error (.error ⟨.invalidData, message⟩)
  nonempty : ∀ trackNo start sectors,
    getTrackBounds host toc trackNo = .ok (start, sectors) → 0 < sectors.toNat
  disjoint : ∀ m n, m ≠ n → Disjoint (toc.range host m) (toc.range host n)
  uncovered : ∀ x ∈ toc.program, (∀ trackNo, x ∉ toc.range host trackNo) ↔ x ∈ toc.sessionGap
  covered : ∀ x ∈ toc.program, x ∉ toc.sessionGap → ∃! trackNo, x ∈ toc.range host trackNo
  inside : ∀ trackNo, toc.range host trackNo ⊆ toc.program

theorem WellOrdered.mem_cell {toc : Toc} (h : toc.WellOrdered) (hlo : toc.mark i ≤ x)
    (hhi : x < toc.stop i) : x ∈ h.spans.cell i := h.spans.span_subset_cell i ⟨hlo, hhi⟩

theorem find_inj {toc : Toc} (hm : toc.find m = some i) (hn : toc.find n = some i) : m = n := by
  obtain ⟨track, htrack, rfl⟩ := find_some hm
  obtain ⟨track', htrack', rfl⟩ := find_some hn
  rw [htrack] at htrack'
  cases htrack'
  rfl

theorem WellOrdered.range_unique {host : Host} {toc : Toc} (h : toc.WellOrdered)
    (hm : x ∈ toc.range host m) (hn : x ∈ toc.range host n) : m = n := by
  obtain ⟨i, hi, hlo, hhi⟩ := mem_range.mp hm
  obtain ⟨j, hj, hlo', hhi'⟩ := mem_range.mp hn
  obtain rfl := h.spans.cell_unique (h.mem_cell hlo hhi) (h.mem_cell hlo' hhi')
  exact find_inj hi hj

theorem WellOrdered.mem_range_iff_span {host : Host} {toc : Toc} (h : toc.WellOrdered) :
    (∃ trackNo, x ∈ toc.range host trackNo) ↔ ∃ i < toc.tracks.length, x ∈ h.spans.span i := by
  constructor
  · rintro ⟨trackNo, hx⟩
    obtain ⟨i, hfind, hlo, hhi⟩ := mem_range.mp hx
    exact ⟨i, find_lt hfind, hlo, hhi⟩
  · rintro ⟨i, hi, hlo, hhi⟩
    have hfind := h.find_number (List.getElem?_eq_getElem hi)
    exact ⟨_, mem_range.mpr ⟨i, hfind, hlo, hhi⟩⟩

theorem WellOrdered.program_eq {toc : Toc} (h : toc.WellOrdered) :
    toc.program = Set.Ico (h.spans.mark 0) (h.spans.mark h.spans.count) := by
  show Set.Ico (toc.mark 0) _ = Set.Ico (toc.mark 0) (toc.mark toc.tracks.length)
  rw [mark_of_length_le (Nat.le_refl _)]

theorem WellOrdered.uncovered_iff (host : Host) {toc : Toc} (h : toc.WellOrdered)
    (hx : x ∈ toc.program) :
    (∀ trackNo, x ∉ toc.range host trackNo) ↔ x ∈ toc.sessionGap := by
  have hspan := @mem_range_iff_span x host toc h
  rw [h.mem_sessionGap]
  refine Iff.trans ?_ (h.spans.uncovered_iff (h.program_eq ▸ hx))
  constructor
  · intro hnone i hi hmem
    obtain ⟨trackNo, hrange⟩ := hspan.mpr ⟨i, hi, hmem⟩
    exact hnone trackNo hrange
  · intro hnone trackNo hrange
    obtain ⟨i, hi, hmem⟩ := hspan.mp ⟨trackNo, hrange⟩
    exact hnone i hi hmem

/-- A listed track is refused exactly when it is the boundary track and too
short for the gap. -/
theorem WellOrdered.mark_lt_stop_iff {toc : Toc} (h : toc.WellOrdered)
    (htrack : toc.tracks[i]? = some track) : toc.mark i < toc.stop i ↔ ¬ toc.TooShort i := by
  have hrise := h.mark_lt_succ (List.getElem?_eq_some_iff.mp htrack).1
  unfold TooShort
  cases hb : toc.boundary i with
  | false =>
    have hcode : isCdExtraAudioSessionBoundary toc i ≠ .ok true := by
      rw [isCdExtraAudioSessionBoundary_eq htrack, hb]
      simp
    simp [stop, hb, hrise, hcode]
  | true =>
    obtain ⟨-, next, -, hnext⟩ := exists_of_boundary hb
    rw [mark_of_getElem? htrack, mark_of_getElem? hnext] at hrise
    have hcode := code_of_boundary hb
    simp only [stop, hb, ↓reduceIte, hcode, htrack, hnext, mark_of_getElem? htrack,
      mark_of_getElem? hnext, true_and, Option.some.injEq, exists_and_left, exists_eq_left']
    omega

/-- On a well-ordered table the ranges of the tracks partition the disc, up
to the gap between the sessions of a CD-Extra disc. -/
theorem getTrackBounds_partition (host : Host) {toc : Toc} (h : toc.WellOrdered) :
    Partitioned host toc where
  boundary_iff i := ⟨fun hcode => boundary_iff.mp (boundary_of_code hcode),
    fun hlast => code_of_boundary (boundary_iff.mpr hlast)⟩
  boundary_unique i j hi hj := by
    obtain ⟨hlast, -⟩ := boundary_iff.mp (boundary_of_code hi)
    obtain ⟨hlast', -⟩ := boundary_iff.mp (boundary_of_code hj)
    exact hlast.unique hlast'
  bounds i track htrack hlong := by
    have hlt := (h.mark_lt_stop_iff htrack).mpr hlong
    rw [getTrackBounds_eq, h.find_number htrack]
    simp only [hlt, ↓reduceIte]
    exact ⟨_, _, rfl⟩
  tooShort i track htrack hshort := by
    have hnot := mt (h.mark_lt_stop_iff htrack).mp (not_not.mpr hshort)
    rw [getTrackBounds_eq, h.find_number htrack]
    simp only [hnot, ↓reduceIte]
    exact ⟨_, rfl⟩
  nonempty trackNo start sectors hok := by
    obtain ⟨i, -, hlt, hstart, hstop⟩ := getTrackBounds_ok.mp hok
    omega
  disjoint m n hne := by
    rw [Set.disjoint_left]
    intro x hm hn
    exact hne (h.range_unique hm hn)
  uncovered x hx := h.uncovered_iff host hx
  covered x hx hgap := by
    have hsome := mt (h.uncovered_iff host hx).mp hgap
    obtain ⟨trackNo, hmem⟩ := not_forall.mp hsome
    have hmem := not_not.mp hmem
    exact ⟨trackNo, hmem, fun other hother => h.range_unique hother hmem⟩
  inside trackNo x hx := by
    obtain ⟨i, hfind, hlo, hhi⟩ := mem_range.mp hx
    rw [h.program_eq]
    exact h.spans.mem_cell_bounds (find_lt hfind) (h.mem_cell hlo hhi)

/-- Two audio tracks, then two data tracks in a second session. -/
def cdExtra : Toc where
  firstTrack := 1
  lastTrack := 4
  tracks := [⟨1, 0, (0, 2, 0), true⟩, ⟨2, 10000, (2, 15, 25), true⟩,
    ⟨3, 40000, (8, 55, 25), false⟩, ⟨4, 80000, (17, 48, 50), false⟩]
  leadoutLba := 120000

theorem wellOrdered_cdExtra : cdExtra.WellOrdered := by
  constructor <;> decide

theorem getTrackBounds_partition_cdExtra : cdExtra.WellOrdered ∧ Partitioned .desktop cdExtra :=
  ⟨wellOrdered_cdExtra, getTrackBounds_partition .desktop wellOrdered_cdExtra⟩

end Toc

end CdDaReader
