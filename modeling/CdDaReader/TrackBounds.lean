import CdDaReader.Drive

/-!
# The sector range of a track

A track runs from its start to the start of the next track, or to the
lead-out. The last audio track before trailing data tracks ends earlier, by
the gap between the two sessions of a CD-Extra disc. `Toc.mark` and
`Toc.stop` are those addresses as numbers, and `getTrackBounds_eq` is what
the code makes of them.
-/

namespace CdDaReader

open Rust

def cdExtraTrailingDataGapSectors : UInt32 := 11400

def badTocBounds : IoError := ⟨.invalidData, "bad TOC bounds"⟩

def isCdExtraAudioSessionBoundary (toc : Toc) (idx : Nat) : Checked Bool := do
  let track ← index toc.tracks idx
  if track.isAudio && decide (idx + 1 < toc.tracks.length) then
    let later ← sliceFrom toc.tracks (idx + 1)
    return later.all fun track => !track.isAudio
  else
    return false

def getTrackEndLba (toc : Toc) (idx : Nat) : Outcome IoError UInt32 := do
  if ← isCdExtraAudioSessionBoundary toc idx then
    let next ← index toc.tracks (idx + 1)
    okOr (checkedSub32 next.startLba cdExtraTrailingDataGapSectors) badTocBounds
  else if idx + 1 < toc.tracks.length then
    let next ← index toc.tracks (idx + 1)
    return next.startLba
  else
    return toc.leadoutLba

def getTrackBounds (host : Host) (toc : Toc) (trackNo : UInt8) :
    Outcome IoError (UInt32 × UInt32) := do
  let idx ← okOr (toc.tracks.findIdx? fun track => track.number == trackNo)
    ⟨.notFound, "track not in TOC"⟩
  let track ← index toc.tracks idx
  let startLba := track.startLba
  let endLba ← getTrackEndLba toc idx
  if endLba ≤ startLba then
    fail badTocBounds
  let sectors ← sub32 host.overflowChecks endLba startLba
  return (startLba, sectors)

-- ---------------------------------------------------------------------------
-- Marks and stops
-- ---------------------------------------------------------------------------

namespace Toc

/-- Where the track at an index starts; past the last one, the lead-out. -/
def mark (toc : Toc) (i : Nat) : Nat :=
  match toc.tracks[i]? with
  | some track => track.startLba.toNat
  | none => toc.leadoutLba.toNat

/-- The track at an index is audio, and data tracks only follow it. -/
def boundary (toc : Toc) (i : Nat) : Bool :=
  match toc.tracks[i]? with
  | some track => track.isAudio && decide (i + 1 < toc.tracks.length) &&
      (toc.tracks.drop (i + 1)).all fun track => !track.isAudio
  | none => false

def stop (toc : Toc) (i : Nat) : Nat :=
  toc.mark (i + 1) - if toc.boundary i then 11400 else 0

def find (toc : Toc) (trackNo : UInt8) : Option Nat :=
  toc.tracks.findIdx? fun track => track.number == trackNo

theorem mark_of_getElem? {toc : Toc} (h : toc.tracks[i]? = some track) :
    toc.mark i = track.startLba.toNat := by
  simp [mark, h]

theorem mark_of_length_le {toc : Toc} (h : toc.tracks.length ≤ i) :
    toc.mark i = toc.leadoutLba.toNat := by
  simp [mark, h]

theorem mark_lt (toc : Toc) (i : Nat) : toc.mark i < 2 ^ 32 := by
  unfold mark
  split <;> exact UInt32.toNat_lt _

theorem stop_le_mark (toc : Toc) (i : Nat) : toc.stop i ≤ toc.mark (i + 1) := Nat.sub_le ..

theorem stop_lt (toc : Toc) (i : Nat) : toc.stop i < 2 ^ 32 :=
  Nat.lt_of_le_of_lt (toc.stop_le_mark i) (toc.mark_lt _)

theorem find_some {toc : Toc} (h : toc.find trackNo = some i) :
    ∃ track, toc.tracks[i]? = some track ∧ track.number = trackNo := by
  obtain ⟨hi, hnum, -⟩ := List.findIdx?_eq_some_iff_getElem.mp h
  exact ⟨toc.tracks[i], List.getElem?_eq_getElem hi, by simpa using hnum⟩

end Toc

-- ---------------------------------------------------------------------------
-- What the code computes
-- ---------------------------------------------------------------------------

theorem isCdExtraAudioSessionBoundary_eq {toc : Toc} (h : toc.tracks[i]? = some track) :
    isCdExtraAudioSessionBoundary toc i = .ok (toc.boundary i) := by
  unfold isCdExtraAudioSessionBoundary Toc.boundary
  rw [index_ok h, h]
  simp only [bind, Except.bind]
  split <;> rename_i hcond
  · have hlt : i + 1 < toc.tracks.length := by
      simp only [Bool.and_eq_true, decide_eq_true_eq] at hcond
      exact hcond.2
    rw [sliceFrom_ok (Nat.le_of_lt hlt), hcond]
    rfl
  · rw [Bool.not_eq_true] at hcond
    rw [hcond]
    rfl

theorem Toc.boundary_succ_lt {toc : Toc} (h : toc.boundary i = true) :
    i + 1 < toc.tracks.length := by
  unfold boundary at h
  split at h
  · simp only [Bool.and_eq_true, decide_eq_true_eq] at h
    exact h.1.2
  · cases h

/-- The end of a track is its stop, unless the gap reaches below address 0. -/
theorem getTrackEndLba_eq {toc : Toc} (h : toc.tracks[i]? = some track) :
    getTrackEndLba toc i =
      if toc.boundary i = true ∧ toc.mark (i + 1) < 11400 then .error (.error badTocBounds)
      else .ok (.ofNat (toc.stop i)) := by
  unfold getTrackEndLba Toc.stop
  rw [isCdExtraAudioSessionBoundary_eq h]
  cases hb : toc.boundary i with
  | true =>
    obtain ⟨next, hnext⟩ : ∃ next, toc.tracks[i + 1]? = some next :=
      ⟨_, List.getElem?_eq_getElem (Toc.boundary_succ_lt hb)⟩
    rw [index_ok hnext, Toc.mark_of_getElem? hnext]
    simp only [Outcome.lift_ok, Outcome.bind_ok, ↓reduceIte, true_and, checkedSub32,
      cdExtraTrailingDataGapSectors, UInt32.le_iff_toNat_le, UInt32.reduceToNat]
    split <;> rename_i hle
    · rw [if_neg (Nat.not_lt.mpr hle), okOr_some]
      refine congrArg Except.ok (UInt32.toNat_inj.mp ?_)
      have hsub : (next.startLba - 11400).toNat = next.startLba.toNat - 11400 :=
        toNat_sub32 (UInt32.le_iff_toNat_le.mpr hle)
      have hlt := next.startLba.toNat_lt
      rw [hsub, toNat_ofNat32 (by omega)]
    · rw [if_pos (Nat.lt_of_not_le hle), okOr_none]
  | false =>
    simp only [Outcome.lift_ok, Outcome.bind_ok, Bool.false_eq_true, ↓reduceIte, false_and,
      Nat.sub_zero]
    split <;> rename_i hlt
    · obtain ⟨next, hnext⟩ : ∃ next, toc.tracks[i + 1]? = some next :=
        ⟨_, List.getElem?_eq_getElem hlt⟩
      rw [index_ok hnext, Toc.mark_of_getElem? hnext, UInt32.ofNat_toNat]
      rfl
    · rw [Toc.mark_of_length_le (Nat.le_of_not_lt hlt), UInt32.ofNat_toNat]
      rfl

/-- A listed track whose start lies below its stop has the range between
them; every other number is refused. -/
theorem getTrackBounds_eq (host : Host) (toc : Toc) (trackNo : UInt8) :
    getTrackBounds host toc trackNo =
      match toc.find trackNo with
      | none => .error (.error ⟨.notFound, "track not in TOC"⟩)
      | some i =>
        if toc.mark i < toc.stop i then .ok (.ofNat (toc.mark i), .ofNat (toc.stop i - toc.mark i))
        else .error (.error badTocBounds) := by
  unfold getTrackBounds
  show (okOr (toc.find trackNo) _ >>= _) = _
  cases hfind : toc.find trackNo with
  | none => rfl
  | some i =>
    obtain ⟨track, htrack, -⟩ := Toc.find_some hfind
    have hmark := Toc.mark_of_getElem? htrack
    have hstop := toc.stop_lt i
    rw [okOr_some, Outcome.bind_ok, index_ok htrack, getTrackEndLba_eq htrack]
    simp only [Outcome.lift_ok, Outcome.bind_ok]
    split <;> rename_i hgap
    · have hzero : toc.stop i = 0 := by
        simp only [Toc.stop, hgap.1, ↓reduceIte]
        omega
      simp [hzero]
    · have hend : (UInt32.ofNat (toc.stop i)).toNat = toc.stop i := toNat_ofNat32 hstop
      simp only [Outcome.bind_ok, UInt32.le_iff_toNat_le, hend, ← hmark]
      split <;> rename_i hle
      · rw [if_neg (Nat.not_lt.mpr hle)]
        rfl
      · have hlt : toc.mark i < toc.stop i := Nat.lt_of_not_le hle
        have hle' : track.startLba ≤ UInt32.ofNat (toc.stop i) := by
          rw [UInt32.le_iff_toNat_le, hend, ← hmark]
          exact Nat.le_of_lt hlt
        rw [if_pos hlt, sub32_ok hle']
        simp only [Outcome.pure_eq, Outcome.lift_ok, Outcome.bind_ok]
        refine congrArg Except.ok (Prod.ext ?_ (UInt32.toNat_inj.mp ?_))
        · rw [hmark, UInt32.ofNat_toNat]
        · rw [toNat_sub32 hle', hend, ← hmark, toNat_ofNat32 (by omega)]

theorem getTrackBounds_ok {host : Host} {toc : Toc} :
    getTrackBounds host toc trackNo = .ok (start, sectors) ↔
      ∃ i, toc.find trackNo = some i ∧ toc.mark i < toc.stop i ∧ start.toNat = toc.mark i ∧
        start.toNat + sectors.toNat = toc.stop i := by
  rw [getTrackBounds_eq]
  cases hfind : toc.find trackNo with
  | none => simp
  | some i =>
    have hmark := toc.mark_lt i
    have hstop := toc.stop_lt i
    have hstart : (UInt32.ofNat (toc.mark i)).toNat = toc.mark i := toNat_ofNat32 hmark
    have hlen : (UInt32.ofNat (toc.stop i - toc.mark i)).toNat = toc.stop i - toc.mark i :=
      toNat_ofNat32 (by omega)
    simp only [Option.some.injEq, exists_eq_left']
    constructor
    · intro h
      split at h
      · rename_i hlt
        cases h
        exact ⟨hlt, hstart, by omega⟩
      · cases h
    · rintro ⟨hlt, h1, h2⟩
      rw [if_pos hlt]
      refine congrArg Except.ok (Prod.ext (UInt32.toNat_inj.mp ?_) (UInt32.toNat_inj.mp ?_))
      · rw [hstart, h1]
      · rw [hlen]
        simp only
        omega

end CdDaReader
