import CdDaReader.Floating.Value
import CdDaReader.Stream.Refinement

/-!
# Positions in seconds

A position is told in seconds as an `f32`, and one is sought by such a value.
Both round. On any disc that MSF addresses reach, the sector that was told is
the sector that is found again; and what is sought is found to within less
than a sector, in order.
-/

namespace CdDaReader

open Rust

abbrev F32 := Floating.Value Floating.binary32

namespace TrackStream

def sectorsPerSecond : F32 := .ofNat 75

/-- `sectors as f32 / Self::SECTORS_PER_SECOND`. -/
def secondsOf (sectors : UInt32) : F32 :=
  Floating.Value.div (.ofNat sectors.toNat) sectorsPerSecond

def currentSeconds (host : Host) (self : TrackStream) : Checked F32 := do
  let sector ← self.currentSector host
  return secondsOf sector

def totalSeconds (self : TrackStream) : F32 := secondsOf self.totalSectors

end TrackStream

/-- What `seek_to_seconds` makes of its argument. -/
def Seconds.ofF32 (seconds : F32) : Seconds where
  isFinite := seconds.isFinite
  isNegative := seconds.isNegative
  targetSector := (seconds.mul TrackStream.sectorsPerSecond).round.toU32

-- ---------------------------------------------------------------------------
-- Products with 75
-- ---------------------------------------------------------------------------

namespace Seconds

open Floating TrackStream

theorem sectorsPerSecond_is : sectorsPerSecond.Is 75 :=
  Value.ofNat_is (n := 75) (by decide)

theorem abs_nearest_sub_le {x : ℚ} {k : ℕ} (hx : 0 ≤ x) (h : x < 2 ^ k) :
    |binary32.nearest x - x| ≤ 2 ^ k / 2 ^ 25 := by
  have habs : |x| < 2 ^ (k : ℤ) := by
    rw [abs_of_nonneg hx]
    exact_mod_cast h
  have hmax : max binary32.minExp (k - binary32.precision) = (k : ℤ) - 24 := by
    simp [binary32]
    omega
  have herror := binary32.abs_nearest_sub_le_of_lt habs
  rw [hmax, zpow_sub₀ (by norm_num), zpow_natCast] at herror
  exact herror.trans_eq (by ring)

/-- The sector of a product below a power of two. -/
theorem toNat_targetSector {seconds : F32} {x : ℚ} {k : ℕ} (h : seconds.Is x) (hx : 0 ≤ x)
    (hlt : x * 75 < 2 ^ k) (hk : k < 32) :
    ((ofF32 seconds).targetSector.toNat : ℤ) = roundAway (binary32.nearest (x * 75)) := by
  have hlt' : x * 75 < 2 ^ (k : ℤ) := by exact_mod_cast hlt
  have hmin : binary32.minExp ≤ k := by simp [binary32]
  have hmax : (k : ℤ) < binary32.maxExp := by simp [binary32]; omega
  have hproduct := Value.ofRat_is_of_lt (F := binary32) (by positivity) hlt' hmin hmax
  have hsector := hproduct.round.toNat_toU32
  have hnonneg := binary32.nearest_nonneg (x := x * 75) (by positivity)
  have hle := binary32.nearest_le_zpow (by positivity) hlt' hmin
  have hround : 0 ≤ roundAway (binary32.nearest (x * 75)) :=
    le_roundAway (by exact_mod_cast hnonneg)
  have hround' : roundAway (binary32.nearest (x * 75)) ≤ 2 ^ k :=
    roundAway_le (by exact_mod_cast hle)
  have hpow : (2 : ℤ) ^ k ≤ 2 ^ 31 := pow_le_pow_right₀ (by norm_num) (by omega)
  rw [Int.floor_intCast] at hsector
  unfold ofF32
  rw [h.mul sectorsPerSecond_is, hsector]
  omega

/-- Below 2^16 seconds the two roundings together move a sector by less than
a half. -/
theorem targetSector_secondsOf {p : UInt32} (hp : p.toNat < 75 * 2 ^ 16) :
    (secondsOf p).Is (binary32.nearest (p.toNat / 75)) ∧
      0 ≤ binary32.nearest (p.toNat / 75) ∧ (ofF32 (secondsOf p)).targetSector = p := by
  have hsector : (Value.ofNat p.toNat : F32).Is p.toNat :=
    Value.ofNat_is (lt_of_lt_of_le hp (by simp [binary32]))
  have hlt : (p.toNat : ℚ) / 75 < 2 ^ 16 := by
    have hcast : (p.toNat : ℚ) < (75 * 2 ^ 16 : ℕ) := by exact_mod_cast hp
    rw [div_lt_iff₀ (by norm_num)]
    exact hcast.trans_eq (by norm_num)
  have hseconds : (secondsOf p).Is (binary32.nearest (p.toNat / 75)) := by
    rw [secondsOf, hsector.div sectorsPerSecond_is (by norm_num)]
    exact Value.ofRat_is_of_lt (k := 16) (by positivity) (by exact_mod_cast hlt) (by decide)
      (by decide)
  have hle : binary32.nearest (p.toNat / 75) ≤ 2 ^ (16 : ℤ) :=
    binary32.nearest_le_zpow (by positivity) (by exact_mod_cast hlt) (by decide)
  have hquotient := abs_nearest_sub_le (by positivity) hlt
  have hnonneg := binary32.nearest_nonneg (x := p.toNat / 75) (by positivity)
  generalize binary32.nearest (p.toNat / 75) = x at *
  have hfits : x * 75 < 2 ^ 23 := by
    norm_num at hle ⊢
    linarith
  have hproduct := abs_nearest_sub_le (by positivity) hfits
  have htarget := toNat_targetSector hseconds hnonneg hfits (by decide)
  have hround : roundAway (binary32.nearest (x * 75)) = p.toNat := by
    apply roundAway_eq
    rw [abs_le] at hquotient hproduct
    rw [abs_lt]
    norm_num at hquotient hproduct ⊢
    constructor <;> linarith
  rw [hround] at htarget
  exact ⟨hseconds, hnonneg, UInt32.toNat_inj.mp (by exact_mod_cast htarget)⟩

end Seconds

-- ---------------------------------------------------------------------------
-- Seeking by time
-- ---------------------------------------------------------------------------

namespace TrackStream

variable (host : Host) {self : TrackStream}

/-- A time that is a number is sought. -/
theorem seekToSeconds_is (hfits : self.Fits) {seconds : F32} (h : seconds.Is x) (hx : 0 ≤ x)
    (history : History) :
    (seekToSeconds host (.ofF32 seconds)).exec ⟨self.atSector p, history⟩ =
      (.ok (), ⟨self.atSector (min (Seconds.ofF32 seconds).targetSector.toNat
        self.totalSectors.toNat), history⟩) := by
  have hgood : ¬ ((Seconds.ofF32 seconds).isFinite = false ∨
      (Seconds.ofF32 seconds).isNegative = true) := by
    simp [Seconds.ofF32, h.isFinite_eq, h.isNegative_eq hx]
  rw [seekToSeconds_at host hfits, if_neg hgood]

theorem seekToSeconds_secondsOf (hfits : self.Fits)
    (htotal : self.totalSectors.toNat < 75 * 2 ^ 16) (hk : k.toNat ≤ self.totalSectors.toNat)
    (history : History) :
    (seekToSeconds host (.ofF32 (secondsOf k))).exec ⟨self.atSector p, history⟩ =
      (.ok (), ⟨self.atSector k.toNat, history⟩) := by
  obtain ⟨his, hnonneg, htarget⟩ := Seconds.targetSector_secondsOf (p := k) (by omega)
  rw [seekToSeconds_is host hfits his hnonneg, htarget, Nat.min_eq_left hk]

end TrackStream

/-- In every state that a stream reaches, seeking to the time it tells leaves
it as it is, and seeking to its duration takes it to the end. No table with
MSF addresses has a track as long as the bound. -/
theorem seekToSeconds_currentSeconds {host : Host} {reader : CdReader} {stream : TrackStream}
    (hopen : reader.openTrackStreamWithOptions host toc trackNo options = .ok stream)
    (htotal : stream.totalSectors.toNat < 75 * 2 ^ 16) (ops : List StreamOp) (h : History) :
    (∃ seconds,
      (StreamState.after host ⟨stream, h⟩ ops).stream.currentSeconds host = .ok seconds ∧
      (TrackStream.seekToSeconds host (.ofF32 seconds)).exec
          (StreamState.after host ⟨stream, h⟩ ops) =
        (.ok (), StreamState.after host ⟨stream, h⟩ ops)) ∧
    ∃ s, (TrackStream.seekToSeconds host (.ofF32 stream.totalSeconds)).exec
        (StreamState.after host ⟨stream, h⟩ ops) = (.ok (), s) ∧
      (TrackStream.nextChunk host).exec s = (.ok none, s) := by
  obtain ⟨events, p, hfits, hp, -, hafter⟩ := StreamState.after_opened hopen ops h
  obtain ⟨k, hk, rfl⟩ := TrackStream.currentSector_at host stream hp
  rw [hafter]
  constructor
  · refine ⟨TrackStream.secondsOf k, ?_, TrackStream.seekToSeconds_secondsOf host hfits htotal hp _⟩
    simp [TrackStream.currentSeconds, hk]
  · exact ⟨_, TrackStream.seekToSeconds_secondsOf host hfits htotal (Nat.le_refl _) _,
      TrackStream.nextChunk_end host stream _⟩

theorem openTrackStream_cdExtra :
    CdReader.openTrackStreamWithOptions .desktop ⟨(Disc.blank 7).coldDrive⟩ Toc.cdExtra 2 .default =
      .ok (.opened ⟨(Disc.blank 7).coldDrive⟩ 10000 18600 .default) := by
  rfl

theorem seekToSeconds_currentSeconds_cdExtra :
    let s := StreamState.after .desktop
      ⟨.opened ⟨(Disc.blank 7).coldDrive⟩ 10000 18600 .default, []⟩ [.seekToSector 1001]
    ∃ seconds, s.stream.currentSeconds .desktop = .ok seconds ∧
      (TrackStream.seekToSeconds .desktop (.ofF32 seconds)).exec s = (.ok (), s) :=
  (seekToSeconds_currentSeconds openTrackStream_cdExtra (by decide) _ []).1

-- ---------------------------------------------------------------------------
-- Where a time is found
-- ---------------------------------------------------------------------------

/-- From a state, times are found at sectors in their order: at the end if
they are past it, and otherwise less than a sector away. The error is a half
for the sector and what the product with 75 is off by, below 2^bits sectors. -/
structure SeeksByTime (host : Host) (s : StreamState) (bits : ℕ) (sought : F32 → UInt32) :
    Prop where
  found : ∀ seconds : F32, seconds.isFinite = true → seconds.isNegative = false →
    ∃ s', (TrackStream.seekToSeconds host (.ofF32 seconds)).exec s = (.ok (), s') ∧
      s'.history = s.history ∧ s'.stream.currentSector host = .ok (sought seconds)
  refused : ∀ seconds : F32, seconds.isFinite = false ∨ seconds.isNegative = true →
    (TrackStream.seekToSeconds host (.ofF32 seconds)).exec s =
      (.error (.error (invalidInput "seek seconds must be a finite non-negative number")), s)
  mono : ∀ a b : F32, Floating.Value.Le (.ofNat 0) a → a.Le b → sought a ≤ sought b
  clamped : ∀ (seconds : F32) x, seconds.Is x → s.stream.totalSectors.toNat ≤ x * 75 →
    sought seconds = s.stream.totalSectors
  near : ∀ (seconds : F32) x, seconds.Is x → 0 ≤ x → x * 75 < s.stream.totalSectors.toNat →
    |((sought seconds).toNat : ℚ) - x * 75| ≤ 1 / 2 + 2 ^ bits / 2 ^ 25

namespace Seconds

open Floating TrackStream

theorem targetSector_mono {a b : F32} (ha : Value.Le (.ofNat 0) a) (h : a.Le b) :
    (ofF32 a).targetSector ≤ (ofF32 b).targetSector :=
  Value.toU32_mono (Value.round_mono (Value.mul_mono ha h sectorsPerSecond_is (by norm_num)))

theorem le_targetSector {seconds : F32} {n : ℕ} (h : seconds.Is x) (hn : n < 2 ^ 24)
    (hle : n ≤ x * 75) : n ≤ (ofF32 seconds).targetSector.toNat := by
  have hwhole : (Value.ofNat n : F32).Is n := Value.ofNat_is hn
  have hround : Value.Le (Value.round (.ofNat n)) (seconds.mul sectorsPerSecond).round := by
    rw [h.mul sectorsPerSecond_is]
    exact Value.round_mono (Value.ofRat_mono (by positivity) hle)
  have hsector := UInt32.le_iff_toNat_le.mp (Value.toU32_mono hround)
  have hexact := hwhole.round.toNat_toU32
  rw [show (n : ℚ) = ((n : ℤ) : ℚ) from rfl, roundAway_intCast, Int.floor_intCast] at hexact
  have htarget : (ofF32 seconds).targetSector = (seconds.mul sectorsPerSecond).round.toU32 := rfl
  rw [htarget]
  omega

theorem abs_targetSector_sub_le {seconds : F32} {bits : ℕ} (h : seconds.Is x) (hx : 0 ≤ x)
    (hlt : x * 75 < 2 ^ bits) (hbits : bits < 32) :
    |((ofF32 seconds).targetSector.toNat : ℚ) - x * 75| ≤ 1 / 2 + 2 ^ bits / 2 ^ 25 := by
  have hsector := toNat_targetSector h hx hlt hbits
  have hproduct := abs_nearest_sub_le (by positivity) hlt
  have hround := abs_roundAway_sub_le (binary32.nearest (x * 75))
  have hcast : ((ofF32 seconds).targetSector.toNat : ℚ) =
      roundAway (binary32.nearest (x * 75)) := by exact_mod_cast hsector
  rw [hcast]
  rw [abs_le] at hproduct hround ⊢
  constructor <;> linarith

end Seconds

/-- In every state that a stream of less than 2^24 sectors reaches, seeking by
time is monotone and accurate. -/
theorem seekToSeconds_accurate {host : Host} {reader : CdReader} {stream : TrackStream}
    (hopen : reader.openTrackStreamWithOptions host toc trackNo options = .ok stream)
    (hbits : bits ≤ 24) (htotal : stream.totalSectors.toNat < 2 ^ bits) (ops : List StreamOp)
    (h : History) :
    ∃ sought, SeeksByTime host (StreamState.after host ⟨stream, h⟩ ops) bits sought := by
  obtain ⟨events, p, hfits, hp, -, hafter⟩ := StreamState.after_opened hopen ops h
  rw [hafter]
  refine ⟨fun seconds => min (Seconds.ofF32 seconds).targetSector stream.totalSectors, ?_⟩
  constructor
  case found =>
    intro seconds hfinite hnegative
    have hgood : ¬ ((Seconds.ofF32 seconds).isFinite = false ∨
        (Seconds.ofF32 seconds).isNegative = true) := by
      simp [Seconds.ofF32, hfinite, hnegative]
    have hseek := TrackStream.seekToSeconds_at (p := p) host hfits (.ofF32 seconds) (h ++ events)
    rw [if_neg hgood] at hseek
    obtain ⟨k, hk, hkp⟩ := TrackStream.currentSector_at host stream
      (Nat.min_le_right (Seconds.ofF32 seconds).targetSector.toNat stream.totalSectors.toNat)
    rw [← toNat_min32, UInt32.toNat_inj] at hkp
    exact ⟨_, hseek, rfl, hkp ▸ hk⟩
  case refused =>
    intro seconds hbad
    rw [TrackStream.seekToSeconds_at host hfits]
    exact if_pos hbad
  case mono =>
    intro a b ha hab
    have hle := UInt32.le_iff_toNat_le.mp (Seconds.targetSector_mono ha hab)
    rw [UInt32.le_iff_toNat_le, toNat_min32, toNat_min32]
    omega
  case clamped =>
    intro seconds x his hle
    have hlt : stream.totalSectors.toNat < 2 ^ 24 :=
      htotal.trans_le (Nat.pow_le_pow_right (by decide) hbits)
    have htarget := Seconds.le_targetSector his hlt hle
    apply UInt32.toNat_inj.mp
    rw [toNat_min32]
    exact Nat.min_eq_right htarget
  case near =>
    intro seconds x his hx hlt
    have htotal' : (stream.totalSectors.toNat : ℚ) < 2 ^ bits := by exact_mod_cast htotal
    have hlt' : x * 75 < stream.totalSectors.toNat := hlt
    have hnear := Seconds.abs_targetSector_sub_le his hx (hlt'.trans htotal') (by omega)
    rw [toNat_min32, Nat.cast_min]
    rw [abs_le] at hnear ⊢
    rcases min_choice ((Seconds.ofF32 seconds).targetSector.toNat : ℚ)
        (stream.totalSectors.toNat : ℚ) with heq | heq
    · rw [heq]
      exact hnear
    · -- the end is on the way from the time to its sector
      have hle := min_eq_right_iff.mp heq
      rw [heq]
      constructor <;> linarith

theorem seekToSeconds_accurate_cdExtra :
    ∃ sought, SeeksByTime .desktop
      (StreamState.after .desktop ⟨.opened ⟨(Disc.blank 7).coldDrive⟩ 10000 18600 .default, []⟩
        [.seekToSector 1001]) 15 sought :=
  seekToSeconds_accurate openTrackStream_cdExtra (by decide) (by decide) _ []

end CdDaReader
