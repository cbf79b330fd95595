import CdDaReader.Floating.Remainder
import CdDaReader.Ripping

/-!
# Printing a table of contents

The program of `examples/read_toc.rs`, from an open reader on: read the table
and print every track with its duration. The program has its own function for
the end of a track, and computes minutes and seconds in floating point. For a
track that has bounds, the duration is that of its sectors, to the second.
-/

namespace CdDaReader

open Rust

abbrev F64 := Floating.Value Floating.binary64

structure TocHeading where
  firstTrack : UInt8
  lastTrack : UInt8
  total : Nat
  leadoutLba : UInt32

structure TocLine where
  number : UInt8
  kind : String
  startLba : UInt32
  startMsf : UInt8 × UInt8 × UInt8
  mins : UInt32
  secs : UInt32

/-- What the program prints. -/
inductive TocPrint
  | heading (heading : TocHeading)
  | track (line : TocLine)

/-- `u32::saturating_sub`. -/
def saturatingSub32 (a b : UInt32) : UInt32 := if b ≤ a then a - b else 0

/-- The program's condition on the tracks is the reader's, written out. -/
def trackEndLba (toc : Toc) (trackNo : UInt8) : Checked UInt32 := do
  -- past the end `index` panics, where the source unwraps the position
  let idx := toc.tracks.findIdx fun track => track.number == trackNo
  if ← isCdExtraAudioSessionBoundary toc idx then
    let next ← index toc.tracks (idx + 1)
    return saturatingSub32 next.startLba cdExtraTrailingDataGapSectors
  else if idx + 1 < toc.tracks.length then
    let next ← index toc.tracks (idx + 1)
    return next.startLba
  else
    return toc.leadoutLba

def durationSecs (sectors : UInt32) : F64 :=
  Floating.Value.div (.ofNat sectors.toNat) (.ofNat 75)

def durationMins (sectors : UInt32) : UInt32 := ((durationSecs sectors).div (.ofNat 60)).toU32

def durationRest (sectors : UInt32) : UInt32 := ((durationSecs sectors).rem (.ofNat 60)).toU32

/-- The line of a track with so many sectors. -/
def Track.line (track : Track) (sectors : UInt32) : TocLine where
  number := track.number
  kind := if track.isAudio then "audio" else "data "
  startLba := track.startLba
  startMsf := track.startMsf
  mins := durationMins sectors
  secs := durationRest sectors

/-- One pass of the loop. -/
def printTrack (host : Host) (toc : Toc) (_ : Unit) (track : Track) : Program TocPrint Unit := do
  let endLba ← trackEndLba toc track.number
  let sectors ← sub32 host.overflowChecks endLba track.startLba
  Program.print (.track (track.line sectors))

/-- The line above the tracks. -/
def Toc.heading (toc : Toc) : TocHeading :=
  ⟨toc.firstTrack, toc.lastTrack, toc.tracks.length, toc.leadoutLba⟩

def printToc (host : Host) (reader : CdReader) : Program TocPrint Unit := do
  let toc ← Program.call (reader.readToc host)
  Program.print (.heading toc.heading)
  toc.tracks.foldlM (printTrack host toc) ()

-- ---------------------------------------------------------------------------
-- Durations
-- ---------------------------------------------------------------------------

section
open Floating

theorem ofNat75_is : (Value.ofNat 75 : F64).Is 75 := Value.ofNat_is (n := 75) (by decide)

theorem ofNat60_is : (Value.ofNat 60 : F64).Is 60 := Value.ofNat_is (n := 60) (by decide)

/-- The seconds are off by less than what is left to the next sector. -/
theorem durationSecs_is (sectors : UInt32) :
    ∃ y : ℚ, 0 ≤ y ∧ (durationSecs sectors).Is y ∧ ⌊y⌋ = (sectors.toNat / 75 : ℕ) ∧
      y ≤ (sectors.toNat : ℚ) / 75 + 1 / 2 ^ 28 := by
  generalize hn : sectors.toNat = n
  have hlt : n < 2 ^ 32 := hn ▸ sectors.toNat_lt
  have hsectors : (Value.ofNat n : F64).Is n := Value.ofNat_is (lt_trans hlt (by decide))
  have hnonneg : (0 : ℚ) ≤ n / 75 := by positivity
  have hfits : (n : ℚ) / 75 < 2 ^ (26 : ℤ) := by
    have hcast : (n : ℚ) < 4294967296 := by exact_mod_cast hlt
    norm_num
    linarith
  have hfloor : ⌊(n : ℚ) / 75⌋ = (n / 75 : ℕ) := by
    exact_mod_cast Rat.floor_natCast_div_natCast n 75
  have hsector : (n : ℚ) ≤ 75 * (n / 75 : ℕ) + 74 := by exact_mod_cast (by omega)
  have hgap : (n : ℚ) / 75 + 2 ^ max binary64.minExp (26 - binary64.precision) / 2 <
      ⌊(n : ℚ) / 75⌋ + 1 := by
    rw [hfloor, Int.cast_natCast]
    norm_num [binary64] at hsector ⊢
    linarith
  refine ⟨binary64.nearest (n / 75), binary64.nearest_nonneg hnonneg, ?_, ?_, ?_⟩
  · unfold durationSecs
    rw [hn, hsectors.div ofNat75_is (by norm_num)]
    exact Value.ofRat_is_of_lt hnonneg hfits (by decide) (by decide)
  · rw [binary64.floor_nearest hnonneg hfits (by decide) hgap, hfloor]
  · have hle := binary64.nearest_le_add hnonneg hfits
    norm_num [binary64] at hle ⊢
    exact hle

theorem toNat_durationMins (sectors : UInt32) :
    (durationMins sectors).toNat = sectors.toNat / 4500 := by
  obtain ⟨y, hy, his, hfloor, hupper⟩ := durationSecs_is sectors
  have hlt := sectors.toNat_lt
  generalize sectors.toNat = n at hfloor hupper hlt
  have hnonneg : 0 ≤ y / 60 := by positivity
  have hsector : (n : ℚ) ≤ 4500 * (n / 4500 : ℕ) + 4499 := by exact_mod_cast (by omega)
  have hfits : y / 60 < 2 ^ (20 : ℤ) := by
    have hcast : (n : ℚ) < 4294967296 := by exact_mod_cast hlt
    norm_num at hupper ⊢
    linarith
  have hquotient : ⌊y / 60⌋ = (n / 4500 : ℕ) := by
    have hdiv := Int.floor_div_natCast y 60
    rw [hfloor] at hdiv
    rw [show (n / 4500 : ℕ) = n / 75 / 60 from (Nat.div_div_eq_div_mul n 75 60).symm]
    exact_mod_cast hdiv
  have hgap : y / 60 + 2 ^ max binary64.minExp (20 - binary64.precision) / 2 < ⌊y / 60⌋ + 1 := by
    rw [hquotient, Int.cast_natCast]
    norm_num [binary64] at hupper ⊢
    linarith
  have hvalue : ((durationSecs sectors).div (.ofNat 60)).Is (binary64.nearest (y / 60)) := by
    rw [his.div ofNat60_is (by norm_num)]
    exact Value.ofRat_is_of_lt hnonneg hfits (by decide) (by decide)
  rw [durationMins, hvalue.toNat_toU32,
    binary64.floor_nearest hnonneg hfits (by decide) hgap, hquotient]
  omega

theorem toNat_durationRest (sectors : UInt32) :
    (durationRest sectors).toNat = sectors.toNat / 75 % 60 := by
  obtain ⟨y, hy, his, hfloor, -⟩ := durationSecs_is sectors
  have hlt := sectors.toNat_lt
  have hquotient : ⌊y / 60⌋ = (sectors.toNat / 75 / 60 : ℕ) := by
    have hdiv := Int.floor_div_natCast y 60
    rw [hfloor] at hdiv
    exact_mod_cast hdiv
  have hrem := his.rem ofNat60_is hy (by norm_num)
  have hrest : ⌊y - ⌊y / 60⌋ * 60⌋ = (sectors.toNat / 75 % 60 : ℕ) := by
    have hcast : (⌊y / 60⌋ : ℚ) * 60 = ((⌊y / 60⌋ * 60 : ℤ) : ℚ) := by push_cast; rfl
    rw [hcast, Int.floor_sub_intCast, hfloor, hquotient]
    omega
  rw [durationRest, hrem.toNat_toU32, hrest]
  omega

end

-- ---------------------------------------------------------------------------
-- The end of a track
-- ---------------------------------------------------------------------------

theorem toNat_saturatingSub32 (a b : UInt32) :
    (saturatingSub32 a b).toNat = a.toNat - b.toNat := by
  unfold saturatingSub32
  split <;> rename_i hle
  · exact toNat_sub32 hle
  · rw [UInt32.le_iff_toNat_le] at hle
    exact (Nat.sub_eq_zero_of_le (Nat.le_of_not_le hle)).symm

/-- The program finds the end of a listed track where the reader does. -/
theorem trackEndLba_eq {toc : Toc} (h : toc.find trackNo = some i) :
    trackEndLba toc trackNo = .ok (.ofNat (toc.stop i)) := by
  obtain ⟨track, htrack, -⟩ := Toc.find_some h
  obtain ⟨-, hidx⟩ := List.findIdx?_eq_some_iff_findIdx_eq.mp h
  unfold trackEndLba Toc.stop
  simp only [hidx, isCdExtraAudioSessionBoundary_eq htrack]
  cases hb : toc.boundary i with
  | true =>
    obtain ⟨next, hnext⟩ : ∃ next, toc.tracks[i + 1]? = some next :=
      ⟨_, List.getElem?_eq_getElem (Toc.boundary_succ_lt hb)⟩
    simp only [bind, Except.bind, ↓reduceIte, index_ok hnext, Toc.mark_of_getElem? hnext]
    refine congrArg Except.ok (UInt32.toNat_inj.mp ?_)
    have hlt := next.startLba.toNat_lt
    rw [toNat_saturatingSub32, toNat_ofNat32 (by omega)]
    rfl
  | false =>
    simp only [bind, Except.bind, Bool.false_eq_true, ↓reduceIte, Nat.sub_zero]
    split <;> rename_i hlt
    · obtain ⟨next, hnext⟩ : ∃ next, toc.tracks[i + 1]? = some next :=
        ⟨_, List.getElem?_eq_getElem hlt⟩
      rw [index_ok hnext, Toc.mark_of_getElem? hnext, UInt32.ofNat_toNat]
      rfl
    · rw [Toc.mark_of_length_le (Nat.le_of_not_lt hlt), UInt32.ofNat_toNat]
      rfl

-- ---------------------------------------------------------------------------
-- The program
-- ---------------------------------------------------------------------------

/-- A line about a track, with the duration of its sectors if it has bounds. -/
structure TocLine.Tells (toc : Toc) (track : Track) (line : TocLine) : Prop where
  line_eq : ∃ sectors, line = track.line sectors
  duration : ∀ host start sectors, getTrackBounds host toc track.number = .ok (start, sectors) →
    line.startLba = start ∧ line.secs.toNat < 60 ∧
      line.mins.toNat * 60 + line.secs.toNat = sectors.toNat / 75

/-- The table above the lines of some tracks. -/
def tocLines (toc : Toc) (lines : List TocLine) : List TocPrint :=
  .heading toc.heading :: lines.map .track

theorem tocLines_snoc (toc : Toc) (lines : List TocLine) (line : TocLine) :
    tocLines toc (lines ++ [line]) = tocLines toc lines ++ [.track line] := by
  simp [tocLines]

/-- How a run of the program ends, and what it printed: nothing, if the table
could not be read. -/
inductive PrintsToc (medium : Medium) (host : Host) (answer : Answer) :
    Outcome ProgramError Unit → List TocPrint → Prop
  | unread (htable : medium.ReadsTable answer (.error err)) :
      PrintsToc medium host answer (.error (.error (.reader err))) []
  | whole (htable : medium.ReadsTable answer (.ok medium.layout.toc))
      (hlines : List.Forall₂ (TocLine.Tells medium.layout.toc) medium.layout.toc.tracks lines) :
      PrintsToc medium host answer (.ok ()) (tocLines medium.layout.toc lines)
  | overflow (htable : medium.ReadsTable answer (.ok medium.layout.toc))
      (hchecks : host.overflowChecks = true)
      (hitems : medium.layout.toc.tracks = before ++ track :: rest)
      (hlines : List.Forall₂ (TocLine.Tells medium.layout.toc) before lines)
      (hbounds : getTrackBounds host medium.layout.toc track.number =
        .error (.error badTocBounds)) :
      PrintsToc medium host answer (.error (.panic .arithmeticOverflow))
        (tocLines medium.layout.toc lines)

theorem Track.line_tells {toc : Toc} (hfind : toc.find track.number = some i)
    (htrack : toc.tracks[i]? = some track) :
    (track.line (.ofNat (toc.stop i) - track.startLba)).Tells toc track := by
  constructor
  case line_eq => exact ⟨_, rfl⟩
  case duration =>
    intro host start sectors hbounds
    obtain ⟨_, hfind', hlt, hstart, hstop⟩ := getTrackBounds_ok.mp hbounds
    cases hfind.symm.trans hfind'
    have hmark := Toc.mark_of_getElem? htrack
    have hend : (UInt32.ofNat (toc.stop i)).toNat = toc.stop i := toNat_ofNat32 (toc.stop_lt i)
    have hsectors : (UInt32.ofNat (toc.stop i) - track.startLba).toNat = sectors.toNat := by
      rw [toNat_sub32 (by rw [UInt32.le_iff_toNat_le]; omega)]
      omega
    simp only [line, toNat_durationMins, toNat_durationRest, hsectors]
    refine ⟨UInt32.toNat_inj.mp (by omega), by omega, by omega⟩

theorem DiscLayout.find_number (disc : DiscLayout) (h : track ∈ disc.toc.tracks) :
    ∃ i, disc.toc.find track.number = some i ∧ disc.toc.tracks[i]? = some track := by
  cases hfind : disc.toc.find track.number with
  | none =>
    have hnone := List.findIdx?_eq_none_iff.mp hfind track h
    simp at hnone
  | some i =>
    obtain ⟨other, hother, hnumber⟩ := Toc.find_some hfind
    cases List.inj_on_of_nodup_map disc.numbers_nodup (List.mem_of_getElem? hother) h hnumber
    exact ⟨i, rfl, hother⟩

/-- What was printed between two passes. -/
def PrintedUpTo (toc : Toc) (tracks : List Track) (printed : List TocPrint) : Prop :=
  ∃ lines, printed = tocLines toc lines ∧ List.Forall₂ (TocLine.Tells toc) tracks lines

variable {medium : Medium}

theorem printTrack_passes (host : Host)
    (htable : medium.ReadsTable answer (.ok medium.layout.toc)) (history : History) (files : Files)
    (before : List Track) (track : Track) (rest : List Track) (u : Unit)
    (s : ProgramState TocPrint) (hitems : medium.layout.toc.tracks = before ++ track :: rest)
    (hs : s.history = history ∧ s.files = files ∧
      PrintedUpTo medium.layout.toc before s.printed) :
    (∃ u' s', (printTrack host medium.layout.toc u track).exec s = (.ok u', s') ∧
      s'.history = history ∧ s'.files = files ∧
        PrintedUpTo medium.layout.toc (before ++ [track]) s'.printed) ∨
    ∃ e s', (printTrack host medium.layout.toc u track).exec s = (.error e, s') ∧
      s'.history = history ∧ s'.files = files ∧
        PrintsToc medium host answer (.error e) s'.printed := by
  obtain ⟨hhistory, hfiles, lines, hprinted, hlines⟩ := hs
  have hmem : track ∈ medium.layout.toc.tracks := by simp [hitems]
  obtain ⟨i, hfind, htrack⟩ := medium.layout.find_number hmem
  have hmark := Toc.mark_of_getElem? htrack
  have hend : (UInt32.ofNat (medium.layout.toc.stop i)).toNat = medium.layout.toc.stop i :=
    toNat_ofNat32 (medium.layout.toc.stop_lt i)
  unfold printTrack
  rw [exec_bind_checked (trackEndLba_eq hfind)]
  unfold sub32
  split <;> rename_i hcond
  · right
    rw [Bool.and_eq_true, decide_eq_true_eq, UInt32.lt_iff_toNat_lt, hend, ← hmark] at hcond
    refine ⟨_, s, rfl, hhistory, hfiles, ?_⟩
    rw [hprinted]
    refine .overflow htable hcond.1 hitems hlines ?_
    rw [getTrackBounds_eq, hfind]
    exact if_neg (Nat.not_lt.mpr (Nat.le_of_lt hcond.2))
  · left
    rw [exec_bind_checked rfl]
    refine ⟨(), _, rfl, hhistory, hfiles, lines ++ [_], ?_,
      List.rel_append hlines (.cons (track.line_tells hfind htrack) .nil)⟩
    rw [tocLines_snoc, ← hprinted]

/-- On any platform the program sends one command and prints the disc's
table, line by line, each duration to the second what the bounds of its track
say. It prints nothing if the table cannot be read, and stops early only in a
build with overflow checks, at a track that has no bounds. -/
theorem printToc_platforms {platform : Platform} (hhonours : platform.Honours medium)
    (host : Host) (h : History) :
    ∃ result s', (printToc host platform.reader).exec ⟨h, [], []⟩ = (result, s') ∧
      s'.history = h ++ [.command .readToc (platform.reader.drive h .readToc)] ∧ s'.files = [] ∧
      PrintsToc medium host (platform.reader.drive h .readToc) result s'.printed := by
  unfold printToc
  rcases Program.readToc_exec TocPrint host hhonours.in_drive h with
    ⟨err, hcall, htable⟩ | ⟨hcall, htable⟩
  · exact ⟨_, _, exec_bind_error hcall, rfl, rfl, .unread htable⟩
  rw [exec_bind_ok hcall]
  have hstart : PrintedUpTo medium.layout.toc [] [.heading medium.layout.toc.heading] :=
    ⟨[], rfl, .nil⟩
  rcases exec_foldlM _ _ (printTrack_passes host htable _ []) (s := ⟨_, [], _⟩)
      ⟨rfl, rfl, hstart⟩ with
    ⟨_, s', hexec, hhistory, hfiles, lines, hprinted, hlines⟩ |
      ⟨e, s', hexec, hhistory, hfiles, hprints⟩
  · refine ⟨_, s', (exec_bind_ok rfl).trans hexec, hhistory, hfiles, ?_⟩
    rw [hprinted]
    exact .whole htable hlines
  · exact ⟨_, s', (exec_bind_ok rfl).trans hexec, hhistory, hfiles, hprints⟩

theorem printToc_platforms_silent :
    ∃ result s', (printToc .desktop Platform.silent.reader).exec ⟨[], [], []⟩ = (result, s') ∧
      s'.history = [.command .readToc (Platform.silent.reader.drive [] .readToc)] ∧
      s'.files = [] ∧
      PrintsToc Medium.silent .desktop (Platform.silent.reader.drive [] .readToc) result
        s'.printed :=
  printToc_platforms Platform.silent_honours .desktop []

end CdDaReader
