import CdDaReader.Saving
import CdDaReader.Stream.Seconds

/-!
# Streaming a track with a progress line

The program of `examples/stream_with_progress.rs`, from an open reader on:
stream the first audio track, print after every chunk how far it is, and save
the track as a WAV file. The percentages are quotients of rounded seconds,
and rounded again; they never fall, never pass 100, and end there.
-/

namespace CdDaReader

open Rust

/-- What a progress line shows. -/
structure Line where
  seconds : F32
  percent : F32

/-- `cur / total_secs * 100.0`. -/
def percentOf (cur totalSecs : F32) : F32 := (cur.div totalSecs).mul (.ofNat 100)

/-- The rest of the loop, after `pcm.extend_from_slice`. -/
def printProgress (host : Host) (stream : TrackStream) : Streaming Line Unit := do
  let cur ← (← get).stream.currentSeconds host
  Streaming.print ⟨cur, percentOf cur stream.totalSeconds⟩

def streamWithProgress (host : Host) (disk : Disk) (reader : CdReader) : Program Line Unit :=
  saveTrack host disk reader Toc.firstAudio "no audio tracks found" trackFileName
    (streamTrack host reader (printProgress host))

-- ---------------------------------------------------------------------------
-- Percentages
-- ---------------------------------------------------------------------------

namespace Line

open Floating TrackStream Seconds

/-- The line at a sector. -/
def atSector (total sector : UInt32) : Line where
  seconds := secondsOf sector
  percent := percentOf (secondsOf sector) (secondsOf total)

/-- The seconds of any sector but the first are positive. -/
theorem exists_secondsOf_is (p : UInt32) :
    ∃ x, 0 ≤ x ∧ (0 < p.toNat → 0 < x) ∧ (secondsOf p).Is x := by
  have hlt : (p.toNat : ℚ) < 2 ^ (32 : ℤ) := by exact_mod_cast p.toNat_lt
  have hsector := Value.ofRat_is_of_lt (F := binary32) (by positivity) hlt (by decide) (by decide)
  have hnonneg := binary32.nearest_nonneg (x := p.toNat) (by positivity)
  have hle := binary32.nearest_le_zpow (by positivity) hlt (by decide)
  have hfits : binary32.nearest p.toNat / 75 < 2 ^ (32 : ℤ) := by
    norm_num at hle ⊢
    linarith
  refine ⟨binary32.nearest (binary32.nearest p.toNat / 75),
    binary32.nearest_nonneg (by positivity), ?_, ?_⟩
  · intro hp
    have hone : binary32.nearest ((1 : ℤ) : ℚ) = (1 : ℤ) :=
      binary32.nearest_of_representable (binary32.representable_intCast (by decide))
    have hstep : binary32.nearest (2 ^ (-7 : ℤ)) = 2 ^ (-7 : ℤ) :=
      binary32.nearest_of_representable ⟨1, -7, by decide, by decide, by simp⟩
    have hsector : 1 ≤ binary32.nearest p.toNat := by
      have hmono := binary32.nearest_mono (x := ((1 : ℤ) : ℚ)) (y := p.toNat) (by norm_num)
        (by exact_mod_cast hp)
      rw [hone] at hmono
      exact_mod_cast hmono
    have hseconds := binary32.nearest_mono (x := 2 ^ (-7 : ℤ)) (y := binary32.nearest p.toNat / 75)
      (by positivity) (by norm_num; linarith)
    rw [hstep] at hseconds
    exact lt_of_lt_of_le (by positivity) hseconds
  · unfold secondsOf
    rw [show (Value.ofNat p.toNat : F32) = .ofRat p.toNat from rfl,
      hsector.div sectorsPerSecond_is (by norm_num)]
    exact Value.ofRat_is_of_lt (by positivity) hfits (by decide) (by decide)

theorem secondsOf_mono {p q : UInt32} (h : p ≤ q) : (secondsOf p).Le (secondsOf q) := by
  have hle : (p.toNat : ℚ) ≤ q.toNat := by exact_mod_cast UInt32.le_iff_toNat_le.mp h
  refine Value.div_mono ?_ (Value.ofRat_mono (by positivity) hle) sectorsPerSecond_is (by norm_num)
  exact Value.ofRat_mono (by simp) (by positivity)

theorem hundred_is : (Value.ofNat 100 : F32).Is 100 := Value.ofNat_is (n := 100) (by decide)

theorem percent_mono {p q total : UInt32} (h : p ≤ q) (htotal : 0 < total.toNat) :
    (atSector total p).percent.Le (atSector total q).percent := by
  obtain ⟨x, -, hpos, htotal'⟩ := exists_secondsOf_is total
  obtain ⟨y, hy, -, hp⟩ := exists_secondsOf_is p
  have hstart : Value.Le (.ofNat 0) (secondsOf p) :=
    (Value.ofNat_zero_is.le hp).mpr hy
  have hquotient := Value.div_mono hstart (secondsOf_mono h) htotal' (hpos htotal)
  refine Value.mul_mono ?_ hquotient hundred_is (by norm_num)
  rw [hp.div htotal' (hpos htotal).ne']
  exact Value.ofRat_mono (by simp) (div_nonneg hy (hpos htotal).le)

/-- The quotient at the end is exact, however its terms were rounded. -/
theorem percent_total {total : UInt32} (htotal : 0 < total.toNat) :
    (atSector total total).percent.Is 100 := by
  obtain ⟨x, -, hpos, his⟩ := exists_secondsOf_is total
  have hone : (Value.ofNat 1 : F32).Is 1 := by
    simpa using Value.ofNat_is (F := binary32) (n := 1) (by decide)
  have hquotient : (secondsOf total).div (secondsOf total) = .ofNat 1 := by
    rw [his.div his (hpos htotal).ne', div_self (hpos htotal).ne', Value.ofNat, Nat.cast_one]
  show ((secondsOf total).div (secondsOf total)).mul (.ofNat 100) |>.Is 100
  rw [hquotient, hone.mul hundred_is, one_mul]
  exact hundred_is

theorem percent_le {p total : UInt32} (h : p ≤ total) (htotal : 0 < total.toNat) :
    (atSector total p).percent.Le (.ofNat 100) := by
  obtain ⟨_, _, heq⟩ := (percent_total htotal).exists_eq
  obtain ⟨_, _, heq'⟩ := hundred_is.exists_eq
  have hmono := percent_mono h htotal
  rw [heq] at hmono
  rwa [heq']

end Line

-- ---------------------------------------------------------------------------
-- The loop
-- ---------------------------------------------------------------------------

/-- The lines printed once a stream stands at a sector: one for each of some
sectors on the way, in order, the last of them that sector. -/
def Shown (total : UInt32) (p : Nat) (printed : List Line) : Prop :=
  ∃ marks : List UInt32, printed = marks.map (Line.atSector total) ∧ marks.Pairwise (· < ·) ∧
    (∀ m ∈ marks, m.toNat ≤ p) ∧ (0 < p → marks.getLast? = some (.ofNat p))

theorem shown_nil (total : UInt32) : Shown total 0 [] :=
  ⟨[], rfl, .nil, nofun, fun h => absurd h (Nat.lt_irrefl 0)⟩

theorem Shown.snoc (h : Shown total p printed) (hlt : p < q.toNat) :
    Shown total q.toNat (printed ++ [.atSector total q]) := by
  obtain ⟨marks, rfl, hsorted, hle, -⟩ := h
  refine ⟨marks ++ [q], by simp, ?_, ?_, by simp⟩
  · refine List.pairwise_append.mpr ⟨hsorted, List.pairwise_singleton .., ?_⟩
    intro m hm n hn
    rw [List.mem_singleton.mp hn, UInt32.lt_iff_toNat_lt]
    exact Nat.lt_of_le_of_lt (hle m hm) hlt
  · intro m hm
    rcases List.mem_append.mp hm with hm | hm
    · exact Nat.le_trans (hle m hm) (Nat.le_of_lt hlt)
    · rw [List.mem_singleton.mp hm]

theorem printProgress_shows (host : Host) (self : TrackStream) :
    Shows self (Shown self.totalSectors) (printProgress host self) := by
  intro p q program hlt hle hshown
  obtain ⟨k, hk, rfl⟩ := TrackStream.currentSector_at host self hle
  have hcur : (self.atSector k.toNat).currentSeconds host = .ok (TrackStream.secondsOf k) := by
    simp [TrackStream.currentSeconds, hk]
  refine ⟨_, ?_, hshown.snoc hlt⟩
  unfold printProgress
  rw [exec_bind_ok (exec_get _), exec_bind_checked hcur]
  rfl

-- ---------------------------------------------------------------------------
-- The program
-- ---------------------------------------------------------------------------

variable {medium : Medium}

theorem Shown.rising (h : Shown total p printed) (htotal : 0 < total.toNat) :
    printed.Pairwise fun a b => a.percent.Le b.percent := by
  obtain ⟨marks, rfl, hsorted, -, -⟩ := h
  rw [List.pairwise_map]
  exact hsorted.imp fun hlt => Line.percent_mono (UInt32.le_of_lt hlt) htotal

theorem Shown.bounded (h : Shown total p printed) (hp : p ≤ total.toNat)
    (htotal : 0 < total.toNat) : ∀ line ∈ printed, line.percent.Le (.ofNat 100) := by
  obtain ⟨marks, rfl, -, hle, -⟩ := h
  intro line hmem
  obtain ⟨m, hm, rfl⟩ := List.mem_map.mp hmem
  exact Line.percent_le (UInt32.le_iff_toNat_le.mpr (Nat.le_trans (hle m hm) hp)) htotal

theorem Shown.last (h : Shown total total.toNat printed) (htotal : 0 < total.toNat) :
    ∃ line, printed.getLast? = some line ∧ line.percent.Is 100 := by
  obtain ⟨marks, rfl, -, -, hlast⟩ := h
  refine ⟨.atSector total total, ?_, Line.percent_total htotal⟩
  rw [List.getLast?_map, hlast htotal, UInt32.ofNat_toNat]
  rfl

/-- What a run of the program may come to: it saves the track like the programs
that print nothing, and the percentages rise to 100 at most, and to 100 once
the whole track was read. -/
structure StreamsSoundly (medium : Medium) (host : Host) (disk : Disk) (reader : CdReader)
    (h : History) (result : Except ProgramError Unit) (s : ProgramState Line) : Prop where
  saves : SavesTrack medium host disk reader "no audio tracks found" medium.layout.toc.firstAudio h
    result s
  rising : s.printed.Pairwise fun a b => a.percent.Le b.percent
  bounded : ∀ line ∈ s.printed, line.percent.Le (.ofNat 100)
  complete : (result = .ok () ∨ ∃ err, result = .error (.write err)) →
    ∃ line, s.printed.getLast? = some line ∧ line.percent.Is 100

theorem ShownBy.rising (hshown : ShownBy Shown (.tableRead reader h) whole printed) :
    printed.Pairwise fun a b => a.percent.Le b.percent := by
  rcases hshown with ⟨rfl, -⟩ | ⟨total, p, hpos, -, hshown, -⟩
  · exact .nil
  · exact hshown.rising hpos

theorem ShownBy.bounded (hshown : ShownBy Shown (.tableRead reader h) whole printed) :
    ∀ line ∈ printed, line.percent.Le (.ofNat 100) := by
  rcases hshown with ⟨rfl, -⟩ | ⟨total, p, hpos, hp, hshown, -⟩
  · exact fun _ hmem => absurd hmem List.not_mem_nil
  · exact hshown.bounded hp hpos

theorem ShownBy.last (hshown : ShownBy Shown s true printed) :
    ∃ line, printed.getLast? = some line ∧ line.percent.Is 100 := by
  rcases hshown with ⟨-, hwhole⟩ | ⟨total, p, hpos, -, hshown, hend⟩
  · cases hwhole
  · obtain rfl := hend rfl
    exact hshown.last hpos

/-- On any platform the program ends; it saves the first audio track as the
programs that print nothing do, what it prints rises to 100 at most, and to
100 once the whole track was read. -/
theorem streamWithProgress_platforms {platform : Platform} (hhonours : platform.Honours medium)
    (host : Host) (disk : Disk) (h : History) :
    ∃ result s', (streamWithProgress host disk platform.reader).exec ⟨h, [], []⟩ =
        (ofResult result, s') ∧
      StreamsSoundly medium host disk platform.reader h result s' := by
  have hin := hhonours.in_drive
  have hfetch := fun track => streamTrack_fetches host hin Shown (printProgress host)
    (fun start sectors => printProgress_shows host _) track (.tableRead platform.reader h)
    shown_nil
  obtain ⟨result, s', hexec, hfile, htrack⟩ := saveTrack_sound host disk hin
    "no audio tracks found" h fun track _ => by
      obtain ⟨fetched, s', hexec, hfetches, -⟩ := hfetch track
      exact ⟨fetched, s', hexec, hfetches⟩
  obtain ⟨whole, hshown, hwhole⟩ := hfile.shownBy fun track _ => by
    obtain ⟨fetched, s', hexec, -, hshown⟩ := hfetch track
    exact ⟨fetched, s', hexec, hshown⟩
  refine ⟨result, s', hexec, ?_⟩
  constructor
  case saves => exact htrack
  case rising => exact hshown.rising
  case bounded => exact hshown.bounded
  case complete =>
    intro hresult
    obtain rfl : whole = true := by
      apply hwhole
      rcases hresult with rfl | ⟨err, rfl⟩
      · exact .inl rfl
      · exact .inr ⟨err, rfl⟩
    exact hshown.last

theorem streamWithProgress_platforms_silent :
    ∃ result s', (streamWithProgress .desktop (fun _ _ _ => none) Platform.silent.reader).exec
        ⟨[], [], []⟩ = (ofResult result, s') ∧
      StreamsSoundly Medium.silent .desktop (fun _ _ _ => none) Platform.silent.reader [] result
        s' :=
  streamWithProgress_platforms Platform.silent_honours .desktop _ []

end CdDaReader
