import CdDaReader.Detect.RawSector
import CdDaReader.Detect.Sound
import CdDaReader.Program
import CdDaReader.Reader.ReadToc

/-!
# Detection on a disc

With a disc in the drive whose table tells audio from data, detection finds
what the first sector of the track is, whether the drive knows the mode of
the track or leaves it open. The program of `examples/detect_track_formats.rs`
goes through the tracks of the table; it prints the same on every platform,
and that a format cannot be detected is never its error.
-/

namespace CdDaReader

open Rust

/-- One pass of the program's loop. -/
def detectPass (host : Host) (reader : CdReader) (_ : Unit) (track : Track) :
    Program (UInt8 × SectorReadFormat) Unit := do
  let format ← Program.call (reader.detectTrackFormat host track)
  Program.print (track.number, format)

/-- The program, from an open reader on. -/
def detectTrackFormats (host : Host) (reader : CdReader) :
    Program (UInt8 × SectorReadFormat) Unit := do
  let toc ← Program.call (reader.readToc host)
  toc.tracks.foldlM (detectPass host reader) ()

/-- The format that detection is to find for a track of such sectors. -/
def defaultFormat : Mmc.SectorType → SectorReadFormat
  | .cdda => .audio
  | .mode1 => .mode1Cooked
  | .mode2Formless | .mode2Form1 | .mode2Form2 => .mode2Raw

namespace Medium

variable (medium : Medium)

def firstSector (track : Track) : Mmc.Sector := medium.sectors track.startLba.toNat

/-- Audio tracks begin with audio, and data tracks with data. -/
def TellsKinds : Prop :=
  ∀ track ∈ medium.layout.toc.tracks,
    (track.isAudio = true ↔ (medium.firstSector track).type = .cdda)

/-- A drive that reports one of the two modes for a track reports the mode of
its first sector. -/
def Informs (transport : Transport) : Prop :=
  ∀ track ∈ medium.layout.toc.tracks, ∀ h mode,
    (informationRead transport track h).map TrackInformation.dataMode = .ok mode →
      mode = 1 ∨ mode = 2 → (medium.firstSector track).type.mode = some mode

def formatOf (track : Track) : SectorReadFormat := defaultFormat (medium.firstSector track).type

end Medium

-- ---------------------------------------------------------------------------
-- The format of a sector
-- ---------------------------------------------------------------------------

theorem defaultFormat_of_mode {type : Mmc.SectorType} (hmode : type.mode = some mode)
    (hformat : formatFromDataMode mode = some format) : format = defaultFormat type := by
  cases type with
  | cdda => cases hmode
  | mode1 | mode2Formless | mode2Form1 | mode2Form2 =>
    cases hmode
    exact (Option.some.inj hformat).symm

theorem mode_of_data {type : Mmc.SectorType} (h : type ≠ .cdda) :
    ∃ mode : RawSectorMode, type.mode = some mode.byte := by
  cases type with
  | cdda => exact absurd rfl h
  | mode1 => exact ⟨.mode1, rfl⟩
  | mode2Formless | mode2Form1 | mode2Form2 => exact ⟨.mode2, rfl⟩

theorem defaultFormat_admits {type first : Mmc.SectorType} (h : type.mode = first.mode) :
    (defaultFormat first).expected.admits type = true := by
  revert h
  cases first <;> cases type <;> decide

variable {medium : Medium}

/-- A track of sectors of one mode can be read in the format of its first
one. -/
theorem Medium.formatOf_admits (huniform : ∀ lba, track.startLba.toNat ≤ lba →
      lba < track.startLba.toNat + n →
        (medium.sectors lba).type.mode = (medium.firstSector track).type.mode) :
    medium.sectors.Admits ((medium.formatOf track).command track.startLba.toNat n) :=
  fun lba hlo hhi => defaultFormat_admits (huniform lba hlo hhi)

-- ---------------------------------------------------------------------------
-- One track
-- ---------------------------------------------------------------------------

variable {platform : Platform}

theorem rawRead_medium (hin : medium.In platform.reader.drive)
    (hok : (rawRead platform.transport host track h).1 = .ok sector) :
    sector = (medium.firstSector track).raw := by
  have hholds : medium.Holds .mode2Raw track.startLba.toNat 1 sector :=
    CdReader.readSectorRange_holds hin (Prod.ext hok rfl)
  rw [hholds.bytes_eq]
  simp [Mmc.Disc.transfer, blocks, SectorReadFormat.command]
  rfl

/-- The drive's word or, where it gives none, the sector. -/
theorem Concludes.mode_eq (hin : medium.In platform.reader.drive)
    (hinforms : medium.Informs platform.transport) (htrack : track ∈ medium.layout.toc.tracks)
    (hdata : (medium.firstSector track).type ≠ .cdda) (hknown : mode = 1 ∨ mode = 2)
    (h : Concludes platform.transport host track history mode) :
    (medium.firstSector track).type.mode = some mode := by
  rcases h with hinformation | ⟨_, sector, -, hread, -, hbyte⟩
  · exact hinforms track htrack history mode hinformation hknown
  · obtain ⟨found, hmode⟩ := mode_of_data hdata
    obtain ⟨minute, second, frame, hraw⟩ := (medium.firstSector track).raw_data hmode
    rw [rawRead_medium hin hread, hraw] at hbyte
    rw [hmode]
    exact hbyte

/-- A command that fails says nothing of the format. -/
theorem DetectionFails.notDetection (h : DetectionFails transport host track history events err) :
    NotDetection err := by
  cases h with
  | refused hanswer => exact Transport.drive_notDetection hanswer
  | malformed =>
    intro number dataMode heq
    cases heq
  | unread _ hfails =>
    cases hfails with
    | refused => exact notDetection_invalidInput _
    | command _ hc =>
      exact checkChunk_notDetection (fun _ herr => Transport.drive_notDetection herr) hc

/-- Detection finds the format of the first sector, or a command fails. -/
theorem CdReader.detectTrackFormat_medium (hin : medium.In platform.reader.drive)
    (hinforms : medium.Informs platform.transport) (htells : medium.TellsKinds) (host : Host)
    (htrack : track ∈ medium.layout.toc.tracks) (h : History) :
    (∃ events, (platform.reader.detectTrackFormat host track).exec h =
        (ofResult (.ok (medium.formatOf track)), h ++ events)) ∨
      ∃ err events, (platform.reader.detectTrackFormat host track).exec h =
          (ofResult (.error err), afterInformation platform.transport track h ++ events) ∧
        track.isAudio = false ∧ DetectionFails platform.transport host track h events err := by
  cases hkind : track.isAudio with
  | true =>
    refine .inl ⟨[], ?_⟩
    rw [List.append_nil, Medium.formatOf, (htells track htrack).mp hkind]
    exact detectTrackFormat_audio platform.transport host track h hkind
  | false =>
    have htype : (medium.firstSector track).type ≠ .cdda := by
      intro heq
      cases hkind.symm.trans ((htells track htrack).mpr heq)
    obtain ⟨result, hverdict, hundetected⟩ := verdict_total platform.transport host track h
    obtain ⟨events, hexec, -, hfails⟩ :=
      detectTrackFormat_data platform.transport host track h hkind
    rw [hverdict] at hexec hfails
    cases result with
    | ok format =>
      obtain ⟨mode, hformat, hconcludes⟩ := (verdict_ok_iff _ _ _ _).mp hverdict
      have hknown : mode = 1 ∨ mode = 2 := by
        by_contra hnone
        rw [formatFromDataMode_eq_none.mpr (not_or.mp hnone)] at hformat
        cases hformat
      obtain rfl : format = medium.formatOf track :=
        defaultFormat_of_mode (hconcludes.mode_eq hin hinforms htrack htype hknown) hformat
      exact .inl ⟨_, hexec.trans (congrArg _ (List.append_assoc ..))⟩
    | error err =>
      refine .inr ⟨err, events, hexec, rfl, hfails err rfl ?_⟩
      rintro number dataMode rfl
      obtain ⟨-, _, sector, -, -, hread, -, hbad⟩ := hundetected number dataMode rfl
      obtain ⟨mode, hmode⟩ := mode_of_data htype
      obtain ⟨minute, second, frame, hraw⟩ := (medium.firstSector track).raw_data hmode
      rw [rawRead_medium hin hread, hraw] at hbad
      rcases hbad with hsync | ⟨h1, h2⟩
      · exact hsync rfl
      · cases mode with
        | mode1 => exact h1 rfl
        | mode2 => exact h2 rfl

-- ---------------------------------------------------------------------------
-- The whole table
-- ---------------------------------------------------------------------------

/-- A table that cannot be read is an error of the command or the parser. -/
theorem Medium.ReadsTable.notDetection
    (h : medium.ReadsTable (platform.transport.drive history cmd) (.error err)) :
    NotDetection err := by
  cases hanswer : platform.transport.drive history cmd with
  | error err' =>
    rw [hanswer] at h
    cases h
    exact Transport.drive_notDetection hanswer
  | ok data =>
    rw [hanswer] at h
    obtain ⟨-, message, rfl⟩ := h
    exact nofun

def Medium.printedFormat (medium : Medium) (track : Track) : UInt8 × SectorReadFormat :=
  (track.number, medium.formatOf track)

section
variable (medium : Medium) (platform : Platform) (host : Host) (h : History)

/-- How the program ends, what it has printed and what happened: the table
cannot be read, or a track fails after those before it were printed, or all
are printed. -/
inductive Detects : Except ProgramError Unit → List (UInt8 × SectorReadFormat) → History → Prop
  | unread (htable : medium.ReadsTable (platform.reader.drive h .readToc) (.error err)) :
      Detects (.error (.reader err)) []
        (h ++ [.command .readToc (platform.reader.drive h .readToc)])
  | failed
      (htable : medium.ReadsTable (platform.reader.drive h .readToc) (.ok medium.layout.toc))
      (htracks : medium.layout.toc.tracks = done ++ track :: rest)
      (hdata : track.isAudio = false)
      (hfails : DetectionFails platform.transport host track
        (h ++ [.command .readToc (platform.reader.drive h .readToc)] ++ before) events err) :
      Detects (.error (.reader err)) (done.map medium.printedFormat)
        (afterInformation platform.transport track
          (h ++ [.command .readToc (platform.reader.drive h .readToc)] ++ before) ++ events)
  | detected
      (htable : medium.ReadsTable (platform.reader.drive h .readToc) (.ok medium.layout.toc)) :
      Detects (.ok ()) (medium.layout.toc.tracks.map medium.printedFormat)
        (h ++ [.command .readToc (platform.reader.drive h .readToc)] ++ events)

/-- What the loop has printed before a pass. -/
structure Detected (done : List Track) (_ : Unit) (s : ProgramState (UInt8 × SectorReadFormat)) :
    Prop where
  history : ∃ events,
    s.history = h ++ [.command .readToc (platform.reader.drive h .readToc)] ++ events
  files : s.files = []
  printed : s.printed = done.map medium.printedFormat

end

theorem Detects.notDetection (hdetects : Detects medium platform host h result printed history)
    (number : UInt8) (dataMode : Option UInt8) :
    result ≠ .error (.reader (.cannotDetectTrackFormat number dataMode)) := by
  rintro rfl
  cases hdetects with
  | unread htable => exact htable.notDetection number dataMode rfl
  | failed _ _ _ hfails => exact hfails.notDetection number dataMode rfl

theorem Detects.printed_eq (hdetects : Detects medium platform host h (.ok ()) printed history) :
    printed = medium.layout.toc.tracks.map medium.printedFormat := by
  cases hdetects
  rfl

theorem detectPass_medium (hin : medium.In platform.reader.drive)
    (hinforms : medium.Informs platform.transport) (htells : medium.TellsKinds) (host : Host)
    (htable : medium.ReadsTable (platform.reader.drive h .readToc) (.ok medium.layout.toc))
    (done : List Track) (track : Track) (rest : List Track) (u : Unit)
    (s : ProgramState (UInt8 × SectorReadFormat))
    (htracks : medium.layout.toc.tracks = done ++ track :: rest)
    (hdone : Detected medium platform h done u s) :
    (∃ u' s', (detectPass host platform.reader u track).exec s = (.ok u', s') ∧
      Detected medium platform h (done ++ [track]) u' s') ∨
    ∃ e s', (detectPass host platform.reader u track).exec s = (.error e, s') ∧
      ∃ err, e = .error err ∧ s'.files = [] ∧
        Detects medium platform host h (.error err) s'.printed s'.history := by
  obtain ⟨⟨before, hhistory⟩, hfiles, hprinted⟩ := hdone
  have htrack : track ∈ medium.layout.toc.tracks := by simp [htracks]
  unfold detectPass
  rcases CdReader.detectTrackFormat_medium hin hinforms htells host htrack s.history with
    ⟨events, hexec⟩ | ⟨err, events, hexec, hdata, hfails⟩
  · rw [exec_bind_ok (Program.call_exec hexec)]
    refine .inl ⟨(), _, rfl, ⟨before ++ events, ?_⟩, hfiles, ?_⟩
    · rw [← List.append_assoc, ← hhistory]
    · simp [hprinted, Medium.printedFormat]
  · rw [exec_bind_error (Program.call_exec hexec)]
    refine .inr ⟨_, _, rfl, _, rfl, hfiles, ?_⟩
    rw [hhistory] at hfails ⊢
    rw [hprinted]
    exact .failed htable htracks hdata hfails

/-- On any platform, with a drive that knows the modes or leaves them open,
every track is found to have the format of its first sector, in which all of
it can be read if its sectors are of one mode. The program fails where the
table, the information on a track or its first sector cannot be read, having
printed the tracks before, and never for a format that cannot be detected. -/
theorem detectTrackFormats_platforms (hhonours : platform.Honours medium)
    (hinforms : medium.Informs platform.transport) (htells : medium.TellsKinds) (host : Host)
    (h : History) :
    ∃ result s',
      (detectTrackFormats host platform.reader).exec ⟨h, [], []⟩ = (ofResult result, s') ∧
      s'.files = [] ∧ Detects medium platform host h result s'.printed s'.history ∧
      (∀ number dataMode, result ≠ .error (.reader (.cannotDetectTrackFormat number dataMode))) ∧
      ∀ track n, (∀ lba, track.startLba.toNat ≤ lba → lba < track.startLba.toNat + n →
          (medium.sectors lba).type.mode = (medium.firstSector track).type.mode) →
        medium.sectors.Admits ((medium.formatOf track).command track.startLba.toNat n) := by
  suffices hends : ∃ result s',
      (detectTrackFormats host platform.reader).exec ⟨h, [], []⟩ = (ofResult result, s') ∧
      s'.files = [] ∧ Detects medium platform host h result s'.printed s'.history by
    obtain ⟨result, s', hexec, hfiles, hdetects⟩ := hends
    exact ⟨result, s', hexec, hfiles, hdetects, hdetects.notDetection,
      fun _ _ => Medium.formatOf_admits⟩
  have hin := hhonours.in_drive
  unfold detectTrackFormats
  rcases Program.readToc_exec (UInt8 × SectorReadFormat) host hin h with
    ⟨err, hcall, htable⟩ | ⟨hcall, htable⟩
  · exact ⟨.error (.reader err), _, exec_bind_error hcall, rfl, .unread htable⟩
  rw [exec_bind_ok hcall]
  have hstart : Detected medium platform h [] () (.tableRead platform.reader h) :=
    ⟨⟨[], (List.append_nil _).symm⟩, rfl, rfl⟩
  rcases exec_foldlM _ _ (detectPass_medium hin hinforms htells host htable) hstart with
    ⟨_, s', hexec, ⟨events, hhistory⟩, hfiles, hprinted⟩ |
      ⟨_, s', hexec, err, rfl, hfiles, hdetects⟩
  · refine ⟨.ok (), s', hexec, hfiles, ?_⟩
    rw [hhistory, hprinted]
    exact .detected htable
  · exact ⟨.error err, s', hexec, hfiles, hdetects⟩

theorem detectTrackFormats_platforms_zeros :
    ∃ result s', (detectTrackFormats .desktop Platform.zeros.reader).exec ⟨[], [], []⟩ =
        (ofResult result, s') ∧
      Detects Medium.zeros Platform.zeros .desktop [] result s'.printed s'.history ∧
      (result = .ok () → s'.printed = [(1, .mode1Cooked)]) := by
  have htells : Medium.zeros.TellsKinds := by
    intro track hmem
    cases List.mem_singleton.mp hmem
    exact ⟨nofun, nofun⟩
  have hinforms : Medium.zeros.Informs Platform.zeros.transport := by
    intro track hmem h mode hmode hknown
    cases List.mem_singleton.mp hmem
    cases hmode
    rcases hknown with h | h <;> cases h
  obtain ⟨result, s', hexec, -, hdetects, -⟩ :=
    detectTrackFormats_platforms Platform.zeros_honours hinforms htells .desktop []
  refine ⟨result, s', hexec, hdetects, ?_⟩
  rintro rfl
  exact hdetects.printed_eq

end CdDaReader
