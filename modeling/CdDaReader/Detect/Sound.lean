import CdDaReader.Detect
import CdDaReader.Reader.Requests

/-!
# Detection is sound

What detection returns is what the track information or, failing that, the
raw sector says; an error of either is returned, and that the format cannot be
detected is said of a whole sector only. `detectTrackFormat_sound` collects
this for every drive whose commands fail as commands do.
-/

namespace CdDaReader

open Rust

section
variable (transport : Transport) (host : Host) (track : Track) (h : History)

def informationAnswer : Answer := transport.drive h (.readTrackInformation track.number)

def informationRead : Outcome CdReaderError TrackInformation :=
  decodeTrackInformation (informationAnswer transport track h)

def afterInformation : History :=
  h ++ [.command (.readTrackInformation track.number) (informationAnswer transport track h)]

/-- The read of the track's first sector after that. -/
def rawRead : Outcome CdReaderError Bytes × History :=
  (CdReader.readSectorRange host ⟨transport.drive⟩ track.startLba 1
    (ReadOptions.default.withFormat .mode2Raw)).exec (afterInformation transport track h)

/-- The data mode is read, and is neither of the two known ones. -/
def Inconclusive (dataMode : UInt8) : Prop :=
  (informationRead transport track h).map TrackInformation.dataMode = .ok dataMode ∧
    dataMode ≠ 1 ∧ dataMode ≠ 2

/-- The data mode is `mode`; or it is inconclusive, and the first sector has
the sync pattern and that mode byte. -/
def Concludes (mode : UInt8) : Prop :=
  (informationRead transport track h).map TrackInformation.dataMode = .ok mode ∨
    ∃ dataMode sector, Inconclusive transport track h dataMode ∧
      (rawRead transport host track h).1 = .ok sector ∧ sector.take 12 = syncPattern ∧
      sector[15]? = some mode

/-- What detection may do on a track: the events it adds and its result. -/
structure DetectsSoundly (events : List Event) (result : Except CdReaderError SectorReadFormat) :
    Prop where
  compatible : ∀ format, result = .ok format → validateTrackFormat track format = .ok ()
  audio : track.isAudio = true → result = .ok .audio ∧ events = []
  mode1 : track.isAudio = false →
    (result = .ok .mode1Cooked ↔ Concludes transport host track h 1)
  mode2 : track.isAudio = false → (result = .ok .mode2Raw ↔ Concludes transport host track h 2)
  data_mode : ∀ data, informationAnswer transport track h = .ok data → ∀ mode,
    (informationRead transport track h).map TrackInformation.dataMode = .ok mode ↔
      WholeInformation data ∧ mode = data.getD 6 0 &&& 0x0F
  refused : track.isAudio = false → ∀ err, informationAnswer transport track h = .error err →
    result = .error err
  malformed : track.isAudio = false → ∀ data, informationAnswer transport track h = .ok data →
    ¬ WholeInformation data → result = .error (.parse (malformedInformation data))
  raw : ∀ cmd answer, .command cmd answer ∈ events →
    cmd = .readTrackInformation track.number ∨
      cmd = .readCd track.startLba 1 .mode2Raw ∧ ∃ dataMode, Inconclusive transport track h dataMode
  sector_length : ∀ sector, (rawRead transport host track h).1 = .ok sector →
    sector.length = 2352
  undetected : ∀ number dataMode, result = .error (.cannotDetectTrackFormat number dataMode) →
    number = track.number ∧ ∃ mode sector, dataMode = some mode ∧
      Inconclusive transport track h mode ∧ (rawRead transport host track h).1 = .ok sector ∧
      sector.length = 2352 ∧
      (sector.take 12 ≠ syncPattern ∨ sector[15]? ≠ some 1 ∧ sector[15]? ≠ some 2)
  information_error : track.isAudio = false → ∀ err,
    informationRead transport track h = .error (.error err) → result = .error err
  read_error : track.isAudio = false → ∀ dataMode err, Inconclusive transport track h dataMode →
    (rawRead transport host track h).1 = .error (.error err) → result = .error err

end

-- ---------------------------------------------------------------------------
-- Errors of commands
-- ---------------------------------------------------------------------------

/-- An error that does not say that a format cannot be detected. -/
def NotDetection (err : CdReaderError) : Prop :=
  ∀ number dataMode, err ≠ .cannotDetectTrackFormat number dataMode

theorem TransportError.notDetection (err : TransportError) : NotDetection err.toError := by
  intro number dataMode heq
  cases err <;> cases heq

theorem notDetection_invalidInput (message : String) : NotDetection (invalidInput message) := by
  intro number dataMode heq
  cases heq

theorem Transport.drive_notDetection {transport : Transport}
    (hanswer : transport.drive h cmd = .error err) : NotDetection err := by
  unfold drive at hanswer
  cases hcmd : transport h cmd with
  | ok data =>
    rw [hcmd] at hanswer
    cases hanswer
  | error err' =>
    rw [hcmd] at hanswer
    cases hanswer
    exact err'.notDetection

theorem checkChunk_notDetection {answer : Answer}
    (hanswer : ∀ err, answer = .error err → NotDetection err)
    (hc : checkChunk format lba n answer = .error err) : NotDetection err := by
  cases answer with
  | error err' =>
    cases hc
    exact hanswer err rfl
  | ok chunk =>
    simp only [checkChunk] at hc
    split at hc
    · cases hc
    · cases hc
      intro number dataMode heq
      cases heq

/-- How detection fails other than for want of a format, and what happened
after READ TRACK INFORMATION. -/
inductive DetectionFails (transport : Transport) (host : Host) (track : Track) (h : History) :
    List Event → CdReaderError → Prop
  | refused (hanswer : informationAnswer transport track h = .error err) :
      DetectionFails transport host track h [] err
  | malformed (hanswer : informationAnswer transport track h = .ok data)
      (hmalformed : ¬ WholeInformation data) :
      DetectionFails transport host track h [] (.parse (malformedInformation data))
  | unread (hinconclusive : Inconclusive transport track h dataMode)
      (hfails : ReadFails host .mode2Raw (CdReader.readCdChunk ⟨transport.drive⟩ .mode2Raw)
        track.startLba.toNat 1 (afterInformation transport track h) events err) :
      DetectionFails transport host track h events err

section
variable {transport : Transport} {track : Track} {h : History}

theorem informationRead_refused (hanswer : informationAnswer transport track h = .error err) :
    informationRead transport track h = .error (.error err) := by
  unfold informationRead decodeTrackInformation
  rw [hanswer]
  rfl

theorem informationRead_whole (hanswer : informationAnswer transport track h = .ok data)
    (hwhole : WholeInformation data) :
    informationRead transport track h = .ok (informationOf data) := by
  unfold informationRead decodeTrackInformation
  rw [hanswer, ofResult_ok, Outcome.bind_ok, hwhole.parse_eq]
  rfl

theorem informationRead_malformed (hanswer : informationAnswer transport track h = .ok data)
    (hmalformed : ¬ WholeInformation data) :
    informationRead transport track h = .error (.error (.parse (malformedInformation data))) := by
  unfold informationRead decodeTrackInformation
  rw [hanswer, ofResult_ok, Outcome.bind_ok, parseTrackInformation_malformed hmalformed]
  rfl

theorem informationRead_fails (host : Host)
    (hread : informationRead transport track h = .error (.error err)) :
    DetectionFails transport host track h [] err := by
  cases hanswer : informationAnswer transport track h with
  | error err' =>
    cases hread.symm.trans (informationRead_refused hanswer)
    exact .refused hanswer
  | ok data =>
    by_cases hwhole : WholeInformation data
    · cases hread.symm.trans (informationRead_whole hanswer hwhole)
    · cases hread.symm.trans (informationRead_malformed hanswer hwhole)
      exact .malformed hanswer hwhole

/-- The mode is the low half of the seventh byte. -/
theorem dataMode_iff (hanswer : informationAnswer transport track h = .ok data) :
    (informationRead transport track h).map TrackInformation.dataMode = .ok mode ↔
      WholeInformation data ∧ mode = data.getD 6 0 &&& 0x0F := by
  by_cases hwhole : WholeInformation data
  · rw [informationRead_whole hanswer hwhole]
    simp only [Except.map, Except.ok.injEq, hwhole, true_and]
    exact eq_comm
  · rw [informationRead_malformed hanswer hwhole]
    simp [Except.map, hwhole]

end

theorem informationRead_total (transport : Transport) (track : Track) (h : History) :
    ∃ result, informationRead transport track h = ofResult result ∧
      ∀ err, result = .error err → NotDetection err := by
  cases hanswer : informationAnswer transport track h with
  | error err =>
    refine ⟨.error err, informationRead_refused hanswer, ?_⟩
    rintro _ ⟨⟩
    exact Transport.drive_notDetection hanswer
  | ok data =>
    by_cases hwhole : WholeInformation data
    · exact ⟨.ok _, informationRead_whole hanswer hwhole, fun _ heq => by cases heq⟩
    · refine ⟨.error _, informationRead_malformed hanswer hwhole, ?_⟩
      rintro _ ⟨⟩ number dataMode heq
      cases heq

theorem rawRead_total (transport : Transport) (host : Host) (track : Track) (h : History) :
    ∃ events result,
      rawRead transport host track h =
        (ofResult result, afterInformation transport track h ++ events) ∧
      (∀ cmd answer, .command cmd answer ∈ events → cmd = .readCd track.startLba 1 .mode2Raw) ∧
      (∀ sector, result = .ok sector → sector.length = rawSectorSize) ∧
      ∀ err, result = .error err → NotDetection err := by
  have hone : (1 : UInt32).toNat = 1 := rfl
  unfold rawRead CdReader.readSectorRange
  obtain ⟨events, result, hreads, hexec⟩ := readSectorsChunked_reads host .mode2Raw
    RetryConfig.default (CdReader.readCdChunk ⟨transport.drive⟩ .mode2Raw) track.startLba 1
    (afterInformation transport track h)
  refine ⟨events, result, hexec, ?_⟩
  cases hreads with
  | @refused message =>
    refine ⟨?_, ?_, ?_⟩
    · intro cmd answer hmem
      cases hmem
    · intro sector heq
      cases heq
    · rintro _ ⟨⟩
      exact notDetection_invalidInput message
  | accepted hr hrounds hans =>
    refine ⟨?_, ?_, ?_⟩
    · intro cmd answer hmem
      obtain ⟨lba, n, rfl, hn, hlo, hhi⟩ := hrounds.readsWithin (by decide)
        (host.span_of_accepted hr) cmd answer hmem
      obtain rfl : lba = track.startLba := UInt32.toNat_inj.mp (by omega)
      obtain rfl : n = 1 := UInt32.toNat_inj.mp (by omega)
      rfl
    · intro sector heq
      exact hrounds.length_eq (by decide) heq
    · intro err heq
      obtain ⟨before, lba, n, answer, rfl, hc⟩ := hrounds.error_last heq
      cases hans.last
      exact checkChunk_notDetection (fun _ herr => Transport.drive_notDetection herr) hc

-- ---------------------------------------------------------------------------
-- The verdict on a data track
-- ---------------------------------------------------------------------------

theorem formatFromDataMode_eq_none : formatFromDataMode mode = none ↔ mode ≠ 1 ∧ mode ≠ 2 := by
  unfold formatFromDataMode
  split <;> rename_i h1
  · simp [h1]
  · split <;> rename_i h2 <;> simp [h1, h2]

theorem formatFromDataMode_mode1 : formatFromDataMode mode = some .mode1Cooked ↔ mode = 1 := by
  unfold formatFromDataMode
  split <;> rename_i h1
  · simp [h1]
  · split <;> simp [h1]

theorem formatFromDataMode_mode2 : formatFromDataMode mode = some .mode2Raw ↔ mode = 2 := by
  unfold formatFromDataMode
  split <;> rename_i h1
  · simp [h1]
  · split <;> rename_i h2 <;> simp [h2]

theorem formatFromDataMode_isAudio (h : formatFromDataMode mode = some format) :
    format.isAudio = false := by
  unfold formatFromDataMode at h
  split at h
  · cases h
    rfl
  · split at h <;> cases h
    rfl

theorem syncedMode_eq_some {sector : Bytes} :
    syncedMode sector = some mode ↔ sector.take 12 = syncPattern ∧ sector[15]? = some mode := by
  unfold syncedMode
  split <;> rename_i h <;> simp [h]

theorem sectorFormat_eq_some {sector : Bytes} :
    (syncedMode sector).bind formatFromDataMode = some format ↔
      ∃ mode, formatFromDataMode mode = some format ∧ sector.take 12 = syncPattern ∧
        sector[15]? = some mode := by
  rw [Option.bind_eq_some_iff]
  simp only [syncedMode_eq_some]
  constructor
  · rintro ⟨mode, hsynced, hmode⟩
    exact ⟨mode, hmode, hsynced⟩
  · rintro ⟨mode, hmode, hsynced⟩
    exact ⟨mode, hsynced, hmode⟩

theorem sectorFormat_eq_none {sector : Bytes}
    (h : (syncedMode sector).bind formatFromDataMode = none) :
    sector.take 12 ≠ syncPattern ∨ sector[15]? ≠ some 1 ∧ sector[15]? ≠ some 2 := by
  by_cases hsync : sector.take 12 = syncPattern
  · right
    have hmode : ∀ mode, sector[15]? = some mode → formatFromDataMode mode = none := by
      intro mode hbyte
      rw [syncedMode_eq_some.mpr ⟨hsync, hbyte⟩] at h
      exact h
    constructor <;> intro hbyte <;> cases hmode _ hbyte
  · exact .inl hsync

section
variable (transport : Transport) (host : Host) (track : Track) (h : History)

def verdict : Outcome CdReaderError SectorReadFormat := do
  let information ← informationRead transport track h
  match formatFromDataMode information.dataMode with
  | some format => .ok format
  | none =>
    let sector ← (rawRead transport host track h).1
    okOr ((syncedMode sector).bind formatFromDataMode)
      (.cannotDetectTrackFormat track.number (some information.dataMode))

theorem detectTrackFormat_audio (haudio : track.isAudio = true) :
    (CdReader.detectTrackFormat host ⟨transport.drive⟩ track).exec h = (.ok .audio, h) := by
  unfold CdReader.detectTrackFormat
  rw [if_pos haudio]
  rfl

theorem readTrackInformation_exec :
    (CdReader.readTrackInformation ⟨transport.drive⟩ track.number).exec h =
      (informationRead transport track h, afterInformation transport track h) := by
  unfold CdReader.readTrackInformation
  rw [exec_bind_ok (exec_get h), exec_bind_ok (exec_log _ h)]
  exact exec_lift _ _

/-- On a data track the events are the one command, or the read after it. -/
theorem detectTrackFormat_data (hdata : track.isAudio = false) :
    ∃ events,
      (CdReader.detectTrackFormat host ⟨transport.drive⟩ track).exec h =
        (verdict transport host track h, afterInformation transport track h ++ events) ∧
      (∀ cmd answer, .command cmd answer ∈ events →
        cmd = .readCd track.startLba 1 .mode2Raw ∧
          ∃ dataMode, Inconclusive transport track h dataMode) ∧
      ∀ err, verdict transport host track h = .error (.error err) → NotDetection err →
        DetectionFails transport host track h events err := by
  have hinformation := readTrackInformation_exec transport track h
  unfold CdReader.detectTrackFormat verdict
  simp only [hdata, Bool.false_eq_true, ↓reduceIte]
  cases hread : informationRead transport track h with
  | error fault =>
    rw [hread] at hinformation
    refine ⟨[], ?_, (fun _ _ hmem => nomatch hmem), ?_⟩
    · rw [List.append_nil]
      exact exec_bind_error hinformation
    · rintro err ⟨⟩ -
      exact informationRead_fails host hread
  | ok information =>
    rw [hread] at hinformation
    rw [exec_bind_ok hinformation]
    cases hformat : formatFromDataMode information.dataMode with
    | some format =>
      simp only [Outcome.bind_ok, hformat]
      refine ⟨[], ?_, (fun _ _ hmem => nomatch hmem), fun _ heq => nomatch heq⟩
      rw [List.append_nil]
      rfl
    | none =>
      have hinconclusive : Inconclusive transport track h information.dataMode := by
        refine ⟨?_, formatFromDataMode_eq_none.mp hformat⟩
        rw [hread]
        rfl
      obtain ⟨events, result, hraw, hcmds, hlength, -⟩ := rawRead_total transport host track h
      refine ⟨events, ?_, fun cmd answer hmem => ⟨hcmds cmd answer hmem, _, hinconclusive⟩, ?_⟩
      · have hexec := hraw
        unfold rawRead at hexec
        rw [hraw, Outcome.bind_ok]
        simp only [hformat]
        cases result with
        | error err => exact exec_bind_error hexec
        | ok sector =>
          refine (exec_bind_ok hexec).trans ?_
          rw [formatFromRawSector_eq (hlength sector rfl), ofResult_ok, Outcome.bind_ok]
          exact exec_lift _ _
      · intro err herr hother
        rw [hraw, Outcome.bind_ok] at herr
        simp only [hformat] at herr
        cases result with
        | error err' =>
          cases herr
          exact .unread hinconclusive (readSectorsChunked_fails hraw)
        | ok sector =>
          rw [ofResult_ok, Outcome.bind_ok] at herr
          cases hbind : (syncedMode sector).bind formatFromDataMode with
          | some format =>
            rw [hbind] at herr
            cases herr
          | none =>
            rw [hbind] at herr
            cases herr
            exact absurd rfl (hother _ _)

theorem verdict_ok_iff : verdict transport host track h = .ok format ↔
    ∃ mode, formatFromDataMode mode = some format ∧ Concludes transport host track h mode := by
  unfold verdict Concludes Inconclusive
  cases informationRead transport track h with
  | error fault => simp [Except.map]
  | ok information =>
    simp only [Outcome.bind_ok, Except.map, Except.ok.injEq]
    cases hformat : formatFromDataMode information.dataMode with
    | some found =>
      constructor
      · intro heq
        cases heq
        exact ⟨information.dataMode, hformat, .inl rfl⟩
      · rintro ⟨mode, hmode, rfl | ⟨dataMode, sector, ⟨rfl, hne⟩, -⟩⟩
        · cases hformat.symm.trans hmode
          rfl
        · cases hformat.symm.trans (formatFromDataMode_eq_none.mpr hne)
    | none =>
      have hne := formatFromDataMode_eq_none.mp hformat
      cases (rawRead transport host track h).1 with
      | error fault =>
        constructor
        · intro heq
          cases heq
        · rintro ⟨mode, hmode, rfl | ⟨dataMode, sector, -, heq, -⟩⟩
          · cases hformat.symm.trans hmode
          · cases heq
      | ok sector =>
        simp only [Outcome.bind_ok]
        rw [okOr_eq_ok, sectorFormat_eq_some]
        constructor
        · rintro ⟨mode, hmode, hsync, hbyte⟩
          exact ⟨mode, hmode, .inr ⟨_, sector, ⟨rfl, hne⟩, rfl, hsync, hbyte⟩⟩
        · rintro ⟨mode, hmode, rfl | ⟨dataMode, other, -, heq, hsync, hbyte⟩⟩
          · cases hformat.symm.trans hmode
          · cases heq
            exact ⟨mode, hmode, hsync, hbyte⟩

/-- The verdict is a result, and that the format cannot be detected is said
of a whole sector that has no sync pattern or another mode byte. -/
theorem verdict_total : ∃ result, verdict transport host track h = ofResult result ∧
    ∀ number dataMode, result = .error (.cannotDetectTrackFormat number dataMode) →
      number = track.number ∧ ∃ mode sector, dataMode = some mode ∧
        Inconclusive transport track h mode ∧ (rawRead transport host track h).1 = .ok sector ∧
        sector.length = 2352 ∧
        (sector.take 12 ≠ syncPattern ∨ sector[15]? ≠ some 1 ∧ sector[15]? ≠ some 2) := by
  obtain ⟨information, hinformation, hother⟩ := informationRead_total transport track h
  obtain ⟨events, read, hraw, -, hlength, hother'⟩ := rawRead_total transport host track h
  unfold verdict Inconclusive
  rw [hinformation, hraw]
  cases information with
  | error err =>
    exact ⟨.error err, rfl, fun _ _ heq => absurd (Except.error.inj heq) (hother _ rfl _ _)⟩
  | ok information =>
    simp only [ofResult_ok, Outcome.bind_ok, Except.map, Except.ok.injEq]
    cases hformat : formatFromDataMode information.dataMode with
    | some format => exact ⟨.ok format, rfl, fun _ _ heq => nomatch heq⟩
    | none =>
      have hne := formatFromDataMode_eq_none.mp hformat
      cases read with
      | error err =>
        exact ⟨.error err, rfl, fun _ _ heq => absurd (Except.error.inj heq) (hother' _ rfl _ _)⟩
      | ok sector =>
        cases hbind : (syncedMode sector).bind formatFromDataMode with
        | some format =>
          refine ⟨.ok format, ?_, fun _ _ heq => nomatch heq⟩
          simp only [ofResult_ok, Outcome.bind_ok, hbind, okOr_some]
        | none =>
          refine ⟨.error (.cannotDetectTrackFormat track.number (some information.dataMode)), ?_,
            ?_⟩
          · simp only [ofResult_ok, Outcome.bind_ok, hbind, okOr_none, ofResult_error]
          · rintro number dataMode ⟨⟩
            exact ⟨rfl, _, sector, rfl, ⟨rfl, hne⟩, rfl, hlength sector rfl,
              sectorFormat_eq_none hbind⟩

end

theorem verdict_of_read_error {transport : Transport} {host : Host} {track : Track}
    {h : History}
    (hinconclusive : Inconclusive transport track h dataMode)
    (herr : (rawRead transport host track h).1 = .error fault) :
    verdict transport host track h = .error fault := by
  obtain ⟨hmode, hne⟩ := hinconclusive
  unfold verdict
  cases hread : informationRead transport track h with
  | error fault' =>
    rw [hread] at hmode
    cases hmode
  | ok information =>
    rw [hread] at hmode
    cases hmode
    rw [Outcome.bind_ok, formatFromDataMode_eq_none.mpr hne, herr]
    rfl

theorem rawRead_length {transport : Transport} {host : Host} {track : Track} {h : History}
    (hok : (rawRead transport host track h).1 = .ok sector) : sector.length = 2352 := by
  obtain ⟨events, result, hraw, -, hlength, -⟩ := rawRead_total transport host track h
  rw [hraw] at hok
  cases result with
  | error err => cases hok
  | ok _ =>
    cases hok
    exact hlength sector rfl

-- ---------------------------------------------------------------------------
-- Detection on the two kinds of tracks
-- ---------------------------------------------------------------------------

section
variable {transport : Transport} {host : Host} {track : Track} {h : History}

theorem detectsSoundly_audio (haudio : track.isAudio = true) :
    DetectsSoundly transport host track h [] (.ok .audio) := by
  have hdata : ∀ {P : Prop}, track.isAudio = false → P := by
    intro P hdata
    cases haudio.symm.trans hdata
  constructor
  case compatible =>
    rintro _ ⟨⟩
    rw [validateTrackFormat_eq, haudio]
    rfl
  case audio => exact fun _ => ⟨rfl, rfl⟩
  case mode1 => exact hdata
  case mode2 => exact hdata
  case data_mode => exact fun _ hanswer _ => dataMode_iff hanswer
  case refused => exact hdata
  case malformed => exact hdata
  case raw => exact fun _ _ hmem => nomatch hmem
  case sector_length => exact fun _ => rawRead_length
  case undetected => exact fun _ _ heq => nomatch heq
  case information_error => exact hdata
  case read_error => exact hdata

/-- Any events whose commands are those of detection go with the verdict. -/
theorem detectsSoundly_data (hdata : track.isAudio = false)
    (hverdict : verdict transport host track h = ofResult result)
    (hcmds : ∀ cmd answer, .command cmd answer ∈ events →
      cmd = .readTrackInformation track.number ∨
        cmd = .readCd track.startLba 1 .mode2Raw ∧
          ∃ dataMode, Inconclusive transport track h dataMode)
    (hundetected : ∀ number dataMode,
      result = .error (.cannotDetectTrackFormat number dataMode) →
        number = track.number ∧ ∃ mode sector, dataMode = some mode ∧
          Inconclusive transport track h mode ∧ (rawRead transport host track h).1 = .ok sector ∧
          sector.length = 2352 ∧
          (sector.take 12 ≠ syncPattern ∨ sector[15]? ≠ some 1 ∧ sector[15]? ≠ some 2)) :
    DetectsSoundly transport host track h events result := by
  have hok : ∀ format, result = .ok format ↔ verdict transport host track h = .ok format := by
    intro format
    rw [hverdict]
    cases result <;> simp
  have herror : ∀ err, verdict transport host track h = .error (.error err) →
      result = .error err := by
    intro err heq
    rw [hverdict] at heq
    cases result <;> cases heq
    rfl
  have hunread : ∀ err, informationRead transport track h = .error (.error err) →
      result = .error err := by
    intro err herr
    apply herror
    unfold verdict
    rw [herr]
    rfl
  constructor
  case compatible =>
    intro format heq
    obtain ⟨mode, hmode, -⟩ := (verdict_ok_iff transport host track h).mp ((hok format).mp heq)
    rw [validateTrackFormat_eq, hdata, formatFromDataMode_isAudio hmode]
    rfl
  case audio =>
    intro haudio
    cases hdata.symm.trans haudio
  case mode1 =>
    intro _
    rw [hok, verdict_ok_iff]
    simp only [formatFromDataMode_mode1, exists_eq_left]
  case mode2 =>
    intro _
    rw [hok, verdict_ok_iff]
    simp only [formatFromDataMode_mode2, exists_eq_left]
  case data_mode => exact fun _ hanswer _ => dataMode_iff hanswer
  case refused => exact fun _ err hanswer => hunread err (informationRead_refused hanswer)
  case malformed =>
    exact fun _ data hanswer hmalformed => hunread _ (informationRead_malformed hanswer hmalformed)
  case raw => exact hcmds
  case sector_length => exact fun _ => rawRead_length
  case undetected => exact hundetected
  case information_error => exact fun _ => hunread
  case read_error =>
    intro _ dataMode err hinconclusive herr
    exact herror err (verdict_of_read_error hinconclusive herr)

end

/-- Detection on any track with any drive is sound. -/
theorem detectTrackFormat_sound (transport : Transport) (host : Host) (track : Track)
    (h : History) :
    ∃ events result,
      (CdReader.detectTrackFormat host ⟨transport.drive⟩ track).exec h =
        (ofResult result, h ++ events) ∧
      DetectsSoundly transport host track h events result := by
  cases hkind : track.isAudio with
  | true =>
    refine ⟨[], .ok .audio, ?_, detectsSoundly_audio hkind⟩
    rw [detectTrackFormat_audio transport host track h hkind, List.append_nil]
    rfl
  | false =>
    obtain ⟨result, hverdict, hundetected⟩ := verdict_total transport host track h
    obtain ⟨events, hexec, hcmds, -⟩ := detectTrackFormat_data transport host track h hkind
    rw [hverdict] at hexec
    unfold afterInformation at hexec
    rw [List.append_assoc] at hexec
    refine ⟨_, result, hexec, detectsSoundly_data hkind hverdict ?_ hundetected⟩
    intro cmd answer hmem
    rcases List.mem_append.mp hmem with hmem | hmem
    · cases List.mem_singleton.mp hmem
      exact .inl rfl
    · exact .inr (hcmds cmd answer hmem)

end CdDaReader
