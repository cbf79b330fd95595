import CdDaReader.TrackInformation

/-!
# Detecting the format of a track

The table of contents says whether a track is audio, the track information
which mode a data track has, and where that is inconclusive one raw sector is
read and its header decides.
-/

namespace CdDaReader

open Rust

-- ---------------------------------------------------------------------------
-- Raw sectors
-- ---------------------------------------------------------------------------

def rawSectorSize : Nat := 2352

def modeOffset : Nat := 15

def syncPattern : Bytes :=
  [0x00, 0xFF, 0xFF, 0xFF, 0xFF, 0xFF, 0xFF, 0xFF, 0xFF, 0xFF, 0xFF, 0x00]

inductive RawSectorMode
  | mode1
  | mode2
  deriving DecidableEq, Repr

inductive XaForm
  | form1
  | form2
  deriving DecidableEq, Repr

structure RawSectorInfo where
  mode : RawSectorMode
  xaForm : Option XaForm
  deriving DecidableEq, Repr

inductive RawSectorParseError
  | invalidLength (actual : Nat)
  | invalidSync
  | unsupportedMode (mode : UInt8)
  deriving DecidableEq, Repr

/-- The form of a Mode 2 sector, when both copies of its subheader agree. -/
def parseXaForm (sector : Bytes) : Checked (Option XaForm) := do
  let first ← slice sector 16 20
  let second ← slice sector 20 24
  if first ≠ second then
    return none
  let submode ← index sector 18
  if submode &&& 0x0E = 0 then
    return none
  if submode &&& 0x20 = 0 then
    return some .form1
  else
    return some .form2

def parseRawSector (sector : Bytes) : Outcome RawSectorParseError RawSectorInfo := do
  if sector.length ≠ rawSectorSize then
    fail (RawSectorParseError.invalidLength sector.length)
  let sync ← slice sector 0 syncPattern.length
  if sync ≠ syncPattern then
    fail RawSectorParseError.invalidSync
  let mode ← index sector modeOffset
  if mode = 0x01 then
    return { mode := .mode1, xaForm := none }
  else if mode = 0x02 then
    let xaForm ← parseXaForm sector
    return { mode := .mode2, xaForm }
  else
    fail (RawSectorParseError.unsupportedMode mode)

-- ---------------------------------------------------------------------------
-- Detection
-- ---------------------------------------------------------------------------

def formatFromDataMode (dataMode : UInt8) : Option SectorReadFormat :=
  if dataMode = 0x01 then some .mode1Cooked
  else if dataMode = 0x02 then some .mode2Raw
  else none

def formatFromRawSector (sector : Bytes) : Outcome RawSectorParseError SectorReadFormat := do
  let info ← parseRawSector sector
  match info.mode with
  | .mode1 => return .mode1Cooked
  | .mode2 => return .mode2Raw

def CdReader.detectTrackFormat (host : Host) (self : CdReader) (track : Track) :
    Run SectorReadFormat := do
  if track.isAudio then
    return .audio
  let information ← self.readTrackInformation track.number
  if let some format := formatFromDataMode information.dataMode then
    return format
  let options := ReadOptions.default.withFormat .mode2Raw
  let rawSector ← self.readSectorRange host track.startLba 1 options
  let format ← (formatFromRawSector rawSector).mapErr fun _ =>
    CdReaderError.cannotDetectTrackFormat track.number (some information.dataMode)
  return format

-- ---------------------------------------------------------------------------
-- What a raw sector says
-- ---------------------------------------------------------------------------

/-- The mode byte of a sector that has the sync pattern. -/
def syncedMode (sector : Bytes) : Option UInt8 :=
  if sector.take 12 = syncPattern then sector[15]? else none

theorem parseXaForm_total {sector : Bytes} (h : sector.length = rawSectorSize) :
    ∃ xaForm, parseXaForm sector = .ok xaForm := by
  unfold rawSectorSize at h
  unfold parseXaForm
  rw [slice_ok (by decide) (by omega), slice_ok (by decide) (by omega), index_getD 0 (by omega)]
  simp only [bind, Except.bind]
  repeat' split
  all_goals exact ⟨_, rfl⟩

/-- On a whole sector the format follows from the mode byte as it does from
the data mode. -/
theorem formatFromRawSector_eq {sector : Bytes} (h : sector.length = rawSectorSize) (err : ε) :
    (formatFromRawSector sector).mapErr (fun _ => err) =
      okOr ((syncedMode sector).bind formatFromDataMode) err := by
  have hmode : (index sector modeOffset : Checked UInt8) = .ok (sector.getD 15 0) :=
    index_getD 0 (by rw [h]; decide)
  have hbyte : sector[15]? = some (sector.getD 15 0) := by
    unfold rawSectorSize at h
    rw [List.getD_eq_getElem?_getD, List.getElem?_eq_getElem (by omega)]
    rfl
  have hsync : (slice sector 0 syncPattern.length : Checked Bytes) = .ok (sector.take 12) :=
    slice_ok (Nat.zero_le _) (by rw [h]; decide)
  obtain ⟨xaForm, hxa⟩ := parseXaForm_total h
  unfold formatFromRawSector parseRawSector syncedMode
  rw [if_neg (not_not_intro h), hsync, hmode, hbyte, hxa]
  simp only [Outcome.lift_ok, Outcome.bind_ok]
  by_cases heq : sector.take 12 = syncPattern
  · rw [if_neg (not_not_intro heq), if_pos heq, Option.bind_some, formatFromDataMode]
    split
    · rfl
    · split <;> rfl
  · rw [if_pos heq, if_neg heq]
    rfl

end CdDaReader
