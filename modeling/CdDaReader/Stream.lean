import CdDaReader.Reader

/-!
# Track streams

A stream keeps its position in two fields, the next address and the number
of remaining sectors. Its methods run on a state of the stream and the
drive's history; a method that fails leaves the fields as they are at that
point.
-/

namespace CdDaReader

open Rust

/-- Options of a stream. The fields are private to the source's module, where
the default and the builders make every value. -/
structure TrackStreamOptions where
  sectorsPerChunk : UInt32
  format : SectorReadFormat
  retry : RetryConfig
  one_le_sectorsPerChunk : 1 ≤ sectorsPerChunk.toNat

namespace TrackStreamOptions

def default : TrackStreamOptions where
  sectorsPerChunk := 27
  format := .audio
  retry := .default
  one_le_sectorsPerChunk := by decide

def withFormat (self : TrackStreamOptions) (format : SectorReadFormat) : TrackStreamOptions :=
  { self with format }

def withRetry (self : TrackStreamOptions) (retry : RetryConfig) : TrackStreamOptions :=
  { self with retry }

def withSectorsPerChunk (self : TrackStreamOptions) (sectors : UInt32) : TrackStreamOptions :=
  { self with
    sectorsPerChunk := max sectors 1
    one_le_sectorsPerChunk := by
      rw [toNat_max32]
      exact Nat.le_max_right .. }

end TrackStreamOptions

structure TrackStream where
  reader : CdReader
  startLba : UInt32
  nextLba : UInt32
  remainingSectors : UInt32
  totalSectors : UInt32
  options : TrackStreamOptions

structure StreamState where
  stream : TrackStream
  history : History

abbrev StreamRun (α : Type) := Exec StreamState CdReaderError α

/-- An `f32` as `seek_to_seconds` sees it; `targetSector` is
`(seconds * 75.0).round() as u32`. -/
structure Seconds where
  isFinite : Bool
  isNegative : Bool
  targetSector : UInt32

namespace TrackStream

variable (host : Host)

def nextChunkWith
    (readFn : UInt32 → UInt32 → SectorReadFormat → RetryConfig → Run Bytes) :
    StreamRun (Option Bytes) := do
  let self := (← get).stream
  if self.remainingSectors = 0 then
    return none
  let sectors := min self.remainingSectors self.options.sectorsPerChunk
  let chunk ← (readFn self.nextLba sectors self.options.format self.options.retry).zoom
    StreamState.history fun s history => { s with history }
  let nextLba ← add32 host.overflowChecks self.nextLba sectors
  modify fun s => { s with stream := { s.stream with nextLba } }
  let remainingSectors ← sub32 host.overflowChecks self.remainingSectors sectors
  modify fun s => { s with stream := { s.stream with remainingSectors } }
  return some chunk

def nextChunk : StreamRun (Option Bytes) := do
  let self := (← get).stream
  nextChunkWith host fun lba sectors format retry =>
    let options := (ReadOptions.default.withFormat format).withRetry retry
    self.reader.readSectorRange host lba sectors options

def currentSector (self : TrackStream) : Checked UInt32 :=
  sub32 host.overflowChecks self.totalSectors self.remainingSectors

def seekToSector (sector : UInt32) : StreamRun Unit := do
  let self := (← get).stream
  if self.totalSectors < sector then
    fail (invalidInput "seek sector is out of track bounds")
  let nextLba ← add32 host.overflowChecks self.startLba sector
  modify fun s => { s with stream := { s.stream with nextLba } }
  let remainingSectors ← sub32 host.overflowChecks self.totalSectors sector
  modify fun s => { s with stream := { s.stream with remainingSectors } }

def seekToSeconds (seconds : Seconds) : StreamRun Unit := do
  if !seconds.isFinite || seconds.isNegative then
    fail (invalidInput "seek seconds must be a finite non-negative number")
  let self := (← get).stream
  seekToSector host (min seconds.targetSector self.totalSectors)

end TrackStream

namespace CdReader

def openTrackStreamWithOptions (host : Host) (self : CdReader) (toc : Toc) (trackNo : UInt8)
    (options : TrackStreamOptions) : Outcome CdReaderError TrackStream := do
  if let some track := toc.tracks.find? fun track => track.number == trackNo then
    validateTrackFormat track options.format
  let (startLba, sectors) ← (getTrackBounds host toc trackNo).mapErr CdReaderError.io
  return {
    reader := self
    startLba
    nextLba := startLba
    remainingSectors := sectors
    totalSectors := sectors
    options }

def openTrackStream (host : Host) (self : CdReader) (toc : Toc) (trackNo : UInt8) :
    Outcome CdReaderError TrackStream :=
  self.openTrackStreamWithOptions host toc trackNo .default

end CdReader

end CdDaReader
