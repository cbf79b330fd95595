import CdDaReader.ReadLoop
import CdDaReader.TrackBounds

/-!
# Reading tracks and sector ranges

A `CdReader` owns the drive. Reading a track checks the format, finds the
track's range and reads it; the format is checked against the first track of
the number, as the bounds are.
-/

namespace CdDaReader

open Rust

def validateTrackFormat (track : Track) (format : SectorReadFormat) : Outcome CdReaderError Unit :=
  if track.isAudio = format.isAudio then return ()
  else fail (CdReaderError.trackFormatMismatch track.number track.isAudio format)

structure CdReader where
  drive : Drive

namespace CdReader

/-- `self.drive.read_cd_chunk` with the format the closure captures. -/
def readCdChunk (self : CdReader) (format : SectorReadFormat) : ReadChunk :=
  fun history lba chunkSectors => self.drive history (.readCd lba chunkSectors format)

def readSectorRange (host : Host) (self : CdReader) (startLba sectors : UInt32)
    (options : ReadOptions) : Run Bytes :=
  let format := options.format
  readSectorsChunked host format options.retry (self.readCdChunk format) startLba sectors

def readTrackWithOptions (host : Host) (self : CdReader) (toc : Toc) (trackNo : UInt8)
    (options : ReadOptions) : Run Bytes := do
  if let some track := toc.tracks.find? fun track => track.number == trackNo then
    validateTrackFormat track options.format
  let (startLba, sectors) ← (getTrackBounds host toc trackNo).mapErr CdReaderError.io
  self.readSectorRange host startLba sectors options

def readTrack (host : Host) (self : CdReader) (toc : Toc) (trackNo : UInt8) : Run Bytes :=
  self.readTrackWithOptions host toc trackNo .default

end CdReader

end CdDaReader
