import CdDaReader.Mmc.ReadCd
import CdDaReader.TocReader
import CdDaReader.TrackInformation

/-!
# macOS as a transport

macOS has calls of its own in place of command blocks. A sector read names an
offset in bytes, a type of sector and areas of it, and succeeds as a whole or
not at all. The constants of IOKit are the sector types and fields of the
multimedia commands.
-/

namespace CdDaReader

open Rust

namespace MacOs

/-- `dk_cd_read_t`, without its buffer. -/
structure DkCdRead where
  offset : UInt64
  sectorArea : List Mmc.Field
  sectorType : Mmc.Expected
  bufferLength : UInt32
  deriving DecidableEq, Repr

structure SectorLayout where
  sectorArea : List Mmc.Field
  sectorType : Mmc.Expected
  sectorSize : UInt32

def sectorLayoutForFormat (formatId : UInt32) : Option SectorLayout :=
  match formatId.toNat with
  | 0 => some ⟨[.userData], some .cdda, 2352⟩
  | 1 => some ⟨[.userData], some .mode1, 2048⟩
  | 2 => some ⟨[.sync, .header, .userData, .edcEcc], some .mode1, 2352⟩
  | 3 => some ⟨[.sync, .header, .subHeader, .userData, .edcEcc], none, 2352⟩
  | _ => none

def formatId : SectorReadFormat → UInt32
  | .audio => 0
  | .mode1Cooked => 1
  | .mode1Raw => 2
  | .mode2Raw => 3

/-- The native call; `none` is its `false`. The `ioctl` fills the buffer and
changes the request's length. -/
def readCdSectors (malloc : UInt32 → Bool) (ioctl : DkCdRead → Option (Bytes × UInt32))
    (lba sectors formatId : UInt32) : Option Bytes := do
  let layout ← sectorLayoutForFormat formatId
  let totalBytes64 := layout.sectorSize.toUInt64 * sectors.toUInt64
  let totalBytes := totalBytes64.toUInt32
  if sectors = 0 then
    none
  else if 0xFFFFFFFF < totalBytes64 then
    none
  else if !malloc totalBytes then
    none
  else
    let (buffer, bufferLength) ← ioctl
      { offset := lba.toUInt64 * layout.sectorSize.toUInt64, sectorArea := layout.sectorArea
        sectorType := layout.sectorType, bufferLength := totalBytes }
    if bufferLength ≠ totalBytes then
      none
    else
      some (buffer.take totalBytes.toNat)

/-- The calls to the driver, as functions of what happened before. -/
structure Ioctls where
  malloc : UInt32 → Bool
  cdConvertMsfToLba : Msf → UInt32
  readToc : History → Option CdToc
  readCd : History → DkCdRead → Option (Bytes × UInt32)
  readTrackInformation : History → UInt8 → Option Bytes

/-- The bytes of the native call for a command. What C leaves undefined does
not occur in the table's normaliser, so its faults count as a failure. -/
def nativeCall (ioctls : Ioctls) (history : History) : Command → Option Bytes
  | .readToc =>
    match CdDaReader.readToc ioctls.cdConvertMsfToLba (ioctls.readToc history) with
    | .ok data => some data
    | .error _ => none
  | .readCd lba sectors format =>
    readCdSectors ioctls.malloc (ioctls.readCd history) lba sectors (formatId format)
  | .readTrackInformation trackNumber =>
    cdReadTrackInformation (ioctls.readTrackInformation history trackNumber)

def transport (ioctls : Ioctls) : Transport := fun history cmd =>
  match nativeCall ioctls history cmd with
  | some data => .ok data
  | none => .error (mapError .default cmd.context)

end MacOs

end CdDaReader
