import CdDaReader.ParseToc

/-!
# The table of contents on macOS

macOS hands out the full table of contents: descriptors in any order, of any
session and kind, with addresses in minutes, seconds and frames. The native
`read_toc` turns it into a READ TOC response for the common parser. An
access out of bounds, which C leaves undefined, is a fault here; allocation
is taken to succeed.
-/

namespace CdDaReader

open Rust

/-- `CDMSF`. -/
structure Msf where
  minute : UInt8
  second : UInt8
  frame : UInt8
  deriving DecidableEq, Repr

/-- What the reader looks at of a `CDTOCDescriptor`; `adr` and `control` are
bit fields of four bits. -/
structure CdTocDescriptor where
  adr : BitVec 4
  control : BitVec 4
  point : UInt8
  p : Msf
  deriving DecidableEq, Repr

/-- What `DKIOCCDREADTOC` returns: the length of the buffer, the length field
of the table, and the descriptors that `CDTOCGetDescriptorCount` counts. -/
structure CdToc where
  bufferLength : UInt16
  length : UInt16
  descriptors : List CdTocDescriptor

/-- The locals of the loop over the descriptors. -/
structure TocTable where
  tracks : List (Option CdTocDescriptor)
  leadout : Option CdTocDescriptor
  firstTrack : UInt8
  lastTrack : UInt8
  trackCount : Nat

def TocTable.empty : TocTable where
  tracks := List.replicate 100 none
  leadout := none
  firstTrack := 0
  lastTrack := 0
  trackCount := 0

def TocTable.add (table : TocTable) (desc : CdTocDescriptor) : Checked TocTable := do
  if desc.adr ≠ 1 then
    return table
  if 1 ≤ desc.point ∧ desc.point ≤ 99 then
    let previous ← index table.tracks desc.point.toNat
    let trackCount := if previous.isNone then table.trackCount + 1 else table.trackCount
    let tracks ← update table.tracks desc.point.toNat (some desc)
    let firstTrack := if table.firstTrack = 0 ∨ desc.point < table.firstTrack then desc.point
      else table.firstTrack
    let lastTrack := if table.lastTrack < desc.point then desc.point else table.lastTrack
    return { table with tracks, firstTrack, lastTrack, trackCount }
  else if desc.point = 0xA2 then
    return { table with leadout := some desc }
  else
    return table

/-- The six stores that fill a zeroed output descriptor. -/
def writeDescriptor (buf : Bytes) (offset : Nat) (desc : CdTocDescriptor) (number : UInt8)
    (lba : UInt32) : Checked Bytes := do
  let buf ← update buf (offset + 1) (.ofNat (desc.adr.toNat <<< 4 ||| desc.control.toNat))
  let buf ← update buf (offset + 2) number
  let buf ← update buf (offset + 4) (lba >>> 24 &&& 0xFF).toUInt8
  let buf ← update buf (offset + 5) (lba >>> 16 &&& 0xFF).toUInt8
  let buf ← update buf (offset + 6) (lba >>> 8 &&& 0xFF).toUInt8
  update buf (offset + 7) (lba &&& 0xFF).toUInt8

/-- The locals of the loop that writes the tracks. -/
structure TocOutput where
  track : UInt8
  offset : Nat
  buf : Bytes

section
variable (cdConvertMsfToLba : Msf → UInt32)

/-- One pass of `for (uint8_t track = firstTrack; track <= lastTrack; track++)`. -/
def writeTrack (table : TocTable) (out : TocOutput) : Outcome Unit TocOutput := do
  match ← index table.tracks out.track.toNat with
  | none => return { out with track := out.track + 1 }
  | some desc =>
    let buf ← writeDescriptor out.buf out.offset desc out.track (cdConvertMsfToLba desc.p)
    return { track := out.track + 1, offset := out.offset + 8, buf }

/-- The native `read_toc`; `none` is an `ioctl` that failed, and its `false`
is the one `Err`. -/
def readToc (response : Option CdToc) : Outcome Unit Bytes := do
  let toc ← okOr response ()
  if toc.bufferLength.toNat < 4 then
    fail ()
  let tocSize := toc.length.toNat + 2
  if toc.bufferLength.toNat < tocSize then
    fail ()
  let table ← (toc.descriptors.foldlM TocTable.add TocTable.empty : Checked TocTable)
  if table.trackCount = 0 then
    fail ()
  let leadout ← okOr table.leadout ()
  let outputDescriptors := table.trackCount + 1
  let outputTocLength := UInt16.ofNat (2 + outputDescriptors * 8)
  let outputLen := outputTocLength.toNat + 2
  let buf : Bytes := List.replicate outputLen 0
  let buf ← update buf 0 (outputTocLength >>> 8 &&& 0xFF).toUInt8
  let buf ← update buf 1 (outputTocLength &&& 0xFF).toUInt8
  let buf ← update buf 2 table.firstTrack
  let buf ← update buf 3 table.lastTrack
  -- a byte counts the tracks, so 256 passes are enough
  let out ← whileLoop (throw .diverged) (fun out => decide (out.track ≤ table.lastTrack))
    (writeTrack cdConvertMsfToLba table) 256 { track := table.firstTrack, offset := 4, buf }
  writeDescriptor out.buf out.offset leadout 0xAA (cdConvertMsfToLba leadout.p)

end

end CdDaReader
