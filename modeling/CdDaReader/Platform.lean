import CdDaReader.Cdb

/-!
# One command on a platform

Linux and Windows pass a command's block to the drive with a buffer, and then
look at the status, the sense data and the number of bytes. Whatever came
back, a command that fails does so with an error of transport; the parsers
and the reader have the other errors to themselves. So every platform is a
`Transport`, and a drive as the reader sees it.
-/

namespace CdDaReader

open Rust

inductive TransportError
  | io (err : IoError)
  | scsi (err : ScsiError)

def TransportError.toError : TransportError → CdReaderError
  | .io err => .io err
  | .scsi err => .scsi err

/-- The platform's part of the drive. -/
abbrev Transport := History → Command → Except TransportError Bytes

def Transport.drive (transport : Transport) : Drive := fun history cmd =>
  (transport history cmd).mapError TransportError.toError

structure CommandContext where
  op : ScsiOp
  lba : Option UInt32
  sectors : Option UInt32

def Command.context : Command → CommandContext
  | .readToc => ⟨.readToc, none, none⟩
  | .readCd lba sectors _ => ⟨.readCd, some lba, some sectors⟩
  | .readTrackInformation _ => ⟨.readTrackInformation, none, none⟩

def Command.outputLen : Command → Nat
  | .readToc => 2048
  | .readCd _ sectors format => sectors.toNat * format.sectorSize
  | .readTrackInformation _ => 36

def parseSense (sense : Bytes) (written : UInt8) : Option UInt8 × Option UInt8 × Option UInt8 :=
  if written < 14 ∨ sense.length < 14 then (none, none, none)
  else (sense[2]?.map (· &&& 0x0F), sense[12]?, sense[13]?)

def scsiFailure (context : CommandContext) (status : UInt8) (sense : Bytes) (written : UInt8) :
    TransportError :=
  let (senseKey, asc, ascq) := parseSense sense written
  .scsi { op := context.op, lba := context.lba, sectors := context.sectors, scsiStatus := status,
          senseKey, asc, ascq }

namespace Linux

/-- What the code reads of `sg_io_hdr` after the call, with the sense buffer. -/
structure SgIoHeader where
  info : UInt32
  status : UInt8
  sbLenWr : UInt8
  resid : Int32
  sense : Bytes

/-- The number of bytes transferred. -/
def executeRead (outputLen : Nat) (context : CommandContext)
    (result : Except IoError SgIoHeader) : Except TransportError Nat :=
  if 2 ^ 32 ≤ outputLen then .error (.io ⟨.invalidInput, "SCSI transfer buffer is too large"⟩)
  else match result with
  | .error err => .error (.io err)
  | .ok header =>
    if header.info &&& 0x1 ≠ 0 ∨ header.status ≠ 0 then
      .error (scsiFailure context header.status header.sense header.sbLenWr)
    else if header.resid ≤ 0 then .ok outputLen
    else .ok (outputLen - header.resid.toNatClampNeg)

/-- `sgIo` is the call on a block and a buffer of some length: what it leaves
in the buffer, and the header. -/
def transport (sgIo : History → Bytes → Nat → Bytes × Except IoError SgIoHeader) : Transport :=
  fun history cmd => do
    let (output, result) := sgIo history cmd.cdb cmd.outputLen
    let transferred ← executeRead cmd.outputLen cmd.context result
    return output.take transferred

end Linux

namespace Windows

/-- What the code reads of `SCSI_PASS_THROUGH_DIRECT` after the call. -/
structure SptdWithSense where
  scsiStatus : UInt8
  senseInfoLength : UInt8
  dataTransferLength : UInt32
  sense : Bytes

/-- The number of bytes transferred. -/
def executeRead (cdb : Bytes) (outputLen : Nat) (context : CommandContext)
    (result : Except IoError SptdWithSense) : Except TransportError Nat :=
  if 16 < cdb.length then
    .error (.io ⟨.invalidInput, "SCSI CDB exceeds the Windows 16-byte limit"⟩)
  else if 2 ^ 32 ≤ outputLen then
    .error (.io ⟨.invalidInput, "SCSI transfer buffer is too large"⟩)
  else match result with
  | .error err => .error (.io err)
  | .ok wrapper =>
    if wrapper.scsiStatus ≠ 0 then
      .error (scsiFailure context wrapper.scsiStatus wrapper.sense wrapper.senseInfoLength)
    else .ok (min wrapper.dataTransferLength.toNat outputLen)

def transport (deviceIoControl : History → Bytes → Nat → Bytes × Except IoError SptdWithSense) :
    Transport :=
  fun history cmd => do
    let (output, result) := deviceIoControl history cmd.cdb cmd.outputLen
    let transferred ← executeRead cmd.cdb cmd.outputLen cmd.context result
    return output.take transferred

end Windows

namespace MacOs

structure MacScsiError where
  hasScsiError : UInt8
  scsiStatus : UInt8
  hasSense : UInt8
  senseKey : UInt8
  asc : UInt8
  ascq : UInt8

/-- `MacScsiError::default()`, which is how the native calls leave it. -/
def MacScsiError.default : MacScsiError := ⟨0, 0, 0, 0, 0, 0⟩

def mapError (error : MacScsiError) (context : CommandContext) : TransportError :=
  if error.hasScsiError ≠ 0 then
    let sense (byte : UInt8) : Option UInt8 := if error.hasSense ≠ 0 then some byte else none
    .scsi { op := context.op, lba := context.lba, sectors := context.sectors,
            scsiStatus := error.scsiStatus, senseKey := sense error.senseKey,
            asc := sense error.asc, ascq := sense error.ascq }
  else .io ⟨.other, "macOS CD command failed"⟩

end MacOs

-- ---------------------------------------------------------------------------
-- Answers fit their buffers
-- ---------------------------------------------------------------------------

theorem Linux.executeRead_le {result : Except IoError SgIoHeader}
    (h : executeRead outputLen context result = .ok transferred) : transferred ≤ outputLen := by
  unfold executeRead at h
  repeat' split at h
  all_goals cases h
  · exact Nat.le_refl _
  · exact Nat.sub_le ..

theorem Windows.executeRead_le {result : Except IoError SptdWithSense}
    (h : executeRead cdb outputLen context result = .ok transferred) :
    transferred ≤ outputLen := by
  unfold executeRead at h
  repeat' split at h
  all_goals cases h
  exact Nat.min_le_right ..

theorem length_take_bind {x : Except TransportError Nat}
    (hle : ∀ n, x = .ok n → n ≤ outputLen) {output : Bytes}
    (h : (do let transferred ← x; return output.take transferred) = .ok answer) :
    answer.length ≤ outputLen := by
  cases x with
  | error err => cases h
  | ok n =>
    cases h
    exact Nat.le_trans (List.length_take_le ..) (hle n rfl)

theorem Linux.transport_length_le {sgIo : History → Bytes → Nat → Bytes × Except IoError SgIoHeader}
    (h : transport sgIo history cmd = .ok answer) : answer.length ≤ cmd.outputLen :=
  length_take_bind (fun _ hread => executeRead_le hread) h

theorem Windows.transport_length_le
    {deviceIoControl : History → Bytes → Nat → Bytes × Except IoError SptdWithSense}
    (h : transport deviceIoControl history cmd = .ok answer) : answer.length ≤ cmd.outputLen :=
  length_take_bind (fun _ hread => executeRead_le hread) h

end CdDaReader
