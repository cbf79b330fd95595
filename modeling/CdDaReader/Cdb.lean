import CdDaReader.Drive

/-!
# Command descriptor blocks

The bytes of a command on Linux and Windows. READ CD has three bytes for the
number of sectors where the crate has four; `buildReadCdCdb_decodesTo` is that
nothing is lost as long as the three are enough.
-/

namespace CdDaReader

open Rust

/-- Expected Sector Type, in bits 4 to 2 of byte 1. -/
def SectorReadFormat.cdbByte1 : SectorReadFormat → UInt8
  | .audio => 0x04
  | .mode1Cooked | .mode1Raw => 0x08
  | .mode2Raw => 0x00

/-- Main Channel Selection, in byte 9. -/
def SectorReadFormat.cdbByte9 : SectorReadFormat → UInt8
  | .audio | .mode1Cooked => 0x10
  | .mode1Raw | .mode2Raw => 0xF8

def buildReadTocCdb (allocationLen : Nat) : Bytes :=
  [0x43, 0, 0, 0, 0, 0, 0, .ofNat (allocationLen / 2 ^ 8), .ofNat allocationLen, 0]

def buildReadCdCdb (lba sectors : UInt32) (format : SectorReadFormat) : Bytes :=
  [0xBE, format.cdbByte1] ++ u32ToBeBytes lba ++
    [(sectors >>> 16 &&& 0xFF).toUInt8, (sectors >>> 8 &&& 0xFF).toUInt8,
      (sectors &&& 0xFF).toUInt8, format.cdbByte9, 0, 0]

def buildReadTrackInformationCdb (trackNumber : UInt8) (allocationLength : UInt16) : Bytes :=
  [0x52, 0x01, 0, 0, 0, trackNumber, 0] ++ u16ToBeBytes allocationLength ++ [0]

example : buildReadCdCdb 0x12345678 0xABCD .mode1Raw =
    [0xBE, 0x08, 0x12, 0x34, 0x56, 0x78, 0, 0xAB, 0xCD, 0xF8, 0, 0] := by decide

/-- The blocks of the commands; their allocation lengths are the sizes of the
buffers. -/
def Command.cdb : Command → Bytes
  | .readToc => buildReadTocCdb 2048
  | .readCd lba sectors format => buildReadCdCdb lba sectors format
  | .readTrackInformation trackNumber => buildReadTrackInformationCdb trackNumber 36

/-- What a drive reads in a READ CD block. Bytes 1 and 9 are those of one
format only. -/
structure DecodesTo (cdb : Bytes) (lba sectors : UInt32) (format : SectorReadFormat) :
    Prop where
  length_eq : cdb.length = 12
  opcode : cdb[0]? = some 0xBE
  lba_eq : beNat ((cdb.drop 2).take 4) = lba.toNat
  sectors_eq : beNat ((cdb.drop 6).take 3) = sectors.toNat
  format_iff : ∀ other : SectorReadFormat,
    cdb[1]? = some other.cdbByte1 ∧ cdb[9]? = some other.cdbByte9 ↔ other = format

theorem SectorReadFormat.cdbBytes_iff (format other : SectorReadFormat) :
    format.cdbByte1 = other.cdbByte1 ∧ format.cdbByte9 = other.cdbByte9 ↔ other = format := by
  cases format <;> cases other <;> decide

/-- Three bytes are enough for a number of sectors below 2^24. -/
theorem buildReadCdCdb_decodesTo (lba : UInt32) (hsectors : sectors.toNat < 2 ^ 24)
    (format : SectorReadFormat) :
    DecodesTo (buildReadCdCdb lba sectors format) lba sectors format := by
  constructor
  case length_eq => rfl
  case opcode => rfl
  case lba_eq => exact beNat_toBeBytes lba
  case sectors_eq =>
    have hbytes : ((buildReadCdCdb lba sectors format).drop 6).take 3 =
        [(sectors >>> 16 &&& 0xFF).toUInt8, (sectors >>> 8 &&& 0xFF).toUInt8,
          (sectors &&& 0xFF).toUInt8] := rfl
    rw [hbytes, shiftedByte sectors 16 (by decide), shiftedByte sectors 8 (by decide), lowByte]
    have h16 : (16 : UInt32).toNat = 16 := rfl
    have h8 : (8 : UInt32).toNat = 8 := rfl
    simp only [beNat, List.foldl_cons, List.foldl_nil, UInt8.toNat_ofNat', h16, h8]
    omega
  case format_iff =>
    intro other
    have h1 : (buildReadCdCdb lba sectors format)[1]? = some format.cdbByte1 := rfl
    have h9 : (buildReadCdCdb lba sectors format)[9]? = some format.cdbByte9 := rfl
    rw [h1, h9, Option.some.injEq, Option.some.injEq, format.cdbBytes_iff]

theorem DecodesTo.unique (h : DecodesTo cdb lba sectors format)
    (h' : DecodesTo cdb lba' sectors' format') :
    lba = lba' ∧ sectors = sectors' ∧ format = format' := by
  refine ⟨?_, ?_, ?_⟩
  · exact UInt32.toNat_inj.mp (h.lba_eq.symm.trans h'.lba_eq)
  · exact UInt32.toNat_inj.mp (h.sectors_eq.symm.trans h'.sectors_eq)
  · exact (h'.format_iff format).mp ((h.format_iff format).mpr rfl)

theorem buildReadCdCdb_inj (hsectors : sectors.toNat < 2 ^ 24) (hsectors' : sectors'.toNat < 2 ^ 24)
    (heq : buildReadCdCdb lba sectors format = buildReadCdCdb lba' sectors' format') :
    lba = lba' ∧ sectors = sectors' ∧ format = format' := by
  have h := buildReadCdCdb_decodesTo lba hsectors format
  rw [heq] at h
  exact h.unique (buildReadCdCdb_decodesTo lba' hsectors' format')

end CdDaReader
