import CdDaReader.Rust.Words

/-!
# Formats, errors, retry policies and the table of contents

The plain data of the crate, with the constructors and builders that make
it. `usize` values are naturals; the host says how many there are.
-/

namespace CdDaReader

abbrev Bytes := List UInt8

-- ---------------------------------------------------------------------------
-- Sector formats
-- ---------------------------------------------------------------------------

inductive SectorReadFormat
  | audio
  | mode1Cooked
  | mode1Raw
  | mode2Raw
  deriving DecidableEq, Repr

def SectorReadFormat.isAudio : SectorReadFormat → Bool
  | .audio => true
  | _ => false

def SectorReadFormat.sectorSize : SectorReadFormat → Nat
  | .audio | .mode1Raw | .mode2Raw => 2352
  | .mode1Cooked => 2048

/-- Transfers are kept at approximately 64 KiB. -/
def SectorReadFormat.maxSectorsPerXfer (format : SectorReadFormat) : UInt32 :=
  max (64 * 1024 / UInt32.ofNat format.sectorSize) 1

theorem SectorReadFormat.one_le_maxSectorsPerXfer (format : SectorReadFormat) :
    1 ≤ format.maxSectorsPerXfer.toNat := by
  cases format <;> decide

theorem SectorReadFormat.maxTransfer_le (format : SectorReadFormat) :
    format.maxSectorsPerXfer.toNat * format.sectorSize ≤ 65536 := by
  cases format <;> decide

-- ---------------------------------------------------------------------------
-- Errors
-- ---------------------------------------------------------------------------

/-- `std::io::ErrorKind`: the kinds the crate names, and those the standard
library gives an operating-system error. -/
inductive ErrorKind
  | notFound
  | invalidInput
  | invalidData
  | unexpectedEof
  | other
  | os (code : Nat)
  deriving DecidableEq, Repr

/-- `std::io::Error`: its kind and what it displays as. -/
structure IoError where
  kind : ErrorKind
  message : String
  deriving DecidableEq, Repr

inductive ScsiOp
  | readToc
  | readCd
  | readTrackInformation
  deriving DecidableEq, Repr

structure ScsiError where
  op : ScsiOp
  lba : Option UInt32
  sectors : Option UInt32
  scsiStatus : UInt8
  senseKey : Option UInt8
  asc : Option UInt8
  ascq : Option UInt8
  deriving DecidableEq, Repr

inductive CdReaderError
  | io (err : IoError)
  | scsi (err : ScsiError)
  | parse (message : String)
  | trackFormatMismatch (trackNumber : UInt8) (trackIsAudio : Bool)
      (requestedFormat : SectorReadFormat)
  | cannotDetectTrackFormat (trackNumber : UInt8) (dataMode : Option UInt8)
  | noUsableDrive
  deriving DecidableEq, Repr

def invalidInput (message : String) : CdReaderError := .io ⟨.invalidInput, message⟩

-- ---------------------------------------------------------------------------
-- Durations and retry policies
-- ---------------------------------------------------------------------------

/-- `Duration::MAX` in nanoseconds: a `u64` of seconds and a last partial one. -/
def Duration.maxNanos : Nat := (2 ^ 64 - 1) * 1000000000 + 999999999

/-- `std::time::Duration`, in nanoseconds. -/
structure Duration where
  nanos : Nat
  nanos_le : nanos ≤ Duration.maxNanos
  deriving DecidableEq, Repr

def Duration.zero : Duration := ⟨0, Nat.zero_le _⟩

/-- A number of nanoseconds, saturated at `Duration::MAX`. -/
def Duration.saturating (nanos : Nat) : Duration :=
  ⟨min nanos Duration.maxNanos, Nat.min_le_right ..⟩

def Duration.fromMillis (millis : UInt64) : Duration := .saturating (millis.toNat * 1000000)

def Duration.isZero (d : Duration) : Bool := d.nanos == 0

def Duration.min (a b : Duration) : Duration := if a.nanos ≤ b.nanos then a else b

def Duration.saturatingMul (d : Duration) (n : UInt32) : Duration :=
  .saturating (d.nanos * n.toNat)

structure RetryConfig where
  maxAttempts : UInt8
  initialBackoff : Duration
  maxBackoff : Duration
  reduceChunkOnRetry : Bool
  minSectorsPerRead : UInt32
  deriving DecidableEq, Repr

namespace RetryConfig

def default : RetryConfig where
  maxAttempts := 4
  initialBackoff := .fromMillis 20
  maxBackoff := .fromMillis 300
  reduceChunkOnRetry := true
  minSectorsPerRead := 1

def withMaxAttempts (self : RetryConfig) (attempts : UInt8) : RetryConfig :=
  { self with maxAttempts := max attempts 1 }

def withInitialBackoff (self : RetryConfig) (backoff : Duration) : RetryConfig :=
  { self with initialBackoff := backoff }

def withMaxBackoff (self : RetryConfig) (backoff : Duration) : RetryConfig :=
  { self with maxBackoff := backoff }

def withChunkReduction (self : RetryConfig) (enabled : Bool) : RetryConfig :=
  { self with reduceChunkOnRetry := enabled }

def withMinSectorsPerRead (self : RetryConfig) (sectors : UInt32) : RetryConfig :=
  { self with minSectorsPerRead := max sectors 1 }

end RetryConfig

structure ReadOptions where
  format : SectorReadFormat
  retry : RetryConfig
  deriving DecidableEq, Repr

namespace ReadOptions

def default : ReadOptions where
  format := .audio
  retry := .default

def withFormat (self : ReadOptions) (format : SectorReadFormat) : ReadOptions :=
  { self with format }

def withRetry (self : ReadOptions) (retry : RetryConfig) : ReadOptions :=
  { self with retry }

end ReadOptions

-- ---------------------------------------------------------------------------
-- The table of contents
-- ---------------------------------------------------------------------------

structure Track where
  number : UInt8
  startLba : UInt32
  startMsf : UInt8 × UInt8 × UInt8
  isAudio : Bool
  deriving DecidableEq, Repr

structure Toc where
  firstTrack : UInt8
  lastTrack : UInt8
  tracks : List Track
  leadoutLba : UInt32
  deriving DecidableEq, Repr

end CdDaReader
