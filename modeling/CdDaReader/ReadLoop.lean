import CdDaReader.Drive

/-!
# The shared read loop

`readSectorsChunked` splits a range into commands of at most the format's
transfer cap, retries each with backoff and shrinking commands, and
concatenates the answers. The platform's single-command read is the closure
`readChunk`.
-/

namespace CdDaReader

open Rust

/-- The closure `read_chunk(lba, sectors)`; what it captured and changed is a
function of the history. -/
abbrev ReadChunk := History → UInt32 → UInt32 → Answer

/-- Shrink the chunk size after a failed read, for example `27 -> 8 -> 1`. -/
def nextChunkSize (current minChunk : UInt32) : UInt32 :=
  if 8 < current then max 8 minChunk else minChunk

/-- The locals the two loops share. -/
structure ReadState where
  out : Bytes
  remaining : UInt32
  lba : UInt32

def shortRead (lba : UInt32) (expectedLen got : Nat) : CdReaderError :=
  .io ⟨.unexpectedEof,
    s!"short sector read at LBA {lba}: expected {expectedLen} bytes, got {got}"⟩

section
variable (host : Host) (format : SectorReadFormat) (cfg : RetryConfig) (readChunk : ReadChunk)

/-- One call of the closure, with the length check of its answer. -/
def readAttempt (lba chunkSectors : UInt32) : Run Answer := do
  let history ← get
  let answer := readChunk history lba chunkSectors
  Run.log (.readCd lba chunkSectors format answer)
  match answer with
  | .error err => return .error err
  | .ok chunk =>
    let expectedLen ← host.mulUsize chunkSectors.toNat format.sectorSize
    if chunk.length ≠ expectedLen then
      return .error (shortRead lba expectedLen chunk.length)
    return .ok chunk

/-- `for attempt in 1..=attempts_total`, with `left` attempts to go. The
error is `last_err` as the loop leaves it. -/
def attemptLoop (minChunk : UInt32) (state : ReadState) :
    (left : Nat) → (chunkSectors : UInt32) → (backoff : Duration) →
      Run (Except CdReaderError ReadState)
  | 0, _, _ => return .ok state
  | left + 1, chunkSectors, backoff => do
    match ← readAttempt host format readChunk state.lba chunkSectors with
    | .ok chunk =>
      let remaining ← sub32 host.overflowChecks state.remaining chunkSectors
      let lba ← if 0 < remaining then add32 host.overflowChecks state.lba chunkSectors
        else pure state.lba
      return .ok { out := state.out ++ chunk, remaining, lba }
    | .error err =>
      -- the last attempt leaves the loop before the chunk shrinks
      if left = 0 then
        return .error err
      let chunkSectors := if cfg.reduceChunkOnRetry && decide (minChunk < chunkSectors) then
        nextChunkSize chunkSectors minChunk else chunkSectors
      if !backoff.isZero then
        Run.sleep backoff
      attemptLoop minChunk state left chunkSectors ((backoff.saturatingMul 2).min cfg.maxBackoff)

/-- One pass of `while remaining > 0`. -/
def readRound (attemptsTotal : UInt8) (minChunk : UInt32) (state : ReadState) : Run ReadState := do
  let chunkSectors := min state.remaining format.maxSectorsPerXfer
  let backoff := cfg.initialBackoff.min cfg.maxBackoff
  match ← attemptLoop host format cfg readChunk minChunk state attemptsTotal.toNat
      chunkSectors backoff with
  | .ok state => return state
  | .error err => fail err

/-- `sectors > 0 && start_lba.checked_add(sectors - 1).is_none()`. -/
def overruns (startLba sectors : UInt32) : Checked Bool :=
  if 0 < sectors then do
    let last ← sub32 host.overflowChecks sectors 1
    return (checkedAdd32 startLba last).isNone
  else return false

def readSectorsChunked (startLba sectors : UInt32) : Run Bytes := do
  if ← overruns host startLba sectors then
    fail (invalidInput "sector range exceeds the maximum LBA")
  let totalBytes ← okOr (host.checkedMulUsize sectors.toNat format.sectorSize)
    (invalidInput "requested byte count is too large")
  if !host.canReserve totalBytes then
    fail (invalidInput "could not allocate the requested output buffer")
  let attemptsTotal := max cfg.maxAttempts 1
  let minChunk := max cfg.minSectorsPerRead 1
  -- every pass reads a sector or leaves, so the sector count bounds the passes
  let state ← whileLoop (throw .diverged) (fun state => decide (0 < state.remaining))
    (readRound host format cfg readChunk attemptsTotal minChunk) (sectors.toNat + 1)
    { out := [], remaining := sectors, lba := startLba }
  return state.out

end

end CdDaReader
