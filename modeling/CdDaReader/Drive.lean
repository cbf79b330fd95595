import CdDaReader.Data

/-!
# The host and the drive

A drive answers each command by a function of everything that happened
before, so it may fail, come back short or change its mind in any pattern.
What a run does is the list of events it appends to the history: commands
with their answers, and pauses.
-/

namespace CdDaReader

open Rust

inductive PointerWidth
  | bits32
  | bits64
  deriving DecidableEq, Repr

def PointerWidth.usizeMax : PointerWidth → Nat
  | .bits32 => 2 ^ 32 - 1
  | .bits64 => 2 ^ 64 - 1

/-- What the build and the machine decide: whether overflow checks are on,
the width of `usize`, and which buffers can be reserved. -/
structure Host where
  overflowChecks : Bool
  pointerWidth : PointerWidth
  canReserve : Nat → Bool

/-- A debug build on a 64-bit machine with enough memory. -/
def Host.desktop : Host where
  overflowChecks := true
  pointerWidth := .bits64
  canReserve _ := true

/-- `usize::checked_mul`. -/
def Host.checkedMulUsize (host : Host) (a b : Nat) : Option Nat :=
  if a * b ≤ host.pointerWidth.usizeMax then some (a * b) else none

/-- `*` on `usize`. -/
def Host.mulUsize (host : Host) (a b : Nat) : Checked Nat :=
  if host.overflowChecks && decide (host.pointerWidth.usizeMax < a * b) then
    .error .arithmeticOverflow
  else .ok (a * b % (host.pointerWidth.usizeMax + 1))

theorem Host.le_usizeMax (host : Host) : 2 ^ 32 - 1 ≤ host.pointerWidth.usizeMax := by
  cases host.pointerWidth <;> decide

theorem Host.mulUsize_ok (host : Host) (h : a * b ≤ host.pointerWidth.usizeMax) :
    (host.mulUsize a b : Checked Nat) = .ok (a * b) := by
  simp [mulUsize, Nat.not_lt.mpr h, Nat.mod_eq_of_lt (Nat.lt_succ_of_le h)]

-- ---------------------------------------------------------------------------
-- Commands and events
-- ---------------------------------------------------------------------------

/-- The SCSI commands of `ScsiOp` with their arguments. -/
inductive Command
  | readToc
  | readCd (lba sectors : UInt32) (format : SectorReadFormat)
  | readTrackInformation (trackNumber : UInt8)
  deriving DecidableEq, Repr

abbrev Answer := Except CdReaderError Bytes

inductive Event
  | command (cmd : Command) (answer : Answer)
  | slept (pause : Duration)

abbrev Event.readCd (lba sectors : UInt32) (format : SectorReadFormat) (answer : Answer) : Event :=
  .command (.readCd lba sectors format) answer

/-- What happened so far, in order. -/
abbrev History := List Event

abbrev Drive := History → Command → Answer

abbrev Run (α : Type) := Exec History CdReaderError α

def Run.log (event : Event) : Run Unit := modify (· ++ [event])

def Run.sleep (pause : Duration) : Run Unit := Run.log (.slept pause)

@[simp] theorem exec_log (event : Event) (h : History) :
    (Run.log event).exec h = (.ok (), h ++ [event]) := rfl

@[simp] theorem exec_sleep (pause : Duration) (h : History) :
    (Run.sleep pause).exec h = (.ok (), h ++ [.slept pause]) := rfl

end CdDaReader
