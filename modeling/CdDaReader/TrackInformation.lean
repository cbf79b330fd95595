import CdDaReader.Platform
import CdDaReader.Reader

/-!
# READ TRACK INFORMATION

The response declares its own length, of 32 bytes at least; the high bytes of
the track and session numbers follow those and may be missing. Linux and
Windows parse all that was transferred, macOS what the response declares.
-/

namespace CdDaReader

open Rust

structure TrackInformation where
  trackNumber : UInt16
  sessionNumber : UInt16
  trackMode : UInt8
  dataMode : UInt8
  startLba : UInt32
  trackSize : UInt32
  deriving DecidableEq, Repr

def readU32 (data : Bytes) (offset : Nat) : Checked UInt32 := do
  let a ← index data offset
  let b ← index data (offset + 1)
  let c ← index data (offset + 2)
  let d ← index data (offset + 3)
  return u32FromBeBytes a b c d

def parseTrackInformation (data : Bytes) : Outcome IoError TrackInformation := do
  if data.length < 32 then
    fail (IoError.mk .invalidData "track information response is too short")
  let b0 ← index data 0
  let b1 ← index data 1
  let declaredSize := (u16FromBeBytes b0 b1).toNat + 2
  if declaredSize < 32 ∨ data.length < declaredSize then
    fail (IoError.mk .invalidData "track information response length is invalid")
  let trackNumberMsb := data.getD 32 0
  let sessionNumberMsb := data.getD 33 0
  let trackNumberLsb ← index data 2
  let sessionNumberLsb ← index data 3
  let mode ← index data 5
  let dataMode ← index data 6
  let startLba ← readU32 data 8
  let trackSize ← readU32 data 24
  return {
    trackNumber := u16FromBeBytes trackNumberMsb trackNumberLsb
    sessionNumber := u16FromBeBytes sessionNumberMsb sessionNumberLsb
    trackMode := mode &&& 0x0F
    dataMode := dataMode &&& 0x0F
    startLba, trackSize }

/-- What each platform makes of the answer to its command. -/
def decodeTrackInformation (answer : Answer) : Outcome CdReaderError TrackInformation := do
  let data ← ofResult answer
  (parseTrackInformation data).mapErr fun error => .parse error.message

/-- The native call; `none` is an `ioctl` that failed, and its `false`. -/
def MacOs.cdReadTrackInformation (ioctl : Option Bytes) : Option Bytes := do
  let raw ← ioctl
  if raw.length < 32 then
    none
  else
    let responseLength := (u16FromBeBytes (raw.getD 0 0) (raw.getD 1 0)).toNat + 2
    if responseLength < 32 ∨ raw.length < responseLength then none
    else some (raw.take responseLength)

/-- The bytes macOS hands to the parser. -/
def MacOs.readTrackInformation (trackNumber : UInt8) (ioctl : Option Bytes) : Answer :=
  match MacOs.cdReadTrackInformation ioctl with
  | some data => .ok data
  | none => .error (mapError .default (Command.readTrackInformation trackNumber).context).toError

def CdReader.readTrackInformation (self : CdReader) (trackNumber : UInt8) :
    Run TrackInformation := do
  let history ← get
  let answer := self.drive history (.readTrackInformation trackNumber)
  Run.log (.command (.readTrackInformation trackNumber) answer)
  decodeTrackInformation answer

-- ---------------------------------------------------------------------------
-- The parser on a response of the declared length or more
-- ---------------------------------------------------------------------------

def declaredSize (data : Bytes) : Nat :=
  (u16FromBeBytes (data.getD 0 0) (data.getD 1 0)).toNat + 2

def informationOf (data : Bytes) : TrackInformation where
  trackNumber := u16FromBeBytes (data.getD 32 0) (data.getD 2 0)
  sessionNumber := u16FromBeBytes (data.getD 33 0) (data.getD 3 0)
  trackMode := data.getD 5 0 &&& 0x0F
  dataMode := data.getD 6 0 &&& 0x0F
  startLba := u32FromBeBytes (data.getD 8 0) (data.getD 9 0) (data.getD 10 0) (data.getD 11 0)
  trackSize := u32FromBeBytes (data.getD 24 0) (data.getD 25 0) (data.getD 26 0) (data.getD 27 0)

theorem readU32_eq {data : Bytes} (h : offset + 3 < data.length) :
    readU32 data offset = .ok (u32FromBeBytes (data.getD offset 0) (data.getD (offset + 1) 0)
      (data.getD (offset + 2) 0) (data.getD (offset + 3) 0)) := by
  unfold readU32
  rw [index_getD 0 (show offset < data.length by omega),
    index_getD 0 (show offset + 1 < data.length by omega),
    index_getD 0 (show offset + 2 < data.length by omega), index_getD 0 h]
  rfl

theorem parseTrackInformation_eq (data : Bytes) : parseTrackInformation data =
    if data.length < 32 then
      .error (.error ⟨.invalidData, "track information response is too short"⟩)
    else if declaredSize data < 32 ∨ data.length < declaredSize data then
      .error (.error ⟨.invalidData, "track information response length is invalid"⟩)
    else .ok (informationOf data) := by
  unfold parseTrackInformation
  split <;> rename_i hlen
  · rfl
  · have hindex : ∀ i < 32, (index data i : Checked UInt8) = .ok (data.getD i 0) :=
      fun i hi => index_getD 0 (by omega)
    rw [hindex 0 (by decide), hindex 1 (by decide), hindex 2 (by decide), hindex 3 (by decide),
      hindex 5 (by decide), hindex 6 (by decide), readU32_eq (by omega), readU32_eq (by omega)]
    simp only [Outcome.lift_ok, Outcome.bind_ok]
    unfold declaredSize
    split <;> rfl

/-- A response declares its least length or more, and is as long as it
declares. -/
def WholeInformation (data : Bytes) : Prop :=
  32 ≤ declaredSize data ∧ declaredSize data ≤ data.length

instance (data : Bytes) : Decidable (WholeInformation data) := inferInstanceAs (Decidable (_ ∧ _))

/-- The parser's message about a response that is not whole. -/
def malformedInformation (data : Bytes) : String :=
  if data.length < 32 then "track information response is too short"
  else "track information response length is invalid"

theorem WholeInformation.parse_eq {data : Bytes} (h : WholeInformation data) :
    parseTrackInformation data = .ok (informationOf data) := by
  obtain ⟨hmin, hmax⟩ := h
  rw [parseTrackInformation_eq, if_neg (by omega), if_neg (by omega)]

theorem parseTrackInformation_malformed {data : Bytes} (h : ¬ WholeInformation data) :
    parseTrackInformation data =
      .error (.error ⟨.invalidData, malformedInformation data⟩) := by
  rw [parseTrackInformation_eq]
  unfold malformedInformation WholeInformation at *
  split
  · rfl
  · rw [if_pos (by omega)]

end CdDaReader
