import CdDaReader.Rust.Words

/-!
# RIFF files with waves

A RIFF file is a header with the size of what follows it, a form type, and
chunks: an identifier, a size and as many bytes, padded to an even number.
`readWave` reads one of the form `WAVE` and checks every size it meets; the
padding of the last chunk may be missing, as it is in many files.
-/

namespace Rust.Riff

abbrev FourCc := List UInt8

def riffId : FourCc := [0x52, 0x49, 0x46, 0x46]
def waveId : FourCc := [0x57, 0x41, 0x56, 0x45]
def fmtId : FourCc := [0x66, 0x6D, 0x74, 0x20]
def dataId : FourCc := [0x64, 0x61, 0x74, 0x61]

/-- The first chunk, and what follows it and its padding. -/
def readChunk : List UInt8 → Option ((FourCc × List UInt8) × List UInt8)
  | i0 :: i1 :: i2 :: i3 :: s0 :: s1 :: s2 :: s3 :: rest =>
    let size := leNat [s0, s1, s2, s3]
    if size ≤ rest.length then
      some (([i0, i1, i2, i3], rest.take size), rest.drop (size + size % 2))
    else none
  | _ => none

/-- All chunks, at most as many as are asked for. -/
def readChunks : Nat → List UInt8 → Option (List (FourCc × List UInt8))
  | _, [] => some []
  | 0, _ :: _ => none
  | n + 1, bytes@(_ :: _) => do
    let (chunk, rest) ← readChunk bytes
    let chunks ← readChunks n rest
    return chunk :: chunks

structure WaveFormat where
  formatTag : Nat
  channels : Nat
  sampleRate : Nat
  byteRate : Nat
  blockAlign : Nat
  bitsPerSample : Nat
  deriving DecidableEq, Repr

structure WaveFormat.Consistent (format : WaveFormat) : Prop where
  byteRate_eq : format.byteRate = format.sampleRate * format.blockAlign
  blockAlign_eq : format.blockAlign = format.channels * format.bitsPerSample / 8

def readFormat : List UInt8 → Option WaveFormat
  | [f0, f1, c0, c1, r0, r1, r2, r3, b0, b1, b2, b3, a0, a1, s0, s1] => some {
      formatTag := leNat [f0, f1]
      channels := leNat [c0, c1]
      sampleRate := leNat [r0, r1, r2, r3]
      byteRate := leNat [b0, b1, b2, b3]
      blockAlign := leNat [a0, a1]
      bitsPerSample := leNat [s0, s1] }
  | _ => none

structure Wave where
  format : WaveFormat
  samples : List UInt8
  deriving DecidableEq, Repr

def readWave (file : List UInt8) : Option Wave :=
  if file.take 4 = riffId ∧ leNat ((file.drop 4).take 4) = file.length - 8 ∧
      (file.drop 8).take 4 = waveId then do
    let chunks ← readChunks file.length (file.drop 12)
    let format ← (chunks.lookup fmtId).bind readFormat
    let samples ← chunks.lookup dataId
    return { format, samples }
  else none

theorem readChunk_append (i0 i1 i2 i3 : UInt8) (size : UInt32) {bytes : List UInt8}
    (h : size.toNat = bytes.length) (rest : List UInt8) :
    readChunk ([i0, i1, i2, i3] ++ u32ToLeBytes size ++ (bytes ++ rest)) =
      some (([i0, i1, i2, i3], bytes), rest.drop (bytes.length % 2)) := by
  have hsize := leNat_toLeBytes32 size
  unfold u32ToLeBytes at hsize ⊢
  simp only [List.cons_append, List.nil_append, readChunk]
  rw [hsize, h, if_pos (by rw [List.length_append]; omega), List.take_left,
    List.drop_append, List.drop_of_length_le (Nat.le_add_right ..), Nat.add_sub_cancel_left,
    List.nil_append]

theorem readChunks_nil (n : Nat) : readChunks n [] = some [] := by
  cases n <;> rfl

theorem readChunks_cons (n : Nat) {bytes rest : List UInt8}
    (hfirst : readChunk bytes = some (chunk, rest)) :
    readChunks (n + 1) bytes = (readChunks n rest).map (chunk :: ·) := by
  cases bytes with
  | nil => simp [readChunk] at hfirst
  | cons byte bytes =>
    rw [readChunks, hfirst]
    show (readChunks n rest).bind (fun chunks => some (chunk :: chunks)) = _
    cases readChunks n rest <;> rfl

end Rust.Riff
