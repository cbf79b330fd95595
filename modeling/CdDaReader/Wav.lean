import CdDaReader.Drive
import CdDaReader.Rust.Riff

/-!
# WAV files

`createWav` puts a header before raw audio. Both of the header's sizes come
from the length as a `u32`: the one is the length narrowed without a check,
the other that and 36 more.
-/

namespace CdDaReader

open Rust Rust.Riff

def riffHeader (fileSize : UInt32) : Bytes := riffId ++ u32ToLeBytes fileSize ++ waveId

def fmtChunk : Bytes :=
  fmtId ++ u32ToLeBytes 16 ++
    (u16ToLeBytes 1 ++ u16ToLeBytes 2 ++ u32ToLeBytes 44100 ++ u32ToLeBytes 176400 ++
      u16ToLeBytes 4 ++ u16ToLeBytes 16)

def dataChunkHeader (pcmDataSize : UInt32) : Bytes := dataId ++ u32ToLeBytes pcmDataSize

def createWavHeader (host : Host) (pcmDataSize : UInt32) : Checked Bytes := do
  let fileSize ← add32 host.overflowChecks pcmDataSize 36
  return riffHeader fileSize ++ fmtChunk ++ dataChunkHeader pcmDataSize

def createWav (host : Host) (data : Bytes) : Checked Bytes := do
  let header ← createWavHeader host (.ofNat data.length)
  return header ++ data

/-- 16-bit stereo PCM at 44,100 Hz. -/
def cdFormat : WaveFormat where
  formatTag := 1
  channels := 2
  sampleRate := 44100
  byteRate := 176400
  blockAlign := 4
  bitsPerSample := 16

theorem cdFormat_consistent : cdFormat.Consistent where
  byteRate_eq := rfl
  blockAlign_eq := rfl

/-- The file is the wave of the data: a reader finds it, the sizes in the
header are those of the file and of the data, and the data follows. -/
structure IsWaveOf (file data : Bytes) : Prop where
  read_eq : readWave file = some { format := cdFormat, samples := data }
  format : cdFormat.Consistent
  riff_size : leNat ((file.drop 4).take 4) = file.length - 8
  data_size : leNat ((file.drop 40).take 4) = data.length
  length_eq : file.length = 44 + data.length
  drop_eq : file.drop 44 = data

theorem IsWaveOf.length_lt (h : IsWaveOf file data) : data.length + 36 < 2 ^ 32 := by
  have hlt := leNat_lt ((file.drop 4).take 4)
  have hbytes : ((file.drop 4).take 4).length = 4 := by
    rw [List.length_take, List.length_drop, h.length_eq]
    omega
  rw [h.riff_size, h.length_eq, hbytes] at hlt
  omega

-- ---------------------------------------------------------------------------
-- Headers with the right sizes
-- ---------------------------------------------------------------------------

def wavWith (fileSize pcmDataSize : UInt32) (data : Bytes) : Bytes :=
  riffHeader fileSize ++ fmtChunk ++ dataChunkHeader pcmDataSize ++ data

theorem readChunks_wavWith (fileSize : UInt32) (n : Nat) {pcmDataSize : UInt32}
    (h : pcmDataSize.toNat = data.length) :
    readChunks (n + 2) ((wavWith fileSize pcmDataSize data).drop 12) =
      some [(fmtId, fmtChunk.drop 8), (dataId, data)] := by
  have hsize : (16 : UInt32).toNat = (fmtChunk.drop 8).length := rfl
  have hfmt := readChunk_append 0x66 0x6D 0x74 0x20 16 hsize (dataChunkHeader pcmDataSize ++ data)
  have hdata := readChunk_append 0x64 0x61 0x74 0x61 pcmDataSize h []
  rw [List.append_nil, List.drop_nil] at hdata
  have hlast : readChunks (n + 1) (dataChunkHeader pcmDataSize ++ data) =
      some [(dataId, data)] := by
    refine (readChunks_cons n hdata).trans ?_
    rw [readChunks_nil]
    rfl
  refine (readChunks_cons (n + 1) hfmt).trans ?_
  exact congrArg (Option.map ((fmtId, fmtChunk.drop 8) :: ·)) hlast

theorem isWaveOf_wavWith {fileSize pcmDataSize : UInt32}
    (hfile : fileSize.toNat = data.length + 36) (hpcm : pcmDataSize.toNat = data.length) :
    IsWaveOf (wavWith fileSize pcmDataSize data) data := by
  have hlen : (wavWith fileSize pcmDataSize data).length = 44 + data.length :=
    List.length_append
  have hriff : leNat (((wavWith fileSize pcmDataSize data).drop 4).take 4) =
      (wavWith fileSize pcmDataSize data).length - 8 := by
    rw [hlen]
    calc leNat (u32ToLeBytes fileSize)
      _ = data.length + 36 := (leNat_toLeBytes32 fileSize).trans hfile
      _ = 44 + data.length - 8 := by omega
  have hchunks := readChunks_wavWith fileSize (42 + data.length) hpcm
  have hfuel : 42 + data.length + 2 = (wavWith fileSize pcmDataSize data).length := by omega
  rw [hfuel] at hchunks
  constructor
  case read_eq =>
    rw [readWave, if_pos ⟨rfl, hriff, rfl⟩, hchunks]
    rfl
  case format => exact cdFormat_consistent
  case riff_size => exact hriff
  case data_size => exact (leNat_toLeBytes32 pcmDataSize).trans hpcm
  case length_eq => exact hlen
  case drop_eq => rfl

-- ---------------------------------------------------------------------------
-- When a wave is written
-- ---------------------------------------------------------------------------

/-- The cast and the sum are exact, and what they give is the wave of the
data. -/
structure WritesWave (host : Host) (data : Bytes) : Prop where
  cast_exact : (UInt32.ofNat data.length).toNat = data.length
  sum_exact : (UInt32.ofNat data.length).toNat + 36 < 2 ^ 32
  returns : ∃ file, createWav host data = .ok file ∧ IsWaveOf file data

theorem createWav_ok (host : Host) (h : data.length + 36 < 2 ^ 32) :
    ∃ file, createWav host data = .ok file ∧ IsWaveOf file data := by
  have hsize : (UInt32.ofNat data.length).toNat = data.length := toNat_ofNat32 (by omega)
  have h36 : (36 : UInt32).toNat = 36 := rfl
  have hfits : (UInt32.ofNat data.length).toNat + (36 : UInt32).toNat < 2 ^ 32 := by
    rw [hsize, h36]
    exact h
  refine ⟨wavWith (.ofNat data.length + 36) (.ofNat data.length) data, ?_, ?_⟩
  · rw [createWav, createWavHeader, add32_ok hfits]
    rfl
  · apply isWaveOf_wavWith
    · rw [toNat_add32 hfits, hsize, h36]
    · exact hsize

theorem createWav_iff (host : Host) (data : Bytes) :
    WritesWave host data ↔ data.length + 36 < 2 ^ 32 := by
  constructor
  · rintro ⟨-, -, file, -, hwave⟩
    exact hwave.length_lt
  · intro h
    have hsize : (UInt32.ofNat data.length).toNat = data.length := toNat_ofNat32 (by omega)
    constructor
    case cast_exact => exact hsize
    case sum_exact => rwa [hsize]
    case returns => exact createWav_ok host h

/-- Silence of 4 GiB less 36 bytes: the sum with 36 does not fit. -/
theorem createWav_fourGib :
    ¬ WritesWave Host.desktop (List.replicate (2 ^ 32 - 36) 0) := by
  rintro ⟨-, -, file, -, hwave⟩
  have hlt := hwave.length_lt
  rw [List.length_replicate] at hlt
  omega

end CdDaReader
