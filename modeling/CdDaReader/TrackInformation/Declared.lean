import CdDaReader.TrackInformation

/-!
# The declared response and the buffer

The high bytes are read wherever the buffer has them, declared or not. A
response that declares 32 or 33 bytes is therefore decoded differently by the
platform that cuts it and those that do not, unless the bytes after it are
zero: `parseTrackInformation_declared_iff`.
-/

namespace CdDaReader

open Rust

/-- The whole buffer and the declared bytes are decoded to the same values,
and so on every platform. -/
structure DecodedAlike (trackNumber : UInt8) (data : Bytes) (information : TrackInformation) :
    Prop where
  whole : parseTrackInformation data = .ok information
  cut : parseTrackInformation (data.take (declaredSize data)) = .ok information
  linux : decodeTrackInformation (.ok data) = .ok information
  macOs : decodeTrackInformation (MacOs.readTrackInformation trackNumber (some data)) =
    .ok information

/-- The bytes that the parser reads beyond the least response are zero where
they are not declared. -/
def QuietTail (data : Bytes) : Prop :=
  (declaredSize data ≤ 32 → data.getD 32 0 = 0) ∧ (declaredSize data ≤ 33 → data.getD 33 0 = 0)

theorem getD_take (data : Bytes) (n i : Nat) :
    (data.take n).getD i 0 = if i < n then data.getD i 0 else 0 := by
  rw [List.getD_eq_getElem?_getD, List.getElem?_take]
  split
  · rw [List.getD_eq_getElem?_getD]
  · rfl

theorem declaredSize_take (h : 32 ≤ n) : declaredSize (data.take n) = declaredSize data := by
  unfold declaredSize
  rw [getD_take, getD_take, if_pos (by omega), if_pos (by omega)]

/-- A cut of at least 32 bytes is read as the buffer, but for the high bytes. -/
theorem informationOf_take (data : Bytes) (h : 32 ≤ n) :
    informationOf (data.take n) = { informationOf data with
      trackNumber := u16FromBeBytes (if 32 < n then data.getD 32 0 else 0) (data.getD 2 0)
      sessionNumber := u16FromBeBytes (if 33 < n then data.getD 33 0 else 0) (data.getD 3 0) } := by
  have hbelow : ∀ i < 32, (data.take n).getD i 0 = data.getD i 0 := by
    intro i hi
    rw [getD_take, if_pos (by omega)]
  unfold informationOf
  rw [getD_take data n 32, getD_take data n 33, hbelow 2 (by decide), hbelow 3 (by decide),
    hbelow 5 (by decide), hbelow 6 (by decide), hbelow 8 (by decide), hbelow 9 (by decide),
    hbelow 10 (by decide), hbelow 11 (by decide), hbelow 24 (by decide), hbelow 25 (by decide),
    hbelow 26 (by decide), hbelow 27 (by decide)]

theorem informationOf_take_iff (data : Bytes) (h : 32 ≤ declaredSize data) :
    informationOf (data.take (declaredSize data)) = informationOf data ↔ QuietTail data := by
  have hbyte : ∀ k (byte : UInt8),
      (if k < declaredSize data then byte else 0) = byte ↔ (declaredSize data ≤ k → byte = 0) := by
    intro k byte
    split <;> rename_i hlt
    · exact ⟨fun _ hle => absurd hlt (Nat.not_lt.mpr hle), fun _ => rfl⟩
    · exact ⟨fun heq _ => heq.symm, fun hzero => (hzero (Nat.not_lt.mp hlt)).symm⟩
  rw [informationOf_take data h]
  simp only [informationOf, TrackInformation.mk.injEq, u16FromBeBytes_inj, hbyte, and_true]
  rfl

theorem parseTrackInformation_take {data : Bytes} (hmin : 32 ≤ declaredSize data)
    (hmax : declaredSize data ≤ data.length) :
    parseTrackInformation (data.take (declaredSize data)) =
      .ok (informationOf (data.take (declaredSize data))) := by
  have hsize : declaredSize (data.take (declaredSize data)) = declaredSize data :=
    declaredSize_take hmin
  refine WholeInformation.parse_eq ⟨?_, ?_⟩
  · omega
  · rw [hsize, List.length_take]
    omega

theorem MacOs.readTrackInformation_ok {data : Bytes} (hmin : 32 ≤ declaredSize data)
    (hmax : declaredSize data ≤ data.length) (trackNumber : UInt8) :
    MacOs.readTrackInformation trackNumber (some data) = .ok (data.take (declaredSize data)) := by
  have hcut : MacOs.cdReadTrackInformation (some data) = some (data.take (declaredSize data)) := by
    have hlen : ¬ data.length < 32 := by omega
    have hsize : ¬ (declaredSize data < 32 ∨ data.length < declaredSize data) := by omega
    show (if data.length < 32 then none
      else if declaredSize data < 32 ∨ data.length < declaredSize data then none
      else some (data.take (declaredSize data))) = _
    rw [if_neg hlen, if_neg hsize]
  rw [readTrackInformation, hcut]

/-- A response that is long enough and of the length it declares, or longer,
is decoded alike everywhere exactly when its undeclared high bytes are zero. -/
theorem parseTrackInformation_declared_iff (trackNumber : UInt8) (data : Bytes)
    (hmin : 32 ≤ declaredSize data) (hmax : declaredSize data ≤ data.length) :
    (∃ information, DecodedAlike trackNumber data information) ↔ QuietTail data := by
  rw [← informationOf_take_iff data hmin]
  have hwhole := WholeInformation.parse_eq ⟨hmin, hmax⟩
  have hcut := parseTrackInformation_take hmin hmax
  have hmac := MacOs.readTrackInformation_ok hmin hmax trackNumber
  constructor
  · rintro ⟨information, h⟩
    have heq := hcut.symm.trans (h.cut.trans (h.whole.symm.trans hwhole))
    exact Except.ok.inj heq
  · intro heq
    refine ⟨informationOf data, hwhole, hcut.trans (by rw [heq]), ?_, ?_⟩
    · rw [decodeTrackInformation, ofResult_ok, Outcome.bind_ok, hwhole]
      rfl
    · rw [hmac, decodeTrackInformation, ofResult_ok, Outcome.bind_ok, hcut, heq]
      rfl

/-- A response of 32 declared bytes for track 1 of session 1, with more after
it. -/
def leastResponse (tail : Bytes) : Bytes :=
  [0, 30, 1, 1, 0, 4, 1, 0] ++ List.replicate 24 0 ++ tail

theorem parseTrackInformation_declared_iff_least :
    ∃ information, DecodedAlike 1 (leastResponse [0, 0, 0, 0]) information :=
  (parseTrackInformation_declared_iff 1 (leastResponse [0, 0, 0, 0]) (by decide) (by decide)).mpr
    (by unfold QuietTail; decide)

/-- With other bytes after it the track number is not 1 where they are read. -/
theorem parseTrackInformation_declared_noisy :
    ¬ ∃ information, DecodedAlike 1 (leastResponse [0x12, 0x56, 0, 0]) information := by
  rintro ⟨information, h⟩
  have hwhole : parseTrackInformation (leastResponse [0x12, 0x56, 0, 0]) =
      .ok ⟨0x1201, 0x5601, 4, 1, 0, 0⟩ := rfl
  have hcut : parseTrackInformation ((leastResponse [0x12, 0x56, 0, 0]).take 32) =
      .ok ⟨1, 1, 4, 1, 0, 0⟩ := rfl
  have heq := hcut.symm.trans (h.cut.trans (h.whole.symm.trans hwhole))
  cases heq

end CdDaReader
