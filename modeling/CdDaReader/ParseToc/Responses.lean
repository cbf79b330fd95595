import CdDaReader.ParseToc
import Mathlib.Data.List.Forall2

/-!
# Well-formed responses

A response whose declared length is that of its descriptors is decoded as
those descriptors, whatever follows it in the buffer.
-/

namespace CdDaReader

open Rust

/-- The eight bytes of a descriptor, with any reserved bytes. -/
def Descriptor.Encodes (d : Descriptor) (block : Bytes) : Prop :=
  ∃ reserved reserved', block = [reserved, d.control, d.number, reserved'] ++ u32ToBeBytes d.lba

theorem Descriptor.Encodes.descriptors_append {d : Descriptor} (h : d.Encodes block)
    (rest : Bytes) : descriptors (block ++ rest) = d :: descriptors rest := by
  obtain ⟨reserved, reserved', rfl⟩ := h
  simp only [u32ToBeBytes, List.cons_append, List.nil_append, descriptors,
    u32FromBeBytes_toBeBytes]

theorem descriptors_flatten {blocks : List Bytes}
    (h : List.Forall₂ Descriptor.Encodes ds blocks) (rest : Bytes) :
    descriptors (blocks.flatten ++ rest) = ds ++ descriptors rest := by
  induction h with
  | nil => rfl
  | cons hd _ ih =>
    rw [List.flatten_cons, List.append_assoc, hd.descriptors_append, ih]
    rfl

theorem length_flatten_encodes {blocks : List Bytes}
    (h : List.Forall₂ Descriptor.Encodes ds blocks) :
    blocks.flatten.length = 8 * ds.length := by
  induction h with
  | nil => rfl
  | cons hd _ ih =>
    obtain ⟨reserved, reserved', rfl⟩ := hd
    rw [List.flatten_cons, List.length_append, ih]
    simp only [u32ToBeBytes, List.length_append, List.length_cons, List.length_nil]
    omega

theorem parseToc_response (host : Host) (firstTrack lastTrack : UInt8) {blocks : List Bytes}
    (h : List.Forall₂ Descriptor.Encodes ds blocks)
    (hlen : declaredEnd b0 b1 = 4 + 8 * ds.length) (trailing : Bytes) :
    parseToc host (b0 :: b1 :: firstTrack :: lastTrack :: (blocks.flatten ++ trailing)) =
      decode host firstTrack lastTrack ds := by
  have hcount : (declaredEnd b0 b1 - 4 + 7) / 8 = ds.length := by omega
  rw [parseToc_eq, descriptorsFrom, hcount]
  simp only [List.drop_succ_cons, List.drop_zero]
  rw [descriptors_flatten h, List.take_left]

/-- Without an overflow the result is the tracks, if there is a lead-out. -/
theorem decode_ok (host : Host) (firstTrack lastTrack : UInt8) {ds : List Descriptor}
    (h : ∀ d ∈ ds, d.lba.toNat + 150 < 2 ^ 32) :
    decode host firstTrack lastTrack ds =
      tocOf firstTrack lastTrack (tracksOf ds) (leadOutOf ds) := by
  have hany : ds.any Descriptor.overflows = false := by
    simpa [Descriptor.overflows] using fun d hd => Nat.lt_sub_of_add_lt (h d hd)
  rw [decode, hany, Bool.and_false]
  rfl

/-- A response with the lead-out at its end is its tracks and its lead-out. -/
theorem parseToc_wellFormed (host : Host) (firstTrack lastTrack : UInt8) {blocks : List Bytes}
    {ds : List Descriptor} {leadOut : Descriptor}
    (h : List.Forall₂ Descriptor.Encodes (ds ++ [leadOut]) blocks)
    (hlen : declaredEnd b0 b1 = 4 + 8 * (ds.length + 1))
    (htracks : ∀ d ∈ ds, d.isLeadOut = false) (hleadOut : leadOut.isLeadOut = true)
    (hlba : ∀ d ∈ ds ++ [leadOut], d.lba.toNat + 150 < 2 ^ 32) (trailing : Bytes) :
    parseToc host (b0 :: b1 :: firstTrack :: lastTrack :: (blocks.flatten ++ trailing)) =
      .ok { firstTrack, lastTrack, tracks := ds.map Descriptor.track
            leadoutLba := leadOut.lba } := by
  have hkeep : ∀ d ∈ ds, (!d.isLeadOut) = true := by
    intro d hd
    rw [htracks d hd]
    rfl
  have hlead : tracksOf [leadOut] = [] := by simp [tracksOf, hleadOut]
  have hend : declaredEnd b0 b1 = 4 + 8 * (ds ++ [leadOut]).length := by
    rw [hlen, List.length_append, List.length_singleton]
  rw [parseToc_response host firstTrack lastTrack h hend, decode_ok host _ _ hlba,
    tracksOf_append, hlead, List.append_nil, tracksOf, List.filter_eq_self.mpr hkeep,
    leadOutOf_append, leadOutOf_singleton, if_pos hleadOut]
  rfl

end CdDaReader
