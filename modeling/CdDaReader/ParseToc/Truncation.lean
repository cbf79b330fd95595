import CdDaReader.ParseToc.Overflow
import CdDaReader.ParseToc.Responses

/-!
# Truncated responses

The lead-out is the last descriptor of a well-formed response, so a transfer
that stops short of the end has no lead-out and is refused. `TocResponse` is a
response with its well-formedness; `parseToc_truncated` cuts it anywhere.
-/

namespace CdDaReader

open Rust

/-- A descriptor with its two reserved bytes. -/
structure WireDescriptor extends Descriptor where
  reserved : UInt8
  reserved' : UInt8

def WireDescriptor.bytes (w : WireDescriptor) : Bytes :=
  [w.reserved, w.control, w.number, w.reserved'] ++ u32ToBeBytes w.lba

/-- A well-formed READ TOC response: the length in the header is that of the
bytes after it, and the lead-out comes once, at the end. -/
structure TocResponse where
  lengthHigh : UInt8
  lengthLow : UInt8
  firstTrack : UInt8
  lastTrack : UInt8
  tracks : List WireDescriptor
  leadOut : WireDescriptor
  length_eq : (u16FromBeBytes lengthHigh lengthLow).toNat =
    2 + ((tracks ++ [leadOut]).map WireDescriptor.bytes).flatten.length
  tracks_number : ∀ w ∈ tracks, w.number ≠ 0xAA
  leadOut_number : leadOut.number = 0xAA
  lba_le : ∀ w ∈ tracks ++ [leadOut], w.lba.toNat ≤ 2 ^ 32 - 151

namespace TocResponse
variable (r : TocResponse)

def body : Bytes := ((r.tracks ++ [r.leadOut]).map WireDescriptor.bytes).flatten

def bytes : Bytes := r.lengthHigh :: r.lengthLow :: r.firstTrack :: r.lastTrack :: r.body

def descriptors : List Descriptor := r.tracks.map WireDescriptor.toDescriptor

/-- What the response says of the disc. -/
def toc : Toc where
  firstTrack := r.firstTrack
  lastTrack := r.lastTrack
  tracks := r.descriptors.map Descriptor.track
  leadoutLba := r.leadOut.lba

theorem encodes : List.Forall₂ Descriptor.Encodes (r.descriptors ++ [r.leadOut.toDescriptor])
    ((r.tracks ++ [r.leadOut]).map WireDescriptor.bytes) := by
  have hmap : r.descriptors ++ [r.leadOut.toDescriptor] =
      (r.tracks ++ [r.leadOut]).map WireDescriptor.toDescriptor := by
    rw [List.map_append]
    rfl
  rw [hmap, List.forall₂_map_left_iff, List.forall₂_map_right_iff, List.forall₂_same]
  intro w _
  exact ⟨w.reserved, w.reserved', rfl⟩

theorem descriptors_body :
    CdDaReader.descriptors r.body = r.descriptors ++ [r.leadOut.toDescriptor] := by
  have h := descriptors_flatten r.encodes []
  rw [List.append_nil] at h
  rw [body, h]
  exact List.append_nil _

theorem length_body : r.body.length = 8 * (r.descriptors.length + 1) := by
  rw [body, length_flatten_encodes r.encodes, List.length_append, List.length_singleton]

theorem declaredEnd_eq :
    declaredEnd r.lengthHigh r.lengthLow = 4 + 8 * (r.descriptors.length + 1) := by
  rw [declaredEnd, r.length_eq, ← body, length_body]
  omega

theorem isLeadOut_of_mem {d : Descriptor} (h : d ∈ r.descriptors) : d.isLeadOut = false := by
  obtain ⟨w, hw, rfl⟩ := List.mem_map.mp h
  simpa [Descriptor.isLeadOut] using r.tracks_number w hw

theorem lba_lt_of_mem {d : Descriptor} (h : d ∈ r.descriptors ++ [r.leadOut.toDescriptor]) :
    d.lba.toNat + 150 < 2 ^ 32 := by
  have hw : ∃ w ∈ r.tracks ++ [r.leadOut], w.toDescriptor = d := by
    rcases List.mem_append.mp h with h | h
    · obtain ⟨w, hw, heq⟩ := List.mem_map.mp h
      exact ⟨w, List.mem_append_left _ hw, heq⟩
    · rw [List.mem_singleton.mp h]
      exact ⟨r.leadOut, by simp, rfl⟩
  obtain ⟨w, hw, rfl⟩ := hw
  have hle := r.lba_le w hw
  omega

theorem descriptorsFrom_take (h : k < r.body.length) :
    ∃ n, descriptorsFrom (r.lengthHigh :: r.lengthLow :: r.firstTrack :: r.lastTrack ::
      r.body.take k) (declaredEnd r.lengthHigh r.lengthLow) 4 = r.descriptors.take n := by
  have hlength := r.length_body
  have hshort : k / 8 ≤ r.descriptors.length := by omega
  refine ⟨min ((declaredEnd r.lengthHigh r.lengthLow - 4 + 7) / 8) (k / 8), ?_⟩
  unfold descriptorsFrom
  simp only [List.drop_succ_cons, List.drop_zero]
  rw [descriptors_take, descriptors_body, List.take_append_of_le_length hshort, List.take_take]

theorem decode_take (host : Host) (n : Nat) :
    Invalid (decode host r.firstTrack r.lastTrack (r.descriptors.take n)) := by
  have hlead : leadOutOf (r.descriptors.take n) = none := by
    rw [leadOutOf_eq_none_iff]
    intro d hd
    exact r.isLeadOut_of_mem (List.mem_of_mem_take hd)
  have hlba : ∀ d ∈ r.descriptors.take n, d.lba.toNat + 150 < 2 ^ 32 := by
    intro d hd
    exact r.lba_lt_of_mem (List.mem_append_left _ (List.mem_of_mem_take hd))
  rw [decode_ok host _ _ hlba, hlead]
  exact ⟨_, rfl⟩

theorem parseToc_bytes (host : Host) : parseToc host r.bytes = .ok r.toc := by
  have hleadOut : r.leadOut.toDescriptor.isLeadOut = true := by
    simp [Descriptor.isLeadOut, r.leadOut_number]
  have hparse := parseToc_wellFormed host r.firstTrack r.lastTrack r.encodes r.declaredEnd_eq
    (fun _ => r.isLeadOut_of_mem) hleadOut (fun _ => r.lba_lt_of_mem) []
  rw [List.append_nil] at hparse
  exact hparse

theorem parseToc_take (host : Host) (h : k < r.bytes.length) :
    Invalid (parseToc host (r.bytes.take k)) := by
  rcases Nat.lt_or_ge k 4 with hlt | hge
  · -- the header is cut
    exact ⟨_, parseToc_short host (by rw [List.length_take]; omega)⟩
  · obtain ⟨k, rfl⟩ := Nat.exists_eq_add_of_le' hge
    obtain ⟨n, hwalk⟩ := r.descriptorsFrom_take (k := k) (by simpa [bytes] using h)
    simp only [bytes, List.take_succ_cons]
    rw [parseToc_eq, hwalk]
    exact r.decode_take host n

end TocResponse

/-- A well-formed response is its tracks and its lead-out, and no proper
prefix of it is a table of contents. -/
theorem parseToc_truncated (host : Host) (r : TocResponse) :
    parseToc host r.bytes = .ok r.toc ∧
      ∀ received, received <+: r.bytes → received ≠ r.bytes →
        Invalid (parseToc host received) := by
  refine ⟨r.parseToc_bytes host, ?_⟩
  intro received hpre hne
  have hlt : received.length < r.bytes.length := by
    refine Nat.lt_of_le_of_ne hpre.length_le ?_
    intro hlen
    exact hne (hpre.eq_of_length hlen)
  rw [List.prefix_iff_eq_take.mp hpre]
  exact r.parseToc_take host hlt

/-- An audio track at LBA 0 and a lead-out at LBA 8192. -/
def TocResponse.oneTrack : TocResponse where
  lengthHigh := 0
  lengthLow := 18
  firstTrack := 1
  lastTrack := 1
  tracks := [⟨⟨0x10, 1, 0⟩, 0, 0⟩]
  leadOut := ⟨⟨0x10, 0xAA, 8192⟩, 0, 0⟩
  length_eq := rfl
  tracks_number := by decide
  leadOut_number := rfl
  lba_le := by decide

theorem parseToc_truncated_oneTrack :
    parseToc .desktop TocResponse.oneTrack.bytes = .ok TocResponse.oneTrack.toc ∧
      Invalid (parseToc .desktop (TocResponse.oneTrack.bytes.take 19)) := by
  obtain ⟨hwhole, hcut⟩ := parseToc_truncated .desktop .oneTrack
  exact ⟨hwhole, hcut _ (List.take_prefix ..) (by decide)⟩

end CdDaReader
