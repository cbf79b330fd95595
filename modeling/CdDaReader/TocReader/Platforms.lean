import CdDaReader.ParseToc.Responses
import CdDaReader.TocReader.Output
import Mathlib.Data.List.Pairwise
import Mathlib.Data.List.Sort

/-!
# The platforms decode the same disc to the same table

A `DiscLayout` is what a disc's table says. Linux and Windows get it as a
READ TOC response, with any reserved bits and any bytes after it; macOS as a
full table, in any order and among any other descriptors. What the native
reader writes for such a table is again a response of the disc, so the common
parser makes `DiscLayout.toc` of both.
-/

namespace CdDaReader

open Rust

namespace Msf

def frames (msf : Msf) : Nat :=
  (msf.minute.toNat * 60 + msf.second.toNat) * 75 + msf.frame.toNat

/-- An address that is in range and not in the first two seconds. -/
structure Valid (msf : Msf) : Prop where
  second_lt : msf.second.toNat < 60
  frame_lt : msf.frame.toNat < 75
  le_frames : 150 ≤ msf.frames

instance (msf : Msf) : Decidable msf.Valid :=
  decidable_of_iff (msf.second.toNat < 60 ∧ msf.frame.toNat < 75 ∧ 150 ≤ msf.frames)
    ⟨fun ⟨h1, h2, h3⟩ => ⟨h1, h2, h3⟩, fun ⟨h1, h2, h3⟩ => ⟨h1, h2, h3⟩⟩

def lba (msf : Msf) : UInt32 := .ofNat (msf.frames - 150)

theorem frames_lt (msf : Msf) : msf.frames < 2 ^ 21 := by
  have hminute := msf.minute.toNat_lt
  have hsecond := msf.second.toNat_lt
  have hframe := msf.frame.toNat_lt
  unfold frames
  omega

theorem toNat_lba (msf : Msf) : msf.lba.toNat = msf.frames - 150 := by
  have hlt := msf.frames_lt
  exact toNat_ofNat32 (by omega)

theorem startMsf_lba {msf : Msf} (h : msf.Valid) (control number : UInt8) :
    (Descriptor.mk control number msf.lba).startMsf = (msf.minute, msf.second, msf.frame) := by
  have hlt := msf.frames_lt
  have hle := h.le_frames
  have hsecond := h.second_lt
  have hframe := h.frame_lt
  have hminute := msf.minute.toNat_lt
  have hsum : (msf.lba + 150).toNat = msf.frames := by
    have h150 : (150 : UInt32).toNat = 150 := rfl
    rw [toNat_add32 (by rw [toNat_lba, h150]; omega), toNat_lba, h150]
    omega
  have h75 : (75 : UInt32).toNat = 75 := rfl
  have h60 : (60 : UInt32).toNat = 60 := rfl
  unfold Descriptor.startMsf
  unfold frames at hsum
  refine Prod.ext ?_ (Prod.ext ?_ ?_) <;> apply UInt8.toNat_inj.mp <;>
    simp only [UInt32.toNat_toUInt8, UInt32.toNat_div, UInt32.toNat_mod, hsum, h75, h60] <;>
    omega

end Msf

/-- What `CDConvertMSFToLBA` is documented to do. -/
def ConvertsMsf (cdConvertMsfToLba : Msf → UInt32) : Prop :=
  ∀ msf : Msf, msf.Valid → (cdConvertMsfToLba msf).toNat + 150 = msf.frames

/-- What it computes wherever that is not below zero, fields out of range
included. -/
def ComputesLba (cdConvertMsfToLba : Msf → UInt32) : Prop :=
  ∀ msf : Msf, 150 ≤ msf.frames → (cdConvertMsfToLba msf).toNat + 150 = msf.frames

theorem ConvertsMsf.eq_lba (h : ConvertsMsf cdConvertMsfToLba) {msf : Msf} (hvalid : msf.Valid) :
    cdConvertMsfToLba msf = msf.lba := by
  have heq := h msf hvalid
  apply UInt32.toNat_inj.mp
  rw [Msf.toNat_lba]
  omega

-- ---------------------------------------------------------------------------
-- Discs
-- ---------------------------------------------------------------------------

structure LayoutTrack where
  number : UInt8
  control : BitVec 4
  start : Msf

structure DiscLayout where
  tracks : List LayoutTrack
  leadout : Msf
  nonempty : tracks ≠ []
  ordered : tracks.Pairwise fun a b => a.number < b.number
  numbers : ∀ track ∈ tracks, 1 ≤ track.number.toNat ∧ track.number.toNat ≤ 99
  starts_valid : ∀ track ∈ tracks, track.start.Valid
  leadout_valid : leadout.Valid

def LayoutTrack.track (track : LayoutTrack) : Track where
  number := track.number
  startLba := track.start.lba
  startMsf := (track.start.minute, track.start.second, track.start.frame)
  isAudio := track.control &&& 4 == 0

namespace DiscLayout

def first (disc : DiscLayout) : UInt8 := (disc.tracks.head disc.nonempty).number

def last (disc : DiscLayout) : UInt8 := (disc.tracks.getLast disc.nonempty).number

def toc (disc : DiscLayout) : Toc where
  firstTrack := disc.first
  lastTrack := disc.last
  tracks := disc.tracks.map LayoutTrack.track
  leadoutLba := disc.leadout.lba

end DiscLayout

/-- The byte of an ADR and a control nibble. -/
def adrControl (adr control : BitVec 4) : UInt8 := .ofNat (adr.toNat <<< 4 ||| control.toNat)

/-- A track's descriptor, whatever its ADR. -/
def LayoutTrack.Describes (track : LayoutTrack) (d : Descriptor) : Prop :=
  ∃ adr, d = ⟨adrControl adr track.control, track.number, track.start.lba⟩

theorem adrControl_audio (adr control : BitVec 4) :
    (adrControl adr control &&& 0x04 == 0) = (control &&& 4 == 0) := by
  revert adr control
  decide

/-- The READ TOC response of a disc at the head of a buffer. -/
def DiscLayout.IsResponse (disc : DiscLayout) (data : Bytes) : Prop :=
  ∃ b0 b1 ds control blocks trailing,
    (u16FromBeBytes b0 b1).toNat = 2 + 8 * (disc.tracks.length + 1) ∧
    List.Forall₂ LayoutTrack.Describes disc.tracks ds ∧
    List.Forall₂ Descriptor.Encodes (ds ++ [⟨control, 0xAA, disc.leadout.lba⟩]) blocks ∧
    data = b0 :: b1 :: disc.first :: disc.last :: (blocks.flatten ++ trailing)

/-- A full table of a disc: one descriptor with ADR 1 for each track, none for
another track, and the lead-out in the last one for it; anything else is
left open. -/
structure DiscLayout.IsFullToc (disc : DiscLayout) (descs : List CdTocDescriptor) : Prop where
  unique : ∀ track ∈ disc.tracks,
    (descs.filter fun desc => desc.adr == 1 && desc.point == track.number) =
      [⟨1, track.control, track.number, track.start⟩]
  only : ∀ desc ∈ descs, desc.adr = 1 → 1 ≤ desc.point → desc.point ≤ 99 →
    ∃ track ∈ disc.tracks, track.number = desc.point
  leadout : ∃ desc, (descs.filter fun desc => desc.adr == 1 && desc.point == 0xA2).getLast? =
    some desc ∧ desc.p = disc.leadout

-- ---------------------------------------------------------------------------
-- Decoding a layout
-- ---------------------------------------------------------------------------

namespace DiscLayout

variable {disc : DiscLayout}

theorem not_leadOut (disc : DiscLayout) (h : track ∈ disc.tracks) : track.number ≠ 0xAA := by
  intro heq
  have hle := (disc.numbers track h).2
  rw [heq] at hle
  exact absurd hle (by decide)

theorem describes_tracks {tracks : List LayoutTrack}
    (h : List.Forall₂ LayoutTrack.Describes tracks ds)
    (hvalid : ∀ track ∈ tracks, track.start.Valid) (hnum : ∀ track ∈ tracks, track.number ≠ 0xAA) :
    ds.map Descriptor.track = tracks.map LayoutTrack.track ∧
      (∀ d ∈ ds, d.isLeadOut = false) ∧ ∀ d ∈ ds, d.lba.toNat + 150 < 2 ^ 32 := by
  induction h with
  | nil => exact ⟨rfl, List.forall_mem_nil _, List.forall_mem_nil _⟩
  | @cons track d tracks ds hd _ ih =>
    obtain ⟨adr, rfl⟩ := hd
    obtain ⟨hstart, hvalid⟩ := List.forall_mem_cons.mp hvalid
    obtain ⟨hne, hnum⟩ := List.forall_mem_cons.mp hnum
    obtain ⟨htracks, hout, hlt⟩ := ih hvalid hnum
    refine ⟨?_, List.forall_mem_cons.mpr ⟨?_, hout⟩, List.forall_mem_cons.mpr ⟨?_, hlt⟩⟩
    · rw [List.map_cons, htracks, List.map_cons]
      simp [Descriptor.track, LayoutTrack.track, Msf.startMsf_lba hstart, adrControl_audio]
    · simpa [Descriptor.isLeadOut] using hne
    · have hframes := track.start.frames_lt
      rw [Msf.toNat_lba]
      omega

theorem parseToc_isResponse (host : Host) (h : disc.IsResponse data) :
    parseToc host data = .ok disc.toc := by
  obtain ⟨b0, b1, ds, control, blocks, trailing, hlen, hds, hblocks, rfl⟩ := h
  obtain ⟨htracks, hout, hlt⟩ := describes_tracks hds disc.starts_valid fun _ => disc.not_leadOut
  have hend : declaredEnd b0 b1 = 4 + 8 * (ds.length + 1) := by
    rw [declaredEnd, hlen, hds.length_eq]
    omega
  have hlba : ∀ d ∈ ds ++ [Descriptor.mk control 0xAA disc.leadout.lba],
      d.lba.toNat + 150 < 2 ^ 32 := by
    refine List.forall_mem_append.mpr ⟨hlt, List.forall_mem_singleton.mpr ?_⟩
    have hframes := disc.leadout.frames_lt
    rw [Msf.toNat_lba]
    omega
  rw [parseToc_wellFormed host disc.first disc.last hblocks hend hout rfl hlba trailing, htracks]
  rfl

end DiscLayout

-- ---------------------------------------------------------------------------
-- The normaliser on a full table
-- ---------------------------------------------------------------------------

/-- The one descriptor of a track in a full table. -/
def LayoutTrack.desc (track : LayoutTrack) : CdTocDescriptor :=
  ⟨1, track.control, track.number, track.start⟩

namespace DiscLayout.IsFullToc

variable {disc : DiscLayout} {descs : List CdTocDescriptor}

theorem lastOf_eq (descs : List CdTocDescriptor) (point : UInt8) : lastOf descs point.toNat =
    (descs.filter fun desc => desc.adr == 1 && desc.point == point).getLast? := by
  have hsame : (fun desc : CdTocDescriptor => desc.adr == 1 && desc.point.toNat == point.toNat) =
      fun desc => desc.adr == 1 && desc.point == point := by
    funext desc
    congr 1
    rw [Bool.eq_iff_iff, beq_iff_eq, beq_iff_eq, UInt8.toNat_inj]
  rw [lastOf, hsame]

theorem entry_track (h : disc.IsFullToc descs) (htrack : track ∈ disc.tracks) :
    entry descs track.number.toNat = some track.desc := by
  rw [entry, if_pos (disc.numbers track htrack), lastOf_eq, h.unique track htrack]
  rfl

theorem mem_listed_iff (h : disc.IsFullToc descs) :
    i ∈ listed descs ↔ i ∈ disc.tracks.map fun track => track.number.toNat := by
  rw [mem_listed, List.mem_map]
  constructor
  · intro hsome
    obtain ⟨desc, hentry⟩ := Option.isSome_iff_exists.mp hsome
    obtain ⟨hadr, rfl⟩ := entry_point hentry
    obtain ⟨h1, h2⟩ := entry_range hsome
    have hmem : desc ∈ descs := by
      rw [entry, if_pos ⟨h1, h2⟩] at hentry
      exact (List.mem_filter.mp (List.mem_of_getLast? hentry)).1
    obtain ⟨track, htrack, heq⟩ :=
      h.only desc hmem hadr (UInt8.le_iff_toNat_le.mpr h1) (UInt8.le_iff_toNat_le.mpr h2)
    exact ⟨track, htrack, congrArg UInt8.toNat heq⟩
  · rintro ⟨track, htrack, rfl⟩
    rw [h.entry_track htrack]
    rfl

theorem listed_eq (h : disc.IsFullToc descs) :
    listed descs = disc.tracks.map fun track => track.number.toNat := by
  have hlisted : (listed descs).Pairwise (· < ·) := List.pairwise_lt_range.filter _
  have htracks : (disc.tracks.map fun track => track.number.toNat).Pairwise (· < ·) :=
    List.pairwise_map.mpr (disc.ordered.imp UInt8.lt_iff_toNat_lt.mp)
  exact hlisted.eq_of_mem_iff htracks fun _ => h.mem_listed_iff

theorem blocksBelow_eq (h : disc.IsFullToc descs) (cdConvertMsfToLba : Msf → UInt32) :
    blocksBelow cdConvertMsfToLba descs 100 = disc.tracks.map fun track =>
      outputBlock track.desc track.number (cdConvertMsfToLba track.start) := by
  have hfilter : blocksBelow cdConvertMsfToLba descs 100 =
      (listed descs).filterMap (entryBlock cdConvertMsfToLba descs) := by
    rw [blocksBelow, listed, List.filterMap_filter]
    congr 1
    funext i
    cases hentry : entry descs i <;> simp [entryBlock, hentry]
  rw [hfilter, h.listed_eq, List.filterMap_map, List.filterMap_eq_map_iff_forall_eq_some]
  intro track htrack
  simp [entryBlock, h.entry_track htrack, LayoutTrack.desc]

theorem first_eq (h : disc.IsFullToc descs) {table : TocTable} (htable : table.IsOf descs) :
    table.firstTrack = disc.first ∧ table.lastTrack = disc.last := by
  have hhead := List.head_mem disc.nonempty
  have hlast := List.getLast_mem disc.nonempty
  have hmem : ∀ track ∈ disc.tracks, track.number.toNat ∈ listed descs := by
    intro track htrack
    exact h.mem_listed_iff.mpr (List.mem_map.mpr ⟨track, htrack, rfl⟩)
  obtain ⟨hfirst, hlast'⟩ := htable.ends_mem (hmem _ hhead)
  obtain ⟨a, ha, hfirst⟩ := List.mem_map.mp (h.mem_listed_iff.mp hfirst)
  obtain ⟨b, hb, hlast'⟩ := List.mem_map.mp (h.mem_listed_iff.mp hlast')
  have hle : disc.tracks.Pairwise fun a b => a.number.toNat ≤ b.number.toNat :=
    disc.ordered.imp fun hlt => Nat.le_of_lt (UInt8.lt_iff_toNat_lt.mp hlt)
  have hge := hle.rel_head_of_rel_head_head ha (Nat.le_refl _)
  have hge' := hle.rel_getLast_of_rel_getLast_getLast hb (Nat.le_refl _)
  have hbound := (htable.bounds _ (hmem _ hhead)).1
  have hbound' := (htable.bounds _ (hmem _ hlast)).2
  constructor <;> apply UInt8.toNat_inj.mp
  · exact Nat.le_antisymm hbound (hfirst ▸ hge)
  · exact Nat.le_antisymm (hlast' ▸ hge') hbound'

end DiscLayout.IsFullToc

theorem outputBlock_encodes (desc : CdTocDescriptor) (number : UInt8) (lba : UInt32) :
    (Descriptor.mk (adrControl desc.adr desc.control) number lba).Encodes
      (outputBlock desc number lba) := ⟨0, 0, rfl⟩

def CdToc.Complete (toc : CdToc) : Prop :=
  4 ≤ toc.bufferLength.toNat ∧ toc.length.toNat + 2 ≤ toc.bufferLength.toNat

/-- What the reader writes for a full table of a disc is a READ TOC response
of the disc. -/
theorem DiscLayout.IsFullToc.readToc_isResponse {disc : DiscLayout} {toc : CdToc}
    (h : disc.IsFullToc toc.descriptors) (hcomplete : toc.Complete)
    (hconverts : ConvertsMsf cdConvertMsfToLba) :
    ∃ buf, readToc cdConvertMsfToLba (some toc) = .ok buf ∧ disc.IsResponse buf := by
  obtain ⟨leadout, hlast, hp⟩ := h.leadout
  have hout : lastOf toc.descriptors 0xA2 = some leadout := (lastOf_eq _ 0xA2).trans hlast
  have hne : listed toc.descriptors ≠ [] := by
    rw [h.listed_eq]
    exact mt List.map_eq_nil_iff.mp disc.nonempty
  obtain ⟨table, htable, hread⟩ :=
    readToc_eq cdConvertMsfToLba hcomplete.1 hcomplete.2 hne hout
  obtain ⟨hfirst, hlast⟩ := h.first_eq htable
  have hcount : (listed toc.descriptors).length = disc.tracks.length := by
    rw [h.listed_eq, List.length_map]
  rw [hfirst, hlast, h.blocksBelow_eq, hp, hconverts.eq_lba disc.leadout_valid, hcount] at hread
  let ds := disc.tracks.map fun track =>
    Descriptor.mk (adrControl 1 track.control) track.number track.start.lba
  let blocks := disc.tracks.map fun track =>
    outputBlock track.desc track.number (cdConvertMsfToLba track.start)
  let control := adrControl leadout.adr leadout.control
  have hlength := toNat_outputTocLength toc.descriptors
  rw [hcount] at hlength
  have hfield := (congrArg UInt16.toNat (u16FromBeBytes_shifts
    (.ofNat (2 + (disc.tracks.length + 1) * 8)))).trans hlength
  rw [Nat.mul_comm _ 8] at hfield hread
  have hdescribes : List.Forall₂ LayoutTrack.Describes disc.tracks ds :=
    List.forall₂_map_right_iff.mpr (List.forall₂_same.mpr fun track _ => ⟨1, rfl⟩)
  have hencodes : List.Forall₂ Descriptor.Encodes (ds ++ [⟨control, 0xAA, disc.leadout.lba⟩])
      (blocks ++ [outputBlock leadout 0xAA disc.leadout.lba]) := by
    refine List.rel_append ?_ (.cons (outputBlock_encodes ..) .nil)
    refine List.forall₂_map_left_iff.mpr (List.forall₂_map_right_iff.mpr ?_)
    refine List.forall₂_same.mpr fun track htrack => ?_
    rw [hconverts.eq_lba (disc.starts_valid track htrack)]
    exact outputBlock_encodes track.desc track.number track.start.lba
  refine ⟨_, hread, _, _, ds, control, _, [], hfield, hdescribes, hencodes, ?_⟩
  rw [List.flatten_append, List.flatten_singleton, List.append_nil]
  rfl

/-- The common parser makes the same table of a disc's READ TOC response and
of what the macOS reader writes for a full table of the disc. -/
theorem parseToc_platforms (host : Host) {disc : DiscLayout} {toc : CdToc}
    (hresponse : disc.IsResponse data) (hfull : disc.IsFullToc toc.descriptors)
    (hcomplete : toc.Complete) (hconverts : ConvertsMsf cdConvertMsfToLba) :
    parseToc host data = .ok disc.toc ∧
      ∃ buf, readToc cdConvertMsfToLba (some toc) = .ok buf ∧
        parseToc host buf = .ok disc.toc := by
  obtain ⟨buf, hread, hbuf⟩ := hfull.readToc_isResponse hcomplete hconverts
  exact ⟨DiscLayout.parseToc_isResponse host hresponse, buf, hread,
    DiscLayout.parseToc_isResponse host hbuf⟩

-- ---------------------------------------------------------------------------
-- A disc in both encodings
-- ---------------------------------------------------------------------------

def DiscLayout.mixed : DiscLayout where
  tracks := [⟨1, 0, ⟨0, 2, 0⟩⟩, ⟨2, 4, ⟨10, 0, 30⟩⟩]
  leadout := ⟨20, 0, 0⟩
  nonempty := by decide
  ordered := by decide
  numbers := by decide
  starts_valid := by decide
  leadout_valid := by decide

def mixedResponse : Bytes :=
  [0, 26, 1, 2, 0, 0x10, 1, 0, 0, 0, 0, 0, 0, 0x14, 2, 0, 0, 0, 0xAF, 0x50,
    0, 0x10, 0xAA, 0, 0, 1, 0x5E, 0xFA, 0xFF, 0xFF]

theorem mixed_isResponse : DiscLayout.mixed.IsResponse mixedResponse :=
  ⟨0, 26, [⟨0x10, 1, 0⟩, ⟨0x14, 2, 44880⟩], 0x10,
    [[0, 0x10, 1, 0, 0, 0, 0, 0], [0, 0x14, 2, 0, 0, 0, 0xAF, 0x50],
      [0, 0x10, 0xAA, 0, 0, 1, 0x5E, 0xFA]], [0xFF, 0xFF], rfl,
    .cons ⟨1, rfl⟩ (.cons ⟨1, rfl⟩ .nil),
    .cons ⟨0, 0, rfl⟩ (.cons ⟨0, 0, rfl⟩ (.cons ⟨0, 0, rfl⟩ .nil)), rfl⟩

/-- The descriptors out of order, among those of other points and ADRs. -/
def mixedToc : CdToc where
  bufferLength := 81
  length := 79
  descriptors := [⟨1, 0, 0xA0, ⟨1, 0, 0⟩⟩, ⟨1, 0, 0xA1, ⟨2, 0, 0⟩⟩, ⟨1, 4, 2, ⟨10, 0, 30⟩⟩,
    ⟨5, 0, 0xB0, ⟨0, 0, 0⟩⟩, ⟨1, 0, 0xA2, ⟨20, 0, 0⟩⟩, ⟨1, 0, 1, ⟨0, 2, 0⟩⟩, ⟨5, 0, 1, ⟨9, 9, 9⟩⟩]

theorem mixed_isFullToc : DiscLayout.mixed.IsFullToc mixedToc.descriptors where
  unique := by decide
  only := by decide
  leadout := ⟨⟨1, 0, 0xA2, ⟨20, 0, 0⟩⟩, rfl, rfl⟩

/-- The conversion on 32-bit words, which wraps below 00:02:00. -/
def wrappingMsfToLba (msf : Msf) : UInt32 := .ofNat msf.frames - 150

theorem computesLba_wrapping : ComputesLba wrappingMsfToLba := by
  intro msf hle
  have hlt := msf.frames_lt
  have h150 : (150 : UInt32).toNat = 150 := rfl
  have hframes : (UInt32.ofNat msf.frames).toNat = msf.frames :=
    toNat_ofNat32 (by omega)
  have hsub : (150 : UInt32) ≤ .ofNat msf.frames := by
    rw [UInt32.le_iff_toNat_le, hframes, h150]
    exact hle
  rw [wrappingMsfToLba, toNat_sub32 hsub, hframes, h150]
  omega

theorem convertsMsf_wrapping : ConvertsMsf wrappingMsfToLba :=
  fun msf hvalid => computesLba_wrapping msf hvalid.le_frames

theorem parseToc_platforms_mixed :
    parseToc .desktop mixedResponse = .ok DiscLayout.mixed.toc ∧
      ∃ buf, readToc wrappingMsfToLba (some mixedToc) = .ok buf ∧
        parseToc .desktop buf = .ok DiscLayout.mixed.toc :=
  parseToc_platforms .desktop mixed_isResponse mixed_isFullToc (by unfold CdToc.Complete; decide)
    convertsMsf_wrapping

end CdDaReader
