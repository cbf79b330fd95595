import CdDaReader.TocReader.Platforms
import Mathlib.Data.List.Dedup
import Mathlib.Order.Bounds.Defs

/-!
# The normaliser on any list of descriptors

Whatever the list, the output has one descriptor for each distinct track
point with ADR 1, in order, and then the lead-out; there is no output exactly
when a track or the lead-out is missing. `readToc_normalises` also says what
the common parser makes of it.
-/

namespace CdDaReader

open Rust

/-- A descriptor of a track: ADR 1 and a point of 1 to 99. -/
def CdTocDescriptor.isTrack (desc : CdTocDescriptor) : Bool :=
  desc.adr == 1 && decide (1 ≤ desc.point) && decide (desc.point ≤ 99)

def CdTocDescriptor.isLeadout (desc : CdTocDescriptor) : Bool :=
  desc.adr == 1 && desc.point == 0xA2

def trackPoints (descs : List CdTocDescriptor) : List UInt8 :=
  ((descs.filter CdTocDescriptor.isTrack).map CdTocDescriptor.point).dedup

/-- The last descriptor of each track point, in order of the points. -/
def chosen (descs : List CdTocDescriptor) : List CdTocDescriptor :=
  (List.range 100).filterMap (entry descs)

section
variable (cdConvertMsfToLba : Msf → UInt32) (descs : List CdTocDescriptor)

/-- The descriptor written for one of the list, under a track number. -/
def written (number : UInt8) (desc : CdTocDescriptor) : Descriptor :=
  ⟨adrControl desc.adr desc.control, number, cdConvertMsfToLba desc.p⟩

def slots (leadout : CdTocDescriptor) : List Descriptor :=
  (chosen descs).map (fun desc => written cdConvertMsfToLba desc.point desc) ++
    [written cdConvertMsfToLba 0xAA leadout]

/-- The output for a list: as long as its length field says and as its
distinct track points need, and every slot filled. -/
structure IsOutput (buf : Bytes) : Prop where
  length_eq : buf.length = 4 + 8 * ((trackPoints descs).length + 1)
  length_field : ∃ b0 b1 rest, buf = b0 :: b1 :: rest ∧
    (u16FromBeBytes b0 b1).toNat = buf.length - 2
  slots_eq : ∃ leadout, (descs.filter CdTocDescriptor.isLeadout).getLast? = some leadout ∧
    descriptors (buf.drop 4) = slots cdConvertMsfToLba descs leadout

/-- The table of a list: its tracks are the distinct track points in order,
each from the last descriptor of its point, and so is the lead-out. -/
structure IsTableOf (table : Toc) : Prop where
  length_eq : table.tracks.length = (trackPoints descs).length
  ordered : table.tracks.Pairwise fun a b => a.number < b.number
  track : ∀ track ∈ table.tracks, ∃ desc,
    (descs.filter fun desc => desc.adr == 1 && desc.point == track.number).getLast? = some desc ∧
      track.number ∈ trackPoints descs ∧ track.startLba = cdConvertMsfToLba desc.p ∧
      track.isAudio = (desc.control &&& 4 == 0)
  first : IsLeast { point | point ∈ trackPoints descs } table.firstTrack
  last : IsGreatest { point | point ∈ trackPoints descs } table.lastTrack
  leadout : ∃ desc, (descs.filter CdTocDescriptor.isLeadout).getLast? = some desc ∧
    table.leadoutLba = cdConvertMsfToLba desc.p

end

/-- No address that is written is before 00:02:00. -/
def StartsInRange (descs : List CdTocDescriptor) : Prop :=
  (∀ desc ∈ chosen descs, 150 ≤ desc.p.frames) ∧
    ∀ desc, (descs.filter CdTocDescriptor.isLeadout).getLast? = some desc → 150 ≤ desc.p.frames

-- ---------------------------------------------------------------------------
-- The chosen descriptors
-- ---------------------------------------------------------------------------

section
variable {descs : List CdTocDescriptor}

theorem isTrack_iff (desc : CdTocDescriptor) :
    desc.isTrack = true ↔ desc.adr = 1 ∧ 1 ≤ desc.point.toNat ∧ desc.point.toNat ≤ 99 := by
  simp [CdTocDescriptor.isTrack, UInt8.le_iff_toNat_le, and_assoc]

theorem mem_chosen : desc ∈ chosen descs ↔ entry descs desc.point.toNat = some desc := by
  unfold chosen
  rw [List.mem_filterMap]
  constructor
  · rintro ⟨i, -, hentry⟩
    obtain ⟨-, rfl⟩ := entry_point hentry
    exact hentry
  · intro hentry
    have hsome : (entry descs desc.point.toNat).isSome = true := by rw [hentry]; rfl
    obtain ⟨-, hle⟩ := entry_range hsome
    exact ⟨_, List.mem_range.mpr (by omega), hentry⟩

theorem chosen_points (descs : List CdTocDescriptor) :
    (chosen descs).map (fun desc => desc.point.toNat) = listed descs := by
  unfold chosen listed
  rw [List.map_filterMap, ← List.filterMap_eq_filter]
  apply List.filterMap_congr
  intro i _
  cases hentry : entry descs i with
  | none => simp [Option.guard, hentry]
  | some desc =>
    obtain ⟨-, rfl⟩ := entry_point hentry
    simp [Option.guard, hentry]

theorem chosen_ordered (descs : List CdTocDescriptor) :
    (chosen descs).Pairwise fun a b => a.point < b.point := by
  have hlisted : (listed descs).Pairwise (· < ·) := List.pairwise_lt_range.filter _
  rw [← chosen_points, List.pairwise_map] at hlisted
  exact hlisted.imp UInt8.lt_iff_toNat_lt.mpr

theorem lastOf_isSome_iff (descs : List CdTocDescriptor) (point : Nat) :
    (lastOf descs point).isSome = true ↔
      ∃ desc ∈ descs, desc.adr = 1 ∧ desc.point.toNat = point := by
  unfold lastOf
  rw [List.getLast?_isSome, ne_eq, List.filter_eq_nil_iff]
  simp

/-- A number has an entry exactly when it is a track point. -/
theorem mem_listed_iff_trackPoints (point : UInt8) :
    point.toNat ∈ listed descs ↔ point ∈ trackPoints descs := by
  rw [mem_listed, trackPoints, List.mem_dedup, List.mem_map]
  simp only [List.mem_filter, isTrack_iff]
  constructor
  · intro hsome
    obtain ⟨h1, h2⟩ := entry_range hsome
    rw [entry, if_pos ⟨h1, h2⟩, lastOf_isSome_iff] at hsome
    obtain ⟨desc, hdesc, hadr, hpoint⟩ := hsome
    obtain rfl := UInt8.toNat_inj.mp hpoint
    exact ⟨desc, ⟨hdesc, hadr, h1, h2⟩, rfl⟩
  · rintro ⟨desc, ⟨hdesc, hadr, h1, h2⟩, rfl⟩
    rw [entry, if_pos ⟨h1, h2⟩, lastOf_isSome_iff]
    exact ⟨desc, hdesc, hadr, rfl⟩

theorem mem_chosen_points (point : UInt8) :
    point ∈ (chosen descs).map CdTocDescriptor.point ↔ point ∈ trackPoints descs := by
  rw [← mem_listed_iff_trackPoints, ← chosen_points, List.mem_map, List.mem_map]
  simp only [UInt8.toNat_inj]

theorem length_chosen (descs : List CdTocDescriptor) :
    (chosen descs).length = (trackPoints descs).length := by
  have hnodup : ((chosen descs).map CdTocDescriptor.point).Nodup := by
    refine List.pairwise_map.mpr ((chosen_ordered descs).imp ?_)
    intro a b hlt heq
    rw [heq] at hlt
    exact UInt8.lt_irrefl _ hlt
  have hperm := (List.perm_ext_iff_of_nodup hnodup (List.nodup_dedup _)).mpr mem_chosen_points
  have hlen := hperm.length_eq
  rwa [List.length_map] at hlen

theorem length_listed (descs : List CdTocDescriptor) :
    (listed descs).length = (trackPoints descs).length := by
  rw [← chosen_points, List.length_map, length_chosen]

theorem lastOf_leadout (descs : List CdTocDescriptor) :
    lastOf descs 0xA2 = (descs.filter CdTocDescriptor.isLeadout).getLast? :=
  DiscLayout.IsFullToc.lastOf_eq descs 0xA2

theorem blocksBelow_chosen (cdConvertMsfToLba : Msf → UInt32) (descs : List CdTocDescriptor) :
    blocksBelow cdConvertMsfToLba descs 100 = (chosen descs).map fun desc =>
      outputBlock desc desc.point (cdConvertMsfToLba desc.p) := by
  unfold blocksBelow chosen
  rw [List.map_filterMap]
  apply List.filterMap_congr
  intro i hi
  cases hentry : entry descs i with
  | none => simp [entryBlock, hentry]
  | some desc =>
    obtain ⟨-, rfl⟩ := entry_point hentry
    simp [entryBlock, hentry]

-- ---------------------------------------------------------------------------
-- The output and what is parsed of it
-- ---------------------------------------------------------------------------

section
variable (cdConvertMsfToLba : Msf → UInt32)

def slotBlocks (descs : List CdTocDescriptor) (leadout : CdTocDescriptor) : List Bytes :=
  (chosen descs).map (fun desc => outputBlock desc desc.point (cdConvertMsfToLba desc.p)) ++
    [outputBlock leadout 0xAA (cdConvertMsfToLba leadout.p)]

theorem slots_encodes (descs : List CdTocDescriptor) (leadout : CdTocDescriptor) :
    List.Forall₂ Descriptor.Encodes (slots cdConvertMsfToLba descs leadout)
      (slotBlocks cdConvertMsfToLba descs leadout) := by
  refine List.rel_append ?_ (.cons (outputBlock_encodes ..) .nil)
  rw [List.forall₂_map_left_iff, List.forall₂_map_right_iff, List.forall₂_same]
  intro desc _
  exact outputBlock_encodes desc desc.point (cdConvertMsfToLba desc.p)

theorem length_slots (descs : List CdTocDescriptor) (leadout : CdTocDescriptor) :
    (slots cdConvertMsfToLba descs leadout).length = (trackPoints descs).length + 1 := by
  rw [slots, List.length_append, List.length_map, length_chosen, List.length_singleton]

theorem declaredEnd_shifts (n : UInt16) :
    declaredEnd (n >>> 8 &&& 0xFF).toUInt8 (n &&& 0xFF).toUInt8 = n.toNat + 2 := by
  rw [declaredEnd, u16FromBeBytes_shifts]

theorem readToc_missing {toc : CdToc} (hcomplete : toc.Complete)
    (h : trackPoints toc.descriptors = [] ∨
      (toc.descriptors.filter CdTocDescriptor.isLeadout).getLast? = none) :
    readToc cdConvertMsfToLba (some toc) = .error (.error ()) := by
  obtain ⟨table, hscan, htable⟩ := TocTable.exists_isOf toc.descriptors
  unfold readToc
  simp only [okOr_some, Outcome.bind_ok]
  rw [if_neg (Nat.not_lt.mpr hcomplete.1), if_neg (Nat.not_lt.mpr hcomplete.2), hscan]
  simp only [Outcome.lift_ok, Outcome.bind_ok]
  rcases h with hnone | hnone
  · have hcount : table.trackCount = 0 := by
      rw [htable.count_eq, length_listed, hnone]
      rfl
    rw [if_pos hcount]
    rfl
  · split
    · rfl
    · rw [htable.leadout_eq, lastOf_leadout, hnone]
      rfl

theorem readToc_slots {toc : CdToc} (hcomplete : toc.Complete)
    (hne : trackPoints toc.descriptors ≠ [])
    (hout : (toc.descriptors.filter CdTocDescriptor.isLeadout).getLast? = some leadout) :
    ∃ (table : TocTable) (b0 b1 : UInt8), table.IsOf toc.descriptors ∧
      declaredEnd b0 b1 = 4 + 8 * ((trackPoints toc.descriptors).length + 1) ∧
      readToc cdConvertMsfToLba (some toc) = .ok (b0 :: b1 :: table.firstTrack ::
        table.lastTrack :: (slotBlocks cdConvertMsfToLba toc.descriptors leadout).flatten) := by
  have hne' : listed toc.descriptors ≠ [] := by
    intro hnil
    apply hne
    rw [← List.length_eq_zero_iff, ← length_listed, hnil]
    rfl
  obtain ⟨table, htable, hread⟩ := readToc_eq cdConvertMsfToLba hcomplete.1 hcomplete.2 hne'
    ((lastOf_leadout _).trans hout)
  have hend := declaredEnd_shifts (.ofNat (2 + ((listed toc.descriptors).length + 1) * 8))
  rw [toNat_outputTocLength] at hend
  have hcount := length_listed toc.descriptors
  refine ⟨table, _, _, htable, hend.trans (by omega), ?_⟩
  rw [hread, blocksBelow_chosen, slotBlocks, List.flatten_append, List.flatten_singleton]
  rfl

variable {descs : List CdTocDescriptor}
  (hout : (descs.filter CdTocDescriptor.isLeadout).getLast? = some leadout)
include hout

theorem slots_isOutput (hend : declaredEnd b0 b1 = 4 + 8 * ((trackPoints descs).length + 1))
    (firstTrack lastTrack : UInt8) :
    IsOutput cdConvertMsfToLba descs (b0 :: b1 :: firstTrack :: lastTrack ::
      (slotBlocks cdConvertMsfToLba descs leadout).flatten) := by
  have hencodes := slots_encodes cdConvertMsfToLba descs leadout
  have hlen := length_flatten_encodes hencodes
  rw [length_slots] at hlen
  refine ⟨?_, ⟨b0, b1, _, rfl, ?_⟩, ⟨leadout, hout, ?_⟩⟩
  · simp only [List.length_cons]
    omega
  · rw [declaredEnd] at hend
    simp only [List.length_cons]
    omega
  · have hslots := descriptors_flatten hencodes []
    rw [List.append_nil] at hslots
    exact hslots.trans (List.append_nil _)

theorem slots_lba_lt (hcomputes : ComputesLba cdConvertMsfToLba) (hrange : StartsInRange descs) :
    ∀ d ∈ slots cdConvertMsfToLba descs leadout, d.lba.toNat + 150 < 2 ^ 32 := by
  have hlt : ∀ msf : Msf, 150 ≤ msf.frames → (cdConvertMsfToLba msf).toNat + 150 < 2 ^ 32 := by
    intro msf hle
    have hframes := msf.frames_lt
    rw [hcomputes msf hle]
    omega
  intro d hd
  rcases List.mem_append.mp hd with hd | hd
  · obtain ⟨desc, hdesc, rfl⟩ := List.mem_map.mp hd
    exact hlt _ (hrange.1 desc hdesc)
  · rw [List.mem_singleton.mp hd]
    exact hlt _ (hrange.2 leadout hout)

end

theorem not_leadOut_chosen (cdConvertMsfToLba : Msf → UInt32) {d : Descriptor}
    (h : d ∈ (chosen descs).map fun desc => written cdConvertMsfToLba desc.point desc) :
    d.isLeadOut = false := by
  obtain ⟨desc, hdesc, rfl⟩ := List.mem_map.mp h
  have hsome : (entry descs desc.point.toNat).isSome = true := by
    rw [mem_chosen.mp hdesc]
    rfl
  have hle := (entry_range hsome).2
  have hne : desc.point ≠ 0xAA := by
    intro heq
    rw [heq] at hle
    exact absurd hle (by decide)
  simpa [written, Descriptor.isLeadOut] using hne

/-- A chosen descriptor is the last one of its point, which is a track point. -/
theorem chosen_last (h : desc ∈ chosen descs) :
    (descs.filter fun other => other.adr == 1 && other.point == desc.point).getLast? = some desc ∧
      desc.point ∈ trackPoints descs := by
  have hentry := mem_chosen.mp h
  have hsome : (entry descs desc.point.toNat).isSome = true := by
    rw [hentry]
    rfl
  refine ⟨?_, ?_⟩
  · rw [entry, if_pos (entry_range hsome), DiscLayout.IsFullToc.lastOf_eq] at hentry
    exact hentry
  · exact (mem_listed_iff_trackPoints _).mp (mem_listed.mpr hsome)

theorem isLeast_firstTrack {table : TocTable} (htable : table.IsOf descs)
    (hne : trackPoints descs ≠ []) :
    IsLeast { point | point ∈ trackPoints descs } table.firstTrack ∧
      IsGreatest { point | point ∈ trackPoints descs } table.lastTrack := by
  obtain ⟨point, hpoint⟩ := List.exists_mem_of_ne_nil _ hne
  obtain ⟨hfirst, hlast⟩ := htable.ends_mem ((mem_listed_iff_trackPoints point).mpr hpoint)
  rw [mem_listed_iff_trackPoints] at hfirst hlast
  refine ⟨⟨hfirst, ?_⟩, ⟨hlast, ?_⟩⟩
  · intro point hpoint
    rw [UInt8.le_iff_toNat_le]
    exact (htable.bounds _ ((mem_listed_iff_trackPoints point).mpr hpoint)).1
  · intro point hpoint
    rw [UInt8.le_iff_toNat_le]
    exact (htable.bounds _ ((mem_listed_iff_trackPoints point).mpr hpoint)).2

theorem slots_isTableOf (cdConvertMsfToLba : Msf → UInt32) {table : TocTable}
    (htable : table.IsOf descs) (hne : trackPoints descs ≠ [])
    (hout : (descs.filter CdTocDescriptor.isLeadout).getLast? = some leadout) :
    IsTableOf cdConvertMsfToLba descs
      { firstTrack := table.firstTrack
        lastTrack := table.lastTrack
        tracks := (chosen descs).map fun desc => (written cdConvertMsfToLba desc.point desc).track
        leadoutLba := cdConvertMsfToLba leadout.p } := by
  obtain ⟨hfirst, hlast⟩ := isLeast_firstTrack htable hne
  constructor
  case length_eq => rw [List.length_map, length_chosen]
  case ordered => exact List.pairwise_map.mpr (chosen_ordered descs)
  case track =>
    intro track htrack
    obtain ⟨desc, hdesc, rfl⟩ := List.mem_map.mp htrack
    obtain ⟨hlast, hpoint⟩ := chosen_last hdesc
    exact ⟨desc, hlast, hpoint, rfl, adrControl_audio desc.adr desc.control⟩
  case first => exact hfirst
  case last => exact hlast
  case leadout => exact ⟨leadout, hout, rfl⟩

theorem trackPoints_eq_nil_iff (descs : List CdTocDescriptor) :
    trackPoints descs = [] ↔ ∀ desc ∈ descs, desc.isTrack = false := by
  simp [trackPoints]

theorem leadout_eq_none_iff (descs : List CdTocDescriptor) :
    (descs.filter CdTocDescriptor.isLeadout).getLast? = none ↔
      ∀ desc ∈ descs, desc.isLeadout = false := by
  simp

end

/-- The native reader, on any list of descriptors that passes its length
checks, fails exactly when no descriptor is a track's or none is the
lead-out's; otherwise it returns the output for the list, which the common
parser decodes as the list's table. -/
theorem readToc_normalises {cdConvertMsfToLba : Msf → UInt32}
    (hcomputes : ComputesLba cdConvertMsfToLba) {toc : CdToc} (hcomplete : toc.Complete) :
    (readToc cdConvertMsfToLba (some toc) = .error (.error ()) ↔
      (∀ desc ∈ toc.descriptors, desc.isTrack = false) ∨
        ∀ desc ∈ toc.descriptors, desc.isLeadout = false) ∧
      (readToc cdConvertMsfToLba (some toc) ≠ .error (.error ()) →
        ∃ buf, readToc cdConvertMsfToLba (some toc) = .ok buf ∧
          IsOutput cdConvertMsfToLba toc.descriptors buf ∧
          (StartsInRange toc.descriptors → ∀ host, ∃ table, parseToc host buf = .ok table ∧
            IsTableOf cdConvertMsfToLba toc.descriptors table)) := by
  rw [← trackPoints_eq_nil_iff, ← leadout_eq_none_iff]
  by_cases hmissing : trackPoints toc.descriptors = [] ∨
      (toc.descriptors.filter CdTocDescriptor.isLeadout).getLast? = none
  · have hfails := readToc_missing cdConvertMsfToLba hcomplete hmissing
    exact ⟨⟨fun _ => hmissing, fun _ => hfails⟩, fun hne => absurd hfails hne⟩
  · obtain ⟨hne, hsome⟩ := not_or.mp hmissing
    obtain ⟨leadout, hout⟩ := Option.ne_none_iff_exists'.mp hsome
    obtain ⟨table, b0, b1, htable, hend, hread⟩ :=
      readToc_slots cdConvertMsfToLba hcomplete hne hout
    refine ⟨⟨?_, fun h => absurd h hmissing⟩, ?_⟩
    · intro hfails
      cases hread.symm.trans hfails
    · intro _
      refine ⟨_, hread, slots_isOutput cdConvertMsfToLba hout hend _ _, ?_⟩
      intro hrange host
      refine ⟨_, ?_, slots_isTableOf cdConvertMsfToLba htable hne hout⟩
      have hparse := parseToc_wellFormed host table.firstTrack table.lastTrack
        (slots_encodes cdConvertMsfToLba toc.descriptors leadout)
        (hend.trans (by rw [List.length_map, length_chosen]))
        (fun _ => not_leadOut_chosen cdConvertMsfToLba) rfl
        (slots_lba_lt cdConvertMsfToLba hout hcomputes hrange) []
      rw [List.append_nil, List.map_map] at hparse
      exact hparse

/-- Two descriptors of one track, a track in between missing, and two
lead-outs. -/
def repeatedToc : CdToc where
  bufferLength := 70
  length := 68
  descriptors := [⟨1, 0, 3, ⟨5, 0, 0⟩⟩, ⟨1, 0, 0xA2, ⟨9, 0, 0⟩⟩, ⟨1, 4, 1, ⟨0, 2, 0⟩⟩,
    ⟨5, 0, 2, ⟨3, 0, 0⟩⟩, ⟨1, 0, 1, ⟨0, 2, 1⟩⟩, ⟨1, 0, 0xA2, ⟨8, 0, 0⟩⟩]

theorem readToc_normalises_repeated :
    ∃ buf, readToc wrappingMsfToLba (some repeatedToc) = .ok buf ∧
      ∃ table, parseToc .desktop buf = .ok table ∧
        IsTableOf wrappingMsfToLba repeatedToc.descriptors table := by
  have hcomplete : repeatedToc.Complete := by unfold CdToc.Complete; decide
  have hrange : StartsInRange repeatedToc.descriptors := by
    refine ⟨by decide, ?_⟩
    intro desc hdesc
    cases hdesc
    decide
  have hout : readToc wrappingMsfToLba (some repeatedToc) ≠ .error (.error ()) := by
    intro h
    cases h
  obtain ⟨-, hok⟩ := readToc_normalises computesLba_wrapping hcomplete
  obtain ⟨buf, hread, -, hparse⟩ := hok hout
  exact ⟨buf, hread, hparse hrange .desktop⟩

end CdDaReader
