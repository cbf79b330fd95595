import CdDaReader.TocReader.Table

/-!
# The response that the normaliser writes

`outputAt` is the state of the writing loop at a track number: the entries
below it are written without gaps, and the rest of the buffer is zero. Every
store is in bounds, because the buffer was sized by the same count.
-/

namespace CdDaReader

open Rust

def outputBlock (desc : CdTocDescriptor) (number : UInt8) (lba : UInt32) : Bytes :=
  [0, .ofNat (desc.adr.toNat <<< 4 ||| desc.control.toNat), number, 0] ++ u32ToBeBytes lba

theorem u32ToBeBytes_shifts (n : UInt32) : u32ToBeBytes n =
    [(n >>> 24 &&& 0xFF).toUInt8, (n >>> 16 &&& 0xFF).toUInt8, (n >>> 8 &&& 0xFF).toUInt8,
      (n &&& 0xFF).toUInt8] := by
  rw [shiftedByte n 24 (by decide), shiftedByte n 16 (by decide), shiftedByte n 8 (by decide),
    lowByte]
  rfl

/-- On eight zero bytes of the buffer the stores leave an output descriptor. -/
theorem writeDescriptor_eq (before after : Bytes) (desc : CdTocDescriptor) (number : UInt8)
    (lba : UInt32) :
    writeDescriptor (before ++ (List.replicate 8 0 ++ after)) before.length desc number lba =
      .ok (before ++ (outputBlock desc number lba ++ after)) := by
  unfold writeDescriptor outputBlock
  rw [u32ToBeBytes_shifts]
  simp only [bind, Except.bind, update_append, List.replicate, List.length_cons, List.cons_append,
    List.nil_append, List.set_cons_succ, List.set_cons_zero, Nat.zero_lt_succ, Nat.succ_lt_succ_iff]

-- ---------------------------------------------------------------------------
-- The loop over the table
-- ---------------------------------------------------------------------------

section
variable (cdConvertMsfToLba : Msf → UInt32) (descs : List CdTocDescriptor)

/-- The output descriptor of a track number that has an entry. -/
def entryBlock (i : Nat) : Option Bytes :=
  (entry descs i).map fun desc => outputBlock desc (.ofNat i) (cdConvertMsfToLba desc.p)

/-- The output descriptors of the track numbers below a bound. -/
def blocksBelow (k : Nat) : List Bytes :=
  (List.range k).filterMap (entryBlock cdConvertMsfToLba descs)

theorem blocksBelow_succ (k : Nat) : blocksBelow cdConvertMsfToLba descs (k + 1) =
    blocksBelow cdConvertMsfToLba descs k ++ (entryBlock cdConvertMsfToLba descs k).toList := by
  unfold blocksBelow
  rw [List.range_succ, List.filterMap_append]
  cases h : entryBlock cdConvertMsfToLba descs k <;> simp [h]

theorem length_blocksBelow_le (h : k ≤ m) : (blocksBelow cdConvertMsfToLba descs k).length ≤
    (blocksBelow cdConvertMsfToLba descs m).length := by
  induction h with
  | refl => exact Nat.le_refl _
  | step _ ih =>
    rw [blocksBelow_succ, List.length_append]
    exact Nat.le_trans ih (Nat.le_add_right ..)

theorem length_blocksBelow_all :
    (blocksBelow cdConvertMsfToLba descs 100).length = (listed descs).length := by
  unfold blocksBelow listed
  rw [List.length_filterMap_eq_countP, List.countP_eq_length_filter]
  simp only [entryBlock, Option.isSome_map]

/-- Past the greatest entry nothing is added. -/
theorem blocksBelow_of_bound (h : ∀ i ∈ listed descs, i < k) (hkm : k ≤ m) :
    blocksBelow cdConvertMsfToLba descs m = blocksBelow cdConvertMsfToLba descs k := by
  induction hkm with
  | refl => rfl
  | @step m hkm ih =>
    have hnone : entry descs m = none := by
      rw [← Option.not_isSome_iff_eq_none]
      intro hsome
      exact absurd (h m (mem_listed.mpr hsome)) (Nat.not_lt.mpr hkm)
    rw [blocksBelow_succ, ih]
    simp [entryBlock, hnone]

theorem blocksBelow_of_least (h : ∀ i ∈ listed descs, k ≤ i) :
    blocksBelow cdConvertMsfToLba descs k = [] := by
  apply List.filterMap_eq_nil_iff.mpr
  intro i hi
  have hnone : entry descs i = none := by
    rw [← Option.not_isSome_iff_eq_none]
    intro hsome
    exact absurd (h i (mem_listed.mpr hsome)) (Nat.not_le.mpr (List.mem_range.mp hi))
  simp [entryBlock, hnone]

/-- The loop's state at a track number, over a buffer for all entries and the
lead-out. -/
def outputAt (header : Bytes) (k : Nat) : TocOutput where
  track := .ofNat k
  offset := header.length + (blocksBelow cdConvertMsfToLba descs k).flatten.length
  buf := header ++ ((blocksBelow cdConvertMsfToLba descs k).flatten ++
    List.replicate (8 * ((listed descs).length + 1 -
      (blocksBelow cdConvertMsfToLba descs k).length)) 0)

theorem writeTrack_at {table : TocTable} (h : table.IsOf descs) (header : Bytes) (hk : k < 100) :
    writeTrack cdConvertMsfToLba table (outputAt cdConvertMsfToLba descs header k) =
      .ok (outputAt cdConvertMsfToLba descs header (k + 1)) := by
  have htrack : (UInt8.ofNat k).toNat = k := UInt8.toNat_ofNat_of_lt' (show k < 256 by omega)
  have hnext : UInt8.ofNat k + 1 = UInt8.ofNat (k + 1) := by
    apply UInt8.toNat_inj.mp
    rw [UInt8.toNat_add, htrack, UInt8.toNat_ofNat']
    rfl
  have hcount := length_blocksBelow_le cdConvertMsfToLba descs (Nat.succ_le_of_lt hk)
  rw [length_blocksBelow_all, blocksBelow_succ, List.length_append] at hcount
  unfold writeTrack outputAt
  simp only
  rw [htrack, index_ok (h.entry_eq k hk), blocksBelow_succ, hnext]
  cases hentry : entry descs k with
  | none => simp [entryBlock, hentry]
  | some desc =>
    have hblock : entryBlock cdConvertMsfToLba descs k =
        some (outputBlock desc (.ofNat k) (cdConvertMsfToLba desc.p)) := by
      simp [entryBlock, hentry]
    rw [hblock] at hcount ⊢
    simp only [Option.toList_some, List.length_singleton, List.flatten_append,
      List.flatten_singleton, List.length_append] at hcount ⊢
    have hzeros : List.replicate (8 * ((listed descs).length + 1 -
          (blocksBelow cdConvertMsfToLba descs k).length)) (0 : UInt8) =
        List.replicate 8 0 ++ List.replicate (8 * ((listed descs).length + 1 -
          ((blocksBelow cdConvertMsfToLba descs k).length + 1))) 0 := by
      rw [List.replicate_append_replicate]
      congr 1
      omega
    have hwrite := writeDescriptor_eq (header ++ (blocksBelow cdConvertMsfToLba descs k).flatten)
      (List.replicate (8 * ((listed descs).length + 1 -
        ((blocksBelow cdConvertMsfToLba descs k).length + 1))) 0) desc (.ofNat k)
      (cdConvertMsfToLba desc.p)
    rw [List.length_append, List.append_assoc, List.append_assoc] at hwrite
    simp only [Outcome.lift_ok, Outcome.bind_ok]
    rw [hzeros, hwrite]
    simp [outputBlock, u32ToBeBytes, Nat.add_assoc]

/-- The loop ends after the last track, with every entry written. -/
theorem writeTracks_eq {table : TocTable} (h : table.IsOf descs) (hne : listed descs ≠ [])
    (header : Bytes) :
    whileLoop (throw .diverged) (fun out => decide (out.track ≤ table.lastTrack))
        (writeTrack cdConvertMsfToLba table) 256
        (outputAt cdConvertMsfToLba descs header table.firstTrack.toNat) =
      .ok (outputAt cdConvertMsfToLba descs header (table.lastTrack.toNat + 1)) := by
  obtain ⟨i, hi⟩ := List.exists_mem_of_ne_nil _ hne
  obtain ⟨hfirst, hlast⟩ := h.ends_mem hi
  obtain ⟨hle, -⟩ := h.bounds _ hlast
  obtain ⟨-, hmax⟩ := entry_range (mem_listed.mp hlast)
  have htrack : ∀ k ≤ 100, (outputAt cdConvertMsfToLba descs header k).track.toNat = k :=
    fun k hk => UInt8.toNat_ofNat_of_lt' (show k < 256 by omega)
  refine whileLoop_induction
    (fun out => ∃ k, table.firstTrack.toNat ≤ k ∧ k ≤ table.lastTrack.toNat + 1 ∧
      out = outputAt cdConvertMsfToLba descs header k)
    (fun out => 200 - out.track.toNat)
    (fun _ (run : Outcome Unit TocOutput) =>
      run = .ok (outputAt cdConvertMsfToLba descs header (table.lastTrack.toNat + 1)))
    ?_ ?_ ⟨_, Nat.le_refl _, by omega, rfl⟩ (Nat.lt_of_le_of_lt (Nat.sub_le ..) (by decide))
  · rintro out ⟨k, hlo, hhi, rfl⟩ hstop
    simp only [decide_eq_false_iff_not, UInt8.le_iff_toNat_le] at hstop
    rw [htrack k (by omega)] at hstop
    obtain rfl : k = table.lastTrack.toNat + 1 := by omega
    rfl
  · rintro out ⟨k, hlo, hhi, rfl⟩ hgo next hnext
    simp only [decide_eq_true_eq, UInt8.le_iff_toNat_le] at hgo
    rw [htrack k (by omega)] at hgo
    rw [writeTrack_at cdConvertMsfToLba descs h header (by omega), Outcome.bind_ok]
    refine hnext _ ⟨k + 1, by omega, by omega, rfl⟩ ?_
    rw [htrack k (by omega), htrack (k + 1) (by omega)]
    omega

def header (tocLength : UInt16) (firstTrack lastTrack : UInt8) : Bytes :=
  [(tocLength >>> 8 &&& 0xFF).toUInt8, (tocLength &&& 0xFF).toUInt8, firstTrack, lastTrack]

theorem u16FromBeBytes_shifts (n : UInt16) :
    u16FromBeBytes (n >>> 8 &&& 0xFF).toUInt8 (n &&& 0xFF).toUInt8 = n := by
  have hhigh := Nat.and_two_pow_sub_one_eq_mod (n.toNat / 2 ^ 8) 8
  have hlow := Nat.and_two_pow_sub_one_eq_mod n.toNat 8
  have h255 : (0xFF : UInt16).toNat = 2 ^ 8 - 1 := rfl
  have h8 : (8 : UInt16).toNat % 16 = 8 := rfl
  have hlt := n.toNat_lt
  apply UInt16.toNat_inj.mp
  rw [toNat_u16FromBeBytes, UInt16.toNat_toUInt8, UInt16.toNat_toUInt8, UInt16.toNat_and,
    UInt16.toNat_and, UInt16.toNat_shiftRight, h8, h255, Nat.shiftRight_eq_div_pow, hhigh, hlow]
  omega

theorem length_listed_le : (listed descs).length ≤ 99 := by
  have hzero : entry descs 0 = none := by simp [entry]
  have hrange : List.range 100 = 0 :: (List.range 99).map Nat.succ := List.range_succ_eq_map
  have hlen : ((List.range 99).map Nat.succ).length = 99 := by
    rw [List.length_map, List.length_range]
  unfold listed
  rw [hrange, List.filter_cons, hzero]
  exact Nat.le_trans (List.length_filter_le ..) (Nat.le_of_eq hlen)

/-- The length of an output with all entries fits its field. -/
theorem toNat_outputTocLength :
    (UInt16.ofNat (2 + ((listed descs).length + 1) * 8)).toNat =
      2 + ((listed descs).length + 1) * 8 := by
  have hle := length_listed_le descs
  apply UInt16.toNat_ofNat_of_lt'
  show 2 + ((listed descs).length + 1) * 8 < 2 ^ 16
  omega

theorem writeHeader_eq (n : Nat) (a b c d : UInt8) (next : Bytes → Outcome Unit β) :
    (do let buf ← update (List.replicate (n + 4) 0) 0 a
        let buf ← update buf 1 b
        let buf ← update buf 2 c
        let buf ← update buf 3 d
        next buf : Outcome Unit β) = next ([a, b, c, d] ++ List.replicate n 0) := by
  simp [update, List.replicate_succ]

theorem outputAt_first {table : TocTable} (h : table.IsOf descs) (header : Bytes)
    (hlen : header.length = 4) :
    { track := table.firstTrack, offset := 4,
      buf := header ++ List.replicate (8 * (table.trackCount + 1)) 0 } =
      outputAt cdConvertMsfToLba descs header table.firstTrack.toNat := by
  unfold outputAt
  rw [blocksBelow_of_least _ _ fun i hi => (h.bounds i hi).1, h.count_eq, hlen]
  simp

/-- After it the eight zero bytes left are filled with the lead-out. -/
theorem writeLeadout_eq {table : TocTable} (h : table.IsOf descs) (hne : listed descs ≠ [])
    (header : Bytes) (leadout : CdTocDescriptor) (lba : UInt32) :
    writeDescriptor (outputAt cdConvertMsfToLba descs header (table.lastTrack.toNat + 1)).buf
        (outputAt cdConvertMsfToLba descs header (table.lastTrack.toNat + 1)).offset leadout 0xAA
        lba =
      .ok (header ++ ((blocksBelow cdConvertMsfToLba descs 100).flatten ++
        outputBlock leadout 0xAA lba)) := by
  obtain ⟨i, hi⟩ := List.exists_mem_of_ne_nil _ hne
  obtain ⟨-, hmax⟩ := entry_range (mem_listed.mp (h.ends_mem hi).2)
  have hle : table.lastTrack.toNat + 1 ≤ 100 := by omega
  have hall := blocksBelow_of_bound cdConvertMsfToLba descs
    (fun i hi => Nat.lt_succ_of_le (h.bounds i hi).2) hle
  have hwrite := writeDescriptor_eq (header ++ (blocksBelow cdConvertMsfToLba descs 100).flatten) []
    leadout 0xAA lba
  have hleft : 8 * ((listed descs).length + 1 - (listed descs).length) = 8 := by omega
  unfold outputAt
  rw [← hall, length_blocksBelow_all, hleft]
  simpa using hwrite

/-- On a response that passes the length checks and lists a track and a
lead-out, the result is the header, the entries in order and the lead-out. -/
theorem readToc_eq {toc : CdToc} (hshort : 4 ≤ toc.bufferLength.toNat)
    (hsize : toc.length.toNat + 2 ≤ toc.bufferLength.toNat) (hne : listed toc.descriptors ≠ [])
    (hout : lastOf toc.descriptors 0xA2 = some leadout) :
    ∃ table : TocTable, table.IsOf toc.descriptors ∧
      readToc cdConvertMsfToLba (some toc) =
        .ok (header (.ofNat (2 + ((listed toc.descriptors).length + 1) * 8)) table.firstTrack
            table.lastTrack ++
          ((blocksBelow cdConvertMsfToLba toc.descriptors 100).flatten ++
            outputBlock leadout 0xAA (cdConvertMsfToLba leadout.p))) := by
  obtain ⟨table, hscan, htable⟩ := TocTable.exists_isOf toc.descriptors
  refine ⟨table, htable, ?_⟩
  have hcount : table.trackCount ≠ 0 := by
    rw [htable.count_eq]
    exact mt List.eq_nil_of_length_eq_zero hne
  have hlen : (UInt16.ofNat (2 + (table.trackCount + 1) * 8)).toNat =
      2 + (table.trackCount + 1) * 8 := by
    rw [htable.count_eq]
    exact toNat_outputTocLength toc.descriptors
  unfold readToc
  simp only [okOr_some, Outcome.bind_ok]
  rw [if_neg (Nat.not_lt.mpr hshort), if_neg (Nat.not_lt.mpr hsize), hscan]
  simp only [Outcome.lift_ok, Outcome.bind_ok]
  rw [if_neg hcount, htable.leadout_eq, hout]
  have hbytes : 2 + (table.trackCount + 1) * 8 + 2 = 8 * (table.trackCount + 1) + 4 := by omega
  simp only [okOr_some, Outcome.bind_ok, hlen, hbytes]
  rw [writeHeader_eq]
  have hstart := outputAt_first cdConvertMsfToLba toc.descriptors htable
    (header (.ofNat (2 + (table.trackCount + 1) * 8)) table.firstTrack table.lastTrack) rfl
  unfold header at hstart ⊢
  rw [hstart, writeTracks_eq cdConvertMsfToLba toc.descriptors htable hne, Outcome.bind_ok,
    writeLeadout_eq cdConvertMsfToLba toc.descriptors htable hne, htable.count_eq]
  rfl

end

end CdDaReader
