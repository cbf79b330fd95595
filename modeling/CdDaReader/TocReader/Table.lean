import CdDaReader.TocReader

/-!
# The table of the descriptors

After the loop over the descriptors, the entry of a track is the last
descriptor listed for it, the counter is the number of entries, and the first
and last track are the least and the greatest of them.
-/

namespace CdDaReader

open Rust

/-- The last descriptor of a point with ADR 1. -/
def lastOf (descs : List CdTocDescriptor) (point : Nat) : Option CdTocDescriptor :=
  (descs.filter fun desc => desc.adr == 1 && desc.point.toNat == point).getLast?

def entry (descs : List CdTocDescriptor) (i : Nat) : Option CdTocDescriptor :=
  if 1 ≤ i ∧ i ≤ 99 then lastOf descs i else none

/-- The track numbers that have an entry, in order. -/
def listed (descs : List CdTocDescriptor) : List Nat :=
  (List.range 100).filter fun i => (entry descs i).isSome

theorem lastOf_snoc (descs : List CdTocDescriptor) (desc : CdTocDescriptor) (point : Nat) :
    lastOf (descs ++ [desc]) point =
      if desc.adr = 1 ∧ desc.point.toNat = point then some desc else lastOf descs point := by
  unfold lastOf
  rw [List.filter_append, List.getLast?_append]
  split <;> rename_i hmatch
  · simp [hmatch]
  · have hnone : [desc].filter (fun desc => desc.adr == 1 && desc.point.toNat == point) = [] := by
      simpa using hmatch
    rw [hnone]
    rfl

theorem entry_snoc (descs : List CdTocDescriptor) (desc : CdTocDescriptor) (i : Nat) :
    entry (descs ++ [desc]) i =
      if desc.adr = 1 ∧ desc.point.toNat = i ∧ 1 ≤ i ∧ i ≤ 99 then some desc
      else entry descs i := by
  unfold entry
  rw [lastOf_snoc]
  by_cases hrange : 1 ≤ i ∧ i ≤ 99
  · simp [hrange]
  · simp [hrange]

theorem entry_point (h : entry descs i = some desc) : desc.adr = 1 ∧ desc.point.toNat = i := by
  unfold entry at h
  split at h
  · have hmem := List.mem_of_getLast? h
    simpa using (List.mem_filter.mp hmem).2
  · cases h

theorem entry_range (h : (entry descs i).isSome = true) : 1 ≤ i ∧ i ≤ 99 := by
  unfold entry at h
  split at h
  · assumption
  · cases h

theorem mem_listed : i ∈ listed descs ↔ (entry descs i).isSome = true := by
  unfold listed
  rw [List.mem_filter, List.mem_range]
  constructor
  · rintro ⟨-, h⟩
    exact h
  · intro h
    obtain ⟨-, hle⟩ := entry_range h
    exact ⟨by omega, h⟩

theorem length_filter_range_or {p : Nat → Bool} (hj : j < n) (hp : p j = false) :
    ((List.range n).filter fun i => p i || i == j).length =
      ((List.range n).filter p).length + 1 := by
  induction n with
  | zero => cases hj
  | succ n ih =>
    rw [List.range_succ, List.filter_append, List.filter_append, List.length_append,
      List.length_append]
    rcases Nat.lt_or_eq_of_le (Nat.le_of_lt_succ hj) with hlt | rfl
    · have hne : (n == j) = false := by
        simpa using Nat.ne_of_gt hlt
      have hlast : [n].filter (fun i => p i || i == j) = [n].filter p := by
        simp [List.filter_cons, hne]
      rw [ih hlt, hlast]
      omega
    · have hbelow : (List.range j).filter (fun i => p i || i == j) = (List.range j).filter p := by
        apply List.filter_congr
        intro i hi
        have hne : (i == j) = false := by
          simpa using Nat.ne_of_lt (List.mem_range.mp hi)
        rw [hne, Bool.or_false]
      rw [hbelow]
      simp [hp]

/-- What the loop's locals are after some descriptors. -/
structure TocTable.IsOf (table : TocTable) (descs : List CdTocDescriptor) : Prop where
  length_eq : table.tracks.length = 100
  entry_eq : ∀ i < 100, table.tracks[i]? = some (entry descs i)
  leadout_eq : table.leadout = lastOf descs 0xA2
  count_eq : table.trackCount = (listed descs).length
  bounds : ∀ i ∈ listed descs, table.firstTrack.toNat ≤ i ∧ i ≤ table.lastTrack.toNat
  ends : listed descs = [] ∧ table.firstTrack = 0 ∧ table.lastTrack = 0 ∨
    table.firstTrack.toNat ∈ listed descs ∧ table.lastTrack.toNat ∈ listed descs

theorem entry_nil (i : Nat) : entry [] i = none := by simp [entry, lastOf]

theorem listed_nil : listed [] = [] := by
  apply List.filter_eq_nil_iff.mpr
  simp [entry_nil]

theorem TocTable.empty_isOf : TocTable.empty.IsOf [] where
  length_eq := List.length_replicate ..
  entry_eq i hi := by
    rw [entry_nil]
    exact List.getElem?_replicate_of_lt hi
  leadout_eq := rfl
  count_eq := by rw [listed_nil]; rfl
  bounds i hi := by rw [listed_nil] at hi; cases hi
  ends := .inl ⟨listed_nil, rfl, rfl⟩

theorem listed_snoc_other (descs : List CdTocDescriptor)
    (h : ¬ (desc.adr = 1 ∧ 1 ≤ desc.point.toNat ∧ desc.point.toNat ≤ 99)) :
    (∀ i, entry (descs ++ [desc]) i = entry descs i) ∧ listed (descs ++ [desc]) = listed descs := by
  have hentry : ∀ i, entry (descs ++ [desc]) i = entry descs i := by
    intro i
    rw [entry_snoc, if_neg]
    rintro ⟨hadr, rfl, hrange⟩
    exact h ⟨hadr, hrange⟩
  refine ⟨hentry, ?_⟩
  unfold listed
  simp only [hentry]

theorem mem_listed_snoc (hadr : desc.adr = 1) (h1 : 1 ≤ desc.point.toNat)
    (h2 : desc.point.toNat ≤ 99) :
    i ∈ listed (descs ++ [desc]) ↔ i ∈ listed descs ∨ i = desc.point.toNat := by
  rw [mem_listed, mem_listed, entry_snoc]
  by_cases hi : desc.point.toNat = i
  · subst hi
    simp [hadr, h1, h2]
  · have hne : ¬ i = desc.point.toNat := fun heq => hi heq.symm
    simp [hi, hne]

theorem length_listed_snoc (hadr : desc.adr = 1) (h1 : 1 ≤ desc.point.toNat)
    (h2 : desc.point.toNat ≤ 99) :
    (listed (descs ++ [desc])).length =
      if (entry descs desc.point.toNat).isNone then (listed descs).length + 1
      else (listed descs).length := by
  have hsome : ∀ i, (entry (descs ++ [desc]) i).isSome =
      ((entry descs i).isSome || i == desc.point.toNat) := by
    intro i
    rw [Bool.eq_iff_iff, ← mem_listed, mem_listed_snoc hadr h1 h2, mem_listed]
    simp
  unfold listed
  simp only [hsome]
  cases hentry : entry descs desc.point.toNat with
  | none => exact length_filter_range_or (by omega) (by rw [hentry]; rfl)
  | some previous =>
    have hsame : ∀ i, ((entry descs i).isSome || i == desc.point.toNat) =
        (entry descs i).isSome := by
      intro i
      by_cases hi : i = desc.point.toNat
      · simp [hi, hentry]
      · simp [hi]
    simp only [hsame, Option.isNone_some, Bool.false_eq_true, ↓reduceIte]

theorem TocTable.IsOf.ends_mem {table : TocTable} (h : table.IsOf descs) (hi : i ∈ listed descs) :
    table.firstTrack.toNat ∈ listed descs ∧ table.lastTrack.toNat ∈ listed descs := by
  rcases h.ends with ⟨hnil, -⟩ | hends
  · rw [hnil] at hi
    cases hi
  · exact hends

theorem TocTable.IsOf.firstTrack_ne {table : TocTable} (h : table.IsOf descs)
    (hi : i ∈ listed descs) : table.firstTrack ≠ 0 := by
  intro hzero
  have hmem := (h.ends_mem hi).1
  rw [hzero] at hmem
  exact absurd (entry_range (mem_listed.mp hmem)).1 (by decide)

theorem TocTable.IsOf.add_track {table : TocTable} (h : table.IsOf descs) (hadr : desc.adr = 1)
    (h1 : 1 ≤ desc.point.toNat) (h2 : desc.point.toNat ≤ 99) :
    ∃ table', table.add desc = .ok table' ∧ table'.IsOf (descs ++ [desc]) := by
  have hpoint : 1 ≤ desc.point ∧ desc.point ≤ 99 :=
    ⟨UInt8.le_iff_toNat_le.mpr h1, UInt8.le_iff_toNat_le.mpr h2⟩
  have hlt : desc.point.toNat < table.tracks.length := by
    rw [h.length_eq]
    omega
  unfold add
  rw [if_neg (not_not_intro hadr), if_pos hpoint, index_ok (h.entry_eq _ (by omega)), update_ok hlt]
  refine ⟨_, rfl, ?_⟩
  constructor
  case length_eq => rw [List.length_set, h.length_eq]
  case entry_eq =>
    intro i hi
    rw [List.getElem?_set, entry_snoc]
    by_cases heq : desc.point.toNat = i
    · subst heq
      simp [hlt, hadr, h1, h2]
    · simp [heq, h.entry_eq i hi]
  case leadout_eq =>
    have hne : ¬ (desc.adr = 1 ∧ desc.point.toNat = 0xA2) := by
      rintro ⟨-, heq⟩
      omega
    rw [lastOf_snoc, if_neg hne]
    exact h.leadout_eq
  case count_eq =>
    rw [length_listed_snoc hadr h1 h2, ← h.count_eq]
  case bounds =>
    intro i hi
    simp only [UInt8.lt_iff_toNat_lt]
    rcases (mem_listed_snoc hadr h1 h2).mp hi with hold | rfl
    · obtain ⟨hlo, hhi⟩ := h.bounds i hold
      have hfirst := h.firstTrack_ne hold
      simp only [hfirst, false_or]
      split <;> split <;> omega
    · split <;> split <;> omega
  case ends =>
    right
    simp only [mem_listed_snoc hadr h1 h2, UInt8.lt_iff_toNat_lt]
    rcases h.ends with ⟨hnil, hfirst, hlast⟩ | ⟨hfirst, hlast⟩
    · rw [hfirst, hlast]
      simp only [true_or, ↓reduceIte, or_true, true_and]
      have hlt : (0 : UInt8).toNat < desc.point.toNat := h1
      rw [if_pos hlt]
      exact .inr rfl
    · constructor
      · split
        · exact .inr rfl
        · exact .inl hfirst
      · split
        · exact .inr rfl
        · exact .inl hlast

theorem TocTable.IsOf.add {table : TocTable} (h : table.IsOf descs) (desc : CdTocDescriptor) :
    ∃ table', table.add desc = .ok table' ∧ table'.IsOf (descs ++ [desc]) := by
  by_cases htrack : desc.adr = 1 ∧ 1 ≤ desc.point.toNat ∧ desc.point.toNat ≤ 99
  · obtain ⟨hadr, h1, h2⟩ := htrack
    exact h.add_track hadr h1 h2
  · obtain ⟨hentry, hlisted⟩ := listed_snoc_other descs htrack
    -- a descriptor that is not of a track can only set the lead-out
    have hother : ∀ leadout, leadout = lastOf (descs ++ [desc]) 0xA2 →
        ({ table with leadout } : TocTable).IsOf (descs ++ [desc]) := by
      intro leadout hleadout
      refine ⟨h.length_eq, ?_, hleadout, ?_, ?_, ?_⟩
      · intro i hi
        rw [hentry]
        exact h.entry_eq i hi
      · rw [hlisted]
        exact h.count_eq
      · rw [hlisted]
        exact h.bounds
      · rw [hlisted]
        exact h.ends
    unfold TocTable.add
    by_cases hadr : desc.adr = 1
    · have hpoint : ¬ (1 ≤ desc.point ∧ desc.point ≤ 99) := by
        rintro ⟨h1, h2⟩
        exact htrack ⟨hadr, UInt8.le_iff_toNat_le.mp h1, UInt8.le_iff_toNat_le.mp h2⟩
      rw [if_neg (not_not_intro hadr), if_neg hpoint]
      by_cases hout : desc.point = 0xA2
      · rw [if_pos hout]
        refine ⟨_, rfl, hother _ ?_⟩
        rw [lastOf_snoc, if_pos ⟨hadr, by rw [hout]; rfl⟩]
      · rw [if_neg hout]
        refine ⟨_, rfl, hother _ ?_⟩
        rw [lastOf_snoc, if_neg, h.leadout_eq]
        rintro ⟨-, heq⟩
        exact hout (UInt8.toNat_inj.mp heq)
    · rw [if_pos hadr]
      refine ⟨_, rfl, hother _ ?_⟩
      rw [lastOf_snoc, if_neg fun hmatch => hadr hmatch.1, h.leadout_eq]

/-- The loop over the descriptors never writes outside the table. -/
theorem TocTable.exists_isOf (descs : List CdTocDescriptor) :
    ∃ table, (descs.foldlM TocTable.add TocTable.empty : Checked TocTable) = .ok table ∧
      table.IsOf descs :=
  foldlM_ok (fun done (table : TocTable) => table.IsOf done) (fun _ _ desc h => h.add desc)
    TocTable.empty_isOf descs

end CdDaReader
