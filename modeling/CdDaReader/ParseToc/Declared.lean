import CdDaReader.ParseToc

/-!
# What a response declares and what the parser reads

The loop asks of a descriptor that it lies in the buffer, but only that it
starts in the declared response. A descriptor that straddles the declared end
is read with bytes beyond it; `parseToc_declared_iff` says when that shows.
-/

namespace CdDaReader

open Rust

section
variable (data : Bytes) (limit : Nat)

/-- The descriptors that end within the declared response. -/
def declared : List Descriptor := (descriptors (data.drop 4)).take ((limit - 4) / 8)

/-- The descriptor that starts in the declared response and ends after it,
if the buffer has the whole of it. -/
def straddling : Option Descriptor :=
  if (limit - 4) % 8 = 0 then none else (descriptors (data.drop 4))[(limit - 4) / 8]?

end

theorem descriptors_take : (body : Bytes) → (n : Nat) →
    descriptors (body.take n) = (descriptors body).take (n / 8)
  | b0 :: b1 :: b2 :: b3 :: b4 :: b5 :: b6 :: b7 :: rest, n => by
    rcases Nat.lt_or_ge n 8 with hlt | hge
    · have hnil : descriptors ((b0 :: b1 :: b2 :: b3 :: b4 :: b5 :: b6 :: b7 :: rest).take n) =
          [] := by
        apply List.eq_nil_of_length_eq_zero
        rw [length_descriptors, List.length_take]
        omega
      rw [hnil, Nat.div_eq_of_lt hlt, List.take_zero]
    · obtain ⟨m, rfl⟩ := Nat.exists_eq_add_of_le' hge
      rw [Nat.add_div_right m (by decide)]
      simp only [List.take_succ_cons, descriptors, descriptors_take rest m]
  | [], n | [_], n | [_, _], n | [_, _, _], n | [_, _, _, _], n | [_, _, _, _, _], n
  | [_, _, _, _, _, _], n | [_, _, _, _, _, _, _], n => by
    rw [List.eq_nil_of_length_eq_zero (l := descriptors _) (by
      rw [length_descriptors, List.length_take]
      simp only [List.length_cons, List.length_nil]
      omega)]
    simp [descriptors]

theorem descriptorsFrom_eq (data : Bytes) (limit : Nat) :
    descriptorsFrom data limit 4 = declared data limit ++ (straddling data limit).toList := by
  unfold descriptorsFrom declared straddling
  split <;> rename_i hmod
  · have hcount : (limit - 4 + 7) / 8 = (limit - 4) / 8 := by omega
    rw [hcount]
    simp
  · have hcount : (limit - 4 + 7) / 8 = (limit - 4) / 8 + 1 := by omega
    rw [hcount, List.take_add_one]

theorem descriptorsFrom_take (data : Bytes) (limit : Nat) :
    descriptorsFrom (data.take limit) limit 4 = declared data limit := by
  have hle : (limit - 4) / 8 ≤ (limit - 4 + 7) / 8 := by omega
  unfold descriptorsFrom declared
  rw [List.drop_take, descriptors_take, List.take_take, Nat.min_eq_right hle]

/-- Both are the same table, or both are refused as invalid data. -/
def SameOrInvalid (x y : Outcome IoError Toc) : Prop :=
  (∃ toc, x = .ok toc ∧ y = .ok toc) ∨
    ∃ m m', x = .error (.error ⟨.invalidData, m⟩) ∧ y = .error (.error ⟨.invalidData, m'⟩)

/-- A straddling descriptor that does not show: a lead-out that repeats the
last declared one, or a track where no lead-out is declared. -/
def Unnoticed (ds : List Descriptor) (d : Descriptor) : Prop :=
  if d.isLeadOut then leadOutOf ds = some d.lba else ∀ e ∈ ds, e.isLeadOut = false

theorem leadOutOf_eq_none_iff (ds : List Descriptor) :
    leadOutOf ds = none ↔ ∀ e ∈ ds, e.isLeadOut = false := by
  simp [leadOutOf]

theorem SameOrInvalid.refl_tocOf (firstTrack lastTrack : UInt8) (tracks : List Track)
    (leadOutLba : Option UInt32) :
    SameOrInvalid (tocOf firstTrack lastTrack tracks leadOutLba)
      (tocOf firstTrack lastTrack tracks leadOutLba) := by
  cases leadOutLba with
  | some lba => exact .inl ⟨_, rfl, rfl⟩
  | none => exact .inr ⟨_, _, rfl, rfl⟩

theorem sameOrInvalid_leadOut {firstTrack lastTrack : UInt8} {tracks : List Track}
    {lba : UInt32} {leadOutLba : Option UInt32} :
    SameOrInvalid (tocOf firstTrack lastTrack tracks (some lba))
        (tocOf firstTrack lastTrack tracks leadOutLba) ↔
      leadOutLba = some lba := by
  constructor
  · rintro (⟨toc, hx, hy⟩ | ⟨m, m', hx, -⟩)
    · cases leadOutLba with
      | none => cases hy
      | some lba' =>
        cases hx
        cases hy
        rfl
    · cases hx
  · rintro rfl
    exact .refl_tocOf ..

theorem sameOrInvalid_track {firstTrack lastTrack : UInt8} {tracks : List Track} {track : Track}
    {leadOutLba : Option UInt32} :
    SameOrInvalid (tocOf firstTrack lastTrack (tracks ++ [track]) leadOutLba)
        (tocOf firstTrack lastTrack tracks leadOutLba) ↔
      leadOutLba = none := by
  constructor
  · rintro (⟨toc, hx, hy⟩ | ⟨m, m', hx, -⟩)
    · cases leadOutLba with
      | none => rfl
      | some lba =>
        have htoc := Except.ok.inj (hx.trans hy.symm)
        have hlen := congrArg (fun toc : Toc => toc.tracks.length) htoc
        simp at hlen
    · cases leadOutLba with
      | none => rfl
      | some lba => cases hx
  · rintro rfl
    exact .inr ⟨_, _, rfl, rfl⟩

theorem sameOrInvalid_straddling (firstTrack lastTrack : UInt8) (ds : List Descriptor)
    (d : Descriptor) :
    SameOrInvalid (tocOf firstTrack lastTrack (tracksOf (ds ++ [d])) (leadOutOf (ds ++ [d])))
        (tocOf firstTrack lastTrack (tracksOf ds) (leadOutOf ds)) ↔
      Unnoticed ds d := by
  unfold Unnoticed
  rw [leadOutOf_append, leadOutOf_singleton, tracksOf_append]
  cases hout : d.isLeadOut with
  | true =>
    have htracks : tracksOf [d] = [] := by simp [tracksOf, hout]
    rw [htracks, List.append_nil]
    exact sameOrInvalid_leadOut
  | false =>
    have htracks : tracksOf [d] = [d.track] := by simp [tracksOf, hout]
    rw [htracks]
    simp only [Bool.false_eq_true, ↓reduceIte, Option.none_or]
    rw [← leadOutOf_eq_none_iff]
    exact sameOrInvalid_track

/-- The straddling descriptor, if any, is unnoticed, and in a build with
overflow checks no descriptor walked over has an address that overflows. -/
def OnlyDeclaredMatters (host : Host) (data : Bytes) (limit : Nat) : Prop :=
  (host.overflowChecks = true → ∀ d ∈ declared data limit ++ (straddling data limit).toList,
    d.lba.toNat + 150 < 2 ^ 32) ∧
  ∀ d, straddling data limit = some d → Unnoticed (declared data limit) d

theorem any_overflows_iff (ds : List Descriptor) :
    ds.any Descriptor.overflows = false ↔ ∀ d ∈ ds, d.lba.toNat + 150 < 2 ^ 32 := by
  simp only [List.any_eq_false, Descriptor.overflows, decide_eq_true_eq, Nat.not_le]

theorem not_sameOrInvalid_panic (p : Panic) (y : Outcome IoError Toc) :
    ¬ SameOrInvalid (.error (.panic p)) y := by
  rintro (⟨toc, hx, -⟩ | ⟨m, m', hx, -⟩) <;> cases hx

theorem sameOrInvalid_decode (host : Host) (firstTrack lastTrack : UInt8) (data : Bytes)
    (limit : Nat) :
    SameOrInvalid (decode host firstTrack lastTrack (descriptorsFrom data limit 4))
        (decode host firstTrack lastTrack (declared data limit)) ↔
      OnlyDeclaredMatters host data limit := by
  unfold decode OnlyDeclaredMatters
  rw [descriptorsFrom_eq]
  cases hover : host.overflowChecks &&
      (declared data limit ++ (straddling data limit).toList).any Descriptor.overflows with
  | true =>
    obtain ⟨hchecks, hany⟩ := Bool.and_eq_true_iff.mp hover
    constructor
    · intro h
      exact absurd h (not_sameOrInvalid_panic _ _)
    · rintro ⟨hnone, -⟩
      rw [(any_overflows_iff _).mpr (hnone hchecks)] at hany
      cases hany
  | false =>
    have hnone : host.overflowChecks = true →
        ∀ d ∈ declared data limit ++ (straddling data limit).toList,
          d.lba.toNat + 150 < 2 ^ 32 := by
      intro hchecks
      rw [hchecks, Bool.true_and] at hover
      exact (any_overflows_iff _).mp hover
    have hdeclared : (host.overflowChecks && (declared data limit).any Descriptor.overflows) =
        false := by
      rw [List.any_append, Bool.and_or_distrib_left] at hover
      exact (Bool.or_eq_false_iff.mp hover).1
    simp only [hdeclared, Bool.false_eq_true, ↓reduceIte]
    cases hstraddling : straddling data limit with
    | none =>
      simp only [Option.toList_none, List.append_nil]
      constructor
      · intro _
        refine ⟨?_, ?_⟩
        · simpa [hstraddling] using hnone
        · intro d hd
          cases hd
      · intro _
        exact .refl_tocOf ..
    | some d =>
      simp only [Option.toList_some, Option.some.injEq, forall_eq']
      rw [sameOrInvalid_straddling]
      rw [hstraddling] at hnone
      constructor
      · intro hunnoticed
        exact ⟨hnone, hunnoticed⟩
      · rintro ⟨-, hunnoticed⟩
        exact hunnoticed

/-- On any response of four bytes or more, parsing the buffer and parsing no
more than its declared bytes agree exactly when only the declared bytes
matter. -/
theorem parseToc_declared_iff (host : Host) (b0 b1 firstTrack lastTrack : UInt8) (body : Bytes) :
    SameOrInvalid (parseToc host (b0 :: b1 :: firstTrack :: lastTrack :: body))
        (parseToc host ((b0 :: b1 :: firstTrack :: lastTrack :: body).take
          (min (b0 :: b1 :: firstTrack :: lastTrack :: body).length (declaredEnd b0 b1)))) ↔
      OnlyDeclaredMatters host (b0 :: b1 :: firstTrack :: lastTrack :: body)
        (declaredEnd b0 b1) := by
  rw [Nat.min_comm, ← List.take_take, List.take_length, parseToc_eq, ← sameOrInvalid_decode]
  have hcut := descriptorsFrom_take (b0 :: b1 :: firstTrack :: lastTrack :: body)
    (declaredEnd b0 b1)
  rcases Nat.lt_or_ge (declaredEnd b0 b1) 4 with hlt | hge
  · -- the header is cut, and neither walk has a descriptor
    have hzero : (declaredEnd b0 b1 - 4 + 7) / 8 = 0 := by omega
    have hnone : descriptorsFrom (b0 :: b1 :: firstTrack :: lastTrack :: body)
        (declaredEnd b0 b1) 4 = [] := by
      rw [descriptorsFrom, hzero, List.take_zero]
    have hdeclared : declared (b0 :: b1 :: firstTrack :: lastTrack :: body) (declaredEnd b0 b1) =
        [] := by
      rw [descriptorsFrom_eq] at hnone
      exact (List.append_eq_nil_iff.mp hnone).1
    rw [parseToc_short host (by rw [List.length_take]; omega), hnone, hdeclared]
    have hempty : decode host firstTrack lastTrack [] =
        .error (.error ⟨.invalidData, "Didn't find 0xAA"⟩) := by
      simp [decode, leadOutOf, tocOf]
    rw [hempty]
    constructor <;> exact fun _ => .inr ⟨_, _, rfl, rfl⟩
  · obtain ⟨n, hn⟩ := Nat.exists_eq_add_of_le' hge
    rw [hn] at hcut ⊢
    simp only [List.take_succ_cons] at hcut ⊢
    rw [parseToc_eq, ← hn]
    rw [← hn] at hcut
    rw [hcut]

/-- A response that declares 16 bytes, up to the middle of its lead-out. -/
def midLeadOut : Bytes :=
  [0, 14, 1, 1, 0, 0x14, 1, 0, 0, 0, 0, 0, 0, 0x14, 0xAA, 0, 0, 4, 0x93, 0xE0]

theorem parseToc_declared_midLeadOut :
    ¬ SameOrInvalid (parseToc .desktop midLeadOut)
      (parseToc .desktop (midLeadOut.take (min midLeadOut.length (declaredEnd 0 14)))) := by
  have hfull : ∃ toc, parseToc .desktop midLeadOut = .ok toc := ⟨_, rfl⟩
  have hcut : parseToc .desktop
      (midLeadOut.take (min midLeadOut.length (declaredEnd 0 14))) =
        .error (.error ⟨.invalidData, "Didn't find 0xAA"⟩) := rfl
  obtain ⟨toc, hfull⟩ := hfull
  rintro (⟨toc', -, hy⟩ | ⟨m, m', hx, -⟩)
  · cases hcut.symm.trans hy
  · cases hfull.symm.trans hx

end CdDaReader
