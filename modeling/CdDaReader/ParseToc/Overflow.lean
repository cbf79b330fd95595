import CdDaReader.ParseToc.Declared

/-!
# Addresses that overflow

The parser keeps its offset within the buffer and indexes only whole
descriptors, so the addition in `lbaToMsf` is all that can go wrong: it takes
an address above 2^32 - 151, which is how a negative one is written.
`parseToc_total_iff` says that nothing else does.
-/

namespace CdDaReader

open Rust

def walked (data : Bytes) : List Descriptor :=
  match data with
  | b0 :: b1 :: _ :: _ :: _ => descriptorsFrom data (declaredEnd b0 b1) 4
  | _ => []

def Invalid (x : Outcome IoError Toc) : Prop :=
  ∃ message, x = .error (.error ⟨.invalidData, message⟩)

/-- The states of the descriptor loop at its guard. -/
inductive Reached (host : Host) (data : Bytes) (limit : Nat) : TocScan → Prop
  | start : Reached host data limit { offset := 4, tracks := [], leadOutLba := none }
  | pass : Reached host data limit scan → scan.offset + 8 ≤ data.length → scan.offset < limit →
      parseDescriptor host data scan = .ok scan' → Reached host data limit scan'

/-- Every build returns a table or `InvalidData`. The sums in the guard of the
loop are sums of `usize`: they fit it, for a buffer of at most half its range
as every vector is. -/
structure Total (data : Bytes) : Prop where
  returns : ∀ host, (∃ toc, parseToc host data = .ok toc) ∨ Invalid (parseToc host data)
  declaredEnd_le : ∀ (host : Host) (b0 b1 : UInt8),
    declaredEnd b0 b1 ≤ host.pointerWidth.usizeMax
  offset_le : ∀ (host : Host) (limit : Nat) (scan : TocScan), 4 ≤ data.length →
    data.length ≤ host.pointerWidth.usizeMax / 2 → Reached host data limit scan →
    scan.offset + 8 ≤ host.pointerWidth.usizeMax

theorem short_or_header (data : Bytes) :
    (data.length < 4 ∧ walked data = []) ∨ ∃ b0 b1 firstTrack lastTrack body,
      data = b0 :: b1 :: firstTrack :: lastTrack :: body := by
  match data with
  | b0 :: b1 :: firstTrack :: lastTrack :: body => exact .inr ⟨_, _, _, _, _, rfl⟩
  | [] | [_] | [_, _] | [_, _, _] => exact .inl ⟨by simp, rfl⟩

theorem parseToc_header (host : Host) (b0 b1 firstTrack lastTrack : UInt8) (body : Bytes) :
    parseToc host (b0 :: b1 :: firstTrack :: lastTrack :: body) =
      decode host firstTrack lastTrack (walked (b0 :: b1 :: firstTrack :: lastTrack :: body)) :=
  parseToc_eq host b0 b1 firstTrack lastTrack body

theorem tocOf_returns (firstTrack lastTrack : UInt8) (tracks : List Track)
    (leadOutLba : Option UInt32) :
    (∃ toc, tocOf firstTrack lastTrack tracks leadOutLba = .ok toc) ∨
      Invalid (tocOf firstTrack lastTrack tracks leadOutLba) := by
  cases leadOutLba with
  | some lba => exact .inl ⟨_, rfl⟩
  | none => exact .inr ⟨_, rfl⟩

theorem decode_returns_iff (host : Host) (firstTrack lastTrack : UInt8) (ds : List Descriptor) :
    ((∃ toc, decode host firstTrack lastTrack ds = .ok toc) ∨
        Invalid (decode host firstTrack lastTrack ds)) ↔
      (host.overflowChecks && ds.any Descriptor.overflows) = false := by
  unfold decode
  cases host.overflowChecks && ds.any Descriptor.overflows with
  | true =>
    constructor
    · rintro (⟨toc, h⟩ | ⟨message, h⟩) <;> cases h
    · intro h
      cases h
  | false =>
    constructor
    · intro _
      rfl
    · intro _
      exact tocOf_returns firstTrack lastTrack _ _

theorem Reached.offset_le (hlen : 4 ≤ data.length) (h : Reached host data limit scan) :
    scan.offset ≤ data.length := by
  induction h with
  | start => exact hlen
  | pass _ hfit hlt hpass _ =>
    obtain ⟨d, -, heq⟩ := parseDescriptor_eq host hfit hlt
    rw [hpass] at heq
    split at heq <;> rename_i hover
    · cases heq
    · cases heq
      exact hfit

theorem declaredEnd_le_usizeMax (host : Host) (b0 b1 : UInt8) :
    declaredEnd b0 b1 ≤ host.pointerWidth.usizeMax := by
  have hlength := (u16FromBeBytes b0 b1).toNat_lt
  have hwidth := host.le_usizeMax
  unfold declaredEnd
  omega

/-- The parser is total exactly on the buffers whose walk meets no address
that overflows. -/
theorem parseToc_total_iff (data : Bytes) :
    Total data ↔ ∀ d ∈ walked data, d.lba.toNat + 150 < 2 ^ 32 := by
  have htotal : Total data ↔
      ∀ host, (∃ toc, parseToc host data = .ok toc) ∨ Invalid (parseToc host data) := by
    constructor
    · intro h
      exact h.returns
    · intro hreturns
      refine ⟨hreturns, declaredEnd_le_usizeMax, ?_⟩
      intro host limit scan hlen hfits hreached
      have hwidth := host.le_usizeMax
      have hoffset := hreached.offset_le hlen
      omega
  rw [htotal]
  rw [← any_overflows_iff]
  rcases short_or_header data with ⟨hlen, hnone⟩ | ⟨b0, b1, firstTrack, lastTrack, body, rfl⟩
  · rw [hnone]
    constructor
    · intro _
      rfl
    · intro _ host
      exact .inr ⟨_, parseToc_short host hlen⟩
  · constructor
    · intro h
      have hreturns := h .desktop
      rw [parseToc_header, decode_returns_iff] at hreturns
      exact hreturns
    · intro hnone host
      rw [parseToc_header, decode_returns_iff, hnone, Bool.and_false]

/-- One track, at the address of the MSF 00:00:00. -/
def negativeStart : Bytes :=
  [0, 18, 1, 1, 0, 0x10, 1, 0, 0xFF, 0xFF, 0xFF, 0x6A, 0, 0x10, 0xAA, 0, 0, 0, 0x10, 0]

theorem parseToc_total_negativeStart : ¬ Total negativeStart := by
  intro h
  have hpanic : parseToc .desktop negativeStart = .error (.panic .arithmeticOverflow) := rfl
  rcases h.returns .desktop with ⟨toc, hok⟩ | ⟨message, hinvalid⟩
  · cases hpanic.symm.trans hok
  · cases hpanic.symm.trans hinvalid

end CdDaReader
