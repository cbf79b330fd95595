import CdDaReader.Platform
import CdDaReader.ReadLoop.Range

/-!
# The commands of a read on the wire

The count of a command has four bytes in the crate and three on the wire. The
cap on the first command of a round bounds every one after it, so the three
are enough on every run, and the buffer of a command keeps to 64 KiB.
-/

namespace CdDaReader

open Rust

theorem Attempts.sectors_le (hatt : Attempts format cfg lba left n backoff events result)
    (hmem : .readCd lba' m format' answer ∈ events) : m.toNat ≤ n.toNat := by
  induction hatt with
  | served | gaveUp =>
    cases List.mem_singleton.mp hmem
    exact Nat.le_refl _
  | @retried n _ _ _ _ _ _ _ _ ih =>
    rcases List.mem_cons.mp hmem with heq | hmem
    · cases heq
      exact Nat.le_refl _
    · rcases List.mem_append.mp hmem with hmem | hmem
      · exact absurd hmem (command_not_mem_pauses _ _ _)
      · exact Nat.le_trans (ih hmem) (cfg.shrink_le n)

theorem Rounds.sectors_le (hrounds : Rounds format cfg lba remaining events result)
    (hlt : remaining < 2 ^ 32) (hmem : .readCd lba' m format' answer ∈ events) :
    m.toNat ≤ format.maxSectorsPerXfer.toNat := by
  induction hrounds with
  | done => cases hmem
  | gaveUp hr hatt =>
    exact Nat.le_trans (hatt.sectors_le hmem) (format.firstChunk_bounds hr hlt).2.2
  | served hr hatt _ ih =>
    rcases List.mem_append.mp hmem with hmem | hmem
    · exact Nat.le_trans (hatt.sectors_le hmem) (format.firstChunk_bounds hr hlt).2.2
    · exact ih (by omega) hmem

/-- What a command of a read is on the wire: its block says all that the loop
meant, and its buffer is of one sector or more and at most 64 KiB. -/
structure OnWire (host : Host) (format : SectorReadFormat) (cmd : Command) (lba sectors : UInt32) :
    Prop where
  cmd_eq : cmd = .readCd lba sectors format
  decodes : DecodesTo cmd.cdb lba sectors format
  buffer_fits : (host.mulUsize sectors.toNat format.sectorSize : Checked Nat) = .ok cmd.outputLen
  sector_le : format.sectorSize ≤ cmd.outputLen
  buffer_le : cmd.outputLen ≤ 65536

theorem onWire_of_capped (host : Host) (format : SectorReadFormat) (lba : UInt32)
    (hone : 1 ≤ n.toNat) (hcap : n.toNat ≤ format.maxSectorsPerXfer.toNat) :
    OnWire host format (.readCd lba n format) lba n := by
  have hbuffer : n.toNat * format.sectorSize ≤ 65536 :=
    Nat.le_trans (Nat.mul_le_mul_right _ hcap) format.maxTransfer_le
  have hwidth := host.le_usizeMax
  have hlt : n.toNat < 2 ^ 24 := by
    have hmax : format.maxSectorsPerXfer.toNat ≤ 32 := by cases format <;> decide
    omega
  constructor
  case cmd_eq => rfl
  case decodes => exact buildReadCdCdb_decodesTo lba hlt format
  case buffer_fits => exact host.mulUsize_ok (by omega)
  case sector_le => exact Nat.le_mul_of_pos_left _ hone
  case buffer_le => exact hbuffer

/-- Every command of every run says on the wire what the loop meant, and
below 2^24 sectors no two requests have the same block. -/
theorem readSectorsChunked_onWire (host : Host) (format : SectorReadFormat) (cfg : RetryConfig)
    (readChunk : ReadChunk) (start sectors : UInt32) (h : History) :
    (∃ events result,
      (readSectorsChunked host format cfg readChunk start sectors).exec h =
        (ofResult result, h ++ events) ∧
      ∀ cmd answer, .command cmd answer ∈ events → ∃ lba n, OnWire host format cmd lba n) ∧
    ∀ lba lba' n n' format format', n.toNat < 2 ^ 24 → n'.toNat < 2 ^ 24 →
      buildReadCdCdb lba n format = buildReadCdCdb lba' n' format' →
        lba = lba' ∧ n = n' ∧ format = format' := by
  refine ⟨?_, fun _ _ _ _ _ _ hn hn' heq => buildReadCdCdb_inj hn hn' heq⟩
  obtain ⟨events, result, hreads, hexec⟩ :=
    readSectorsChunked_reads host format cfg readChunk start sectors h
  refine ⟨events, result, hexec, ?_⟩
  intro cmd answer hmem
  cases hreads with
  | refused => cases hmem
  | accepted hr hrounds =>
    have hwithin := hrounds.readsWithin sectors.toNat_lt (host.span_of_accepted hr)
    obtain ⟨lba, n, rfl, hone, -⟩ := hwithin cmd answer hmem
    have hcap := hrounds.sectors_le sectors.toNat_lt hmem
    exact ⟨lba, n, onWire_of_capped host format lba hone hcap⟩

/-- A run of sixty sectors, and two commands for one sector in different
formats. -/
theorem readSectorsChunked_onWire_audio :
    (∃ events result,
      (readSectorsChunked .desktop .audio .default ((Disc.blank 7).warmingUp .audio) 100 60).exec
        [] = (ofResult result, events) ∧
      ∀ cmd answer, .command cmd answer ∈ events → ∃ lba n, OnWire .desktop .audio cmd lba n) ∧
    buildReadCdCdb 16 1 .mode1Cooked ≠ buildReadCdCdb 16 1 .mode2Raw := by
  obtain ⟨hwire, hinj⟩ := readSectorsChunked_onWire .desktop .audio .default
    ((Disc.blank 7).warmingUp .audio) 100 60 []
  refine ⟨hwire, ?_⟩
  intro heq
  obtain ⟨-, -, hformat⟩ := hinj 16 16 1 1 .mode1Cooked .mode2Raw (by decide) (by decide) heq
  cases hformat

end CdDaReader
