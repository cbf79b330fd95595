import CdDaReader.ReadLoop.Rounds
import CdDaReader.Rust.Blocks

/-!
# A read returns the range it was asked for

Against a drive whose full-length answers are the disc's sectors, whatever
else it answers and when, a read that succeeds returns the blocks of its
range, each once and in order.
-/

namespace CdDaReader

open Rust

structure Disc where
  block : SectorReadFormat → Nat → Bytes
  length_block : ∀ format lba, (block format lba).length = format.sectorSize

def Disc.sectors (disc : Disc) (format : SectorReadFormat) (lba n : Nat) : Bytes :=
  blocks (disc.block format) lba n

theorem Disc.length_sectors (disc : Disc) (format : SectorReadFormat) (lba n : Nat) :
    (disc.sectors format lba n).length = n * format.sectorSize :=
  length_blocks (disc.length_block format) lba n

theorem Disc.sectors_append (disc : Disc) (format : SectorReadFormat) (lba m n : Nat) :
    disc.sectors format lba m ++ disc.sectors format (lba + m) n =
      disc.sectors format lba (m + n) :=
  blocks_append ..

/-- Whatever the history, an answer of full length is the disc's sectors. -/
def Disc.ServedBy (disc : Disc) (format : SectorReadFormat) (readChunk : ReadChunk) : Prop :=
  ∀ h lba n chunk, readChunk h lba n = .ok chunk → chunk.length = n.toNat * format.sectorSize →
    chunk = disc.sectors format lba.toNat n.toNat

/-- The same of the answers among some events. -/
def Disc.Vouches (disc : Disc) (format : SectorReadFormat) (events : List Event) : Prop :=
  ∀ lba n chunk, .readCd lba n format (.ok chunk) ∈ events →
    chunk.length = n.toNat * format.sectorSize → chunk = disc.sectors format lba.toNat n.toNat

variable {disc : Disc}

theorem Answered.vouches (hserved : disc.ServedBy format readChunk) :
    {h : History} → {events : List Event} → Answered readChunk format h events →
      disc.Vouches format events
  | _, [], _ => by intro lba n chunk hmem; cases hmem
  | h, event :: events, hans => by
    intro lba n chunk hmem hlen
    rcases List.mem_cons.mp hmem with rfl | hmem
    · obtain ⟨lba', n', hcmd, hanswer⟩ := hans.1 _ _ rfl
      cases hcmd
      exact hserved h lba n chunk hanswer.symm hlen
    · exact hans.2.vouches hserved lba n chunk hmem hlen

theorem checkChunk_ok (hc : checkChunk format lba n answer = .ok chunk) :
    answer = .ok chunk ∧ chunk.length = n.toNat * format.sectorSize := by
  cases answer with
  | error err => cases hc
  | ok got =>
    simp only [checkChunk] at hc
    split at hc
    · rename_i hlen
      cases hc
      exact ⟨rfl, hlen⟩
    · cases hc

theorem Attempts.exact (hatt : Attempts format cfg lba left n backoff events result)
    (hv : disc.Vouches format events) (hresult : result = .ok (m, chunk)) :
    chunk = disc.sectors format lba.toNat m.toNat := by
  induction hatt with
  | served hc =>
    cases hresult
    obtain ⟨rfl, hlen⟩ := checkChunk_ok hc
    exact hv _ _ _ (List.mem_singleton.mpr rfl) hlen
  | gaveUp => cases hresult
  | retried _ _ ih =>
    refine ih (fun lba' n' chunk' hmem => hv lba' n' chunk' ?_) hresult
    exact List.mem_cons_of_mem _ (List.mem_append_right _ hmem)

theorem Rounds.exact (hrounds : Rounds format cfg lba remaining events result)
    (hv : disc.Vouches format events) (hlt : remaining < 2 ^ 32) (hspan : lba + remaining ≤ 2 ^ 32)
    (hresult : result = .ok out) : out = disc.sectors format lba remaining := by
  induction hrounds generalizing out with
  | done => cases hresult; rfl
  | gaveUp => cases hresult
  | @served remaining lba events n chunk events' result hr hatt hrest ih =>
    cases result with
    | error err => cases hresult
    | ok rest =>
      cases hresult
      obtain ⟨-, hle, -⟩ := hatt.round_bounds hr hlt
      have hlba : (UInt32.ofNat lba).toNat = lba := toNat_ofNat32 (by omega)
      have hchunk := hatt.exact (fun _ _ _ hmem => hv _ _ _ (List.mem_append_left _ hmem)) rfl
      have htail := ih (fun _ _ _ hmem => hv _ _ _ (List.mem_append_right _ hmem)) (by omega)
        (by omega) rfl
      simp only
      rw [hchunk, htail, hlba, disc.sectors_append, Nat.add_sub_cancel' hle]

/-- The inversion of a successful read: it passed the checks, and performed
rounds that end in its result. -/
theorem readSectorsChunked_ok {start sectors : UInt32}
    (hok : (readSectorsChunked host format cfg readChunk start sectors).exec h = (.ok out, h')) :
    start.toNat + sectors.toNat ≤ 2 ^ 32 ∧
      ∃ events, Rounds format cfg start.toNat sectors.toNat events (.ok out) ∧
        Answered readChunk format h events ∧ h' = h ++ events := by
  obtain ⟨events, result, hreads, hexec⟩ :=
    readSectorsChunked_reads host format cfg readChunk start sectors h
  rw [hexec] at hok
  cases result with
  | error err => cases hok
  | ok result =>
    cases hok
    cases hreads with
    | accepted hr hrounds hans => exact ⟨host.span_of_accepted hr, events, hrounds, hans, rfl⟩

theorem readSectorsChunked_sectors {start sectors : UInt32}
    (hserved : disc.ServedBy format readChunk)
    (hok : (readSectorsChunked host format cfg readChunk start sectors).exec h = (.ok out, h')) :
    out = disc.sectors format start.toNat sectors.toNat := by
  obtain ⟨hspan, events, hrounds, hans, -⟩ := readSectorsChunked_ok hok
  exact hrounds.exact (hans.vouches hserved) sectors.toNat_lt hspan rfl

/-- A successful read returns the sectors of its range, and any two
successful reads of a range return the same bytes, whatever their hosts,
retry policies, drives and histories. -/
theorem readSectorsChunked_exact {start sectors : UInt32}
    (hserved : disc.ServedBy format readChunk)
    (hok : (readSectorsChunked host format cfg readChunk start sectors).exec h = (.ok out, h')) :
    out = disc.sectors format start.toNat sectors.toNat ∧
      out.length = sectors.toNat * format.sectorSize ∧
      ∀ host₂ cfg₂ readChunk₂ h₂ out₂ h₂', disc.ServedBy format readChunk₂ →
        (readSectorsChunked host₂ format cfg₂ readChunk₂ start sectors).exec h₂ =
          (.ok out₂, h₂') → out₂ = out := by
  have hout := readSectorsChunked_sectors hserved hok
  refine ⟨hout, hout ▸ disc.length_sectors .., ?_⟩
  intro host₂ cfg₂ readChunk₂ h₂ out₂ h₂' hserved₂ hok₂
  rw [hout, readSectorsChunked_sectors hserved₂ hok₂]

-- ---------------------------------------------------------------------------
-- A disc and a drive
-- ---------------------------------------------------------------------------

/-- A disc with the same byte everywhere. -/
def Disc.blank (fill : UInt8) : Disc where
  block format _ := List.replicate format.sectorSize fill
  length_block _ _ := List.length_replicate ..

/-- A drive that fails its first command and serves every later one. -/
def Disc.warmingUp (disc : Disc) (format : SectorReadFormat) : ReadChunk := fun h lba n =>
  if h.isEmpty then .error (.io ⟨.other, "not ready"⟩)
  else .ok (disc.sectors format lba.toNat n.toNat)

theorem Disc.servedBy_warmingUp (disc : Disc) (format : SectorReadFormat) :
    disc.ServedBy format (disc.warmingUp format) := by
  intro h lba n chunk hok _
  unfold warmingUp at hok
  split at hok <;> cases hok
  rfl

theorem exists_of_isOk {run : Outcome ε α × σ} (h : run.1.isOk = true) :
    ∃ a s, run = (.ok a, s) := by
  obtain ⟨_ | a, s⟩ := run
  · cases h
  · exact ⟨a, s, rfl⟩

theorem readSectorsChunked_exact_warmingUp :
    ∃ out h', (readSectorsChunked .desktop .mode1Cooked .default
        ((Disc.blank 7).warmingUp .mode1Cooked) 100 2).exec [] = (.ok out, h') ∧
      out = (Disc.blank 7).sectors .mode1Cooked 100 2 := by
  obtain ⟨out, h', hok⟩ := exists_of_isOk (show Except.isOk
    ((readSectorsChunked .desktop .mode1Cooked .default
      ((Disc.blank 7).warmingUp .mode1Cooked) 100 2).exec []).1 = true by decide +kernel)
  exact ⟨out, h', hok, (readSectorsChunked_exact (Disc.servedBy_warmingUp _ _) hok).1⟩

end CdDaReader
