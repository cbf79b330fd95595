import CdDaReader.Stream.Cursor
import CdDaReader.TrackBounds.Partition

/-!
# A stream refines a cursor

From the moment a stream is opened, over any operations and on any drive
that serves the disc, there is one position that its three fields agree on,
and every operation is a step of the cursor from that position to the next.
-/

namespace CdDaReader

open Rust

theorem Cursor.Step.mono {c : Cursor} (h : c.Step content p op events result q)
    (hc : ∀ p m bytes, content p m bytes → content' p m bytes) :
    c.Step content' p op events result q := by
  cases h with
  | finished => exact .finished
  | served hp hcontent hr => exact .served hp (hc _ _ _ hcontent) hr
  | failed hp hr => exact .failed hp hr
  | sought hk => exact .sought hk
  | outOfBounds hk => exact .outOfBounds hk
  | soughtTime hf hn => exact .soughtTime hf hn
  | notATime hn => exact .notATime hn
  | sector hk => exact .sector hk

theorem Cursor.Step.finished_iff {c : Cursor} (h : c.Step content p .nextChunk events result q) :
    result = .ok (.chunk none) ↔ p = c.total := by
  constructor
  · rintro rfl
    cases h
    rfl
  · rintro rfl
    cases h with
    | finished => rfl
    | served hp => exact absurd hp (Nat.lt_irrefl _)
    | failed hp => exact absurd hp (Nat.lt_irrefl _)

/-- The position that the fields of a stream over `sectors` sectors agree on. -/
structure TrackStream.StandsAt (host : Host) (self : TrackStream) (start sectors : UInt32)
    (p : Nat) : Prop where
  le_sectors : p ≤ sectors.toNat
  nextLba_eq : self.nextLba.toNat = start.toNat + p
  remainingSectors_eq : self.remainingSectors.toNat = sectors.toNat - p
  currentSector_eq : self.currentSector host = .ok (.ofNat p)

/-- From `stream` on, every run moves a cursor over the sectors of its track. -/
structure RefinesCursor (host : Host) (disc : Disc) (options : TrackStreamOptions)
    (start sectors : UInt32) (stream : TrackStream) (h : History) (cursor : List StreamOp → Nat) :
    Prop where
  initial : cursor [] = 0
  standsAt : ∀ ops, (StreamState.after host ⟨stream, h⟩ ops).stream.StandsAt host start sectors
    (cursor ops)
  step : ∀ ops op, ∃ events result,
    (op.run host).exec (StreamState.after host ⟨stream, h⟩ ops) =
      (result, StreamState.after host ⟨stream, h⟩ (ops ++ [op])) ∧
    (StreamState.after host ⟨stream, h⟩ (ops ++ [op])).history =
      (StreamState.after host ⟨stream, h⟩ ops).history ++ events ∧
    Cursor.Step ⟨start.toNat, sectors.toNat, options.sectorsPerChunk.toNat, options.format,
        options.one_le_sectorsPerChunk⟩
      (fun p m bytes => bytes = disc.sectors options.format (start.toNat + p) m)
      (cursor ops) op events result (cursor (ops ++ [op]))
  finished_iff : ∀ ops, ((StreamOp.nextChunk.run host).exec
      (StreamState.after host ⟨stream, h⟩ ops)).1 = .ok (.chunk none) ↔
    cursor ops = sectors.toNat
  unchanged : ∀ ops op fault,
    ((op.run host).exec (StreamState.after host ⟨stream, h⟩ ops)).1 = .error fault →
      (StreamState.after host ⟨stream, h⟩ (ops ++ [op])).stream =
        (StreamState.after host ⟨stream, h⟩ ops).stream

theorem StreamState.after_snoc (host : Host) (s : StreamState) (ops : List StreamOp)
    (op : StreamOp) : s.after host (ops ++ [op]) = ((op.run host).exec (s.after host ops)).2 :=
  s.after_append host ops [op]

def TrackStream.position (self : TrackStream) : Nat :=
  self.totalSectors.toNat - self.remainingSectors.toNat

theorem TrackStream.position_at {self : TrackStream} (hp : p ≤ self.totalSectors.toNat) :
    (self.atSector p).position = p := by
  show self.totalSectors.toNat - (self.atSector p).remainingSectors.toNat = p
  rw [toNat_remainingSectors_at, Nat.sub_sub_self hp]

theorem TrackStream.standsAt_at (host : Host) {self : TrackStream} (hfits : self.Fits)
    (hp : p ≤ self.totalSectors.toNat) :
    (self.atSector p).StandsAt host self.startLba self.totalSectors p := by
  obtain ⟨k, hk, rfl⟩ := currentSector_at host self hp
  refine ⟨hp, hfits.toNat_nextLba hp, self.toNat_remainingSectors_at _, ?_⟩
  rw [hk, UInt32.ofNat_toNat]

section
variable (host : Host) {self : TrackStream}

theorem StreamState.after_step (hfits : self.Fits) (h : History) (ops : List StreamOp)
    (op : StreamOp) :
    ∃ p q h' events result, p ≤ self.totalSectors.toNat ∧ q ≤ self.totalSectors.toNat ∧
      StreamState.after host ⟨self.atSector 0, h⟩ ops = ⟨self.atSector p, h'⟩ ∧
      StreamState.after host ⟨self.atSector 0, h⟩ (ops ++ [op]) =
        ⟨self.atSector q, h' ++ events⟩ ∧
      (op.run host).exec ⟨self.atSector p, h'⟩ = (result, ⟨self.atSector q, h' ++ events⟩) ∧
      self.cursor.Step self.Content p op events result q := by
  obtain ⟨events, p, hp, -, hafter⟩ := after_at host hfits (Nat.zero_le _) ops h
  obtain ⟨events', result, q, hstep, hexec⟩ := op.run_at host hfits hp (h ++ events)
  refine ⟨p, q, h ++ events, events', result, hp, hstep.le_total hp, hafter, ?_, hexec, hstep⟩
  rw [after_snoc, hafter, hexec]

theorem CdReader.refinesCursor {reader : CdReader} {disc : Disc} {options : TrackStreamOptions}
    (hserved : disc.ServedBy options.format (reader.readCdChunk options.format))
    (hfits : (TrackStream.opened reader start sectors options).Fits) (h : History) :
    RefinesCursor host disc options start sectors (.opened reader start sectors options) h
      fun ops => (StreamState.after host ⟨.opened reader start sectors options, h⟩
        ops).stream.position := by
  rw [← TrackStream.opened_atSector]
  have hrun := StreamState.after_step host hfits h
  constructor
  case initial => exact TrackStream.position_at (Nat.zero_le _)
  case standsAt =>
    intro ops
    obtain ⟨p, -, h', -, -, hp, -, hafter, -⟩ := hrun ops .currentSector
    simp only [hafter, TrackStream.position_at hp]
    exact TrackStream.standsAt_at host hfits hp
  case step =>
    intro ops op
    obtain ⟨p, q, h', events, result, hp, hq, hafter, hnext, hexec, hstep⟩ := hrun ops op
    simp only [hafter, hnext, TrackStream.position_at hp, TrackStream.position_at hq]
    exact ⟨events, result, hexec, rfl, hstep.mono fun p m bytes hcontent => hcontent disc hserved⟩
  case finished_iff =>
    intro ops
    obtain ⟨p, q, h', events, result, hp, -, hafter, -, hexec, hstep⟩ := hrun ops .nextChunk
    simp only [hafter, hexec, TrackStream.position_at hp]
    exact hstep.finished_iff
  case unchanged =>
    intro ops op fault hfault
    obtain ⟨p, q, h', events, result, -, -, hafter, hnext, hexec, hstep⟩ := hrun ops op
    rw [hafter, hexec] at hfault
    cases hfault
    rw [hafter, hnext, hstep.of_error]

end

/-- Every stream that opens refines a cursor over the sectors of its track. -/
theorem trackStream_refinesCursor {host : Host} {reader : CdReader} {disc : Disc}
    (hopen : reader.openTrackStreamWithOptions host toc trackNo options = .ok stream)
    (hserved : disc.ServedBy options.format (reader.readCdChunk options.format)) (h : History) :
    ∃ start sectors cursor, getTrackBounds host toc trackNo = .ok (start, sectors) ∧
      RefinesCursor host disc options start sectors stream h cursor := by
  obtain ⟨start, sectors, hrequest, rfl⟩ := CdReader.openTrackStreamWithOptions_ok hopen
  have hfits := TrackStream.opened_fits reader options hrequest
  exact ⟨start, sectors, _, getTrackBounds_of_request hrequest,
    CdReader.refinesCursor host hserved hfits h⟩

/-- A drive that fails its first command and serves the disc from then on. -/
def Disc.coldDrive (disc : Disc) : Drive
  | history, .readCd lba n format => disc.warmingUp format history lba n
  | _, _ => .error (.io ⟨.other, "not ready"⟩)

theorem trackStream_refinesCursor_cdExtra :
    ∃ start sectors cursor, getTrackBounds .desktop Toc.cdExtra 2 = .ok (start, sectors) ∧
      RefinesCursor .desktop (Disc.blank 7) .default start sectors
        (.opened ⟨(Disc.blank 7).coldDrive⟩ 10000 18600 .default) [] cursor :=
  trackStream_refinesCursor (by rfl) (Disc.servedBy_warmingUp _ _) []

end CdDaReader
