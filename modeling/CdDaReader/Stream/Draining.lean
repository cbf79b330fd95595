import CdDaReader.Stream.Refinement

/-!
# Draining a stream

Calling `next_chunk` until it reports the end, and again after every
failure, yields the bytes of the whole track in chunks of the chosen size.
Opening a stream and reading the track refuse the same requests.
-/

namespace CdDaReader

open Rust

/-- `next_chunk` is called until it returns `Ok(None)`, whatever fails in
between; `chunks` are the chunks it returned. -/
inductive Drained (host : Host) : StreamState → List Bytes → StreamState → Prop
  | finished (h : (TrackStream.nextChunk host).exec s = (.ok none, s')) : Drained host s [] s'
  | failed (h : (TrackStream.nextChunk host).exec s = (.error fault, s'))
      (rest : Drained host s' chunks s'') : Drained host s chunks s''
  | served (h : (TrackStream.nextChunk host).exec s = (.ok (some chunk), s'))
      (rest : Drained host s' chunks s'') : Drained host s (chunk :: chunks) s''

/-- How many chunks the sectors from a position on make. -/
def Cursor.chunksFrom (c : Cursor) (p : Nat) : Nat := (c.total - p + c.size - 1) / c.size

theorem Cursor.chunksFrom_total (c : Cursor) : c.chunksFrom c.total = 0 := by
  have hsize := c.one_le_size
  unfold chunksFrom
  exact Nat.div_eq_of_lt (by omega)

theorem Cursor.chunksFrom_next (c : Cursor) (hp : p < c.total) :
    c.chunksFrom p = c.chunksFrom (p + c.next p) + 1 := by
  have hsize := c.one_le_size
  unfold chunksFrom next
  rcases Nat.le_total (c.total - p) c.size with hle | hge
  · have hlast : c.total - (p + (c.total - p)) + c.size - 1 < c.size := by omega
    rw [Nat.min_eq_left hle, Nat.div_eq_of_lt hlast]
    exact Nat.div_eq_of_lt_le (by omega) (by omega)
  · rw [Nat.min_eq_right hge, ← Nat.add_div_right _ (by omega)]
    congr 1
    omega

section
variable {host : Host} {self : TrackStream} {disc : Disc}

/-- What a call of `next_chunk` tells about the position it was made at. -/
theorem TrackStream.nextChunk_inv (hfits : self.Fits) (hp : p ≤ self.totalSectors.toNat)
    (hs : s.stream = self.atSector p)
    (hcall : (nextChunk host).exec s = (result, s')) :
    (p = self.totalSectors.toNat ∧ result = .ok none) ∨
      (p < self.totalSectors.toNat ∧ s'.stream = self.atSector p ∧
        ∃ err, result = .error (.error err)) ∨
      (p < self.totalSectors.toNat ∧ s'.stream = self.atSector (p + self.cursor.next p) ∧
        ∃ bytes, result = .ok (some bytes) ∧ self.Content p (self.cursor.next p) bytes) := by
  obtain ⟨stream, history⟩ := s
  replace hs : stream = self.atSector p := hs
  rw [hs] at hcall
  rcases Nat.lt_or_ge p self.totalSectors.toNat with hlt | hge
  · obtain ⟨events, answer, -, -, hcontent, hexec⟩ := nextChunk_at host hfits hlt history
    have heq := hcall.symm.trans hexec
    cases answer with
    | error err =>
      cases heq
      exact .inr (.inl ⟨hlt, rfl, err, rfl⟩)
    | ok bytes =>
      cases heq
      exact .inr (.inr ⟨hlt, rfl, bytes, rfl, hcontent bytes rfl⟩)
  · obtain rfl : p = self.totalSectors.toNat := Nat.le_antisymm hp hge
    cases hcall.symm.trans (nextChunk_end host self history)
    exact .inl ⟨rfl, rfl⟩

theorem Drained.at_sector (h : Drained host s chunks s') (hfits : self.Fits)
    (hp : p ≤ self.totalSectors.toNat) (hs : s.stream = self.atSector p)
    (hserved : disc.ServedBy self.options.format (self.reader.readCdChunk self.options.format)) :
    chunks.flatten = disc.sectors self.options.format (self.startLba.toNat + p)
        (self.totalSectors.toNat - p) ∧
      chunks.length = self.cursor.chunksFrom p := by
  induction h generalizing p with
  | finished hcall =>
    rcases TrackStream.nextChunk_inv hfits hp hs hcall with
      ⟨rfl, -⟩ | ⟨-, -, err, heq⟩ | ⟨-, -, bytes, heq, -⟩
    · rw [Nat.sub_self]
      exact ⟨rfl, self.cursor.chunksFrom_total.symm⟩
    · cases heq
    · cases heq
  | failed hcall rest ih =>
    rcases TrackStream.nextChunk_inv hfits hp hs hcall with
      ⟨-, heq⟩ | ⟨-, hs', -⟩ | ⟨-, -, bytes, heq, -⟩
    · cases heq
    · exact ih hp hs'
    · cases heq
  | served hcall rest ih =>
    rcases TrackStream.nextChunk_inv hfits hp hs hcall with
      ⟨-, heq⟩ | ⟨-, -, err, heq⟩ | ⟨hlt, hs', bytes, heq, hcontent⟩
    · cases heq
    · cases heq
    · cases heq
      have hle : p + self.cursor.next p ≤ self.totalSectors.toNat := self.cursor.add_next_le hp
      obtain ⟨hflat, hlen⟩ := ih hle hs'
      have hrest : self.totalSectors.toNat - p =
          self.cursor.next p + (self.totalSectors.toNat - (p + self.cursor.next p)) := by
        omega
      refine ⟨?_, ?_⟩
      · rw [List.flatten_cons, hflat, hcontent disc hserved, ← Nat.add_assoc, disc.sectors_append,
          ← hrest]
      · rw [List.length_cons, hlen, ← self.cursor.chunksFrom_next hlt]

end

-- ---------------------------------------------------------------------------
-- Streams and whole tracks
-- ---------------------------------------------------------------------------

/-- The buffer for some sectors has a size that is a `usize`, and can be
reserved. -/
def Host.CanBuffer (host : Host) (format : SectorReadFormat) (sectors : Nat) : Prop :=
  sectors * format.sectorSize ≤ host.pointerWidth.usizeMax ∧
    host.canReserve (sectors * format.sectorSize) = true

theorem Host.CanBuffer.accepted {host : Host} (h : host.CanBuffer format sectors)
    (hspan : start + sectors ≤ 2 ^ 32) : host.rejection format start sectors = none := by
  unfold rejection
  rw [if_neg (Nat.not_lt.mpr hspan), if_neg (Nat.not_lt.mpr h.1), if_pos h.2]

/-- Reading a range that has sectors and a buffer issues a command. -/
theorem CdReader.readSectorRange_issues {host : Host} {reader : CdReader} {options : ReadOptions}
    (hbuf : host.CanBuffer options.format sectors.toNat)
    (hspan : start.toNat + sectors.toNat ≤ 2 ^ 32) (hpos : 0 < sectors.toNat)
    (hexec : (reader.readSectorRange host start sectors options).exec h = (result, h ++ events)) :
    ∃ cmd answer, .command cmd answer ∈ events := by
  obtain ⟨events', answer, hrounds, -, hrun⟩ := readSectorsChunked_rounds host options.retry
    (reader.readCdChunk options.format) (hbuf.accepted hspan) h
  have heq := congrArg Prod.snd (hrun.symm.trans hexec)
  rw [← List.append_cancel_left heq]
  exact hrounds.issues hpos

/-- The streaming and the whole-track interface agree on a track: they refuse
the same requests without a command, and what drains from a stream is what a
successful read of the track returns. -/
theorem trackStream_agrees (host : Host) (reader : CdReader) (toc : Toc) (trackNo : UInt8)
    (options : TrackStreamOptions) (retry : RetryConfig)
    (hbuf : ∀ start sectors, getTrackBounds host toc trackNo = .ok (start, sectors) →
      host.CanBuffer options.format sectors.toNat) :
    (∀ err h, reader.openTrackStreamWithOptions host toc trackNo options = .error (.error err) ↔
      ∃ events, (reader.readTrackWithOptions host toc trackNo ⟨options.format, retry⟩).exec h =
          (.error (.error err), h ++ events) ∧
        ∀ cmd answer, .command cmd answer ∉ events) ∧
    ∀ disc : Disc, disc.ServedBy options.format (reader.readCdChunk options.format) →
      ∀ stream h chunks s, reader.openTrackStreamWithOptions host toc trackNo options = .ok stream →
        Drained host ⟨stream, h⟩ chunks s →
          (∀ h₂ out h₂', (reader.readTrackWithOptions host toc trackNo
            ⟨options.format, retry⟩).exec h₂ = (.ok out, h₂') → chunks.flatten = out) ∧
          chunks.flatten.length = stream.totalSectors.toNat * options.format.sectorSize ∧
          chunks.length = (stream.totalSectors.toNat + options.sectorsPerChunk.toNat - 1) /
            options.sectorsPerChunk.toNat := by
  constructor
  · intro err h
    rw [CdReader.openTrackStreamWithOptions_eq, CdReader.readTrackWithOptions_exec]
    cases hrequest : trackRequest host toc trackNo options.format with
    | error fault =>
      constructor
      · intro hopen
        cases hopen
        exact ⟨[], by rw [List.append_nil], fun _ _ => List.not_mem_nil⟩
      · rintro ⟨events, hread, -⟩
        cases congrArg Prod.fst hread
        rfl
    | ok range =>
      obtain ⟨start, sectors⟩ := range
      obtain ⟨i, track, hgranted⟩ := trackRequest_ok hrequest
      have hbuf' := hbuf start sectors (getTrackBounds_of_request hrequest)
      constructor
      · intro hopen
        cases hopen
      · rintro ⟨events, hread, hsilent⟩
        obtain ⟨cmd, answer, hmem⟩ := CdReader.readSectorRange_issues hbuf'
          (Nat.le_of_lt hgranted.span_lt) hgranted.sectors_pos hread
        exact absurd hmem (hsilent cmd answer)
  · intro disc hserved stream h chunks s hopen hdrained
    obtain ⟨start, sectors, hrequest, rfl⟩ := CdReader.openTrackStreamWithOptions_ok hopen
    have hfits := TrackStream.opened_fits reader options hrequest
    obtain ⟨hflat, hlen⟩ := hdrained.at_sector hfits (Nat.zero_le _)
      (TrackStream.opened_atSector ..).symm hserved
    refine ⟨?_, ?_, hlen⟩
    · intro h₂ out h₂' hread
      rw [CdReader.readTrackWithOptions_exec, hrequest] at hread
      rw [hflat]
      exact (readSectorsChunked_sectors hserved hread).symm
    · rw [hflat]
      exact disc.length_sectors ..

-- ---------------------------------------------------------------------------
-- Streams that can be drained
-- ---------------------------------------------------------------------------

theorem exists_drained {host : Host} {self : TrackStream} {disc : Disc} (hfits : self.Fits)
    (hbuf : ∀ n ≤ self.totalSectors.toNat, host.CanBuffer self.options.format n)
    (hp : p ≤ self.totalSectors.toNat)
    (hs : disc.ServesFrom self.options.format (self.reader.readCdChunk self.options.format) h) :
    ∃ chunks s, Drained host ⟨self.atSector p, h⟩ chunks s := by
  generalize hleft : self.totalSectors.toNat - p = left
  induction left using Nat.strongRecOn generalizing p h with
  | ind left ih =>
    rcases Nat.lt_or_ge p self.totalSectors.toNat with hlt | hge
    · have hone : 1 ≤ self.cursor.next p := self.cursor.one_le_next hlt
      have hle : p + self.cursor.next p ≤ self.totalSectors.toNat := self.cursor.add_next_le hp
      obtain ⟨events, result, hread, -, -, hexec⟩ := TrackStream.nextChunk_at host hfits hlt h
      have hspan : self.startLba.toNat + self.totalSectors.toNat < 2 ^ 32 := hfits
      have hstart : (UInt32.ofNat (self.startLba.toNat + p)).toNat = self.startLba.toNat + p := by
        exact toNat_ofNat32 (by omega)
      have hlen : (UInt32.ofNat (self.cursor.next p)).toNat = self.cursor.next p := by
        exact toNat_ofNat32 (by omega)
      have haccepted : host.rejection self.options.format
          (UInt32.ofNat (self.startLba.toNat + p)).toNat
          (UInt32.ofNat (self.cursor.next p)).toNat = none := by
        rw [hstart, hlen]
        exact (hbuf _ (by omega)).accepted (by omega)
      obtain ⟨out, h', hok⟩ := readSectorsChunked_served hs self.options.retry haccepted
      have heq := hread.symm.trans hok
      cases result with
      | error err => cases heq
      | ok bytes =>
        obtain ⟨chunks, s, hrest⟩ := ih _ (by omega) hle (hs.append events) rfl
        exact ⟨bytes :: chunks, s, .served hexec hrest⟩
    · obtain rfl : p = self.totalSectors.toNat := Nat.le_antisymm hp hge
      exact ⟨[], _, .finished (TrackStream.nextChunk_end host self h)⟩

theorem Disc.coldDrive_servesFrom (disc : Disc) (format : SectorReadFormat) (event : Event) :
    disc.ServesFrom format ((⟨disc.coldDrive⟩ : CdReader).readCdChunk format) [event] := by
  intro events lba n
  rfl

theorem Host.desktop_canBuffer (hn : n < 2 ^ 32) : Host.desktop.CanBuffer format n := by
  refine ⟨?_, rfl⟩
  show n * format.sectorSize ≤ 2 ^ 64 - 1
  have hsize : format.sectorSize ≤ 2352 := by cases format <;> decide
  have hle := Nat.mul_le_mul (Nat.le_of_lt hn) hsize
  omega

theorem trackStream_agrees_cdExtra :
    let reader : CdReader := ⟨(Disc.blank 7).coldDrive⟩
    (∃ chunks s, Drained .desktop ⟨.opened reader 10000 18600 .default, [.slept .zero]⟩ chunks s ∧
      chunks.flatten.length = 18600 * 2352 ∧ chunks.length = 689) ∧
    ∃ events, (reader.readTrack .desktop Toc.cdExtra 3).exec [] =
        (.error (.error (.trackFormatMismatch 3 false .audio)), events) ∧
      ∀ cmd answer, .command cmd answer ∉ events := by
  intro reader
  have hfits : (TrackStream.opened reader 10000 18600 .default).Fits := by
    unfold TrackStream.Fits
    decide
  have hbuf : ∀ n ≤ (18600 : UInt32).toNat, Host.desktop.CanBuffer .audio n := by
    intro n hn
    exact Host.desktop_canBuffer (Nat.lt_of_le_of_lt hn (18600 : UInt32).toNat_lt)
  obtain ⟨chunks, s, hdrained⟩ := exists_drained hfits hbuf (Nat.zero_le _)
    ((Disc.blank 7).coldDrive_servesFrom .audio (.slept .zero))
  rw [TrackStream.opened_atSector] at hdrained
  obtain ⟨-, hagrees⟩ := trackStream_agrees .desktop reader Toc.cdExtra 2 .default .default
    fun start sectors _ => Host.desktop_canBuffer sectors.toNat_lt
  obtain ⟨-, hlength, hcount⟩ := hagrees (Disc.blank 7) (Disc.servedBy_warmingUp _ _)
    (.opened reader 10000 18600 .default) _ chunks s (by rfl) hdrained
  obtain ⟨hrefused, -⟩ := trackStream_agrees .desktop reader Toc.cdExtra 3 .default .default
    fun start sectors _ => Host.desktop_canBuffer sectors.toNat_lt
  obtain ⟨events, hread, hsilent⟩ := (hrefused (.trackFormatMismatch 3 false .audio) []).mp (by rfl)
  have hchunks : (18600 + 27 - 1) / 27 = 689 := by decide
  exact ⟨⟨chunks, s, hdrained, hlength, hcount.trans hchunks⟩, events, hread, hsilent⟩

end CdDaReader
