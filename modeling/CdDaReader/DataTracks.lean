import CdDaReader.Program
import CdDaReader.Reader.ReadToc

/-!
# Reading data tracks raw and cooked

A cooked read returns of each sector what a raw read returns between the
header and the error correction. The program of `examples/read_data_track.rs`
checks this on the volume descriptor of the first data track; on a drive that
does what its platform documents the check cannot fail, and the verdict is
whether the sector has the descriptor's signature.
-/

namespace CdDaReader

open Rust

variable {medium : Medium}

-- ---------------------------------------------------------------------------
-- Sector by sector
-- ---------------------------------------------------------------------------

/-- The bytes of the i-th sector of a read. -/
def SectorReadFormat.sectorAt (format : SectorReadFormat) (bytes : Bytes) (i : Nat) : Bytes :=
  (bytes.drop (i * format.sectorSize)).take format.sectorSize

theorem Medium.Holds.sectorAt_eq (h : medium.Holds format lba n bytes) (hi : i < n) :
    format.sectorAt bytes i = (medium.sectors (lba + i)).select format.wants := by
  rw [h.bytes_eq]
  exact blocks_slice (fun a hlo hhi => format.length_select (h.admits a hlo hhi)) hi

theorem Medium.Holds.mode1 (h : medium.Holds .mode1Cooked lba n bytes) (hi : i < n) :
    (medium.sectors (lba + i)).type = .mode1 := by
  have hadmits := h.admits (lba + i) (Nat.le_add_right ..) (Nat.add_lt_add_left hi lba)
  exact (beq_iff_eq.mp hadmits).symm

/-- Whatever the platforms and the policies, a cooked read of a range and a
raw one, in either raw format, agree on every sector. -/
theorem readSectorRange_cooked {platform other : Platform} {rawOptions : ReadOptions}
    {cookedOptions : ReadOptions} (hhonours : platform.Honours medium)
    (hhonours' : other.Honours medium) (hcooked : cookedOptions.format = .mode1Cooked)
    (hraw : rawOptions.format = .mode1Raw ∨ rawOptions.format = .mode2Raw)
    (hok : (platform.reader.readSectorRange host start sectors cookedOptions).exec h =
      (.ok cooked, h'))
    (hok' : (other.reader.readSectorRange host₂ start sectors rawOptions).exec h₂ =
      (.ok raw, h₂')) :
    cooked.length = sectors.toNat * 2048 ∧ raw.length = sectors.toNat * 2352 ∧
      ∀ i < sectors.toNat, SectorReadFormat.mode1Cooked.sectorAt cooked i =
        ((rawOptions.format.sectorAt raw i).drop 16).take 2048 := by
  have hholds := CdReader.readSectorRange_holds hhonours.in_drive hok
  have hholds' := CdReader.readSectorRange_holds hhonours'.in_drive hok'
  rw [hcooked] at hholds
  have hwants : rawOptions.format.wants = Mmc.Field.inOrder := by
    rcases hraw with h | h <;> rw [h] <;> rfl
  have hsize : rawOptions.format.sectorSize = 2352 := by
    rcases hraw with h | h <;> rw [h] <;> rfl
  refine ⟨hholds.length_eq, hsize ▸ hholds'.length_eq, ?_⟩
  intro i hi
  have huser := Mmc.Sector.drop_raw_mode1 _ (hholds.mode1 hi)
  rw [hholds.sectorAt_eq hi, hholds'.sectorAt_eq hi, hwants]
  refine Eq.trans ?_ huser.symm
  simp [Mmc.Sector.select, SectorReadFormat.wants, Mmc.Field.inOrder]

theorem readSectorRange_cooked_zeros : ∃ cooked raw h h',
    (Platform.zeros.reader.readSectorRange .desktop 20 1
      (ReadOptions.default.withFormat .mode1Cooked)).exec [] = (.ok cooked, h) ∧
    (Platform.zeros.reader.readSectorRange .desktop 20 1
      (ReadOptions.default.withFormat .mode2Raw)).exec [] = (.ok raw, h') ∧
    cooked.length = 2048 ∧ raw.length = 2352 ∧
    ∀ i < (1 : UInt32).toNat, SectorReadFormat.mode1Cooked.sectorAt cooked i =
      ((SectorReadFormat.mode2Raw.sectorAt raw i).drop 16).take 2048 := by
  obtain ⟨cooked, h, hcooked⟩ := exists_of_isOk (show Except.isOk
    ((Platform.zeros.reader.readSectorRange .desktop 20 1
      (ReadOptions.default.withFormat .mode1Cooked)).exec []).1 = true by decide +kernel)
  obtain ⟨raw, h', hraw⟩ := exists_of_isOk (show Except.isOk
    ((Platform.zeros.reader.readSectorRange .desktop 20 1
      (ReadOptions.default.withFormat .mode2Raw)).exec []).1 = true by decide +kernel)
  exact ⟨cooked, raw, h, h', hcooked, hraw, readSectorRange_cooked Platform.zeros_honours
    Platform.zeros_honours rfl (.inr rfl) hcooked hraw⟩

-- ---------------------------------------------------------------------------
-- The program
-- ---------------------------------------------------------------------------

/-- What the program prints. -/
inductive VerifyLine
  | track (number : UInt8) (startLba pvdLba : UInt32)
  | sync (ok : Bool)
  | mode (mode : UInt8)
  | signature (ok : Bool)
  | cooked (ok : Bool)
  | allPassed
  | rawOnly (mode : UInt8)
  | rawVerified
  deriving DecidableEq, Repr

abbrev Verify (α : Type) := Program VerifyLine α

def pvdSectorOffset : UInt32 := 16

def syncOk (raw : Bytes) : Checked Bool := do
  if (← index raw 0) ≠ 0x00 then return false
  else if !(← slice raw 1 11).all (· == 0xFF) then return false
  else return (← index raw 11) == 0x00

/-- The type byte and `b"CD001"`. -/
def isoOk (rawUser : Bytes) : Checked Bool := do
  if (← index rawUser 0) ≠ 0x01 then return false
  else return (← slice rawUser 1 6) == [0x43, 0x44, 0x30, 0x30, 0x31]

/-- Where the user data of a raw sector begins. -/
def userOffset (mode : UInt8) : Outcome ProgramError Nat :=
  if mode = 1 then return 16
  else if mode = 2 then return 24
  else fail (ProgramError.text s!"unexpected sector mode {mode.toNat}")

def noDataTrack : ProgramError :=
  .text "no data track on this disc (need a mixed-mode / enhanced CD)"

def checksFailed : ProgramError :=
  .text "one or more verification checks FAILED — see output above"

/-- The cooked read of the sector, against the user data of the raw one. -/
def checkCooked (host : Host) (reader : CdReader) (pvdLba : UInt32) (rawUser : Bytes) :
    Verify Bool := do
  let cooked ← Program.call (reader.readSectorRange host pvdLba 1
    (ReadOptions.default.withFormat .mode1Cooked))
  if cooked.length ≠ 2048 then
    fail (ProgramError.text s!"cooked read returned {cooked.length} bytes, expected 2048")
  else
    Program.print (.cooked (cooked == rawUser))
    return cooked == rawUser

/-- The reads of the descriptor and the checks. -/
def verifyPvd (host : Host) (reader : CdReader) (pvdLba : UInt32) : Verify Unit := do
  let raw ← Program.call (reader.readSectorRange host pvdLba 1
    (ReadOptions.default.withFormat .mode1Raw))
  if raw.length ≠ 2352 then
    fail (ProgramError.text s!"raw read returned {raw.length} bytes, expected 2352")
  else
    let sync ← syncOk raw
    let mode ← index raw 15
    Program.print (.sync sync)
    Program.print (.mode mode)
    let offset ← userOffset mode
    let rawUser ← slice raw offset (offset + 2048)
    let iso ← isoOk rawUser
    Program.print (.signature iso)
    -- the cooked format is specifically Mode 1, so only cross-check it there
    if mode = 1 then
      let matchesRaw ← checkCooked host reader pvdLba rawUser
      if sync && iso && matchesRaw then Program.print .allPassed else fail checksFailed
    else
      Program.print (.rawOnly mode)
      if sync && iso then Program.print .rawVerified else fail checksFailed

/-- The program, from an open reader on. -/
def verifyDataTrack (host : Host) (reader : CdReader) : Verify Unit := do
  let toc ← Program.call (reader.readToc host)
  let dataTrack ← okOr (toc.tracks.find? fun track => !track.isAudio) noDataTrack
  let pvdLba ← add32 host.overflowChecks dataTrack.startLba pvdSectorOffset
  Program.print (.track dataTrack.number dataTrack.startLba pvdLba)
  verifyPvd host reader pvdLba

-- ---------------------------------------------------------------------------
-- The checks on the disc's sector
-- ---------------------------------------------------------------------------

/-- The user data begin like a volume descriptor. -/
def IsPvd (s : Mmc.Sector) : Prop :=
  (s.field .userData).take 6 = [0x01, 0x43, 0x44, 0x30, 0x30, 0x31]

instance (s : Mmc.Sector) : Decidable (IsPvd s) := inferInstanceAs (Decidable (_ = _))

theorem syncOk_eq (rest : Bytes) : syncOk (Mmc.syncPattern ++ rest) = .ok true := by
  have hslice : (slice (Mmc.syncPattern ++ rest) 1 11 : Checked Bytes) =
      .ok (List.replicate 10 0xFF) :=
    slice_ok (by decide) (by rw [List.length_append]; exact Nat.le_add_right_of_le (by decide))
  unfold syncOk
  rw [hslice, index_ok (show (Mmc.syncPattern ++ rest)[0]? = some 0 from rfl),
    index_ok (show (Mmc.syncPattern ++ rest)[11]? = some 0 from rfl)]
  rfl

theorem isoOk_eq {data : Bytes} (h : 6 ≤ data.length) :
    isoOk data = .ok (decide (data.take 6 = [0x01, 0x43, 0x44, 0x30, 0x30, 0x31])) := by
  unfold isoOk
  rw [slice_ok (by decide) h, index_getD 0 (by omega)]
  match data, h with
  | a :: b :: c :: d :: e :: f :: rest, _ =>
    simp only [bind, Except.bind, pure, Except.pure, List.getD_cons_zero, List.drop_succ_cons,
      List.drop_zero, List.take_succ_cons, List.take_zero]
    by_cases ha : a = 1 <;> simp [ha, beq_eq_decide]

/-- A Mode 1 sector passes the checks of its length, sync pattern and mode. -/
theorem rawSector_checks {sector : Mmc.Sector} (htype : sector.type = .mode1) :
    sector.raw.length = 2352 ∧ syncOk sector.raw = .ok true ∧
      (index sector.raw 15 : Checked UInt8) = .ok 1 ∧
      (slice sector.raw 16 (16 + 2048) : Checked Bytes) = .ok (sector.field .userData) ∧
      isoOk (sector.field .userData) = .ok (decide (IsPvd sector)) := by
  have hlen := sector.length_raw
  have hmode : sector.type.mode = some 1 := by
    rw [htype]
    rfl
  have hdata : (sector.field .userData).length = 2048 := by
    rw [Mmc.Sector.length_field, htype]
    rfl
  obtain ⟨minute, second, frame, hparts⟩ := sector.raw_data hmode
  refine ⟨hlen, ?_, ?_, ?_, isoOk_eq (by omega)⟩
  · rw [hparts]
    exact syncOk_eq _
  · exact index_ok (by rw [hparts]; rfl)
  · rw [slice_ok (by decide) (by omega)]
    exact congrArg _ (sector.drop_raw_mode1 htype)

/-- A sector that was read is of the format's type, and these are its fields. -/
theorem RangeRead.sector
    (hread : RangeRead medium host reader format lba 1 h events (.ok bytes)) :
    format.expected.admits (medium.sectors lba).type = true ∧
      bytes = (medium.sectors lba).select format.wants := by
  have hholds := hread.data bytes rfl
  refine ⟨hholds.admits lba (Nat.le_refl _) (Nat.lt_succ_self _), ?_⟩
  rw [hholds.bytes_eq]
  simp [Mmc.Disc.transfer, blocks, SectorReadFormat.command]

-- ---------------------------------------------------------------------------
-- How the program ends
-- ---------------------------------------------------------------------------

section
variable (medium : Medium) (host : Host) (reader : CdReader)

/-- How the checks of a sector end, what they print and what happened: one of
the two reads fails, or the verdict is whether the sector has the signature. -/
inductive ChecksPvd (pvdLba : UInt32) (h : History) :
    Except ProgramError Unit → List VerifyLine → History → Prop
  | rawUnread (hfails : ReadFails host .mode1Raw (reader.readCdChunk .mode1Raw) pvdLba.toNat 1 h
        events err) :
      ChecksPvd pvdLba h (.error (.reader err)) [] (h ++ events)
  | cookedUnread (htype : (medium.sectors pvdLba.toNat).type = .mode1)
      (hraw : ReadsWithin .mode1Raw pvdLba.toNat (pvdLba.toNat + 1) before)
      (hfails : ReadFails host .mode1Cooked (reader.readCdChunk .mode1Cooked) pvdLba.toNat 1
        (h ++ before) events err) :
      ChecksPvd pvdLba h (.error (.reader err))
        [.sync true, .mode 1, .signature (IsPvd (medium.sectors pvdLba.toNat))]
        (h ++ before ++ events)
  | passed (htype : (medium.sectors pvdLba.toNat).type = .mode1)
      (hpvd : IsPvd (medium.sectors pvdLba.toNat))
      (hraw : ReadsWithin .mode1Raw pvdLba.toNat (pvdLba.toNat + 1) before)
      (hcooked : ReadsWithin .mode1Cooked pvdLba.toNat (pvdLba.toNat + 1) after) :
      ChecksPvd pvdLba h (.ok ())
        [.sync true, .mode 1, .signature true, .cooked true, .allPassed] (h ++ before ++ after)
  | failed (htype : (medium.sectors pvdLba.toNat).type = .mode1)
      (hpvd : ¬ IsPvd (medium.sectors pvdLba.toNat))
      (hraw : ReadsWithin .mode1Raw pvdLba.toNat (pvdLba.toNat + 1) before)
      (hcooked : ReadsWithin .mode1Cooked pvdLba.toNat (pvdLba.toNat + 1) after) :
      ChecksPvd pvdLba h (.error checksFailed)
        [.sync true, .mode 1, .signature false, .cooked true] (h ++ before ++ after)

def Medium.dataTrack (medium : Medium) : Option Track :=
  medium.layout.toc.tracks.find? fun track => !track.isAudio

/-- How the program ends; the checks are of the sixteenth sector of the first
data track. -/
inductive Verifies (h : History) :
    Except ProgramError Unit → List VerifyLine → History → Prop
  | unread (htable : medium.ReadsTable (reader.drive h .readToc) (.error err)) :
      Verifies h (.error (.reader err)) [] (h ++ [.command .readToc (reader.drive h .readToc)])
  | missing (htable : medium.ReadsTable (reader.drive h .readToc) (.ok medium.layout.toc))
      (htrack : medium.dataTrack = none) :
      Verifies h (.error noDataTrack) [] (h ++ [.command .readToc (reader.drive h .readToc)])
  | checked (htable : medium.ReadsTable (reader.drive h .readToc) (.ok medium.layout.toc))
      (htrack : medium.dataTrack = some track)
      (hlba : pvdLba.toNat = track.startLba.toNat + 16)
      (hchecks : ChecksPvd medium host reader pvdLba
        (h ++ [.command .readToc (reader.drive h .readToc)]) result lines history) :
      Verifies h result (.track track.number track.startLba pvdLba :: lines) history

end

theorem checkCooked_medium (host : Host) {reader : CdReader} (hin : medium.In reader.drive)
    (htype : (medium.sectors pvdLba.toNat).type = .mode1) (s : ProgramState VerifyLine) :
    ∃ events, ReadsWithin .mode1Cooked pvdLba.toNat (pvdLba.toNat + 1) events ∧
      ((checkCooked host reader pvdLba ((medium.sectors pvdLba.toNat).field .userData)).exec s =
        (.ok true, ⟨s.history ++ events, s.files, s.printed ++ [.cooked true]⟩) ∨
      ∃ err,
        (checkCooked host reader pvdLba ((medium.sectors pvdLba.toNat).field .userData)).exec s =
          (.error (.error (.reader err)), ⟨s.history ++ events, s.files, s.printed⟩) ∧
        ReadFails host .mode1Cooked (reader.readCdChunk .mode1Cooked) pvdLba.toNat 1 s.history
          events err) := by
  obtain ⟨events, result, hexec, hread⟩ := reader.readSectorRange_medium host hin pvdLba 1
    (ReadOptions.default.withFormat .mode1Cooked) s.history
  refine ⟨events, hread.within, ?_⟩
  unfold checkCooked
  cases result with
  | error err => exact .inr ⟨err, exec_bind_error (Program.call_exec hexec), hread.fails err rfl⟩
  | ok cooked =>
    have hdata : cooked = (medium.sectors pvdLba.toNat).field .userData := by
      rw [hread.sector.2]
      simp [Mmc.Sector.select, ReadOptions.withFormat, SectorReadFormat.wants, Mmc.Field.inOrder]
    have hlen : cooked.length = 2048 := by
      rw [hdata, Mmc.Sector.length_field, htype]
      rfl
    rw [exec_bind_ok (Program.call_exec hexec), if_neg (not_not_intro hlen), hdata,
      beq_self_eq_true]
    exact .inl rfl

/-- A raw read in Mode 1 only succeeds on a Mode 1 sector, so the checks of
the length, the mode and the cooked data pass. -/
theorem verifyPvd_medium (host : Host) {reader : CdReader} (hin : medium.In reader.drive)
    (pvdLba : UInt32) (s : ProgramState VerifyLine) :
    ∃ result lines history,
      (verifyPvd host reader pvdLba).exec s =
        (ofResult result, ⟨history, s.files, s.printed ++ lines⟩) ∧
      ChecksPvd medium host reader pvdLba s.history result lines history := by
  obtain ⟨events, read, hexec, hread⟩ := reader.readSectorRange_medium host hin pvdLba 1
    (ReadOptions.default.withFormat .mode1Raw) s.history
  unfold verifyPvd
  cases read with
  | error err =>
    refine ⟨.error (.reader err), [], _, exec_bind_error (Program.call_exec hexec) |>.trans ?_,
      .rawUnread (hread.fails err rfl)⟩
    rw [List.append_nil]
    rfl
  | ok raw =>
    obtain ⟨hadmits, hraw⟩ := hread.sector
    have htype : (medium.sectors pvdLba.toNat).type = .mode1 := (beq_iff_eq.mp hadmits).symm
    obtain rfl : raw = (medium.sectors pvdLba.toNat).raw := hraw
    obtain ⟨hlen, hsync, hmode, hslice, hiso⟩ := rawSector_checks htype
    rw [exec_bind_ok (Program.call_exec hexec), if_neg (not_not_intro hlen),
      exec_bind_checked hsync, exec_bind_checked hmode, exec_bind_ok (Program.print_exec _ _),
      exec_bind_ok (Program.print_exec _ _), exec_bind_ok (exec_lift (userOffset 1) _),
      exec_bind_checked hslice, exec_bind_checked hiso, exec_bind_ok (Program.print_exec _ _),
      if_pos rfl]
    obtain ⟨after, hafter, hcheck | ⟨err, hcheck, hfails⟩⟩ := checkCooked_medium host hin htype
      ⟨s.history ++ events, s.files, s.printed ++ [.sync true] ++ [.mode 1] ++
        [.signature (IsPvd (medium.sectors pvdLba.toNat))]⟩
    · rw [exec_bind_ok hcheck]
      by_cases hpvd : IsPvd (medium.sectors pvdLba.toNat)
      · refine ⟨.ok (), _, s.history ++ events ++ after, ?_,
          .passed htype hpvd hread.within hafter⟩
        simp [hpvd]
      · refine ⟨.error checksFailed, _, s.history ++ events ++ after, ?_,
          .failed htype hpvd hread.within hafter⟩
        simp [hpvd]
        rfl
    · rw [exec_bind_error hcheck]
      refine ⟨.error (.reader err), _, _, ?_, .cookedUnread htype hread.within hfails⟩
      simp

/-- On any platform the program ends. It fails where the table or a read of
the sector fails, or where the disc has no data track; else its verdict, and
what it prints, is what the disc says: the checks of lengths, of the sync
pattern, of the mode and of the cooked data against the raw never fail. -/
theorem verifyDataTrack_platforms {platform : Platform} (hhonours : platform.Honours medium)
    (host : Host) (h : History) :
    ∃ result s', (verifyDataTrack host platform.reader).exec ⟨h, [], []⟩ = (ofResult result, s') ∧
      s'.files = [] ∧ Verifies medium host platform.reader h result s'.printed s'.history := by
  have hin := hhonours.in_drive
  unfold verifyDataTrack
  rcases Program.readToc_exec VerifyLine host hin h with ⟨err, hcall, htable⟩ | ⟨hcall, htable⟩
  · exact ⟨.error (.reader err), _, exec_bind_error hcall, rfl, .unread htable⟩
  rw [exec_bind_ok hcall]
  cases htrack : medium.layout.toc.tracks.find? fun track => !track.isAudio with
  | none => exact ⟨.error noDataTrack, _, rfl, rfl, .missing htable htrack⟩
  | some track =>
    have hlt := medium.layout.startLba_lt (List.mem_of_find?_eq_some htrack)
    have h16 : pvdSectorOffset.toNat = 16 := rfl
    have hsum : track.startLba.toNat + pvdSectorOffset.toNat < 2 ^ 32 := by omega
    obtain ⟨result, lines, history, hexec, hchecks⟩ := verifyPvd_medium host hin
      (track.startLba + pvdSectorOffset)
      ⟨h ++ [.command .readToc (platform.reader.drive h .readToc)], [],
        [.track track.number track.startLba (track.startLba + pvdSectorOffset)]⟩
    refine ⟨result, ⟨history, [], _⟩, ?_, rfl,
      .checked htable htrack (by rw [toNat_add32 hsum, h16]) hchecks⟩
    rw [okOr_some, exec_bind_ok (exec_lift _ _), exec_bind_checked (add32_ok hsum),
      exec_bind_ok (Program.print_exec _ _)]
    exact hexec

theorem verifyDataTrack_platforms_zeros :
    ∃ result s', (verifyDataTrack .desktop Platform.zeros.reader).exec ⟨[], [], []⟩ =
        (ofResult result, s') ∧
      s'.files = [] ∧
      Verifies Medium.zeros .desktop Platform.zeros.reader [] result s'.printed s'.history :=
  verifyDataTrack_platforms Platform.zeros_honours .desktop []

end CdDaReader
