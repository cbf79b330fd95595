import CdDaReader.Detect
import CdDaReader.Mmc.ReadCd

/-!
# The raw-sector parser reads data sectors

A raw sector that the parser accepts is a data sector as it lies on the disc,
and it accepts every one of them. The mode that it finds is the sector's; the
form is the sector's too where the subheader says what kind of content the
sector has.
-/

namespace CdDaReader

open Rust

/-- The mode byte of a sector with the mode. -/
def RawSectorMode.byte : RawSectorMode → UInt8
  | .mode1 => 1
  | .mode2 => 2

/-- What both copies of a subheader say, when they agree. -/
def xaFormOf (sector : Bytes) : Option XaForm :=
  if (sector.drop 16).take 4 ≠ (sector.drop 20).take 4 then none
  else if sector.getD 18 0 &&& 0x0E = 0 then none
  else if sector.getD 18 0 &&& 0x20 = 0 then some .form1
  else some .form2

def RawSectorMode.formIn : RawSectorMode → Bytes → Option XaForm
  | .mode1, _ => none
  | .mode2, sector => xaFormOf sector

theorem parseXaForm_eq {sector : Bytes} (h : 24 ≤ sector.length) :
    parseXaForm sector = .ok (xaFormOf sector) := by
  unfold parseXaForm xaFormOf
  rw [slice_ok (by decide) (by omega), slice_ok (by decide) (by omega), index_getD 0 (by omega)]
  simp only [bind, Except.bind, pure, Except.pure]
  split
  · rfl
  · split
    · rfl
    · split <;> rfl

/-- The parser on bytes of the right number. -/
theorem parseRawSector_eq {sector : Bytes} (h : sector.length = rawSectorSize) :
    parseRawSector sector =
      if sector.take 12 ≠ syncPattern then .error (.error .invalidSync)
      else if sector.getD 15 0 = 1 then .ok ⟨.mode1, none⟩
      else if sector.getD 15 0 = 2 then .ok ⟨.mode2, xaFormOf sector⟩
      else .error (.error (.unsupportedMode (sector.getD 15 0))) := by
  have hmode : (index sector modeOffset : Checked UInt8) = .ok (sector.getD 15 0) :=
    index_getD 0 (by rw [h]; decide)
  have hsync : (slice sector 0 syncPattern.length : Checked Bytes) = .ok (sector.take 12) :=
    slice_ok (Nat.zero_le _) (by rw [h]; decide)
  have hxa : parseXaForm sector = .ok (xaFormOf sector) := parseXaForm_eq (by rw [h]; decide)
  unfold parseRawSector
  rw [if_neg (not_not_intro h), hsync, hmode, hxa]
  simp only [Outcome.lift_ok, Outcome.bind_ok]
  split
  · rfl
  · split
    · rfl
    · split <;> rfl

theorem parseRawSector_total (sector : Bytes) :
    ∃ result, parseRawSector sector = ofResult result := by
  by_cases h : sector.length = rawSectorSize
  · rw [parseRawSector_eq h]
    repeat' split
    · exact ⟨.error _, rfl⟩
    · exact ⟨.ok _, rfl⟩
    · exact ⟨.ok _, rfl⟩
    · exact ⟨.error _, rfl⟩
  · refine ⟨.error (.invalidLength sector.length), ?_⟩
    unfold parseRawSector
    rw [if_pos h]
    rfl

theorem parseRawSector_length (hok : parseRawSector sector = .ok info) :
    sector.length = rawSectorSize := by
  by_contra h
  unfold parseRawSector at hok
  rw [if_pos h] at hok
  cases hok

theorem parseRawSector_ok_iff {sector : Bytes} (h : sector.length = rawSectorSize) :
    parseRawSector sector = .ok info ↔ sector.take 12 = syncPattern ∧
      sector.getD 15 0 = info.mode.byte ∧
      info.xaForm = info.mode.formIn sector := by
  rw [parseRawSector_eq h]
  obtain ⟨mode, xaForm⟩ := info
  generalize sector.getD 15 0 = byte
  by_cases hsync : sector.take 12 = syncPattern
  · rw [if_neg (not_not_intro hsync)]
    split <;> rename_i h1
    · cases mode <;> simp [hsync, h1, RawSectorMode.byte, RawSectorMode.formIn, eq_comm]
    · split <;> rename_i h2
      · cases mode <;> simp [hsync, h2, RawSectorMode.byte, RawSectorMode.formIn, eq_comm]
      · cases mode <;> simp [h1, h2, RawSectorMode.byte]
  · rw [if_pos hsync]
    simp [hsync]

-- ---------------------------------------------------------------------------
-- Sectors of the disc
-- ---------------------------------------------------------------------------

/-- What the sector says of its form: its type, if it has content at all. -/
def formOf (s : Mmc.Sector) : Option XaForm :=
  match s.type.form2 with
  | none => none
  | some form2 =>
    if (s.field .subHeader).getD 2 0 &&& 0x0E = 0 then none
    else some (if form2 then .form2 else .form1)

theorem xaFormOf_raw {s : Mmc.Sector} (h : s.type.form2 = some form2) :
    xaFormOf s.raw = formOf s := by
  obtain ⟨file, channel, submode, coding, hsub, hform⟩ := s.subHeader_eq form2 h
  obtain ⟨minute, second, frame, hraw⟩ := s.raw_data (s.type.mode_of_form2 h)
  rw [hsub] at hraw
  have h16 : s.raw.drop 16 = [file, channel, submode, coding, file, channel, submode, coding] ++
      (s.field .userData ++ s.field .edcEcc) := by rw [hraw]; rfl
  have h20 : s.raw.drop 20 = [file, channel, submode, coding] ++
      (s.field .userData ++ s.field .edcEcc) := by rw [hraw]; rfl
  have h18 : s.raw.getD 18 0 = submode := by rw [hraw]; rfl
  unfold xaFormOf formOf
  rw [h16, h20, h18, h, hsub]
  simp only [List.cons_append, List.take_succ_cons, List.take_zero, ne_eq, not_true, if_false,
    List.getD_cons_succ, List.getD_cons_zero]
  split
  · rfl
  · cases form2 <;> simp_all

theorem parseRawSector_raw {s : Mmc.Sector} {mode : RawSectorMode}
    (h : s.type.mode = some mode.byte) :
    parseRawSector s.raw = .ok ⟨mode, mode.formIn s.raw⟩ := by
  obtain ⟨minute, second, frame, hraw⟩ := s.raw_data h
  apply (parseRawSector_ok_iff s.length_raw).mpr
  refine ⟨?_, ?_, rfl⟩
  · rw [hraw]
    rfl
  · rw [hraw]
    rfl

theorem exists_raw_of_ok (hok : parseRawSector bytes = .ok info) :
    ∃ s : Mmc.Sector, s.type.mode = some info.mode.byte ∧ s.raw = bytes := by
  have hlen := parseRawSector_length hok
  obtain ⟨hsync, hbyte, -⟩ := (parseRawSector_ok_iff hlen).mp hok
  have h15 : bytes[15]? = some info.mode.byte := by
    have hlt : 15 < bytes.length := by
      rw [hlen]
      decide
    rw [← hbyte, List.getD_eq_getElem?_getD, List.getElem?_eq_getElem hlt]
    rfl
  obtain ⟨type, hmode, hform⟩ : ∃ type : Mmc.SectorType,
      type.mode = some info.mode.byte ∧ type.form2 = none := by
    cases info.mode
    · exact ⟨.mode1, rfl, rfl⟩
    · exact ⟨.mode2Formless, rfl, rfl⟩
  obtain ⟨s, htype, hraw⟩ := Mmc.Sector.exists_raw_eq hlen hsync (h15.trans hmode.symm) hform
  exact ⟨s, by rw [htype, hmode], hraw⟩

/-- The parser never panics. It accepts exactly the raw images of data
sectors, with the mode of the sector, and the form of one with a subheader. -/
theorem parseRawSector_sectors (bytes : Bytes) :
    (∃ result, parseRawSector bytes = ofResult result) ∧
    (∀ mode : RawSectorMode, (∃ xaForm, parseRawSector bytes = .ok ⟨mode, xaForm⟩) ↔
      ∃ s : Mmc.Sector, s.type.mode = some mode.byte ∧ s.raw = bytes) ∧
    ∀ s : Mmc.Sector, s.type.form2.isSome = true → s.raw = bytes →
      parseRawSector bytes = .ok ⟨.mode2, formOf s⟩ := by
  refine ⟨parseRawSector_total bytes, ?_, ?_⟩
  · intro mode
    constructor
    · rintro ⟨xaForm, hok⟩
      exact exists_raw_of_ok hok
    · rintro ⟨s, hmode, rfl⟩
      exact ⟨_, parseRawSector_raw hmode⟩
  · rintro s hform rfl
    obtain ⟨form2, hform⟩ := Option.isSome_iff_exists.mp hform
    have hmode : s.type.mode = some RawSectorMode.mode2.byte := s.type.mode_of_form2 hform
    rw [parseRawSector_raw hmode, RawSectorMode.formIn, xaFormOf_raw hform]

end CdDaReader
