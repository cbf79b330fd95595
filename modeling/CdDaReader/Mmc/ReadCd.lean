import CdDaReader.Rust.Blocks
import CdDaReader.Rust.Words
import Mathlib.Algebra.Order.Ring.Nat

/-!
# Sectors and the READ CD command

A sector is a type and, in the order in which they lie on the disc, the
fields of that type. READ CD names the one type of sector it is for, or any,
and the fields that it wants; a drive transfers these fields of each sector,
one sector after the other. `decodeReadCd` is what a drive makes of the
command's block.
-/

namespace Mmc

open Rust

inductive SectorType
  | cdda
  | mode1
  | mode2Formless
  | mode2Form1
  | mode2Form2
  deriving DecidableEq, Repr

inductive Field
  | sync
  | header
  | subHeader
  | userData
  | edcEcc
  deriving DecidableEq, Repr

/-- The fields in the order of the disc. -/
def Field.inOrder : List Field := [.sync, .header, .subHeader, .userData, .edcEcc]

def SectorType.fieldLength : SectorType → Field → Nat
  | .cdda, .userData => 2352
  | .cdda, _ => 0
  | _, .sync => 12
  | _, .header => 4
  | .mode1, .subHeader | .mode2Formless, .subHeader => 0
  | .mode2Form1, .subHeader | .mode2Form2, .subHeader => 8
  | .mode1, .userData | .mode2Form1, .userData => 2048
  | .mode2Formless, .userData => 2336
  | .mode2Form2, .userData => 2328
  | .mode1, .edcEcc => 288
  | .mode2Form1, .edcEcc => 280
  | .mode2Formless, .edcEcc | .mode2Form2, .edcEcc => 0

/-- Where a field begins. -/
def SectorType.offset (type : SectorType) : Field → Nat
  | .sync => 0
  | .header => type.fieldLength .sync
  | .subHeader => type.fieldLength .sync + type.fieldLength .header
  | .userData =>
    type.fieldLength .sync + type.fieldLength .header + type.fieldLength .subHeader
  | .edcEcc =>
    type.fieldLength .sync + type.fieldLength .header + type.fieldLength .subHeader +
      type.fieldLength .userData

theorem SectorType.offset_add_fieldLength_le (type : SectorType) (f : Field) :
    type.offset f + type.fieldLength f ≤ 2352 := by
  cases type <;> cases f <;> decide

theorem SectorType.offset_edcEcc (type : SectorType) :
    type.offset .edcEcc + type.fieldLength .edcEcc = 2352 := by
  cases type <;> rfl

/-- The mode byte of a data sector. -/
def SectorType.mode : SectorType → Option UInt8
  | .cdda => none
  | .mode1 => some 1
  | .mode2Formless | .mode2Form1 | .mode2Form2 => some 2

/-- The form of a sector with a subheader, as bit 5 of its submode has it. -/
def SectorType.form2 : SectorType → Option Bool
  | .mode2Form1 => some false
  | .mode2Form2 => some true
  | .cdda | .mode1 | .mode2Formless => none

theorem SectorType.mode_of_form2 (type : SectorType) {isForm2 : Bool}
    (h : type.form2 = some isForm2) : type.mode = some 2 := by
  cases type with
  | mode2Form1 | mode2Form2 => rfl
  | cdda | mode1 | mode2Formless => cases h

def syncPattern : List UInt8 :=
  [0x00, 0xFF, 0xFF, 0xFF, 0xFF, 0xFF, 0xFF, 0xFF, 0xFF, 0xFF, 0xFF, 0x00]

/-- A sector whose fields agree with its type. The four bytes of a subheader
are there twice. -/
structure Sector where
  type : SectorType
  field : Field → List UInt8
  length_field : ∀ f, (field f).length = type.fieldLength f
  sync_eq : type.mode.isSome = true → field .sync = syncPattern
  mode_eq : ∀ mode, type.mode = some mode → (field .header)[3]? = some mode
  subHeader_eq : ∀ form2, type.form2 = some form2 → ∃ file channel submode coding,
    field .subHeader = [file, channel, submode, coding, file, channel, submode, coding] ∧
      (submode &&& 0x20 ≠ 0 ↔ form2 = true)

namespace Sector

/-- The wanted fields of a sector. -/
def select (s : Sector) (wants : List Field) : List UInt8 :=
  (Field.inOrder.filter (· ∈ wants)).flatMap s.field

def raw (s : Sector) : List UInt8 := s.select Field.inOrder

theorem length_select (s : Sector) (wants : List Field) : (s.select wants).length =
    ((Field.inOrder.filter (· ∈ wants)).map s.type.fieldLength).sum := by
  rw [select, List.length_flatMap]
  exact congrArg List.sum (List.map_congr_left fun f _ => s.length_field f)

theorem length_raw (s : Sector) : s.raw.length = 2352 := by
  rw [raw, length_select]
  cases s.type <;> rfl

theorem raw_eq (s : Sector) : s.raw = s.field .sync ++ (s.field .header ++
    (s.field .subHeader ++ (s.field .userData ++ s.field .edcEcc))) := by
  simp [raw, select, Field.inOrder]

theorem field_eq_nil (s : Sector) {f : Field} (h : s.type.fieldLength f = 0) : s.field f = [] :=
  List.eq_nil_of_length_eq_zero ((s.length_field f).trans h)

/-- Fields that a sector does not have may as well be left out. -/
theorem select_congr (s : Sector) {wants wants' : List Field}
    (h : ∀ f, s.type.fieldLength f ≠ 0 → (f ∈ wants ↔ f ∈ wants')) :
    s.select wants = s.select wants' := by
  unfold select
  induction Field.inOrder with
  | nil => rfl
  | cons f fields ih =>
    by_cases hempty : s.type.fieldLength f = 0
    · simp only [List.filter_cons]
      split <;> split <;> simp [s.field_eq_nil hempty, ih]
    · simp only [List.filter_cons, h f hempty]
      split <;> simp [ih]

/-- The sync pattern and the header come first in every data sector. -/
theorem raw_data (s : Sector) (h : s.type.mode = some mode) : ∃ minute second frame,
    s.raw = syncPattern ++ ([minute, second, frame, mode] ++
      (s.field .subHeader ++ (s.field .userData ++ s.field .edcEcc))) := by
  have hsync := s.sync_eq (Option.isSome_of_eq_some h)
  have hmode := s.mode_eq mode h
  have hlen : (s.field .header).length = 4 := by
    rw [s.length_field]
    cases htype : s.type with
    | cdda => simp [htype, SectorType.mode] at h
    | mode1 | mode2Formless | mode2Form1 | mode2Form2 => rfl
  rw [s.raw_eq, hsync]
  match hheader : s.field .header, hlen with
  | [minute, second, frame, byte], _ =>
    rw [hheader] at hmode
    cases hmode
    exact ⟨minute, second, frame, rfl⟩

/-- The user data of a sector with no subheader is all between the header
and the error correction. -/
theorem drop_raw_mode1 (s : Sector) (h : s.type = .mode1) :
    (s.raw.drop 16).take 2048 = s.field .userData := by
  have hmode : s.type.mode = some 1 := by rw [h]; rfl
  have hsub : s.field .subHeader = [] := s.field_eq_nil (by rw [h]; rfl)
  have hlen : (s.field .userData).length = 2048 := by rw [s.length_field, h]; rfl
  obtain ⟨minute, second, frame, hraw⟩ := s.raw_data hmode
  rw [hraw, hsub, ← hlen]
  exact List.take_left

/-- Bytes of the length of a sector, with the sync pattern and a mode, are a
sector of any type of the mode that has no subheader. -/
theorem exists_raw_eq {bytes : List UInt8} {type : SectorType} (hlen : bytes.length = 2352)
    (hsync : bytes.take 12 = syncPattern) (hmode : bytes[15]? = type.mode)
    (hform : type.form2 = none) : ∃ s : Sector, s.type = type ∧ s.raw = bytes := by
  have htype : type ≠ .cdda := by
    rintro rfl
    have hshort := List.getElem?_eq_none_iff.mp hmode
    omega
  have hcut : ∀ a k, (bytes.drop a).take k ++ bytes.drop (a + k) = bytes.drop a := by
    intro a k
    rw [← List.drop_drop, List.take_append_drop]
  refine ⟨⟨type, fun f => (bytes.drop (type.offset f)).take (type.fieldLength f), ?_, ?_, ?_, ?_⟩,
    rfl, ?_⟩
  · intro f
    have hfits := type.offset_add_fieldLength_le f
    rw [List.length_take, List.length_drop, hlen]
    omega
  · intro _
    have h12 : type.fieldLength .sync = 12 := by cases type <;> first | contradiction | rfl
    rw [h12]
    exact hsync
  · intro mode heq
    have h12 : type.offset .header = 12 := by cases type <;> first | contradiction | rfl
    have h4 : type.fieldLength .header = 4 := by cases type <;> first | contradiction | rfl
    rw [h12, h4, List.getElem?_take_of_lt (by decide), List.getElem?_drop]
    exact hmode.trans heq
  · intro form2 heq
    cases hform.symm.trans heq
  · rw [raw_eq]
    have hlast : (bytes.drop (type.offset .edcEcc)).take (type.fieldLength .edcEcc) =
        bytes.drop (type.offset .edcEcc) := by
      apply List.take_of_length_le
      rw [List.length_drop, hlen, ← type.offset_edcEcc, Nat.add_sub_cancel_left]
    have huser := hcut (type.offset .userData) (type.fieldLength .userData)
    have hsub := hcut (type.offset .subHeader) (type.fieldLength .subHeader)
    have hheader := hcut (type.offset .header) (type.fieldLength .header)
    have hstart := hcut (type.offset .sync) (type.fieldLength .sync)
    simp only [SectorType.offset, Nat.zero_add, List.drop_zero] at hlast huser hsub hheader hstart ⊢
    rw [hlast, huser, hsub, hheader, hstart]

end Sector

-- ---------------------------------------------------------------------------
-- Commands
-- ---------------------------------------------------------------------------

/-- The sector type in a command, which is `none` for any. -/
abbrev Expected := Option SectorType

def Expected.admits (expected : Expected) (type : SectorType) : Bool :=
  match expected with
  | none => true
  | some only => only == type

structure ReadCd where
  lba : Nat
  count : Nat
  expected : Expected
  wants : List Field
  deriving DecidableEq, Repr

/-- The codes 6 and 7 are reserved. -/
def expectedOf (code : UInt8) : Option Expected :=
  match code.toNat with
  | 0 => some none
  | 1 => some (some .cdda)
  | 2 => some (some .mode1)
  | 3 => some (some .mode2Formless)
  | 4 => some (some .mode2Form1)
  | 5 => some (some .mode2Form2)
  | _ => none

def Field.bit : Field → UInt8
  | .sync => 0x80
  | .subHeader => 0x40
  | .header => 0x20
  | .userData => 0x10
  | .edcEcc => 0x08

def fieldsOf (selection : UInt8) : List Field :=
  Field.inOrder.filter fun f => selection &&& f.bit != 0

/-- What a drive reads in a block: the type in bits 4 to 2 of byte 1, the
address and the count in big-endian order, and the fields in byte 9. -/
def decodeReadCd : List UInt8 → Option ReadCd
  | [opcode, options, l0, l1, l2, l3, n0, n1, n2, selection, _, _] =>
    if opcode = 0xBE then
      (expectedOf (options >>> 2 &&& 7)).map fun expected =>
        { lba := beNat [l0, l1, l2, l3], count := beNat [n0, n1, n2], expected
          wants := fieldsOf selection }
    else none
  | _ => none

theorem decodeReadCd_opcode (h : decodeReadCd cdb = some cmd) : cdb[0]? = some 0xBE := by
  unfold decodeReadCd at h
  split at h
  · split at h <;> rename_i hopcode
    · rw [hopcode]
      rfl
    · cases h
  · cases h

/-- The sectors of a disc by their addresses. -/
abbrev Disc := Nat → Sector

/-- Every sector of the command is of its type. -/
def Disc.Admits (disc : Disc) (cmd : ReadCd) : Prop :=
  ∀ lba, cmd.lba ≤ lba → lba < cmd.lba + cmd.count → cmd.expected.admits (disc lba).type = true

instance (disc : Disc) (cmd : ReadCd) : Decidable (disc.Admits cmd) :=
  decidable_of_iff
    (∀ lba ∈ List.range' cmd.lba cmd.count, cmd.expected.admits (disc lba).type = true)
    (by simp only [List.mem_range'_1, and_imp]; rfl)

/-- What there is to transfer for a command. -/
def Disc.transfer (disc : Disc) (cmd : ReadCd) : List UInt8 :=
  blocks (fun lba => (disc lba).select cmd.wants) cmd.lba cmd.count

end Mmc
