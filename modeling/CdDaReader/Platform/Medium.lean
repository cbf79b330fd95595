import CdDaReader.Platform.MacOs
import CdDaReader.ReadLoop.Range
import CdDaReader.Reader
import CdDaReader.TocReader.Platforms

/-!
# A disc behind every platform

A medium is what is in the drive: sectors, and a table of contents. Linux and
Windows send the drive a block, macOS makes a request of its own, and each
says in its way how much came back. `Platform.Honours` is what each of them
is documented to do. From it every platform is a drive with the medium in it,
so a read that succeeds returns the same bytes on all of them: the fields of
the sectors that the format stands for.
-/

namespace CdDaReader

open Rust

-- ---------------------------------------------------------------------------
-- Formats as selections
-- ---------------------------------------------------------------------------

namespace SectorReadFormat

def expected : SectorReadFormat → Mmc.Expected
  | .audio => some .cdda
  | .mode1Cooked | .mode1Raw => some .mode1
  | .mode2Raw => none

def wants : SectorReadFormat → List Mmc.Field
  | .audio | .mode1Cooked => [.userData]
  | .mode1Raw | .mode2Raw => Mmc.Field.inOrder

/-- The command that a read in the format stands for. -/
def command (format : SectorReadFormat) (lba count : Nat) : Mmc.ReadCd :=
  ⟨lba, count, format.expected, format.wants⟩

theorem length_select {s : Mmc.Sector} (format : SectorReadFormat)
    (h : format.expected.admits s.type = true) :
    (s.select format.wants).length = format.sectorSize := by
  rw [s.length_select]
  revert h
  cases format <;> cases s.type <;> decide

end SectorReadFormat

/-- A drive reads the count modulo 2^24, which is what three bytes hold. -/
theorem decodeReadCd_build (lba sectors : UInt32) (format : SectorReadFormat) :
    Mmc.decodeReadCd (buildReadCdCdb lba sectors format) =
      some (format.command lba.toNat (sectors.toNat % 2 ^ 24)) := by
  have hlba : beNat [.ofNat (lba.toNat / 2 ^ 24), .ofNat (lba.toNat / 2 ^ 16),
      .ofNat (lba.toNat / 2 ^ 8), .ofNat lba.toNat] = lba.toNat := beNat_toBeBytes lba
  have hcount : beNat [(sectors >>> 16 &&& 0xFF).toUInt8, (sectors >>> 8 &&& 0xFF).toUInt8,
      (sectors &&& 0xFF).toUInt8] = sectors.toNat % 2 ^ 24 := by
    rw [shiftedByte sectors 16 (by decide), shiftedByte sectors 8 (by decide), lowByte]
    have h16 : (16 : UInt32).toNat = 16 := rfl
    have h8 : (8 : UInt32).toNat = 8 := rfl
    simp only [beNat, List.foldl_cons, List.foldl_nil, UInt8.toNat_ofNat', h16, h8]
    omega
  have htype : Mmc.expectedOf (format.cdbByte1 >>> 2 &&& 7) = some format.expected := by
    cases format <;> decide
  have hfields : Mmc.fieldsOf format.cdbByte9 = format.wants := by
    cases format <;> decide
  show (Mmc.expectedOf (format.cdbByte1 >>> 2 &&& 7)).map _ = _
  rw [htype, hfields, hlba, hcount]
  rfl

/-- The layout that macOS picks names the format's type and fields, less
those that sectors of the type do not have. -/
theorem MacOs.sectorLayoutForFormat_formatId (format : SectorReadFormat) :
    ∃ layout, sectorLayoutForFormat (formatId format) = some layout ∧
      layout.sectorType = format.expected ∧
      layout.sectorSize.toNat = format.sectorSize ∧
      ∀ s : Mmc.Sector, format.expected.admits s.type = true →
        s.select layout.sectorArea = s.select format.wants := by
  cases format with
  | audio => exact ⟨_, rfl, rfl, rfl, fun _ _ => rfl⟩
  | mode1Cooked => exact ⟨_, rfl, rfl, rfl, fun _ _ => rfl⟩
  | mode2Raw => exact ⟨_, rfl, rfl, rfl, fun _ _ => rfl⟩
  | mode1Raw =>
    refine ⟨_, rfl, rfl, rfl, ?_⟩
    intro s hadmits
    apply s.select_congr
    intro f hf
    have htype : s.type = .mode1 := by
      revert hadmits
      cases s.type <;> decide
    rw [htype] at hf
    revert hf
    cases f <;> decide

-- ---------------------------------------------------------------------------
-- Media and platforms
-- ---------------------------------------------------------------------------

structure Medium where
  sectors : Mmc.Disc
  layout : DiscLayout

/-- What a drive transfers for a block: the READ TOC response or the sectors
of the READ CD, or the first bytes of either. -/
structure Medium.Transfers (medium : Medium) (cdb transferred : Bytes) : Prop where
  readToc : cdb.take 3 = [0x43, 0, 0] →
    ∃ response, medium.layout.IsResponse response ∧ transferred <+: response
  readCd : ∀ cmd, Mmc.decodeReadCd cdb = some cmd →
    medium.sectors.Admits cmd ∧ transferred <+: medium.sectors.transfer cmd

abbrev SgIo := History → Bytes → Nat → Bytes × Except IoError Linux.SgIoHeader

abbrev DeviceIoControl := History → Bytes → Nat → Bytes × Except IoError Windows.SptdWithSense

/-- A call that reports good status has transferred all but the residue. -/
def Linux.Honours (sgIo : SgIo) (medium : Medium) : Prop :=
  ∀ h cdb len output header, sgIo h cdb len = (output, .ok header) →
    header.info &&& 0x1 = 0 → header.status = 0 →
      medium.Transfers cdb (output.take (len - header.resid.toNatClampNeg))

/-- A call that reports good status has transferred the length that it leaves
in the request. -/
def Windows.Honours (deviceIoControl : DeviceIoControl) (medium : Medium) : Prop :=
  ∀ h cdb len output wrapper, deviceIoControl h cdb len = (output, .ok wrapper) →
    wrapper.scsiStatus = 0 →
      medium.Transfers cdb (output.take (min wrapper.dataTransferLength.toNat len))

/-- The size of the areas is the unit of the offset. -/
structure MacOs.Honours (ioctls : Ioctls) (medium : Medium) : Prop where
  converts : ConvertsMsf ioctls.cdConvertMsfToLba
  readToc : ∀ h toc, ioctls.readToc h = some toc → medium.layout.IsFullToc toc.descriptors
  readCd : ∀ h read buffer transferred lba count size,
    ioctls.readCd h read = some (buffer, transferred) →
    (∀ s : Mmc.Sector, read.sectorType.admits s.type = true →
      (s.select read.sectorArea).length = size) →
    read.offset.toNat = lba * size → read.bufferLength.toNat = count * size →
      medium.sectors.Admits ⟨lba, count, read.sectorType, read.sectorArea⟩ ∧
      buffer.take transferred.toNat <+:
        medium.sectors.transfer ⟨lba, count, read.sectorType, read.sectorArea⟩

inductive Platform
  | linux (sgIo : SgIo)
  | windows (deviceIoControl : DeviceIoControl)
  | macOs (ioctls : MacOs.Ioctls)

namespace Platform

def transport : Platform → Transport
  | linux sgIo => Linux.transport sgIo
  | windows deviceIoControl => Windows.transport deviceIoControl
  | macOs ioctls => MacOs.transport ioctls

def reader (platform : Platform) : CdReader := ⟨platform.transport.drive⟩

def Honours (platform : Platform) (medium : Medium) : Prop :=
  match platform with
  | linux sgIo => Linux.Honours sgIo medium
  | windows deviceIoControl => Windows.Honours deviceIoControl medium
  | macOs ioctls => MacOs.Honours ioctls medium

end Platform

/-- The drive has the medium in it: whatever else it answers and when, the
tables and the sectors that it answers with are those of the medium. -/
structure Medium.In (medium : Medium) (drive : Drive) : Prop where
  readToc : ∀ h data, drive h .readToc = .ok data →
    ∃ response, medium.layout.IsResponse response ∧ data <+: response
  readCd : ∀ h lba n format chunk, drive h (.readCd lba n format) = .ok chunk →
    chunk.length = n.toNat * format.sectorSize →
      medium.sectors.Admits (format.command lba.toNat n.toNat) ∧
      chunk = medium.sectors.transfer (format.command lba.toNat n.toNat)

-- ---------------------------------------------------------------------------
-- Every platform is a drive with the medium in it
-- ---------------------------------------------------------------------------

variable {medium : Medium}

theorem Transport.drive_ok {transport : Transport} (h : transport.drive history cmd = .ok data) :
    transport history cmd = .ok data := by
  unfold drive at h
  cases hanswer : transport history cmd with
  | ok data' =>
    rw [hanswer] at h
    cases h
    rfl
  | error err =>
    rw [hanswer] at h
    cases h

theorem Linux.transport_ok {sgIo : SgIo} (h : transport sgIo history cmd = .ok data) :
    ∃ output header, sgIo history cmd.cdb cmd.outputLen = (output, .ok header) ∧
      header.info &&& 0x1 = 0 ∧ header.status = 0 ∧
      data = output.take (cmd.outputLen - header.resid.toNatClampNeg) := by
  obtain ⟨output, result, hcall⟩ : ∃ output result,
      sgIo history cmd.cdb cmd.outputLen = (output, result) := ⟨_, _, rfl⟩
  unfold transport executeRead at h
  rw [hcall] at h
  simp only at h
  split at h
  · cases h
  cases result with
  | error err => cases h
  | ok header =>
    simp only at h
    split at h <;> rename_i hstatus
    · cases h
    obtain ⟨hinfo, hstatus⟩ := not_or.mp hstatus
    refine ⟨output, header, hcall, not_not.mp hinfo, not_not.mp hstatus, ?_⟩
    split at h <;> rename_i hresid
    · cases h
      have hzero : header.resid.toNatClampNeg = 0 := by
        rw [← Int32.toNat_toInt]
        exact Int.toNat_of_nonpos (Int32.le_iff_toInt_le.mp hresid)
      rw [hzero, Nat.sub_zero]
    · cases h
      rfl

theorem Windows.transport_ok {deviceIoControl : DeviceIoControl}
    (h : transport deviceIoControl history cmd = .ok data) :
    ∃ output wrapper, deviceIoControl history cmd.cdb cmd.outputLen = (output, .ok wrapper) ∧
      wrapper.scsiStatus = 0 ∧
      data = output.take (min wrapper.dataTransferLength.toNat cmd.outputLen) := by
  obtain ⟨output, result, hcall⟩ : ∃ output result,
      deviceIoControl history cmd.cdb cmd.outputLen = (output, result) := ⟨_, _, rfl⟩
  unfold transport executeRead at h
  rw [hcall] at h
  simp only at h
  split at h
  · cases h
  split at h
  · cases h
  cases result with
  | error err => cases h
  | ok wrapper =>
    simp only at h
    split at h <;> rename_i hstatus
    · cases h
    cases h
    exact ⟨output, wrapper, hcall, not_not.mp hstatus, rfl⟩

theorem SectorReadFormat.length_transfer {disc : Mmc.Disc} {format : SectorReadFormat}
    (h : disc.Admits (format.command lba n)) :
    (disc.transfer (format.command lba n)).length = n * format.sectorSize :=
  length_blocks_range fun a hlo hhi => format.length_select (h a hlo hhi)

/-- Bytes that a block transferred in full length are those of the command:
the block has the whole count. -/
theorem Medium.Transfers.readCd_full
    (h : medium.Transfers (buildReadCdCdb lba n format) transferred)
    (hlen : transferred.length = n.toNat * format.sectorSize) :
    medium.sectors.Admits (format.command lba.toNat n.toNat) ∧
      transferred = medium.sectors.transfer (format.command lba.toNat n.toNat) := by
  obtain ⟨hadmits, hprefix⟩ := h.readCd _ (decodeReadCd_build lba n format)
  have hfull := SectorReadFormat.length_transfer hadmits
  have hle := hprefix.length_le
  have hsize : 0 < format.sectorSize := by cases format <;> decide
  have hcount : n.toNat % 2 ^ 24 = n.toNat := by
    rw [hlen, hfull] at hle
    exact Nat.le_antisymm (Nat.mod_le ..) (Nat.le_of_mul_le_mul_right hle hsize)
  rw [hcount] at hadmits hprefix hfull
  exact ⟨hadmits, hprefix.eq_of_length (hlen.trans hfull.symm)⟩

theorem Linux.Honours.in_drive {sgIo : SgIo} (h : Honours sgIo medium) :
    medium.In (transport sgIo).drive where
  readToc history data hok := by
    obtain ⟨output, header, hcall, hinfo, hstatus, rfl⟩ := transport_ok (Transport.drive_ok hok)
    exact (h _ _ _ _ _ hcall hinfo hstatus).readToc rfl
  readCd history lba n format chunk hok hlen := by
    obtain ⟨output, header, hcall, hinfo, hstatus, rfl⟩ := transport_ok (Transport.drive_ok hok)
    exact (h _ _ _ _ _ hcall hinfo hstatus).readCd_full hlen

theorem Windows.Honours.in_drive {deviceIoControl : DeviceIoControl}
    (h : Honours deviceIoControl medium) : medium.In (transport deviceIoControl).drive where
  readToc history data hok := by
    obtain ⟨output, wrapper, hcall, hstatus, rfl⟩ := transport_ok (Transport.drive_ok hok)
    exact (h _ _ _ _ _ hcall hstatus).readToc rfl
  readCd history lba n format chunk hok hlen := by
    obtain ⟨output, wrapper, hcall, hstatus, rfl⟩ := transport_ok (Transport.drive_ok hok)
    exact (h _ _ _ _ _ hcall hstatus).readCd_full hlen

theorem MacOs.transport_ok {ioctls : Ioctls} (h : transport ioctls history cmd = .ok data) :
    nativeCall ioctls history cmd = some data := by
  unfold transport at h
  split at h <;> cases h
  assumption

theorem MacOs.nativeCall_readToc {ioctls : Ioctls}
    (h : nativeCall ioctls history .readToc = some data) :
    CdDaReader.readToc ioctls.cdConvertMsfToLba (ioctls.readToc history) = .ok data := by
  simp only [nativeCall] at h
  split at h <;> cases h
  assumption

theorem readToc_complete {toc : CdToc} (h : readToc cdConvertMsfToLba (some toc) = .ok data) :
    toc.Complete := by
  unfold readToc at h
  simp only [okOr_some, Outcome.bind_ok] at h
  split at h <;> rename_i hshort
  · cases h
  split at h <;> rename_i hsize
  · cases h
  exact ⟨Nat.not_lt.mp hshort, Nat.not_lt.mp hsize⟩

/-- What a successful native call asked of the driver, and got whole. -/
theorem MacOs.readCdSectors_ok {malloc : UInt32 → Bool}
    {ioctl : DkCdRead → Option (Bytes × UInt32)} {id : UInt32}
    (hlayout : sectorLayoutForFormat id = some layout)
    (h : readCdSectors malloc ioctl lba sectors id = some data) :
    ∃ read buffer, ioctl read = some (buffer, read.bufferLength) ∧
      read.offset.toNat = lba.toNat * layout.sectorSize.toNat ∧
      read.bufferLength.toNat = sectors.toNat * layout.sectorSize.toNat ∧
      read.sectorArea = layout.sectorArea ∧ read.sectorType = layout.sectorType ∧
      data = buffer.take read.bufferLength.toNat := by
  unfold readCdSectors at h
  simp only [hlayout, Option.bind_eq_bind, Option.bind_some] at h
  split at h
  · cases h
  split at h <;> rename_i hfits
  · cases h
  split at h
  · cases h
  obtain ⟨⟨buffer, transferred⟩, hcall, h⟩ := Option.bind_eq_some_iff.mp h
  simp only at h
  split at h <;> rename_i hwhole
  · cases h
  cases h
  have hbytes : (layout.sectorSize.toUInt64 * sectors.toUInt64).toUInt32.toNat =
      sectors.toNat * layout.sectorSize.toNat := by
    have hle := UInt64.le_iff_toNat_le.mp (UInt64.not_lt.mp hfits)
    have hmax : (0xFFFFFFFF : UInt64).toNat = 2 ^ 32 - 1 := rfl
    have hcomm := Nat.mul_comm sectors.toNat layout.sectorSize.toNat
    rw [toNat_mul64, hmax] at hle
    rw [UInt64.toNat_toUInt32, toNat_mul64]
    omega
  exact ⟨_, buffer, not_not.mp hwhole ▸ hcall, toNat_mul64 .., hbytes, rfl, rfl, rfl⟩

theorem MacOs.Honours.in_drive {ioctls : Ioctls} (h : Honours ioctls medium) :
    medium.In (transport ioctls).drive where
  readToc history data hok := by
    have hread := nativeCall_readToc (transport_ok (Transport.drive_ok hok))
    cases htoc : ioctls.readToc history with
    | none =>
      rw [htoc] at hread
      cases hread
    | some toc =>
      rw [htoc] at hread
      obtain ⟨buf, heq, hresponse⟩ := (h.readToc history toc htoc).readToc_isResponse
        (readToc_complete hread) h.converts
      rw [hread] at heq
      cases heq
      exact ⟨data, hresponse, List.prefix_refl _⟩
  readCd history lba n format chunk hok hlen := by
    obtain ⟨layout, hlayout, htype, hsize, hselect⟩ := sectorLayoutForFormat_formatId format
    obtain ⟨read, buffer, hcall, hoffset, hlength, harea, htype', rfl⟩ :=
      readCdSectors_ok hlayout (transport_ok (Transport.drive_ok hok))
    rw [hsize] at hoffset hlength
    have hunit : ∀ s : Mmc.Sector, read.sectorType.admits s.type = true →
        (s.select read.sectorArea).length = format.sectorSize := by
      intro s hadmits
      rw [htype', htype] at hadmits
      rw [harea, hselect s hadmits, format.length_select hadmits]
    obtain ⟨hadmits, hprefix⟩ := h.readCd _ _ _ _ _ _ _ hcall hunit hoffset hlength
    have hadmits' : medium.sectors.Admits (format.command lba.toNat n.toNat) := by
      intro a hlo hhi
      have ha := hadmits a hlo hhi
      simp only [htype', htype] at ha
      exact ha
    have hsame : medium.sectors.transfer
        ⟨lba.toNat, n.toNat, read.sectorType, read.sectorArea⟩ =
          medium.sectors.transfer (format.command lba.toNat n.toNat) := by
      apply blocks_congr
      intro a hlo hhi
      rw [harea]
      exact hselect _ (hadmits' a hlo hhi)
    rw [hsame] at hprefix
    refine ⟨hadmits', hprefix.eq_of_length ?_⟩
    rw [hlen, SectorReadFormat.length_transfer hadmits']

end CdDaReader
