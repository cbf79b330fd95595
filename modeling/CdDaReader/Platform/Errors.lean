import CdDaReader.Platform.Medium
import CdDaReader.Reader.Requests

/-!
# Where the error of a read comes from

A read fails before its first command, or with the error of its last one. A
drive's refusal names that command, on every platform: the operation, the
address and the number of sectors it asked for, with the sense data as one.
An answer of the wrong length is always a short one.
-/

namespace CdDaReader

open Rust

/-- The refusal of a command, with all of the sense data or none of it. -/
structure ScsiError.Names (err : ScsiError) (cmd : Command) : Prop where
  op_eq : err.op = cmd.context.op
  lba_eq : err.lba = cmd.context.lba
  sectors_eq : err.sectors = cmd.context.sectors
  senseKey_lt : ∀ key, err.senseKey = some key → key.toNat < 16
  asc_isSome : err.asc.isSome = err.senseKey.isSome
  ascq_isSome : err.ascq.isSome = err.senseKey.isSome

/-- What holds of a transport whatever the drive does. -/
structure Transport.Sound (transport : Transport) : Prop where
  length_le : ∀ h lba n format data, transport h (.readCd lba n format) = .ok data →
    data.length ≤ n.toNat * format.sectorSize
  names : ∀ h cmd err, transport h cmd = .error (.scsi err) → err.Names cmd

-- ---------------------------------------------------------------------------
-- Platforms
-- ---------------------------------------------------------------------------

theorem parseSense_cases (sense : Bytes) (written : UInt8) :
    parseSense sense written = (none, none, none) ∨
      ∃ key asc ascq, parseSense sense written = (some key, some asc, some ascq) ∧
        key.toNat < 16 := by
  unfold parseSense
  split <;> rename_i hshort
  · exact .inl rfl
  · obtain ⟨-, hlen⟩ := not_or.mp hshort
    refine .inr ⟨sense[2] &&& 0x0F, sense[12], sense[13], ?_, ?_⟩
    · simp only [List.getElem?_eq_getElem (by omega : 2 < List.length sense), Option.map_some,
        List.getElem?_eq_getElem (by omega : 12 < List.length sense),
        List.getElem?_eq_getElem (by omega : 13 < List.length sense)]
    · have hmask : (0x0F : UInt8).toNat < 2 ^ 4 := by decide
      rw [UInt8.toNat_and]
      exact Nat.and_lt_two_pow _ hmask

theorem scsiFailure_names (cmd : Command) (status : UInt8) (sense : Bytes) (written : UInt8)
    (h : scsiFailure cmd.context status sense written = .scsi err) : err.Names cmd := by
  unfold scsiFailure at h
  rcases parseSense_cases sense written with hnone | ⟨key, asc, ascq, hsome, hkey⟩
  · rw [hnone] at h
    cases h
    exact ⟨rfl, rfl, rfl, by simp, rfl, rfl⟩
  · rw [hsome] at h
    cases h
    exact ⟨rfl, rfl, rfl, by simpa using hkey, rfl, rfl⟩

theorem Linux.executeRead_scsi {cmd : Command} {result : Except IoError SgIoHeader}
    (h : executeRead outputLen cmd.context result = .error (.scsi err)) : err.Names cmd := by
  unfold executeRead at h
  split at h
  · cases h
  cases result with
  | error err => cases h
  | ok header =>
    simp only at h
    split at h
    · exact scsiFailure_names _ _ _ _ (Except.error.inj h)
    · split at h <;> cases h

theorem Windows.executeRead_scsi {cmd : Command} {result : Except IoError SptdWithSense}
    (h : executeRead cdb outputLen cmd.context result = .error (.scsi err)) : err.Names cmd := by
  unfold executeRead at h
  split at h
  · cases h
  split at h
  · cases h
  cases result with
  | error err => cases h
  | ok wrapper =>
    simp only at h
    split at h
    · exact scsiFailure_names _ _ _ _ (Except.error.inj h)
    · cases h

theorem take_bind_error {x : Except TransportError Nat} {output : Bytes}
    (h : (do let transferred ← x; return output.take transferred) = .error err) :
    x = .error err := by
  cases x with
  | error err' => cases h; rfl
  | ok n => cases h

theorem Linux.transport_sound (sgIo : SgIo) : (transport sgIo).Sound where
  length_le _ _ _ _ _ hok := transport_length_le hok
  names _ _ _ herr := executeRead_scsi (take_bind_error herr)

theorem Windows.transport_sound (deviceIoControl : DeviceIoControl) :
    (transport deviceIoControl).Sound where
  length_le _ _ _ _ _ hok := transport_length_le hok
  names _ _ _ herr := executeRead_scsi (take_bind_error herr)

theorem MacOs.transport_sound (ioctls : Ioctls) : (transport ioctls).Sound where
  length_le h lba n format data hok := by
    obtain ⟨layout, hlayout, -, hsize, -⟩ := sectorLayoutForFormat_formatId format
    obtain ⟨read, buffer, -, -, hlength, -, -, rfl⟩ := readCdSectors_ok hlayout (transport_ok hok)
    rw [hsize] at hlength
    exact Nat.le_trans (List.length_take_le ..) (Nat.le_of_eq hlength)
  names h cmd err herr := by
    unfold transport at herr
    split at herr <;> cases herr

theorem Platform.sound (platform : Platform) : platform.transport.Sound := by
  cases platform with
  | linux sgIo => exact Linux.transport_sound sgIo
  | windows deviceIoControl => exact Windows.transport_sound deviceIoControl
  | macOs ioctls => exact MacOs.transport_sound ioctls

-- ---------------------------------------------------------------------------
-- The last command of a failed read
-- ---------------------------------------------------------------------------

/-- The error of a read of the sectors from `start` up to `stop`, after what
happened. -/
inductive ReadError (format : SectorReadFormat) (start stop : Nat) :
    List Event → CdReaderError → Prop
  | refused : ReadError format start stop [] (invalidInput message)
  | io (hin : InRange start stop lba n) :
      ReadError format start stop (events ++ [.readCd lba n format (.error (.io err))]) (.io err)
  | scsi (hin : InRange start stop lba n) (hnames : err.Names (.readCd lba n format)) :
      ReadError format start stop (events ++ [.readCd lba n format (.error (.scsi err))])
        (.scsi err)
  | short (hin : InRange start stop lba n) (hlen : chunk.length < n.toNat * format.sectorSize) :
      ReadError format start stop (events ++ [.readCd lba n format (.ok chunk)])
        (shortRead lba (n.toNat * format.sectorSize) chunk.length)

theorem Transport.Sound.readError {transport : Transport} (h : transport.Sound)
    (hin : InRange start stop lba n)
    (hc : checkChunk format lba n (transport.drive history (.readCd lba n format)) = .error err) :
    ReadError format start stop
      (events ++ [.readCd lba n format (transport.drive history (.readCd lba n format))]) err := by
  unfold drive at hc ⊢
  cases hanswer : transport history (.readCd lba n format) with
  | error e =>
    rw [hanswer] at hc
    cases hc
    cases e with
    | io err => exact .io hin
    | scsi err => exact .scsi hin (h.names _ _ _ hanswer)
  | ok chunk =>
    rw [hanswer] at hc
    simp only [Except.mapError, checkChunk] at hc
    split at hc <;> rename_i hlen
    · cases hc
    · cases hc
      have hle := h.length_le _ _ _ _ _ hanswer
      exact .short hin (Nat.lt_of_le_of_ne hle hlen)

/-- Every read ends, on every platform and whatever the drive does, and the
error of one that fails is that of its last command, or of no command. -/
theorem readSectorRange_errors (host : Host) (platform : Platform) (start sectors : UInt32)
    (options : ReadOptions) (h : History) :
    ∃ events result,
      (platform.reader.readSectorRange host start sectors options).exec h =
        (ofResult result, h ++ events) ∧
      ∀ err, result = .error err →
        ReadError options.format start.toNat (start.toNat + sectors.toNat) events err := by
  obtain ⟨events, result, -, hexec⟩ :=
    platform.reader.readSectorRange_total host start sectors options h
  refine ⟨events, result, hexec, ?_⟩
  rintro err rfl
  cases readSectorsChunked_fails hexec with
  | refused hr => exact .refused
  | command hin hc => exact platform.sound.readError hin hc

end CdDaReader
