import CdDaReader.Platform.Medium

/-!
# A range reads the same on every platform

Every answer of full length is the medium's, so what a read joins from such
answers is as well. The result does not tell the platforms apart, nor the
policies and the failures on the way. `Medium.sgIo` is a drive on Linux that
plays a medium.
-/

namespace CdDaReader

open Rust

variable {medium : Medium}

theorem Platform.Honours.in_drive {platform : Platform} (h : platform.Honours medium) :
    medium.In platform.reader.drive := by
  cases platform with
  | linux => exact Linux.Honours.in_drive h
  | windows => exact Windows.Honours.in_drive h
  | macOs => exact MacOs.Honours.in_drive h

/-- The sectors of a range are of the format's type, and these are the fields
that the format stands for. -/
structure Medium.Holds (medium : Medium) (format : SectorReadFormat) (lba n : Nat)
    (bytes : Bytes) : Prop where
  admits : medium.sectors.Admits (format.command lba n)
  bytes_eq : bytes = medium.sectors.transfer (format.command lba n)

theorem Medium.Holds.length_eq (h : medium.Holds format lba n bytes) :
    bytes.length = n * format.sectorSize := by
  rw [h.bytes_eq, SectorReadFormat.length_transfer h.admits]

theorem Medium.Holds.append (h : medium.Holds format lba m chunk)
    (h' : medium.Holds format (lba + m) n rest) :
    medium.Holds format lba (m + n) (chunk ++ rest) where
  admits a hlo hhi := by
    have hend : a < lba + (m + n) := hhi
    rcases Nat.lt_or_ge a (lba + m) with hlt | hge
    · exact h.admits a hlo hlt
    · exact h'.admits a hge (by simp only [SectorReadFormat.command]; omega)
  bytes_eq := by
    rw [h.bytes_eq, h'.bytes_eq]
    exact blocks_append ..

theorem Medium.holds_nil (medium : Medium) (format : SectorReadFormat) (lba : Nat) :
    medium.Holds format lba 0 [] where
  admits _ hlo hhi := absurd hlo (Nat.not_le.mpr hhi)
  bytes_eq := rfl

theorem CdReader.readSectorRange_holds {reader : CdReader} (hin : medium.In reader.drive)
    (hok : (reader.readSectorRange host start sectors options).exec h = (.ok out, h')) :
    medium.Holds options.format start.toNat sectors.toNat out := by
  obtain ⟨hspan, events, hrounds, hans, -⟩ := readSectorsChunked_ok hok
  refine hrounds.join (P := medium.Holds options.format) (medium.holds_nil _)
    (fun _ _ _ _ _ h h' => h.append h') ?_ sectors.toNat_lt hspan rfl
  intro lba n chunk hmem hlen
  obtain ⟨_, hanswer⟩ := hans.exists_history hmem
  obtain ⟨hadmits, heq⟩ := hin.readCd _ _ _ _ _ hanswer.symm hlen
  exact ⟨hadmits, heq⟩

/-- What a read of a range may come to. -/
structure RangeRead (medium : Medium) (host : Host) (reader : CdReader)
    (format : SectorReadFormat) (start sectors : Nat) (h : History) (events : List Event)
    (result : Except CdReaderError Bytes) : Prop where
  within : ReadsWithin format start (start + sectors) events
  data : ∀ out, result = .ok out → medium.Holds format start sectors out
  fails : ∀ err, result = .error err →
    ReadFails host format (reader.readCdChunk format) start sectors h events err

theorem CdReader.readSectorRange_medium (host : Host) {reader : CdReader}
    (hin : medium.In reader.drive) (start sectors : UInt32) (options : ReadOptions) (h : History) :
    ∃ events result, (reader.readSectorRange host start sectors options).exec h =
        (ofResult result, h ++ events) ∧
      RangeRead medium host reader options.format start.toNat sectors.toNat h events result := by
  obtain ⟨events, result, hwithin, hexec⟩ := readSectorsChunked_total host options.format
    options.retry (reader.readCdChunk options.format) start sectors h
  refine ⟨events, result, hexec, ?_⟩
  constructor
  case within => exact hwithin
  case data =>
    rintro out rfl
    exact readSectorRange_holds hin hexec
  case fails =>
    rintro err rfl
    exact readSectorsChunked_fails hexec

/-- A read that succeeds on any platform returns the medium's sectors of the
range, which are of the format's type; so any two that succeed return the
same bytes. -/
theorem readSectorRange_platforms {platform : Platform} (hhonours : platform.Honours medium)
    (hok : (platform.reader.readSectorRange host start sectors options).exec h = (.ok out, h')) :
    medium.Holds options.format start.toNat sectors.toNat out ∧
      out.length = sectors.toNat * options.format.sectorSize ∧
      ∀ (other : Platform) host₂ options₂ h₂ out₂ h₂', other.Honours medium →
        options₂.format = options.format →
        (other.reader.readSectorRange host₂ start sectors options₂).exec h₂ = (.ok out₂, h₂') →
          out₂ = out := by
  have hholds := CdReader.readSectorRange_holds hhonours.in_drive hok
  refine ⟨hholds, hholds.length_eq, ?_⟩
  intro other host₂ options₂ h₂ out₂ h₂' hhonours₂ hformat hok₂
  have hholds₂ := CdReader.readSectorRange_holds hhonours₂.in_drive hok₂
  rw [hholds₂.bytes_eq, hholds.bytes_eq, hformat]

-- ---------------------------------------------------------------------------
-- A drive that plays a medium
-- ---------------------------------------------------------------------------

/-- The answers to a block on Linux. A command succeeds as a whole or not at
all; `response` is the answer to READ TOC, and `information` that to READ
TRACK INFORMATION. -/
def Medium.sgIo (medium : Medium) (response information : Bytes) : SgIo := fun _ cdb len =>
  let good : Linux.SgIoHeader := { info := 0, status := 0, sbLenWr := 0, resid := 0, sense := [] }
  let bad : Linux.SgIoHeader := { good with info := 1, status := 2 }
  match Mmc.decodeReadCd cdb with
  | some cmd =>
    if medium.sectors.Admits cmd ∧ len ≤ (medium.sectors.transfer cmd).length then
      (medium.sectors.transfer cmd, .ok good)
    else ([], .ok bad)
  | none =>
    if cdb.take 3 = [0x43, 0, 0] ∧ len ≤ response.length then (response, .ok good)
    else if cdb.take 1 = [0x52] ∧ len ≤ information.length then (information, .ok good)
    else ([], .ok bad)

theorem Medium.sgIo_honours (hresponse : medium.layout.IsResponse response)
    (information : Bytes) : Linux.Honours (medium.sgIo response information) medium := by
  intro h cdb len output header hcall hinfo hstatus
  unfold sgIo at hcall
  simp only at hcall
  split at hcall <;> rename_i hdecode
  · split at hcall <;> rename_i hserves
    · cases hcall
      constructor
      case readToc =>
        intro htoc
        have hopcode := Mmc.decodeReadCd_opcode hdecode
        have hfirst : (cdb.take 3)[0]? = some 0xBE := by
          rw [List.getElem?_take_of_lt (by decide), hopcode]
        rw [htoc] at hfirst
        cases hfirst
      case readCd =>
        intro cmd' hdecode'
        cases hdecode.symm.trans hdecode'
        exact ⟨hserves.1, List.take_prefix ..⟩
    · cases hcall
      cases hstatus
  · split at hcall <;> rename_i htoc
    · cases hcall
      constructor
      case readToc => exact fun _ => ⟨response, hresponse, List.take_prefix ..⟩
      case readCd =>
        intro cmd hdecode'
        cases hdecode.symm.trans hdecode'
    · split at hcall <;> rename_i hinformation
      · cases hcall
        constructor
        case readToc =>
          intro htoc
          have hfirst : cdb.take 1 = [0x43] := by
            rw [show cdb.take 1 = (cdb.take 3).take 1 by rw [List.take_take]; rfl, htoc]
            rfl
          cases hfirst.symm.trans hinformation.1
        case readCd =>
          intro cmd hdecode'
          cases hdecode.symm.trans hdecode'
      · cases hcall
        cases hstatus

/-- A second of silence on a disc with one track. -/
def Medium.silent : Medium where
  sectors _ :=
    { type := .cdda
      field := fun f => List.replicate (Mmc.SectorType.cdda.fieldLength f) 0
      length_field := fun _ => List.length_replicate ..
      sync_eq := nofun
      mode_eq := nofun
      subHeader_eq := nofun }
  layout :=
    { tracks := [⟨1, 0, ⟨0, 2, 0⟩⟩]
      leadout := ⟨0, 3, 0⟩
      nonempty := by decide
      ordered := by decide
      numbers := by decide
      starts_valid := by decide
      leadout_valid := by decide }

def silentResponse : Bytes :=
  [0, 18, 1, 1, 0, 0x10, 1, 0, 0, 0, 0, 0, 0, 0x10, 0xAA, 0, 0, 0, 0, 75] ++
    List.replicate 2028 0

theorem silent_isResponse : Medium.silent.layout.IsResponse silentResponse :=
  ⟨0, 18, [⟨0x10, 1, 0⟩], 0x10, [[0, 0x10, 1, 0, 0, 0, 0, 0], [0, 0x10, 0xAA, 0, 0, 0, 0, 75]],
    List.replicate 2028 0, rfl, .cons ⟨1, rfl⟩ .nil, .cons ⟨0, 0, rfl⟩ (.cons ⟨0, 0, rfl⟩ .nil),
    rfl⟩

def Platform.silent : Platform := .linux (Medium.silent.sgIo silentResponse [])

theorem Platform.silent_honours : silent.Honours Medium.silent :=
  Medium.sgIo_honours silent_isResponse []

/-- A disc with one data track, of sectors of zeros. -/
def Medium.zeros : Medium where
  sectors _ :=
    { type := .mode1
      field := fun
        | .sync => Mmc.syncPattern
        | .header => [0, 2, 0, 1]
        | f => List.replicate (Mmc.SectorType.mode1.fieldLength f) 0
      length_field := fun f => by
        cases f with
        | sync | header => rfl
        | subHeader | userData | edcEcc => exact List.length_replicate ..
      sync_eq := fun _ => rfl
      mode_eq := by rintro _ ⟨⟩; rfl
      subHeader_eq := nofun }
  layout :=
    { tracks := [⟨1, 4, ⟨0, 2, 0⟩⟩]
      leadout := ⟨0, 3, 0⟩
      nonempty := by decide
      ordered := by decide
      numbers := by decide
      starts_valid := by decide
      leadout_valid := by decide }

def zerosResponse : Bytes :=
  [0, 18, 1, 1, 0, 0x14, 1, 0, 0, 0, 0, 0, 0, 0x14, 0xAA, 0, 0, 0, 0, 75] ++
    List.replicate 2028 0

theorem zeros_isResponse : Medium.zeros.layout.IsResponse zerosResponse :=
  ⟨0, 18, [⟨0x14, 1, 0⟩], 0x14, [[0, 0x14, 1, 0, 0, 0, 0, 0], [0, 0x14, 0xAA, 0, 0, 0, 0, 75]],
    List.replicate 2028 0, rfl, .cons ⟨1, rfl⟩ .nil, .cons ⟨0, 0, rfl⟩ (.cons ⟨0, 0, rfl⟩ .nil),
    rfl⟩

/-- A drive that leaves the data mode open. -/
def Platform.zeros : Platform :=
  .linux (Medium.zeros.sgIo zerosResponse ([0, 34, 1, 1, 0, 4, 0xF] ++ List.replicate 29 0))

theorem Platform.zeros_honours : zeros.Honours Medium.zeros :=
  Medium.sgIo_honours zeros_isResponse _

theorem readSectorRange_platforms_silent :
    ∃ out h', (Platform.silent.reader.readSectorRange .desktop 10 2 .default).exec [] =
      (.ok out, h') ∧ Medium.silent.Holds .audio 10 2 out := by
  obtain ⟨out, h', hok⟩ := exists_of_isOk (show Except.isOk
    ((Platform.silent.reader.readSectorRange .desktop 10 2 .default).exec []).1 = true by
      decide +kernel)
  exact ⟨out, h', hok, (readSectorRange_platforms Platform.silent_honours hok).1⟩

end CdDaReader
