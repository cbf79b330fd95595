import CdDaReader.ParseToc.Overflow
import CdDaReader.Platform.Agreement

/-!
# Reading the table of contents

Every platform hands what was transferred to the common parser, and turns its
error into a message. With a disc in the drive the result is the disc's table
or an error, however short the transfer was.
-/

namespace CdDaReader

open Rust

/-- What each platform makes of the answer to its command. -/
def decodeToc (host : Host) (answer : Answer) : Outcome CdReaderError Toc := do
  let data ← ofResult answer
  (parseToc host data).mapErr fun error => .parse error.message

def CdReader.readToc (host : Host) (self : CdReader) : Run Toc := do
  let history ← get
  let answer := self.drive history .readToc
  Run.log (.command .readToc answer)
  decodeToc host answer

theorem CdReader.readToc_exec (host : Host) (self : CdReader) (h : History) :
    (self.readToc host).exec h =
      (decodeToc host (self.drive h .readToc),
        h ++ [.command .readToc (self.drive h .readToc)]) := by
  unfold readToc
  rw [exec_bind_ok (exec_get h), exec_bind_ok (exec_log _ h)]
  rfl

-- ---------------------------------------------------------------------------
-- Responses cut short
-- ---------------------------------------------------------------------------

/-- The lead-out is the last descriptor of a response, so a cut that loses any
of it loses the lead-out. -/
theorem DiscLayout.parseToc_prefix (host : Host) {disc : DiscLayout}
    (h : disc.IsResponse response) (hpre : received <+: response) :
    (disc.IsResponse received ∧ parseToc host received = .ok disc.toc) ∨
      Invalid (parseToc host received) := by
  obtain ⟨b0, b1, ds, control, blocks, trailing, hlen, hds, hblocks, rfl⟩ := h
  have hdescribes := describes_tracks hds disc.starts_valid fun _ => disc.not_leadOut
  obtain ⟨-, hout, hlba⟩ := hdescribes
  obtain ⟨k, rfl⟩ : ∃ k, received = List.take k (b0 :: b1 :: disc.first :: disc.last ::
    (blocks.flatten ++ trailing)) := ⟨_, List.prefix_iff_eq_take.mp hpre⟩
  rcases Nat.lt_or_ge k 4 with hlt | hge
  · -- the header is cut
    exact .inr ⟨_, parseToc_short host (by rw [List.length_take]; omega)⟩
  obtain ⟨k, rfl⟩ := Nat.exists_eq_add_of_le' hge
  simp only [List.take_succ_cons]
  rcases Nat.lt_or_ge k (8 * (ds.length + 1)) with hcut | hwhole
  · right
    obtain ⟨n, hwalk⟩ : ∃ n, descriptorsFrom (b0 :: b1 :: disc.first :: disc.last ::
        (blocks.flatten ++ trailing).take k) (declaredEnd b0 b1) 4 = ds.take n := by
      refine ⟨min ((declaredEnd b0 b1 - 4 + 7) / 8) (k / 8), ?_⟩
      have hle : min ((declaredEnd b0 b1 - 4 + 7) / 8) (k / 8) ≤ ds.length := by omega
      unfold descriptorsFrom
      simp only [List.drop_succ_cons, List.drop_zero]
      rw [descriptors_take, descriptors_flatten hblocks, List.take_take, List.append_assoc,
        List.take_append_of_le_length hle]
    have hlead : leadOutOf (ds.take n) = none :=
      (leadOutOf_eq_none_iff _).mpr fun d hd => hout d (List.mem_of_mem_take hd)
    rw [parseToc_eq, hwalk, decode_ok host _ _ fun d hd => hlba d (List.mem_of_mem_take hd), hlead]
    exact ⟨_, rfl⟩
  · left
    have hbytes : blocks.flatten.length = 8 * (ds.length + 1) := by
      rw [length_flatten_encodes hblocks, List.length_append, List.length_singleton]
    have hwhole : disc.IsResponse (b0 :: b1 :: disc.first :: disc.last ::
        (blocks.flatten ++ trailing).take k) := by
      refine ⟨b0, b1, ds, control, blocks, trailing.take (k - blocks.flatten.length), hlen, hds,
        hblocks, ?_⟩
      rw [List.take_append, List.take_of_length_le (by omega)]
    exact ⟨hwhole, parseToc_isResponse host hwhole⟩

-- ---------------------------------------------------------------------------
-- Addresses
-- ---------------------------------------------------------------------------

/-- An address in minutes, seconds and frames is below 256 minutes. -/
theorem Msf.Valid.lba_lt {msf : Msf} (h : msf.Valid) : msf.lba.toNat < 1151850 := by
  have hminute := msf.minute.toNat_lt
  have hsecond := h.second_lt
  have hframe := h.frame_lt
  rw [Msf.toNat_lba, Msf.frames]
  omega

theorem DiscLayout.startLba_lt (disc : DiscLayout) (h : track ∈ disc.toc.tracks) :
    track.startLba.toNat < 1151850 := by
  obtain ⟨layoutTrack, hmem, rfl⟩ := List.mem_map.mp h
  exact (disc.starts_valid layoutTrack hmem).lba_lt

-- ---------------------------------------------------------------------------
-- The table of the disc in the drive
-- ---------------------------------------------------------------------------

/-- What the table read off an answer is: the error of the command, an error
of the parser for a response that is not whole, or the disc's table for one
that is. -/
def Medium.ReadsTable (medium : Medium) : Answer → Except CdReaderError Toc → Prop
  | .error err, result => result = .error err
  | .ok data, .ok toc => medium.layout.IsResponse data ∧ toc = medium.layout.toc
  | .ok data, .error err => ¬ medium.layout.IsResponse data ∧ ∃ message, err = .parse message

variable {medium : Medium}

theorem Medium.ReadsTable.toc_eq (h : medium.ReadsTable answer (.ok toc)) :
    toc = medium.layout.toc := by
  cases answer with
  | error err => cases h
  | ok data => exact h.2

theorem CdReader.readToc_medium (host : Host) {reader : CdReader} (hin : medium.In reader.drive)
    (h : History) : ∃ result : Except CdReaderError Toc,
      (reader.readToc host).exec h =
        (ofResult result, h ++ [.command .readToc (reader.drive h .readToc)]) ∧
      medium.ReadsTable (reader.drive h .readToc) result := by
  rw [readToc_exec]
  cases hanswer : reader.drive h .readToc with
  | error err => exact ⟨.error err, rfl, rfl⟩
  | ok data =>
    obtain ⟨response, hresponse, hpre⟩ := hin.readToc h data hanswer
    unfold decodeToc
    rw [ofResult_ok, Outcome.bind_ok]
    rcases DiscLayout.parseToc_prefix host hresponse hpre with
      ⟨hwhole, hparse⟩ | ⟨message, hparse⟩
    · rw [hparse]
      exact ⟨.ok _, rfl, hwhole, rfl⟩
    · refine ⟨.error (.parse message), by rw [hparse]; rfl, ?_, message, rfl⟩
      intro hwhole
      cases hparse.symm.trans (DiscLayout.parseToc_isResponse host hwhole)

/-- On every platform one command is sent, nothing panics, and the table is
the disc's unless the command failed or its response was cut short. -/
theorem readToc_platforms {platform : Platform} (hhonours : platform.Honours medium) (host : Host)
    (h : History) : ∃ result : Except CdReaderError Toc,
      (platform.reader.readToc host).exec h =
        (ofResult result, h ++ [.command .readToc (platform.reader.drive h .readToc)]) ∧
      medium.ReadsTable (platform.reader.drive h .readToc) result :=
  CdReader.readToc_medium host hhonours.in_drive h

theorem readToc_platforms_silent : ∃ result : Except CdReaderError Toc,
    (Platform.silent.reader.readToc .desktop).exec [] =
      (ofResult result, [.command .readToc (Platform.silent.reader.drive [] .readToc)]) ∧
    Medium.silent.ReadsTable (Platform.silent.reader.drive [] .readToc) result :=
  readToc_platforms Platform.silent_honours .desktop []

end CdDaReader
