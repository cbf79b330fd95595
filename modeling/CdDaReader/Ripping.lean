import CdDaReader.Program
import CdDaReader.Reader.ReadToc
import CdDaReader.Reader.Requests
import CdDaReader.Wav

/-!
# Ripping a disc

The program of `examples/read_all_tracks.rs`, from an open reader on: read the
table, read every audio track, and save each as a WAV file. A track that
fails is reported and the rest go on; a file that cannot be written ends the
program.
-/

namespace CdDaReader

open Rust

/-- What the program prints. -/
inductive RipLine
  | found (tracks : Nat)
  | reading (number : UInt8)
  | saved (name : String)
  | failed (err : CdReaderError)
  | failedTracks (numbers : List UInt8)

/-- `{:02}` of a track number. -/
def twoDigits (n : UInt8) : String := if n < 10 then s!"0{n.toNat}" else s!"{n.toNat}"

def trackFileName (n : UInt8) : String := s!"track{twoDigits n}.wav"

example : trackFileName 7 = "track07.wav" ∧ trackFileName 12 = "track12.wav" := by decide

def audioTracks (toc : Toc) : List Track := toc.tracks.filter fun track => track.isAudio

/-- One pass of the loop; `failed` is the list of the tracks that failed. -/
def ripTrack (host : Host) (disk : Disk) (reader : CdReader) (toc : Toc) (failed : List UInt8)
    (track : Track) : Program RipLine (List UInt8) := do
  Program.print (.reading track.number)
  match ← Program.attempt (reader.readTrack host toc track.number) with
  | .ok data =>
    let wav ← createWav host data
    Program.write disk (trackFileName track.number) wav
    Program.print (.saved (trackFileName track.number))
    return failed
  | .error err =>
    Program.print (.failed err)
    return failed ++ [track.number]

def readAllTracks (host : Host) (disk : Disk) (reader : CdReader) : Program RipLine Unit := do
  let toc ← Program.call (reader.readToc host)
  Program.print (.found (audioTracks toc).length)
  let failed ← (audioTracks toc).foldlM (ripTrack host disk reader toc) []
  if !failed.isEmpty then
    Program.print (.failedTracks failed)

-- ---------------------------------------------------------------------------
-- What a rip comes to
-- ---------------------------------------------------------------------------

/-- The wave of some bytes that are few enough for one. -/
def waveFile (data : Bytes) : Bytes :=
  wavWith (.ofNat data.length + 36) (.ofNat data.length) data

theorem createWav_eq (host : Host) {data : Bytes} (h : data.length + 36 < 2 ^ 32) :
    createWav host data = .ok (waveFile data) := by
  have hsize : (UInt32.ofNat data.length).toNat = data.length := toNat_ofNat32 (by omega)
  have h36 : (36 : UInt32).toNat = 36 := rfl
  rw [createWav, createWavHeader, add32_ok (by rw [hsize, h36]; exact h)]
  rfl

theorem waveFile_isWaveOf {data : Bytes} (h : data.length + 36 < 2 ^ 32) :
    IsWaveOf (waveFile data) data := by
  obtain ⟨file, hfile, hwave⟩ := createWav_ok .desktop h
  rw [createWav_eq .desktop h] at hfile
  cases hfile
  exact hwave

namespace Medium

variable (medium : Medium)

/-- The sectors of a track of the table, from its mark to its stop. -/
def trackBytes (trackNo : UInt8) : Bytes :=
  match medium.layout.toc.find trackNo with
  | some i =>
    medium.sectors.transfer (SectorReadFormat.audio.command (medium.layout.toc.mark i)
      (medium.layout.toc.stop i - medium.layout.toc.mark i))
  | none => []

def trackFile (track : Track) : String × Bytes :=
  (trackFileName track.number, waveFile (medium.trackBytes track.number))

/-- Every command is for the table, or for audio sectors of one of the
tracks. -/
def RipsOnly (tracks : List Track) (events : List Event) : Prop :=
  ∀ cmd answer, .command cmd answer ∈ events → cmd = .readToc ∨
    ∃ track ∈ tracks, ∃ i lba n, medium.layout.toc.find track.number = some i ∧
      cmd = .readCd lba n .audio ∧ medium.layout.toc.mark i ≤ lba.toNat ∧
      lba.toNat + n.toNat ≤ medium.layout.toc.stop i

end Medium

section
variable (medium : Medium) (host : Host) (disk : Disk) (reader : CdReader)

/-- From a state on some tracks were done, one after the other: each was read
and saved as a wave, or its read failed, and it was reported. -/
inductive Ripped (start : ProgramState RipLine) :
    List Track → List UInt8 → ProgramState RipLine → Prop
  | nil : Ripped start [] [] start
  | saved (hdone : Ripped start tracks failed s)
      (hread : (reader.readTrack host medium.layout.toc track.number).exec s.history =
        (.ok (medium.trackBytes track.number), s.history ++ events))
      (honly : medium.RipsOnly [track] events)
      (hdisk : disk s.files (trackFileName track.number) (medium.trackFile track).2 = none)
      (hwave : IsWaveOf (medium.trackFile track).2 (medium.trackBytes track.number)) :
      Ripped start (tracks ++ [track]) failed
        { history := s.history ++ events
          files := s.files ++ [medium.trackFile track]
          printed := s.printed ++ [.reading track.number] ++
            [.saved (trackFileName track.number)] }
  | skipped (hdone : Ripped start tracks failed s)
      (hread : (reader.readTrack host medium.layout.toc track.number).exec s.history =
        (.error (.error err), s.history ++ events))
      (honly : medium.RipsOnly [track] events)
      (hfails : TrackFails host reader medium.layout.toc track.number .audio s.history events err) :
      Ripped start (tracks ++ [track]) (failed ++ [track.number])
        { history := s.history ++ events
          files := s.files
          printed := s.printed ++ [.reading track.number] ++ [.failed err] }

/-- Once the table was read. -/
def ripStart (h : History) : ProgramState RipLine where
  history := h ++ [.command .readToc (reader.drive h .readToc)]
  files := []
  printed := [.found (audioTracks medium.layout.toc).length]

/-- How a rip ends. Only a table that could not be read or a write that failed
keeps it from trying every audio track. -/
inductive Rips (h : History) : Except ProgramError Unit → ProgramState RipLine → Prop
  | unread (htable : medium.ReadsTable (reader.drive h .readToc) (.error err)) :
      Rips h (.error (.reader err)) ⟨h ++ [.command .readToc (reader.drive h .readToc)], [], []⟩
  | finished (htable : medium.ReadsTable (reader.drive h .readToc) (.ok medium.layout.toc))
      (hdone : Ripped medium host disk reader (ripStart medium reader h)
        (audioTracks medium.layout.toc) failed s) :
      Rips h (.ok ()) { s with
        printed := s.printed ++ if failed.isEmpty then [] else [.failedTracks failed] }
  | stopped {failure : WriteFailure}
      (htable : medium.ReadsTable (reader.drive h .readToc) (.ok medium.layout.toc))
      (hitems : audioTracks medium.layout.toc = tracks ++ track :: rest)
      (hdone : Ripped medium host disk reader (ripStart medium reader h) tracks failed s)
      (hread : (reader.readTrack host medium.layout.toc track.number).exec s.history =
        (.ok (medium.trackBytes track.number), s.history ++ events))
      (honly : medium.RipsOnly [track] events)
      (hdisk : disk s.files (trackFileName track.number) (medium.trackFile track).2 =
        some failure) :
      Rips h (.error (.write failure.err))
        { history := s.history ++ events
          files := failure.leave s.files (trackFileName track.number) (medium.trackFile track).2
          printed := s.printed ++ [.reading track.number] }

end

-- ---------------------------------------------------------------------------
-- Names
-- ---------------------------------------------------------------------------

theorem ofDigitChars_twoDigits (n : UInt8) :
    Nat.ofDigitChars 10 (twoDigits n).toList 0 = n.toNat := by
  unfold twoDigits
  split
  · show Nat.ofDigitChars 10 ("0" ++ Nat.repr n.toNat).toList 0 = _
    rw [String.toList_append, Nat.toList_repr]
    exact Nat.ofDigitChars_ten_toDigits
  · show Nat.ofDigitChars 10 (Nat.repr n.toNat).toList 0 = _
    rw [Nat.toList_repr, Nat.ofDigitChars_ten_toDigits]

theorem trackFileName_inj (h : trackFileName m = trackFileName n) : m = n := by
  have hchars : ("track" ++ twoDigits m ++ ".wav").toList =
      ("track" ++ twoDigits n ++ ".wav").toList := congrArg String.toList h
  simp only [String.toList_append, List.append_assoc] at hchars
  have hdigits := List.append_cancel_right (List.append_cancel_left hchars)
  apply UInt8.toNat_inj.mp
  rw [← ofDigitChars_twoDigits m, hdigits, ofDigitChars_twoDigits]

-- ---------------------------------------------------------------------------
-- Sizes
-- ---------------------------------------------------------------------------

theorem DiscLayout.mark_lt (disc : DiscLayout) (i : Nat) : disc.toc.mark i < 1151850 := by
  unfold Toc.mark
  split <;> rename_i htrack
  · exact disc.startLba_lt (List.mem_of_getElem? htrack)
  · exact disc.leadout_valid.lba_lt

variable {medium : Medium}

theorem Medium.trackBytes_fits (hholds : medium.Holds .audio lba n bytes)
    (hle : lba + n ≤ medium.layout.toc.stop i) : bytes.length + 36 < 2 ^ 32 := by
  have hmark := medium.layout.mark_lt (i + 1)
  have hstop := medium.layout.toc.stop_le_mark i
  have hsize : SectorReadFormat.audio.sectorSize = 2352 := rfl
  rw [hholds.length_eq, hsize]
  omega

theorem Medium.ripsOnly_nil (medium : Medium) (tracks : List Track) :
    medium.RipsOnly tracks [] := by
  intro cmd answer hmem
  cases hmem

theorem Medium.ripsOnly_readToc (medium : Medium) (tracks : List Track) (answer : Answer) :
    medium.RipsOnly tracks [.command .readToc answer] := by
  intro cmd answer hmem
  cases List.mem_singleton.mp hmem
  exact .inl rfl

-- ---------------------------------------------------------------------------
-- One track
-- ---------------------------------------------------------------------------

/-- Commands inside a granted range are for the track's own sectors. -/
theorem Granted.ripsOnly
    (h : Granted medium.layout.toc trackNo .audio start sectors i found)
    (hwithin : ReadsWithin .audio start.toNat (start.toNat + sectors.toNat) events)
    (hnumber : track.number = trackNo) : medium.RipsOnly [track] events := by
  intro cmd answer hmem
  obtain ⟨lba, n, rfl, -, hlo, hhi⟩ := hwithin cmd answer hmem
  have hstart := h.start_eq
  have hstop := h.stop_eq
  exact .inr ⟨track, List.mem_singleton.mpr rfl, i, lba, n, hnumber ▸ h.find_eq, rfl, by omega,
    by omega⟩

/-- What a granted range holds is the track, and few enough bytes for a
wave. -/
theorem Granted.trackBytes_eq
    (h : Granted medium.layout.toc trackNo .audio start sectors i found)
    (hholds : medium.Holds .audio start.toNat sectors.toNat data) :
    data = medium.trackBytes trackNo ∧ data.length + 36 < 2 ^ 32 := by
  have hstop := h.stop_eq
  have hlen : medium.layout.toc.stop i - medium.layout.toc.mark i = sectors.toNat := by
    rw [← hstop, h.start_eq, Nat.add_sub_cancel_left]
  refine ⟨?_, medium.trackBytes_fits hholds (Nat.le_of_eq hstop)⟩
  rw [hholds.bytes_eq, Medium.trackBytes, h.find_eq]
  simp only
  rw [hlen, h.start_eq]

/-- A track is read to the end, as the medium has it, or it fails; and only
its own sectors are read. -/
theorem CdReader.readTrackWithOptions_medium (host : Host) {reader : CdReader}
    (hin : medium.In reader.drive) (track : Track) (options : ReadOptions)
    (hformat : options.format = .audio) (h : History) :
    ∃ result events,
      (reader.readTrackWithOptions host medium.layout.toc track.number options).exec h =
        (ofResult result, h ++ events) ∧
      medium.RipsOnly [track] events ∧
      (∀ data, result = .ok data → data = medium.trackBytes track.number ∧
        data.length + 36 < 2 ^ 32) ∧
      ∀ err, result = .error err →
        TrackFails host reader medium.layout.toc track.number .audio h events err := by
  have hfails : ∀ events err,
      (reader.readTrackWithOptions host medium.layout.toc track.number options).exec h =
        (.error (.error err), h ++ events) →
      TrackFails host reader medium.layout.toc track.number .audio h events err := by
    intro events err hexec
    rw [← hformat]
    exact readTrackWithOptions_fails hexec
  rcases trackRequest_total host medium.layout.toc track.number .audio with
    ⟨start, sectors, i, found, hrequest, hgranted⟩ | ⟨err, hrequest⟩
  · obtain ⟨events, result, hwithin, hexec⟩ :=
      readSectorRange_total host reader start sectors options h
    have hrun : (reader.readTrackWithOptions host medium.layout.toc track.number options).exec h =
        (ofResult result, h ++ events) := by
      rw [readTrackWithOptions_exec, hformat, hrequest]
      exact hexec
    rw [hformat] at hwithin
    refine ⟨result, events, hrun, hgranted.ripsOnly hwithin rfl, ?_, ?_⟩
    · rintro data rfl
      have hholds := readSectorRange_holds hin hexec
      rw [hformat] at hholds
      exact hgranted.trackBytes_eq hholds
    · rintro err rfl
      exact hfails events err hrun
  · have hrun : (reader.readTrackWithOptions host medium.layout.toc track.number options).exec h =
        (.error (.error err), h ++ []) := by
      rw [readTrackWithOptions_exec, hformat, hrequest, List.append_nil]
    refine ⟨.error err, [], hrun, medium.ripsOnly_nil _, nofun, ?_⟩
    rintro _ ⟨⟩
    exact hfails [] err hrun

theorem Medium.RipsOnly.append (h : medium.RipsOnly tracks events)
    (h' : medium.RipsOnly tracks events') : medium.RipsOnly tracks (events ++ events') := by
  intro cmd answer hmem
  rcases List.mem_append.mp hmem with hmem | hmem
  · exact h cmd answer hmem
  · exact h' cmd answer hmem

theorem Medium.RipsOnly.mono (h : medium.RipsOnly tracks events)
    (hsub : ∀ track ∈ tracks, track ∈ tracks') : medium.RipsOnly tracks' events := by
  intro cmd answer hmem
  rcases h cmd answer hmem with heq | ⟨track, htrack, hread⟩
  · exact .inl heq
  · exact .inr ⟨track, hsub track htrack, hread⟩

-- ---------------------------------------------------------------------------
-- What was done
-- ---------------------------------------------------------------------------

section
variable {host : Host} {disk : Disk} {reader : CdReader} {start : ProgramState RipLine}

theorem Ripped.failed_sublist (h : Ripped medium host disk reader start tracks failed s) :
    failed.Sublist (tracks.map Track.number) := by
  induction h with
  | nil => exact .slnil
  | saved _ _ _ _ _ ih =>
    rw [List.map_append]
    exact ih.trans (List.sublist_append_left ..)
  | skipped _ _ _ _ ih =>
    rw [List.map_append]
    exact ih.append (.refl _)

/-- There is a file for every track that did not fail, in the order of the
tracks. -/
theorem Ripped.files_eq (h : Ripped medium host disk reader start tracks failed s)
    (hnodup : (tracks.map Track.number).Nodup) : s.files = start.files ++
      (tracks.filter fun track => track.number ∉ failed).map medium.trackFile := by
  induction h with
  | nil => exact (List.append_nil _).symm
  | @saved tracks failed _ _ track hdone _ _ _ _ ih =>
    rw [List.map_append, List.nodup_append] at hnodup
    have hnew : track.number ∉ failed := fun hmem =>
      hnodup.2.2 _ (hdone.failed_sublist.subset hmem) _ (List.mem_singleton_self _) rfl
    simp only [ih hnodup.1, List.filter_append, List.map_append, List.append_assoc]
    simp [hnew]
  | @skipped tracks failed _ _ _ track _ _ _ _ ih =>
    rw [List.map_append, List.nodup_append] at hnodup
    have hsame : ∀ other ∈ tracks, decide (other.number ∉ failed ++ [track.number]) =
        decide (other.number ∉ failed) := by
      intro other hmem
      have hother : other.number ≠ track.number :=
        hnodup.2.2 _ (List.mem_map_of_mem hmem) _ (List.mem_singleton_self _)
      simp [hother]
    simp only [ih hnodup.1, List.filter_append, List.filter_congr hsame]
    simp

theorem Ripped.waves (h : Ripped medium host disk reader start tracks failed s) :
    ∀ track ∈ tracks, track.number ∉ failed →
      IsWaveOf (medium.trackFile track).2 (medium.trackBytes track.number) := by
  induction h with
  | nil => exact nofun
  | saved _ _ _ _ hwave ih =>
    intro other hmem hother
    rcases List.mem_append.mp hmem with hmem | hmem
    · exact ih other hmem hother
    · rw [List.mem_singleton.mp hmem]
      exact hwave
  | skipped _ _ _ _ ih =>
    intro other hmem hother
    rcases List.mem_append.mp hmem with hmem | hmem
    · exact ih other hmem fun hfailed => hother (List.mem_append_left _ hfailed)
    · rw [List.mem_singleton.mp hmem] at hother
      exact absurd (List.mem_append_right _ (List.mem_singleton_self _)) hother

theorem Ripped.events (h : Ripped medium host disk reader start tracks failed s) :
    ∃ events, s.history = start.history ++ events ∧ medium.RipsOnly tracks events := by
  induction h with
  | nil => exact ⟨[], (List.append_nil _).symm, medium.ripsOnly_nil _⟩
  | saved _ _ honly _ _ ih | skipped _ _ honly _ ih =>
    obtain ⟨before, hhistory, hbefore⟩ := ih
    refine ⟨_, by rw [hhistory, List.append_assoc], ?_⟩
    refine (hbefore.mono ?_).append (honly.mono ?_)
    · exact fun _ hmem => List.mem_append_left _ hmem
    · exact fun _ hmem => List.mem_append_right _ hmem

theorem trackFile_names (medium : Medium) (tracks : List Track) :
    (tracks.map medium.trackFile).map Prod.fst = (tracks.map Track.number).map trackFileName := by
  rw [List.map_map, List.map_map]
  rfl

/-- The names of the files are those of tracks that were done. -/
theorem Ripped.names_eq (h : Ripped medium host disk reader start tracks failed s)
    (hnodup : (tracks.map Track.number).Nodup) (hstart : start.files = []) :
    ∃ numbers : List UInt8, numbers.Sublist (tracks.map Track.number) ∧
      s.files.map Prod.fst = numbers.map trackFileName := by
  refine ⟨(tracks.filter fun track => track.number ∉ failed).map Track.number,
    List.filter_sublist.map _, ?_⟩
  rw [h.files_eq hnodup, hstart, List.nil_append, trackFile_names]

theorem Ripped.names_nodup (h : Ripped medium host disk reader start tracks failed s)
    (hnodup : (tracks.map Track.number).Nodup) (hstart : start.files = []) :
    (s.files.map Prod.fst).Nodup := by
  obtain ⟨numbers, hsub, hnames⟩ := h.names_eq hnodup hstart
  rw [hnames]
  exact (hnodup.sublist hsub).map fun _ _ => trackFileName_inj

theorem Ripped.name_not_mem (h : Ripped medium host disk reader start tracks failed s)
    (hnodup : (tracks.map Track.number).Nodup) (hstart : start.files = [])
    (hnew : number ∉ tracks.map Track.number) : trackFileName number ∉ s.files.map Prod.fst := by
  obtain ⟨numbers, hsub, hnames⟩ := h.names_eq hnodup hstart
  rw [hnames]
  intro hmem
  obtain ⟨_, hmem, heq⟩ := List.mem_map.mp hmem
  exact hnew (trackFileName_inj heq ▸ hsub.subset hmem)

end

theorem DiscLayout.numbers_nodup (disc : DiscLayout) :
    (disc.toc.tracks.map Track.number).Nodup := by
  have hnumbers : disc.toc.tracks.map Track.number = disc.tracks.map LayoutTrack.number := by
    simp only [DiscLayout.toc, List.map_map]
    rfl
  rw [hnumbers]
  refine List.pairwise_map.mpr (disc.ordered.imp ?_)
  intro a b hlt heq
  exact absurd hlt (by rw [heq]; exact UInt8.lt_irrefl _)

theorem audioTracks_nodup (disc : DiscLayout) :
    ((audioTracks disc.toc).map Track.number).Nodup :=
  disc.numbers_nodup.sublist (List.filter_sublist.map _)

/-- Of the audio tracks, those before one have other numbers. -/
theorem audioTracks_split {disc : DiscLayout}
    (h : audioTracks disc.toc = tracks ++ track :: rest) :
    (tracks.map Track.number).Nodup ∧ track.number ∉ tracks.map Track.number := by
  have hnodup := audioTracks_nodup disc
  rw [h, List.map_append, List.map_cons] at hnodup
  refine ⟨hnodup.of_append_left, fun hmem => ?_⟩
  exact List.disjoint_of_nodup_append hnodup hmem (List.mem_cons_self ..)

-- ---------------------------------------------------------------------------
-- The loop
-- ---------------------------------------------------------------------------

theorem ripTrack_passes (host : Host) (disk : Disk) {reader : CdReader}
    (hin : medium.In reader.drive) {h : History}
    (htable : medium.ReadsTable (reader.drive h .readToc) (.ok medium.layout.toc))
    (tracks : List Track) (track : Track) (rest : List Track) (failed : List UInt8)
    (s : ProgramState RipLine)
    (hitems : audioTracks medium.layout.toc = tracks ++ track :: rest)
    (hdone : Ripped medium host disk reader (ripStart medium reader h) tracks failed s) :
    (∃ failed' s',
      (ripTrack host disk reader medium.layout.toc failed track).exec s = (.ok failed', s') ∧
      Ripped medium host disk reader (ripStart medium reader h) (tracks ++ [track]) failed' s') ∨
    ∃ e s', (ripTrack host disk reader medium.layout.toc failed track).exec s = (.error e, s') ∧
      ∃ err, e = .error err ∧ Rips medium host disk reader h (.error err) s' := by
  obtain ⟨hnodup, hnew⟩ := audioTracks_split hitems
  obtain ⟨result, events, hread, honly, hdata, hfails⟩ :=
    reader.readTrackWithOptions_medium host hin track .default rfl s.history
  have hattempt := Program.attempt_exec
    (s := { s with printed := s.printed ++ [.reading track.number] }) hread
  unfold ripTrack CdReader.readTrack
  rw [exec_bind_ok (Program.print_exec ..), exec_bind_ok hattempt]
  cases result with
  | error err =>
    left
    exact ⟨_, _, rfl, .skipped hdone hread honly (hfails err rfl)⟩
  | ok data =>
    obtain ⟨rfl, hfits⟩ := hdata data rfl
    have hname := hdone.name_not_mem hnodup rfl hnew
    simp only
    rw [exec_bind_checked (createWav_eq host hfits)]
    cases hdisk : disk s.files (trackFileName track.number)
        (waveFile (medium.trackBytes track.number)) with
    | none =>
      left
      have hwrite := Program.write_exec (s := { s with
        history := s.history ++ events
        printed := s.printed ++ [.reading track.number] }) hdisk
      rw [Files.put_new hname] at hwrite
      rw [exec_bind_ok hwrite]
      exact ⟨_, _, rfl, .saved hdone hread honly hdisk (waveFile_isWaveOf hfits)⟩
    | some failure =>
      right
      have hwrite := Program.write_fails (s := { s with
        history := s.history ++ events
        printed := s.printed ++ [.reading track.number] }) hdisk
      rw [exec_bind_error hwrite]
      exact ⟨_, _, rfl, _, rfl, .stopped htable hitems hdone hread honly hdisk⟩

-- ---------------------------------------------------------------------------
-- The program
-- ---------------------------------------------------------------------------

/-- There is a file for every audio track but those reported at the end, and
each is the wave of its track. -/
def Medium.AllSaved (medium : Medium) (s : ProgramState RipLine) : Prop :=
  ∃ failed, failed.Sublist ((audioTracks medium.layout.toc).map Track.number) ∧
    s.files = ((audioTracks medium.layout.toc).filter fun track => track.number ∉ failed).map
      medium.trackFile ∧
    (∀ track ∈ audioTracks medium.layout.toc, track.number ∉ failed →
      IsWaveOf (medium.trackFile track).2 (medium.trackBytes track.number)) ∧
    (failed ≠ [] → s.printed.getLast? = some (.failedTracks failed))

/-- What a whole rip comes to: how it ends, and what there is then. -/
structure RipsSoundly (medium : Medium) (host : Host) (disk : Disk) (reader : CdReader)
    (h : History) (result : Except ProgramError Unit) (s : ProgramState RipLine) : Prop where
  ends : Rips medium host disk reader h result s
  saved : result = .ok () → medium.AllSaved s
  names_nodup : (s.files.map Prod.fst).Nodup
  events : ∃ events, s.history = h ++ events ∧
    medium.RipsOnly (audioTracks medium.layout.toc) events

section
variable {host : Host} {disk : Disk} {reader : CdReader}

theorem Rips.allSaved (h : Rips medium host disk reader history (.ok ()) s) :
    medium.AllSaved s := by
  cases h with
  | @finished failed s _ hdone =>
    refine ⟨failed, hdone.failed_sublist, hdone.files_eq (audioTracks_nodup _), hdone.waves, ?_⟩
    intro hsome
    simp [hsome]

theorem Rips.names_nodup (h : Rips medium host disk reader history result s) :
    (s.files.map Prod.fst).Nodup := by
  cases h with
  | unread => exact .nil
  | finished _ hdone => exact hdone.names_nodup (audioTracks_nodup _) rfl
  | @stopped tracks track _ _ s _ failure _ hitems hdone =>
    obtain ⟨hnodup, hnew⟩ := audioTracks_split hitems
    have hnames := hdone.names_nodup hnodup rfl
    have hname := hdone.name_not_mem hnodup rfl hnew
    rcases failure.leave_new hname (medium.trackFile track).2 with heq | ⟨cut, -, heq⟩
    · rw [heq]
      exact hnames
    · rw [heq, List.map_append]
      refine List.nodup_append.mpr ⟨hnames, List.nodup_singleton _, ?_⟩
      rintro name hmem _ hsingle rfl
      obtain rfl : name = trackFileName track.number := List.mem_singleton.mp hsingle
      exact hname hmem

theorem Rips.events (h : Rips medium host disk reader history result s) :
    ∃ events, s.history = history ++ events ∧
      medium.RipsOnly (audioTracks medium.layout.toc) events := by
  have hsent := medium.ripsOnly_readToc (audioTracks medium.layout.toc)
    (reader.drive history .readToc)
  cases h with
  | unread => exact ⟨_, rfl, hsent⟩
  | finished _ hdone =>
    obtain ⟨events, hhistory, honly⟩ := hdone.events
    exact ⟨_, hhistory.trans (List.append_assoc ..), hsent.append honly⟩
  | @stopped tracks track rest _ s events _ _ hitems hdone _ honly =>
    obtain ⟨before, hhistory, hbefore⟩ := hdone.events
    have hdone : ∀ other ∈ tracks, other ∈ audioTracks medium.layout.toc := by
      intro other hmem
      rw [hitems]
      exact List.mem_append_left _ hmem
    have htrack : ∀ other ∈ [track], other ∈ audioTracks medium.layout.toc := by
      simp [hitems]
    refine ⟨_, ?_, hsent.append ((hbefore.mono hdone).append (honly.mono htrack))⟩
    show s.history ++ events = _
    rw [hhistory]
    simp only [ripStart, List.append_assoc]

end

/-- On any platform a rip ends, saves every audio track but those that it
reports, in order and under a name of its own, each as the wave of its
sectors, and reads nothing but the table and those sectors. -/
theorem readAllTracks_platforms {platform : Platform} (hhonours : platform.Honours medium)
    (host : Host) (disk : Disk) (h : History) :
    ∃ result s', (readAllTracks host disk platform.reader).exec ⟨h, [], []⟩ =
        (ofResult result, s') ∧
      RipsSoundly medium host disk platform.reader h result s' := by
  have hin := hhonours.in_drive
  suffices ∃ result s', (readAllTracks host disk platform.reader).exec ⟨h, [], []⟩ =
      (ofResult result, s') ∧ Rips medium host disk platform.reader h result s' by
    obtain ⟨result, s', hexec, hrips⟩ := this
    exact ⟨result, s', hexec, hrips, fun hok => (hok ▸ hrips).allSaved, hrips.names_nodup,
      hrips.events⟩
  unfold readAllTracks
  rcases Program.readToc_exec RipLine host hin h with ⟨err, hcall, htable⟩ | ⟨hcall, htable⟩
  · exact ⟨.error (.reader err), _, exec_bind_error hcall, .unread htable⟩
  rw [exec_bind_ok hcall]
  rcases exec_foldlM _ _ (ripTrack_passes host disk hin htable) .nil with
    ⟨failed, s', hexec, hdone⟩ | ⟨_, s', hexec, err, rfl, hrips⟩
  · refine ⟨.ok (), _, (exec_bind_ok rfl).trans ((exec_bind_ok hexec).trans ?_),
      .finished htable hdone⟩
    cases failed <;> simp
  · exact ⟨.error err, s', (exec_bind_ok rfl).trans (exec_bind_error hexec), hrips⟩

theorem readAllTracks_platforms_silent :
    ∃ result s', (readAllTracks .desktop (fun _ _ _ => none) Platform.silent.reader).exec
        ⟨[], [], []⟩ = (ofResult result, s') ∧
      RipsSoundly Medium.silent .desktop (fun _ _ _ => none) Platform.silent.reader [] result s' :=
  readAllTracks_platforms Platform.silent_honours .desktop _ []

end CdDaReader
