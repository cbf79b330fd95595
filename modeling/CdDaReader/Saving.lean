import CdDaReader.Program.Streams
import CdDaReader.Ripping

/-!
# Saving one track

The programs of the examples that save a track, from an open reader on. They
read the table, pick a track of it, fetch its bytes and write them as a WAV
file; `saveTrack` is that much, and `SavesFile` how it ends. They differ in
the track they pick and in how they fetch it.
-/

namespace CdDaReader

open Rust

def Toc.firstAudio (toc : Toc) : Option Track := toc.tracks.find? fun track => track.isAudio

def Toc.lastAudio (toc : Toc) : Option Track :=
  toc.tracks.reverse.find? fun track => track.isAudio

section
variable {τ : Type} (host : Host) (disk : Disk) (reader : CdReader)

def saveTrack (pick : Toc → Option Track) (message : String) (fileName : UInt8 → String)
    (fetch : Toc → Track → Program τ Bytes) : Program τ Unit := do
  let toc ← Program.call (reader.readToc host)
  let track ← okOr (pick toc) (ProgramError.text message)
  let pcm ← fetch toc track
  let wav ← createWav host pcm
  Program.write disk (fileName track.number) wav

/-- The bytes of a track from a stream; `body` is the rest of the loop. -/
def streamTrack (body : TrackStream → Streaming τ Unit) (toc : Toc) (track : Track) :
    Program τ Bytes := do
  let stream ← (reader.openTrackStream host toc track.number).mapErr ProgramError.reader
  let pcm ← Program.drain host (body stream) stream
  return pcm.bytes

end

-- What these three print, a line before and a line after, is left out.

def readFirstTrack (host : Host) (disk : Disk) (reader : CdReader) : Program Empty Unit :=
  saveTrack host disk reader Toc.firstAudio "no audio tracks found" trackFileName
    fun toc track => Program.call (reader.readTrack host toc track.number)

/-- The policy of `examples/custom_retry.rs`. -/
def aggressiveRetry : RetryConfig :=
  RetryConfig.default.withMaxAttempts 8
    |>.withInitialBackoff (.fromMillis 50)
    |>.withMaxBackoff (.fromMillis 1000)
    |>.withChunkReduction true
    |>.withMinSectorsPerRead 1

def customRetry (host : Host) (disk : Disk) (reader : CdReader) : Program Empty Unit :=
  saveTrack host disk reader Toc.firstAudio "no audio tracks found" trackFileName
    fun toc track =>
      let options := ReadOptions.default.withRetry aggressiveRetry
      Program.call (reader.readTrackWithOptions host toc track.number options)

def streamLastTrack (host : Host) (disk : Disk) (reader : CdReader) : Program Empty Unit :=
  saveTrack host disk reader Toc.lastAudio "no audio tracks found" trackFileName
    (streamTrack host reader fun _ => pure ())

-- ---------------------------------------------------------------------------
-- How a program ends
-- ---------------------------------------------------------------------------

variable {τ : Type} {medium : Medium}

section
variable (medium : Medium) (disk : Disk) (reader : CdReader) (pick : Toc → Option Track)
  (message : String) (fileName : UInt8 → String) (fetch : Toc → Track → Program τ Bytes)
  (h : History)

/-- How `saveTrack` ends. -/
inductive SavesFile : Outcome ProgramError Unit → ProgramState τ → Prop
  | unread (htable : medium.ReadsTable (reader.drive h .readToc) (.error err)) :
      SavesFile (.error (.error (.reader err))) (.tableRead reader h)
  | missing (htable : medium.ReadsTable (reader.drive h .readToc) (.ok medium.layout.toc))
      (hpick : pick medium.layout.toc = none) :
      SavesFile (.error (.error (.text message))) (.tableRead reader h)
  | unfetched (htable : medium.ReadsTable (reader.drive h .readToc) (.ok medium.layout.toc))
      (hpick : pick medium.layout.toc = some track)
      (hfetch : (fetch medium.layout.toc track).exec (.tableRead reader h) = (.error fault, s')) :
      SavesFile (.error fault) s'
  | unwritten {failure : WriteFailure}
      (htable : medium.ReadsTable (reader.drive h .readToc) (.ok medium.layout.toc))
      (hpick : pick medium.layout.toc = some track)
      (hfetch : (fetch medium.layout.toc track).exec (.tableRead reader h) = (.ok pcm, s'))
      (hdisk : disk s'.files (fileName track.number) (waveFile pcm) = some failure) :
      SavesFile (.error (.error (.write failure.err)))
        { s' with files := failure.leave s'.files (fileName track.number) (waveFile pcm) }
  | written (htable : medium.ReadsTable (reader.drive h .readToc) (.ok medium.layout.toc))
      (hpick : pick medium.layout.toc = some track)
      (hfetch : (fetch medium.layout.toc track).exec (.tableRead reader h) = (.ok pcm, s'))
      (hdisk : disk s'.files (fileName track.number) (waveFile pcm) = none) :
      SavesFile (.ok ()) { s' with files := s'.files.put (fileName track.number) (waveFile pcm) }

end

theorem saveTrack_exec (host : Host) (disk : Disk) {reader : CdReader}
    (hin : medium.In reader.drive) {pick : Toc → Option Track} {message : String}
    {fileName : UInt8 → String} {fetch : Toc → Track → Program τ Bytes} (h : History)
    (hwav : ∀ track pcm s', pick medium.layout.toc = some track →
      (fetch medium.layout.toc track).exec (.tableRead reader h) = (.ok pcm, s') →
      createWav host pcm = .ok (waveFile pcm)) :
    ∃ result s',
      (saveTrack host disk reader pick message fileName fetch).exec ⟨h, [], []⟩ = (result, s') ∧
      SavesFile medium disk reader pick message fileName fetch h result s' := by
  unfold saveTrack
  rcases Program.readToc_exec τ host hin h with ⟨err, hcall, htable⟩ | ⟨hcall, htable⟩
  · exact ⟨_, _, exec_bind_error hcall, .unread htable⟩
  rw [exec_bind_ok hcall]
  cases hpick : pick medium.layout.toc with
  | none => exact ⟨_, _, rfl, .missing htable hpick⟩
  | some track =>
    rw [okOr_some, exec_bind_ok (exec_lift _ _)]
    rcases hfetch : (fetch medium.layout.toc track).exec (.tableRead reader h) with
      ⟨fault | pcm, s'⟩
    · exact ⟨_, _, exec_bind_error hfetch, .unfetched htable hpick hfetch⟩
    · rw [exec_bind_ok hfetch, exec_bind_checked (hwav track pcm s' hpick hfetch)]
      cases hdisk : disk s'.files (fileName track.number) (waveFile pcm) with
      | none => exact ⟨_, _, Program.write_exec hdisk, .written htable hpick hfetch hdisk⟩
      | some failure =>
        exact ⟨_, _, Program.write_fails hdisk, .unwritten htable hpick hfetch hdisk⟩

-- ---------------------------------------------------------------------------
-- A whole track
-- ---------------------------------------------------------------------------

/-- What fetching the bytes of a whole track may come to. -/
structure FetchesTrack (medium : Medium) (host : Host) (reader : CdReader) (track : Track)
    (s : ProgramState τ) (result : Except CdReaderError Bytes) (s' : ProgramState τ) : Prop where
  files_eq : s'.files = s.files
  events : ∃ events, s'.history = s.history ++ events ∧ medium.RipsOnly [track] events ∧
    ∀ err, result = .error err →
      TrackFails host reader medium.layout.toc track.number .audio s.history events err
  data : ∀ data, result = .ok data → data = medium.trackBytes track.number ∧
    data.length + 36 < 2 ^ 32

section
variable (medium : Medium) (host : Host) (disk : Disk) (reader : CdReader) (message : String)
  (picked : Option Track) (h : History)

/-- How a program that saves a picked track ends, the files that it leaves and
what happened. -/
inductive SavesPicked : Except ProgramError Unit → Files → History → Prop
  | unread (htable : medium.ReadsTable (reader.drive h .readToc) (.error err)) :
      SavesPicked (.error (.reader err)) [] (h ++ [.command .readToc (reader.drive h .readToc)])
  | missing (htable : medium.ReadsTable (reader.drive h .readToc) (.ok medium.layout.toc))
      (hpick : picked = none) :
      SavesPicked (.error (.text message)) [] (h ++ [.command .readToc (reader.drive h .readToc)])
  | unfetched (htable : medium.ReadsTable (reader.drive h .readToc) (.ok medium.layout.toc))
      (hpick : picked = some track)
      (hfails : TrackFails host reader medium.layout.toc track.number .audio
        (h ++ [.command .readToc (reader.drive h .readToc)]) events err) :
      SavesPicked (.error (.reader err)) []
        (h ++ [.command .readToc (reader.drive h .readToc)] ++ events)
  | unwritten {failure : WriteFailure}
      (htable : medium.ReadsTable (reader.drive h .readToc) (.ok medium.layout.toc))
      (hpick : picked = some track)
      (hdisk : disk [] (trackFileName track.number) (medium.trackFile track).2 = some failure) :
      SavesPicked (.error (.write failure.err))
        (failure.leave [] (trackFileName track.number) (medium.trackFile track).2)
        (h ++ [.command .readToc (reader.drive h .readToc)] ++ events)
  | saved (htable : medium.ReadsTable (reader.drive h .readToc) (.ok medium.layout.toc))
      (hpick : picked = some track)
      (hdisk : disk [] (trackFileName track.number) (medium.trackFile track).2 = none)
      (hwave : IsWaveOf (medium.trackFile track).2 (medium.trackBytes track.number)) :
      SavesPicked (.ok ()) [medium.trackFile track]
        (h ++ [.command .readToc (reader.drive h .readToc)] ++ events)

/-- What such a program may come to: the ways to end, and commands for nothing
but the table and the track. -/
structure SavesTrack (result : Except ProgramError Unit) (s : ProgramState τ) : Prop where
  ends : SavesPicked medium host disk reader message picked h result s.files s.history
  events : ∃ events, s.history = h ++ events ∧ medium.RipsOnly picked.toList events

end

section
variable {host : Host} {disk : Disk} {reader : CdReader} {pick : Toc → Option Track}
  {message : String} {fetch : Toc → Track → Program τ Bytes}

/-- A fetch after the table was read only adds commands for its track. -/
theorem FetchesTrack.ripsOnly
    (hfetches : FetchesTrack medium host reader track (.tableRead reader h) result s') :
    ∃ events, s'.history = h ++ events ∧ medium.RipsOnly (some track).toList events := by
  obtain ⟨events, hhistory, honly, -⟩ := hfetches.events
  refine ⟨_, hhistory.trans (List.append_assoc ..), ?_⟩
  exact (medium.ripsOnly_readToc [track] _).append honly

/-- Programs that fetch whole tracks end so. -/
theorem SavesFile.savesTrack {outcome : Outcome ProgramError Unit} {s' : ProgramState τ}
    (hsaves : SavesFile medium disk reader pick message trackFileName fetch h outcome s')
    (hfetched : ∀ track outcome s', pick medium.layout.toc = some track →
      (fetch medium.layout.toc track).exec (.tableRead reader h) = (outcome, s') →
      ∃ fetched, outcome = ofResult (fetched.mapError ProgramError.reader) ∧
        FetchesTrack medium host reader track (.tableRead reader h) fetched s') :
    ∃ result, outcome = ofResult result ∧
      SavesTrack medium host disk reader message (pick medium.layout.toc) h result s' := by
  have htoc := medium.ripsOnly_readToc (pick medium.layout.toc).toList (reader.drive h .readToc)
  cases hsaves with
  | unread htable => exact ⟨.error _, rfl, .unread htable, _, rfl, htoc⟩
  | missing htable hpick => exact ⟨.error _, rfl, .missing htable hpick, _, rfl, htoc⟩
  | unfetched htable hpick hran =>
    obtain ⟨fetched, heq, hfetches⟩ := hfetched _ _ _ hpick hran
    obtain ⟨err, rfl, rfl⟩ := ofResult_mapError_eq_error heq
    obtain ⟨events, hhistory, -, hfails⟩ := hfetches.events
    have honly := hfetches.ripsOnly
    rw [← hpick] at honly
    refine ⟨.error _, rfl, ?_, honly⟩
    rw [hhistory, hfetches.files_eq]
    exact .unfetched htable hpick (hfails err rfl)
  | unwritten htable hpick hran hdisk =>
    obtain ⟨fetched, heq, hfetches⟩ := hfetched _ _ _ hpick hran
    obtain rfl := ofResult_mapError_eq_ok heq
    obtain ⟨events, hhistory, -⟩ := hfetches.events
    obtain ⟨rfl, -⟩ := hfetches.data _ rfl
    have honly := hfetches.ripsOnly
    rw [← hpick] at honly
    refine ⟨.error _, rfl, ?_, honly⟩
    simp only [hfetches.files_eq] at hdisk ⊢
    rw [hhistory]
    exact .unwritten htable hpick hdisk
  | written htable hpick hran hdisk =>
    obtain ⟨fetched, heq, hfetches⟩ := hfetched _ _ _ hpick hran
    obtain rfl := ofResult_mapError_eq_ok heq
    obtain ⟨events, hhistory, -⟩ := hfetches.events
    obtain ⟨rfl, hshort⟩ := hfetches.data _ rfl
    have honly := hfetches.ripsOnly
    rw [← hpick] at honly
    refine ⟨.ok (), rfl, ?_, honly⟩
    simp only [hfetches.files_eq] at hdisk ⊢
    rw [hhistory]
    exact .saved htable hpick hdisk (waveFile_isWaveOf hshort)

/-- Programs that fetch whole tracks save the one that they pick. -/
theorem saveTrack_sound (host : Host) (disk : Disk) (hin : medium.In reader.drive)
    (message : String) (h : History)
    (hfetch : ∀ track, pick medium.layout.toc = some track → ∃ fetched s',
      (fetch medium.layout.toc track).exec (.tableRead reader h) =
        (ofResult (fetched.mapError ProgramError.reader), s') ∧
      FetchesTrack medium host reader track (.tableRead reader h) fetched s') :
    ∃ result s',
      (saveTrack host disk reader pick message trackFileName fetch).exec ⟨h, [], []⟩ =
        (ofResult result, s') ∧
      SavesFile medium disk reader pick message trackFileName fetch h (ofResult result) s' ∧
      SavesTrack medium host disk reader message (pick medium.layout.toc) h result s' := by
  have hfetched : ∀ track outcome s', pick medium.layout.toc = some track →
      (fetch medium.layout.toc track).exec (.tableRead reader h) = (outcome, s') →
      ∃ fetched, outcome = ofResult (fetched.mapError ProgramError.reader) ∧
        FetchesTrack medium host reader track (.tableRead reader h) fetched s' := by
    intro track outcome s' hpick hexec
    obtain ⟨fetched, s'', hexec', hfetches⟩ := hfetch track hpick
    cases hexec.symm.trans hexec'
    exact ⟨fetched, rfl, hfetches⟩
  obtain ⟨outcome, s', hexec, hsaves⟩ := saveTrack_exec host disk hin h (by
    intro track pcm s' hpick hexec
    obtain ⟨fetched, heq, hfetches⟩ := hfetched track _ s' hpick hexec
    obtain rfl := ofResult_mapError_eq_ok heq
    exact createWav_eq host (hfetches.data _ rfl).2)
  obtain ⟨result, rfl, htrack⟩ := hsaves.savesTrack hfetched
  exact ⟨result, s', hexec, hsaves, htrack⟩

theorem saveTrack_saves (host : Host) (disk : Disk) (hin : medium.In reader.drive)
    (message : String) (h : History)
    (hfetch : ∀ track, pick medium.layout.toc = some track → ∃ fetched s',
      (fetch medium.layout.toc track).exec (.tableRead reader h) =
        (ofResult (fetched.mapError ProgramError.reader), s') ∧
      FetchesTrack medium host reader track (.tableRead reader h) fetched s') :
    ∃ result s',
      (saveTrack host disk reader pick message trackFileName fetch).exec ⟨h, [], []⟩ =
        (ofResult result, s') ∧
      SavesTrack medium host disk reader message (pick medium.layout.toc) h result s' := by
  obtain ⟨result, s', hexec, -, hsaves⟩ := saveTrack_sound host disk hin message h hfetch
  exact ⟨result, s', hexec, hsaves⟩

end

-- ---------------------------------------------------------------------------
-- Fetching
-- ---------------------------------------------------------------------------

/-- A read of a whole track fetches it, whatever the policy. -/
theorem Program.readTrack_fetches (host : Host) {reader : CdReader} (hin : medium.In reader.drive)
    (track : Track) (options : ReadOptions) (hformat : options.format = .audio)
    (s : ProgramState τ) :
    ∃ fetched s',
      (Program.call
        (reader.readTrackWithOptions host medium.layout.toc track.number options)).exec s =
        (ofResult (fetched.mapError ProgramError.reader), s') ∧
      FetchesTrack medium host reader track s fetched s' := by
  obtain ⟨result, events, hread, honly, hdata, hfails⟩ :=
    reader.readTrackWithOptions_medium host hin track options hformat s.history
  exact ⟨result, _, Program.call_exec hread, rfl, ⟨events, rfl, honly, hfails⟩, hdata⟩

/-- What was printed by a stream of some sectors, if it was opened. -/
def ShownBy (Shown : UInt32 → Nat → List τ → Prop) (s : ProgramState τ) (whole : Bool)
    (printed : List τ) : Prop :=
  (printed = s.printed ∧ whole = false) ∨
    ∃ total p, 0 < total.toNat ∧ p ≤ total.toNat ∧ Shown total p printed ∧
      (whole = true → p = total.toNat)

/-- What was printed by the end was printed by the stream. -/
theorem SavesFile.shownBy {Shown : UInt32 → Nat → List τ → Prop} {pick : Toc → Option Track}
    {fetch : Toc → Track → Program τ Bytes} {outcome : Outcome ProgramError Unit}
    {s : ProgramState τ}
    (hsaves : SavesFile medium disk reader pick message fileName fetch h outcome s)
    (hfetched : ∀ track, pick medium.layout.toc = some track →
      ∃ (fetched : Except CdReaderError Bytes) (s' : ProgramState τ),
        (fetch medium.layout.toc track).exec (.tableRead reader h) =
          (ofResult (fetched.mapError ProgramError.reader), s') ∧
        ShownBy Shown (.tableRead reader h) fetched.isOk s'.printed) :
    ∃ whole, ShownBy Shown (.tableRead reader h) whole s.printed ∧
      ((outcome = .ok () ∨ ∃ err, outcome = .error (.error (.write err))) → whole = true) := by
  cases hsaves with
  | unread htable =>
    refine ⟨false, .inl ⟨rfl, rfl⟩, ?_⟩
    rintro (heq | ⟨err, heq⟩) <;> cases heq
  | missing htable hpick =>
    refine ⟨false, .inl ⟨rfl, rfl⟩, ?_⟩
    rintro (heq | ⟨err, heq⟩) <;> cases heq
  | unfetched htable hpick hran =>
    obtain ⟨fetched, s', hexec, hshown⟩ := hfetched _ hpick
    obtain ⟨hfault, rfl⟩ := Prod.mk.inj (hran.symm.trans hexec)
    obtain ⟨err, rfl, rfl⟩ := ofResult_mapError_eq_error hfault
    refine ⟨false, hshown, ?_⟩
    rintro (heq | ⟨err, heq⟩) <;> cases heq
  | unwritten htable hpick hran hdisk =>
    obtain ⟨fetched, s', hexec, hshown⟩ := hfetched _ hpick
    obtain ⟨hok, rfl⟩ := Prod.mk.inj (hran.symm.trans hexec)
    obtain rfl := ofResult_mapError_eq_ok hok
    exact ⟨true, hshown, fun _ => rfl⟩
  | written htable hpick hran hdisk =>
    obtain ⟨fetched, s', hexec, hshown⟩ := hfetched _ hpick
    obtain ⟨hok, rfl⟩ := Prod.mk.inj (hran.symm.trans hexec)
    obtain rfl := ofResult_mapError_eq_ok hok
    exact ⟨true, hshown, fun _ => rfl⟩

/-- A stream of a track that is drained fetches it. -/
theorem streamTrack_fetches (host : Host) {reader : CdReader} (hin : medium.In reader.drive)
    (Shown : UInt32 → Nat → List τ → Prop) (body : TrackStream → Streaming τ Unit)
    (hbody : ∀ start sectors, Shows (.opened reader start sectors .default) (Shown sectors)
      (body (.opened reader start sectors .default)))
    (track : Track) (s : ProgramState τ) (hshown : ∀ sectors, Shown sectors 0 s.printed) :
    ∃ fetched s', (streamTrack host reader body medium.layout.toc track).exec s =
        (ofResult (fetched.mapError ProgramError.reader), s') ∧
      FetchesTrack medium host reader track s fetched s' ∧
      ShownBy Shown s fetched.isOk s'.printed := by
  have hopen := CdReader.openTrackStreamWithOptions_eq host reader medium.layout.toc track.number
    .default
  unfold streamTrack CdReader.openTrackStream
  rcases trackRequest_total host medium.layout.toc track.number
      TrackStreamOptions.default.format with
    ⟨start, sectors, i, found, hrequest, hgranted⟩ | ⟨err, hrequest⟩
  · rw [hrequest] at hopen
    rw [hopen]
    obtain ⟨outcome, s', hexec, hdrains⟩ := Program.drain_exec host
      (show (TrackStream.opened reader start sectors .default).Fits from hgranted.span_lt) hin
      (hbody start sectors) (TrackStream.opened_atSector ..) s (hshown sectors)
    cases hdrains with
    | @finished events printed pcm hown hholds hprinted =>
      refine ⟨.ok pcm.bytes, ⟨s.history ++ events, s.files, printed⟩, ?_, ?_, ?_⟩
      · exact (exec_bind_ok (exec_lift _ _)).trans (exec_bind_ok hexec)
      · refine ⟨rfl, ⟨events, rfl, hgranted.ripsOnly hown rfl, ?_⟩, ?_⟩
        · intro err heq
          cases heq
        · rintro _ ⟨⟩
          exact hgranted.trackBytes_eq hholds
      · exact .inr ⟨sectors, _, hgranted.sectors_pos, Nat.le_refl _, hprinted, fun _ => rfl⟩
    | @failed p before events err printed hp hown hfails hprinted =>
      refine ⟨.error err, ⟨s.history ++ (before ++ events), s.files, printed⟩, ?_, ?_, ?_⟩
      · exact (exec_bind_ok (exec_lift _ _)).trans (exec_bind_error hexec)
      · refine ⟨rfl, ⟨before ++ events, rfl, hgranted.ripsOnly hown rfl, ?_⟩, ?_⟩
        · rintro _ ⟨⟩
          exact .unread hrequest (Cursor.one_le_next _ hp) (Cursor.add_next_le _ (Nat.le_of_lt hp))
            hfails
        · intro data heq
          cases heq
      · refine .inr ⟨sectors, p, hgranted.sectors_pos, Nat.le_of_lt hp, hprinted, ?_⟩
        intro hwhole
        cases hwhole
  · rw [hrequest] at hopen
    rw [hopen]
    refine ⟨.error err, s, rfl, ⟨rfl, ⟨[], ?_, medium.ripsOnly_nil _, ?_⟩, ?_⟩, .inl ⟨rfl, rfl⟩⟩
    · rw [List.append_nil]
    · rintro _ ⟨⟩
      exact .refused hrequest
    · intro data heq
      cases heq

-- ---------------------------------------------------------------------------
-- The programs
-- ---------------------------------------------------------------------------

/-- The examples that save a whole track. -/
inductive Saver
  | readFirstTrack
  | customRetry
  | streamLastTrack

def Saver.run : Saver → Host → Disk → CdReader → Program Empty Unit
  | .readFirstTrack => CdDaReader.readFirstTrack
  | .customRetry => CdDaReader.customRetry
  | .streamLastTrack => CdDaReader.streamLastTrack

def Saver.pick : Saver → Toc → Option Track
  | .readFirstTrack | .customRetry => Toc.firstAudio
  | .streamLastTrack => Toc.lastAudio

/-- Between two passes that print nothing there is nothing to hand on. -/
theorem shows_pure (self : TrackStream) :
    Shows self (fun _ (_ : List τ) => True) (pure ()) :=
  fun _ _ program _ _ _ => ⟨program.printed, rfl, trivial⟩

/-- On any platform each of the programs ends. It saves the whole of the track
it picks as a wave, whichever way it fetches it; or there is no such track, or
the table, a read or the write failed, and only the write leaves anything
behind. Nothing but the table and the track is read. -/
theorem savers_platforms {platform : Platform} (hhonours : platform.Honours medium)
    (saver : Saver) (host : Host) (disk : Disk) (h : History) :
    ∃ result s', (saver.run host disk platform.reader).exec ⟨h, [], []⟩ = (ofResult result, s') ∧
      SavesTrack medium host disk platform.reader "no audio tracks found"
        (saver.pick medium.layout.toc) h result s' := by
  have hin := hhonours.in_drive
  cases saver with
  | readFirstTrack =>
    apply saveTrack_saves host disk hin
    intro track _
    exact Program.readTrack_fetches host hin track .default rfl _
  | customRetry =>
    apply saveTrack_saves host disk hin
    intro track _
    exact Program.readTrack_fetches host hin track _ rfl _
  | streamLastTrack =>
    apply saveTrack_saves host disk hin
    intro track _
    obtain ⟨fetched, s', hexec, hfetches, -⟩ := streamTrack_fetches host hin (fun _ _ _ => True)
      (fun _ => pure ()) (fun _ _ => shows_pure _) track (.tableRead platform.reader h)
      fun _ => trivial
    exact ⟨fetched, s', hexec, hfetches⟩

theorem savers_platforms_silent :
    ∃ result s', (streamLastTrack .desktop (fun _ _ _ => none) Platform.silent.reader).exec
        ⟨[], [], []⟩ = (ofResult result, s') ∧
      SavesTrack Medium.silent .desktop (fun _ _ _ => none) Platform.silent.reader
        "no audio tracks found" Medium.silent.layout.toc.lastAudio [] result s' :=
  savers_platforms Platform.silent_honours .streamLastTrack .desktop _ []

end CdDaReader
