import CdDaReader.Program
import CdDaReader.Stream.Sharing

/-!
# Draining a stream in a program

The loop `while let Some(chunk) = stream.next_chunk()?`, which collects the
chunks and, after each, runs the rest of its body. The stream is at a position
between two passes, so what was collected are the medium's sectors up to
there, and at the end the whole track.
-/

namespace CdDaReader

open Rust

/-- The state of a program and the stream that it has open. -/
structure StreamingState (τ : Type) where
  stream : TrackStream
  program : ProgramState τ

abbrev Streaming (τ α : Type) := Exec (StreamingState τ) ProgramError α

namespace Streaming

variable {τ α : Type}

/-- `?` on a call of the stream. -/
def call (x : StreamRun α) : Streaming τ α :=
  (x.zoom (fun s : StreamingState τ => ⟨s.stream, s.program.history⟩) fun s state =>
    ⟨state.stream, { s.program with history := state.history }⟩).mapErr ProgramError.reader

def print (line : τ) : Streaming τ Unit :=
  modify fun s => { s with program := { s.program with printed := s.program.printed ++ [line] } }

end Streaming

/-- The bytes that the loop collected; it is finished when there is no chunk. -/
structure Pcm where
  bytes : Bytes
  finished : Bool

section
variable {τ : Type} (host : Host) (body : Streaming τ Unit)

/-- One pass of the loop; `body` is what follows `pcm.extend_from_slice`. -/
def drainPass (pcm : Pcm) : Streaming τ Pcm := do
  match ← Streaming.call (TrackStream.nextChunk host) with
  | none => return { pcm with finished := true }
  | some chunk =>
    body
    return { pcm with bytes := pcm.bytes ++ chunk }

/-- Every pass moves the stream on or ends, so its sectors bound the passes. -/
def drainLoop (stream : TrackStream) : Streaming τ Pcm :=
  whileLoop (throw .diverged) (fun pcm => !pcm.finished) (drainPass host body)
    (stream.totalSectors.toNat + 2) ⟨[], false⟩

/-- The loop on a stream that the program opened before. -/
def Program.drain (stream : TrackStream) : Program τ Pcm :=
  (drainLoop host body stream).zoom (fun s => ⟨stream, s⟩) fun _ s => s.program

end

-- ---------------------------------------------------------------------------
-- What draining comes to
-- ---------------------------------------------------------------------------

variable {τ : Type} {medium : Medium} {host : Host} {self : TrackStream}
  {Shown : Nat → List τ → Prop} {body : Streaming τ Unit}

/-- The body only prints, and hands on what holds of the lines printed by the
time the stream stands at a position. -/
def Shows (self : TrackStream) (Shown : Nat → List τ → Prop) (body : Streaming τ Unit) : Prop :=
  ∀ p q program, q < p → p ≤ self.totalSectors.toNat → Shown q program.printed →
    ∃ printed, body.exec ⟨self.atSector p, program⟩ =
        (.ok (), ⟨self.atSector p, { program with printed }⟩) ∧
      Shown p printed

/-- Sectors of the stream's track only. -/
def TrackStream.ReadsOwn (self : TrackStream) (events : List Event) : Prop :=
  ReadsWithin self.options.format self.startLba.toNat
    (self.startLba.toNat + self.totalSectors.toNat) events

/-- The chunk after a position cannot be read. -/
def TrackStream.NextFails (host : Host) (self : TrackStream) (p : Nat) (h : History)
    (events : List Event) (err : CdReaderError) : Prop :=
  ReadFails host self.options.format (self.reader.readCdChunk self.options.format)
    (self.startLba.toNat + p) (self.cursor.next p) h events err

/-- How draining a stream ends: with the whole track, or at a chunk that
cannot be read. -/
inductive Drains (medium : Medium) (host : Host) (self : TrackStream)
    (Shown : Nat → List τ → Prop) (s : ProgramState τ) :
    Outcome ProgramError Pcm → ProgramState τ → Prop
  | finished (hown : self.ReadsOwn events)
      (hholds : medium.Holds self.options.format self.startLba.toNat self.totalSectors.toNat
        pcm.bytes)
      (hshown : Shown self.totalSectors.toNat printed) :
      Drains medium host self Shown s (.ok pcm) ⟨s.history ++ events, s.files, printed⟩
  | failed (hp : p < self.totalSectors.toNat) (hown : self.ReadsOwn (before ++ events))
      (hfails : self.NextFails host p (s.history ++ before) events err)
      (hshown : Shown p printed) :
      Drains medium host self Shown s (.error (.error (.reader err)))
        ⟨s.history ++ (before ++ events), s.files, printed⟩

/-- The state between two passes. -/
def StreamingState.At (medium : Medium) (self : TrackStream) (Shown : Nat → List τ → Prop)
    (start : ProgramState τ) (pcm : Pcm) (s : StreamingState τ) : Prop :=
  ∃ p events printed, s = ⟨self.atSector p, ⟨start.history ++ events, start.files, printed⟩⟩ ∧
    p ≤ self.totalSectors.toNat ∧ (pcm.finished = true → p = self.totalSectors.toNat) ∧
    medium.Holds self.options.format self.startLba.toNat p pcm.bytes ∧
    self.ReadsOwn events ∧ Shown p printed

/-- The passes that are left. -/
def StreamingState.passesLeft (pcm : Pcm) (s : StreamingState τ) : Nat :=
  if pcm.finished then 0 else s.stream.remainingSectors.toNat + 1

theorem StreamingState.passesLeft_at (self : TrackStream) (p : Nat) (bytes : Bytes)
    (program : ProgramState τ) :
    StreamingState.passesLeft ⟨bytes, false⟩ ⟨self.atSector p, program⟩ =
      self.totalSectors.toNat - p + 1 := by
  simp [passesLeft, TrackStream.toNat_remainingSectors_at]

theorem Streaming.call_exec {x : StreamRun α} {s : StreamingState τ}
    (h : x.exec ⟨s.stream, s.program.history⟩ = (ofResult result, state)) :
    (Streaming.call x).exec s = (ofResult (result.mapError ProgramError.reader),
      ⟨state.stream, { s.program with history := state.history }⟩) :=
  exec_mapErr (exec_zoom h)

theorem TrackStream.readNext_fails (hfits : self.Fits) (hp : p ≤ self.totalSectors.toNat)
    (hread : (self.readNext host p).exec h = (.error (.error err), h ++ events)) :
    self.NextFails host p h events err := by
  have hle : p + self.cursor.next p ≤ self.totalSectors.toNat := self.cursor.add_next_le hp
  have hspan : self.startLba.toNat + self.totalSectors.toNat < 2 ^ 32 := hfits
  have hfails := readSectorsChunked_fails hread
  rwa [toNat_ofNat32 (by omega), toNat_ofNat32 (by omega)] at hfails

/-- A call of `next_chunk` before the end, as the loop sees it. -/
theorem Streaming.nextChunk_at (host : Host) (hfits : self.Fits)
    (hin : medium.In self.reader.drive) (hp : p < self.totalSectors.toNat)
    (program : ProgramState τ) :
    ∃ events, self.ReadsOwn events ∧
      ((∃ bytes, (Streaming.call (TrackStream.nextChunk host)).exec ⟨self.atSector p, program⟩ =
          (.ok (some bytes), ⟨self.atSector (p + self.cursor.next p),
            { program with history := program.history ++ events }⟩) ∧
        medium.Holds self.options.format (self.startLba.toNat + p) (self.cursor.next p) bytes) ∨
      ∃ err, (Streaming.call (TrackStream.nextChunk host)).exec ⟨self.atSector p, program⟩ =
          (.error (.error (.reader err)), ⟨self.atSector p,
            { program with history := program.history ++ events }⟩) ∧
        self.NextFails host p program.history events err) := by
  obtain ⟨events, answer, hread, hreads, -, hexec⟩ :=
    TrackStream.nextChunk_at host hfits hp program.history
  have hle : p + self.cursor.next p ≤ self.totalSectors.toNat :=
    self.cursor.add_next_le (Nat.le_of_lt hp)
  refine ⟨events, hreads.mono (Nat.le_add_right ..) ?_, ?_⟩
  · rw [Nat.add_assoc]
    exact Nat.add_le_add_left hle _
  cases answer with
  | ok bytes =>
    have hchunk : (TrackStream.nextChunk host).exec ⟨self.atSector p, program.history⟩ =
        (ofResult (.ok (some bytes)), _) := hexec
    have hcall := Streaming.call_exec (s := ⟨self.atSector p, program⟩) hchunk
    refine .inl ⟨bytes, hcall, ?_⟩
    exact TrackStream.readNext_holds hin hfits (Nat.le_of_lt hp) hread
  | error err =>
    have hchunk : (TrackStream.nextChunk host).exec ⟨self.atSector p, program.history⟩ =
        (ofResult (.error err), _) := hexec
    have hcall := Streaming.call_exec (s := ⟨self.atSector p, program⟩) hchunk
    refine .inr ⟨err, hcall, ?_⟩
    exact TrackStream.readNext_fails hfits (Nat.le_of_lt hp) hread

theorem Streaming.nextChunk_end (host : Host) (self : TrackStream) (program : ProgramState τ) :
    (Streaming.call (TrackStream.nextChunk host)).exec
        ⟨self.atSector self.totalSectors.toNat, program⟩ =
      (.ok none, ⟨self.atSector self.totalSectors.toNat, program⟩) := by
  have hchunk : (TrackStream.nextChunk host).exec
      ⟨self.atSector self.totalSectors.toNat, program.history⟩ = (ofResult (.ok none), _) :=
    TrackStream.nextChunk_end host self program.history
  have hcall := Streaming.call_exec (s := ⟨self.atSector self.totalSectors.toNat, program⟩) hchunk
  exact hcall

-- ---------------------------------------------------------------------------
-- The loop
-- ---------------------------------------------------------------------------

theorem drainPass_at (hfits : self.Fits) (hin : medium.In self.reader.drive)
    (hbody : Shows self Shown body) (start : ProgramState τ) (pcm : Pcm) (s : StreamingState τ)
    (hat : s.At medium self Shown start pcm) (hcond : (!pcm.finished) = true) :
    (∃ pcm' s', (drainPass host body pcm).exec s = (.ok pcm', s') ∧
      s'.At medium self Shown start pcm' ∧ s'.passesLeft pcm' < s.passesLeft pcm) ∨
    ∃ e s', (drainPass host body pcm).exec s = (.error e, s') ∧
      Drains medium host self Shown start (.error e) s'.program := by
  obtain ⟨p, before, printed, rfl, hp, -, hholds, hown, hshown⟩ := hat
  obtain ⟨collected, finished⟩ := pcm
  obtain rfl : finished = false := by simpa using hcond
  have hleft := StreamingState.passesLeft_at self p collected
    ⟨start.history ++ before, start.files, printed⟩
  unfold drainPass
  rcases Nat.lt_or_ge p self.totalSectors.toNat with hlt | hge
  · obtain ⟨events, hevents, ⟨bytes, hexec, hchunk⟩ | ⟨err, hexec, hfails⟩⟩ :=
      Streaming.nextChunk_at host hfits hin hlt ⟨start.history ++ before, start.files, printed⟩
    · have hone := self.cursor.one_le_next hlt
      have hle : p + self.cursor.next p ≤ self.totalSectors.toNat := self.cursor.add_next_le hp
      obtain ⟨printed', hprint, hshown'⟩ := hbody (p + self.cursor.next p) p
        ⟨start.history ++ before ++ events, start.files, printed⟩ (by omega) hle hshown
      rw [exec_bind_ok hexec]
      simp only
      rw [exec_bind_ok hprint]
      refine .inl ⟨_, _, rfl, ⟨_, before ++ events, printed', by rw [List.append_assoc], hle, nofun,
        hholds.append hchunk, hown.append hevents, hshown'⟩, ?_⟩
      rw [hleft, StreamingState.passesLeft_at]
      omega
    · rw [exec_bind_error hexec]
      refine .inr ⟨_, _, rfl, ?_⟩
      rw [List.append_assoc]
      exact .failed hlt (hown.append hevents) hfails hshown
  · obtain rfl : p = self.totalSectors.toNat := Nat.le_antisymm hp hge
    rw [exec_bind_ok (Streaming.nextChunk_end host self _)]
    refine .inl ⟨_, _, rfl, ⟨_, before, printed, rfl, hp, fun _ => rfl, hholds, hown, hshown⟩, ?_⟩
    rw [hleft]
    exact Nat.succ_pos _

/-- Draining a stream that stands at its start ends. -/
theorem Program.drain_exec (host : Host) (hfits : self.Fits) (hin : medium.In self.reader.drive)
    (hbody : Shows self Shown body) (hstart : self.atSector 0 = self) (s : ProgramState τ)
    (hshown : Shown 0 s.printed) :
    ∃ outcome s', (Program.drain host body self).exec s = (outcome, s') ∧
      Drains medium host self Shown s outcome s' := by
  have hat : StreamingState.At medium self Shown s ⟨[], false⟩ ⟨self, s⟩ := by
    refine ⟨0, [], s.printed, ?_, Nat.zero_le _, nofun, medium.holds_nil _ _, readsWithin_nil,
      hshown⟩
    rw [hstart, List.append_nil]
  have hleft : StreamingState.passesLeft ⟨[], false⟩ ⟨self, s⟩ < self.totalSectors.toNat + 2 := by
    have hpasses := StreamingState.passesLeft_at self 0 [] s
    rw [hstart] at hpasses
    omega
  rcases exec_whileLoop (fun pcm s' => StreamingState.At medium self Shown s pcm s')
      (fun pcm s' => s'.passesLeft pcm)
      (fun e s' => Drains medium host self Shown s (.error e) s'.program)
      (fun pcm s' => drainPass_at hfits hin hbody s pcm s') hat hleft with
    ⟨pcm, _, hexec, ⟨p, events, printed, rfl, -, hend, hholds, hown, hshown⟩, hfinished⟩ |
      ⟨e, s', hexec, hdrains⟩
  · obtain rfl : p = self.totalSectors.toNat := hend (by simpa using hfinished)
    exact ⟨_, _, exec_zoom hexec, .finished hown hholds hshown⟩
  · exact ⟨_, _, exec_zoom hexec, hdrains⟩

end CdDaReader
