import CdDaReader.Reader.ReadToc
import CdDaReader.Stream.Refinement
import Mathlib.Data.List.Forall2

/-!
# Streams that share a reader

A stream borrows its reader, so any number of them may be open at once, with
reads of ranges, tracks and tables in between. All send their commands to one
drive, in one history. `SharedStep` is a step of the cursors of the streams:
an operation moves the cursor it is for and no other, and what it returns is
the medium's. `SharedOp.run_stands` is the simulation, for every interleaving.
-/

namespace CdDaReader

open Rust

-- ---------------------------------------------------------------------------
-- Programs with several streams
-- ---------------------------------------------------------------------------

structure Shared where
  streams : List TrackStream
  history : History

/-- What a program may do with a reader; streams are numbered in the order in
which they were opened. -/
inductive SharedOp
  | openTrackStream (toc : Toc) (trackNo : UInt8) (options : TrackStreamOptions)
  | onStream (i : Nat) (op : StreamOp)
  | readSectorRange (startLba sectors : UInt32) (options : ReadOptions)
  | readTrack (toc : Toc) (trackNo : UInt8) (options : ReadOptions)
  | readToc

inductive SharedReply
  | opened (result : Outcome CdReaderError Unit)
  | onStream (result : Outcome CdReaderError Reply)
  | absent
  | bytes (result : Outcome CdReaderError Bytes)
  | toc (result : Outcome CdReaderError Toc)

def SharedOp.run (host : Host) (reader : CdReader) : SharedOp → Shared → SharedReply × Shared
  | .openTrackStream toc trackNo options, s =>
    match reader.openTrackStreamWithOptions host toc trackNo options with
    | .ok stream => (.opened (.ok ()), { s with streams := s.streams ++ [stream] })
    | .error fault => (.opened (.error fault), s)
  | .onStream i op, s =>
    match s.streams[i]? with
    | some stream =>
      let (result, s') := (op.run host).exec ⟨stream, s.history⟩
      (.onStream result, ⟨s.streams.set i s'.stream, s'.history⟩)
    | none => (.absent, s)
  | .readSectorRange startLba sectors options, s =>
    let (result, history) := (reader.readSectorRange host startLba sectors options).exec s.history
    (.bytes result, { s with history })
  | .readTrack toc trackNo options, s =>
    let (result, history) := (reader.readTrackWithOptions host toc trackNo options).exec s.history
    (.bytes result, { s with history })
  | .readToc, s =>
    let (result, history) := (reader.readToc host).exec s.history
    (.toc result, { s with history })

/-- The operations with their replies, and the state after them. -/
def Shared.run (host : Host) (reader : CdReader) (s : Shared) :
    List SharedOp → List (SharedOp × SharedReply) × Shared
  | [] => ([], s)
  | op :: ops =>
    let (reply, s') := op.run host reader s
    let (trace, s'') := s'.run host reader ops
    ((op, reply) :: trace, s'')

-- ---------------------------------------------------------------------------
-- Cursors side by side
-- ---------------------------------------------------------------------------

structure Placed where
  cursor : Cursor
  position : Nat

def TrackStreamOptions.cursor (options : TrackStreamOptions) (start sectors : UInt32) : Cursor where
  start := start.toNat
  total := sectors.toNat
  size := options.sectorsPerChunk.toNat
  format := options.format
  one_le_size := options.one_le_sectorsPerChunk

def Medium.content (medium : Medium) (c : Cursor) (p m : Nat) (bytes : Bytes) : Prop :=
  medium.Holds c.format (c.start + p) m bytes

/-- A read of a range ends, stays in it, and returns the medium's sectors. -/
structure ReadsRange (medium : Medium) (format : SectorReadFormat) (start sectors : UInt32)
    (events : List Event) (result : Answer) : Prop where
  within : ReadsWithin format start.toNat (start.toNat + sectors.toNat) events
  holds : ∀ out, result = .ok out → medium.Holds format start.toNat sectors.toNat out

inductive SharedStep (medium : Medium) (host : Host) :
    List Placed → SharedOp → List Event → SharedReply → List Placed → Prop
  | opened (hbounds : getTrackBounds host toc trackNo = .ok (start, sectors)) :
      SharedStep medium host placed (.openTrackStream toc trackNo options) [] (.opened (.ok ()))
        (placed ++ [⟨options.cursor start sectors, 0⟩])
  | notOpened (err : CdReaderError) :
      SharedStep medium host placed (.openTrackStream toc trackNo options) []
        (.opened (.error (.error err))) placed
  | onStream (hi : placed[i]? = some ⟨c, p⟩)
      (hstep : c.Step (medium.content c) p op events result q) :
      SharedStep medium host placed (.onStream i op) events (.onStream result) (placed.set i ⟨c, q⟩)
  | absent (hi : placed[i]? = none) :
      SharedStep medium host placed (.onStream i op) [] .absent placed
  | range (hreads : ReadsRange medium options.format start sectors events result) :
      SharedStep medium host placed (.readSectorRange start sectors options) events
        (.bytes (ofResult result)) placed
  | track (hbounds : getTrackBounds host toc trackNo = .ok (start, sectors))
      (hreads : ReadsRange medium options.format start sectors events result) :
      SharedStep medium host placed (.readTrack toc trackNo options) events
        (.bytes (ofResult result)) placed
  | noTrack (err : CdReaderError) :
      SharedStep medium host placed (.readTrack toc trackNo options) []
        (.bytes (.error (.error err))) placed
  | toc (hreads : medium.ReadsTable answer result) :
      SharedStep medium host placed .readToc [.command .readToc answer] (.toc (ofResult result))
        placed

/-- Steps one after the other, with their events in order. -/
inductive SharedRun (medium : Medium) (host : Host) :
    List Placed → List (SharedOp × SharedReply) → List Event → List Placed → Prop
  | done : SharedRun medium host placed [] [] placed
  | step (hstep : SharedStep medium host placed op events reply placed')
      (rest : SharedRun medium host placed' trace events' placed'') :
      SharedRun medium host placed ((op, reply) :: trace) (events ++ events') placed''

/-- The stream over the reader whose fields stand for a position. -/
inductive Stands (reader : CdReader) : Placed → TrackStream → Prop
  | at {self : TrackStream} (hreader : self.reader = reader) (hfits : self.Fits)
      (hp : p ≤ self.totalSectors.toNat) : Stands reader ⟨self.cursor, p⟩ (self.atSector p)

-- ---------------------------------------------------------------------------
-- Lists side by side
-- ---------------------------------------------------------------------------

theorem forall₂_getElem? {R : α → β → Prop} {as : List α} {bs : List β}
    (h : List.Forall₂ R as bs) (i : Nat) :
    (as[i]? = none ∧ bs[i]? = none) ∨ ∃ a b, as[i]? = some a ∧ bs[i]? = some b ∧ R a b := by
  induction h generalizing i with
  | nil => simp
  | cons hab _ ih =>
    cases i with
    | zero => exact .inr ⟨_, _, rfl, rfl, hab⟩
    | succ i => simpa using ih i

theorem forall₂_set {R : α → β → Prop} {as : List α} {bs : List β} (h : List.Forall₂ R as bs)
    (i : Nat) (hab : R a b) : List.Forall₂ R (as.set i a) (bs.set i b) := by
  induction h generalizing i with
  | nil => exact .nil
  | cons hcd hrest ih =>
    cases i with
    | zero => exact .cons hab hrest
    | succ i => exact .cons hcd (ih i)

-- ---------------------------------------------------------------------------
-- The simulation
-- ---------------------------------------------------------------------------

/-- Only reads depend on what chunks may be. -/
theorem Cursor.Step.of_ne {c : Cursor} (h : c.Step content p op events result q)
    (hop : op ≠ .nextChunk) : c.Step content' p op events result q := by
  cases h with
  | finished | served | failed => exact absurd rfl hop
  | sought hk => exact .sought hk
  | outOfBounds hk => exact .outOfBounds hk
  | soughtTime hf hn => exact .soughtTime hf hn
  | notATime hn => exact .notATime hn
  | sector hk => exact .sector hk

/-- The chunk after a position is the medium's. -/
theorem TrackStream.readNext_holds {medium : Medium} {host : Host} {self : TrackStream}
    (hin : medium.In self.reader.drive) (hfits : self.Fits) (hp : p ≤ self.totalSectors.toNat)
    (hread : (self.readNext host p).exec h = (.ok bytes, h')) :
    medium.content self.cursor p (self.cursor.next p) bytes := by
  have hle : p + self.cursor.next p ≤ self.totalSectors.toNat := self.cursor.add_next_le hp
  have hspan : self.startLba.toNat + self.totalSectors.toNat < 2 ^ 32 := hfits
  have hholds := CdReader.readSectorRange_holds hin hread
  rwa [toNat_ofNat32 (by omega), toNat_ofNat32 (by omega)] at hholds

section
variable {medium : Medium} {reader : CdReader} (hin : medium.In reader.drive) (host : Host)
include hin

theorem CdReader.readSectorRange_reads (start sectors : UInt32) (options : ReadOptions)
    (h : History) : ∃ events result,
      (reader.readSectorRange host start sectors options).exec h =
        (ofResult result, h ++ events) ∧
      ReadsRange medium options.format start sectors events result := by
  obtain ⟨events, result, hexec, hread⟩ := readSectorRange_medium host hin start sectors options h
  exact ⟨events, result, hexec, hread.within, hread.data⟩

/-- From the stream at a position an operation takes a step of the cursor, and
a chunk is the medium's. -/
theorem StreamOp.run_holds {self : TrackStream} (hreader : self.reader = reader)
    (hfits : self.Fits) (hp : p ≤ self.totalSectors.toNat) (op : StreamOp) (h : History) :
    ∃ events result q, self.cursor.Step (medium.content self.cursor) p op events result q ∧
      (op.run host).exec ⟨self.atSector p, h⟩ = (result, ⟨self.atSector q, h ++ events⟩) := by
  obtain ⟨events, result, q, hstep, hexec⟩ := op.run_at host hfits hp h
  refine ⟨events, result, q, ?_, hexec⟩
  cases op with
  | nextChunk =>
    cases hstep with
    | finished => exact .finished
    | failed hlt hreads => exact .failed hlt hreads
    | @served _ bytes _ hlt _ hreads =>
      refine .served hlt ?_ hreads
      obtain ⟨_, result, hread, -, -, hchunk⟩ := TrackStream.nextChunk_at host hfits hlt h
      cases result with
      | ok bytes' =>
        have hsame := congrArg Prod.fst ((exec_bind_ok hchunk).symm.trans hexec)
        simp only [exec_pure, Except.ok.injEq, Reply.chunk.injEq, Option.some.injEq] at hsame
        rw [← hsame]
        exact TrackStream.readNext_holds (hreader ▸ hin) hfits (Nat.le_of_lt hlt) hread
      | error err => cases (exec_bind_error hchunk).symm.trans hexec
  | _ => exact hstep.of_ne (by simp)

theorem SharedOp.run_stands {placed : List Placed} {s : Shared}
    (h : List.Forall₂ (Stands reader) placed s.streams) (op : SharedOp) :
    ∃ events reply placed' streams, SharedStep medium host placed op events reply placed' ∧
      op.run host reader s = (reply, ⟨streams, s.history ++ events⟩) ∧
      List.Forall₂ (Stands reader) placed' streams := by
  cases op with
  | openTrackStream toc trackNo options =>
    simp only [run, CdReader.openTrackStreamWithOptions_eq]
    rcases trackRequest_total host toc trackNo options.format with
      ⟨start, sectors, i, track, hrequest, -⟩ | ⟨err, hrequest⟩
    · have hstands : Stands reader ⟨options.cursor start sectors, 0⟩
          (.opened reader start sectors options) := by
        rw [← TrackStream.opened_atSector]
        exact .at rfl (TrackStream.opened_fits reader options hrequest) (Nat.zero_le _)
      refine ⟨[], _, _, _, .opened (getTrackBounds_of_request hrequest), ?_,
        List.rel_append h (.cons hstands .nil)⟩
      rw [hrequest, List.append_nil]
    · refine ⟨[], _, _, _, .notOpened err, ?_, h⟩
      rw [hrequest, List.append_nil]
  | onStream i op =>
    simp only [run]
    rcases forall₂_getElem? h i with ⟨hplaced, hstream⟩ | ⟨_, _, hplaced, hstream, hstands⟩
    · refine ⟨[], _, _, _, .absent hplaced, ?_, h⟩
      rw [hstream, List.append_nil]
    · obtain ⟨hreader, hfits, hp⟩ := hstands
      obtain ⟨events, result, q, hstep, hexec⟩ :=
        op.run_holds hin host hreader hfits hp s.history
      refine ⟨events, _, _, _, .onStream hplaced hstep, ?_,
        forall₂_set h i (.at hreader hfits (hstep.le_total hp))⟩
      rw [hstream]
      simp only [hexec]
  | readSectorRange start sectors options =>
    obtain ⟨events, result, hexec, hreads⟩ :=
      CdReader.readSectorRange_reads hin host start sectors options s.history
    refine ⟨events, _, _, _, .range hreads, ?_, h⟩
    simp only [run, hexec]
  | readTrack toc trackNo options =>
    simp only [run, CdReader.readTrackWithOptions_exec]
    rcases trackRequest_total host toc trackNo options.format with
      ⟨start, sectors, i, track, hrequest, -⟩ | ⟨err, hrequest⟩
    · obtain ⟨events, result, hexec, hreads⟩ :=
        CdReader.readSectorRange_reads hin host start sectors options s.history
      refine ⟨events, _, _, _, .track (getTrackBounds_of_request hrequest) hreads, ?_, h⟩
      simp only [hrequest, hexec]
    · refine ⟨[], _, _, _, .noTrack err, ?_, h⟩
      simp only [hrequest, List.append_nil]
  | readToc =>
    obtain ⟨result, hexec, hreads⟩ := CdReader.readToc_medium host hin s.history
    refine ⟨_, _, _, _, .toc hreads, ?_, h⟩
    simp only [run, hexec]

theorem Shared.run_stands {placed : List Placed} {s : Shared}
    (h : List.Forall₂ (Stands reader) placed s.streams) (ops : List SharedOp) :
    ∃ trace events placed' streams, SharedRun medium host placed trace events placed' ∧
      trace.map Prod.fst = ops ∧
      s.run host reader ops = (trace, ⟨streams, s.history ++ events⟩) ∧
      List.Forall₂ (Stands reader) placed' streams := by
  induction ops generalizing placed s with
  | nil =>
    refine ⟨[], [], placed, s.streams, .done, rfl, ?_, h⟩
    rw [List.append_nil]
    rfl
  | cons op ops ih =>
    obtain ⟨events, reply, placed', streams, hstep, hrun, hstands⟩ :=
      SharedOp.run_stands hin host h op
    obtain ⟨trace, events', placed'', streams', hrest, hops, hrun', hstands'⟩ :=
      ih (s := ⟨streams, s.history ++ events⟩) hstands
    refine ⟨_, _, placed'', streams', .step hstep hrest, by simp [hops], ?_, hstands'⟩
    simp only [run, hrun, hrun', List.append_assoc]

end

-- ---------------------------------------------------------------------------
-- What one stream delivers
-- ---------------------------------------------------------------------------

/-- The bytes that an operation hands to the reader of stream `i`. -/
def chunkFor (i : Nat) : SharedOp × SharedReply → Bytes
  | (.onStream j _, .onStream (.ok (.chunk (some bytes)))) => if j = i then bytes else []
  | _ => []

def delivered (i : Nat) (trace : List (SharedOp × SharedReply)) : Bytes :=
  trace.flatMap (chunkFor i)

/-- Stream `i` says that its track is read. -/
def finishedAt (i : Nat) : SharedOp × SharedReply :=
  (.onStream i .nextChunk, .onStream (.ok (.chunk none)))

/-- The stream at `i` has moved from `p` to `q`, and handed over what is
between. -/
structure Delivers (medium : Medium) (c : Cursor) (i p q : Nat) (placed : List Placed)
    (bytes : Bytes) : Prop where
  placed_eq : placed[i]? = some ⟨c, q⟩
  le : p ≤ q
  le_total : q ≤ c.total
  content : medium.content c p (q - p) bytes

section
variable {medium : Medium} {host : Host} {placed placed' : List Placed}

theorem Delivers.still (hi : placed[i]? = some ⟨c, p⟩) (hp : p ≤ c.total) :
    Delivers medium c i p p placed [] := by
  refine ⟨hi, Nat.le_refl p, hp, ?_⟩
  rw [Nat.sub_self]
  exact medium.holds_nil c.format _

theorem SharedStep.delivers (h : SharedStep medium host placed op events reply placed')
    (hi : placed[i]? = some ⟨c, p⟩) (hp : p ≤ c.total)
    (hnext : ∀ o, op = .onStream i o → o = .nextChunk) :
    ∃ q, Delivers medium c i p q placed' (chunkFor i (op, reply)) ∧
      ((op, reply) = finishedAt i → q = c.total) := by
  cases h with
  | opened =>
    obtain ⟨hlt, -⟩ := List.getElem?_eq_some_iff.mp hi
    rw [← List.getElem?_append_left hlt] at hi
    exact ⟨p, .still hi hp, nofun⟩
  | notOpened | range | track | noTrack | toc => exact ⟨p, .still hi hp, nofun⟩
  | absent => exact ⟨p, .still hi hp, by simp [finishedAt]⟩
  | onStream hj hstep =>
    rename_i j o result c' q p'
    by_cases hji : j = i
    · subst hji
      cases hi.symm.trans hj
      cases hnext o rfl
      have hset : (placed.set j ⟨c, q⟩)[j]? = some ⟨c, q⟩ := by
        obtain ⟨hlt, -⟩ := List.getElem?_eq_some_iff.mp hi
        simp [hlt]
      refine ⟨q, ?_, ?_⟩
      · cases hstep with
        | finished => exact .still hset hp
        | failed => exact .still hset hp
        | @served _ bytes _ hlt hc =>
          refine ⟨hset, Nat.le_add_right .., c.add_next_le hp, ?_⟩
          simpa [chunkFor] using hc
      · intro hfinished
        cases hstep with
        | finished => rfl
        | failed => simp [finishedAt] at hfinished
        | served => simp [finishedAt] at hfinished
    · have hother : chunkFor i (.onStream j o, .onStream result) = [] := by
        unfold chunkFor
        split <;> simp_all
      have hset : (placed.set j ⟨c', q⟩)[i]? = some ⟨c, p⟩ := by
        rw [List.getElem?_set_ne hji]
        exact hi
      rw [hother]
      refine ⟨p, .still hset hp, ?_⟩
      intro hfinished
      cases hfinished
      exact absurd rfl hji

theorem SharedRun.delivers (h : SharedRun medium host placed trace events placed')
    (hi : placed[i]? = some ⟨c, p⟩) (hp : p ≤ c.total)
    (hnext : ∀ o, .onStream i o ∈ trace.map Prod.fst → o = .nextChunk) :
    ∃ q, Delivers medium c i p q placed' (delivered i trace) ∧
      (finishedAt i ∈ trace → q = c.total) := by
  induction h generalizing p with
  | done => exact ⟨p, .still hi hp, nofun⟩
  | @step placed op _ reply _ trace _ _ hstep _ ih =>
    obtain ⟨q, hfirst, hdone⟩ :=
      hstep.delivers hi hp fun o hop => hnext o (by simp [hop])
    obtain ⟨r, hrest, hdone'⟩ :=
      ih hfirst.placed_eq hfirst.le_total fun o hmem => hnext o (List.mem_cons_of_mem _ hmem)
    refine ⟨r, ?_, ?_⟩
    · refine ⟨hrest.placed_eq, Nat.le_trans hfirst.le hrest.le, hrest.le_total, ?_⟩
      have hsplit : r - p = (q - p) + (r - q) := by
        have hpq := hfirst.le
        have hqr := hrest.le
        omega
      have hnextPart := hrest.content
      have hlba : c.start + q = c.start + p + (q - p) := by
        have hpq := hfirst.le
        omega
      rw [hsplit]
      unfold Medium.content at hnextPart ⊢
      rw [hlba] at hnextPart
      exact hfirst.content.append hnextPart
    · intro hmem
      rcases List.mem_cons.mp hmem with heq | hmem
      · have hq := hdone heq.symm
        exact Nat.le_antisymm hrest.le_total (hq ▸ hrest.le)
      · exact hdone' hmem

end

-- ---------------------------------------------------------------------------
-- Programs
-- ---------------------------------------------------------------------------

variable {medium : Medium} {platform : Platform}

/-- Whatever a program does with a reader and in which order, its streams
stand at the positions of as many cursors, each step moves the one it is for,
and everything that is returned is the medium's. -/
theorem sharedReader_refines (hhonours : platform.Honours medium) (host : Host)
    (ops : List SharedOp) (h : History) :
    ∃ trace events placed streams, SharedRun medium host [] trace events placed ∧
      trace.map Prod.fst = ops ∧
      Shared.run host platform.reader ⟨[], h⟩ ops = (trace, ⟨streams, h ++ events⟩) ∧
      List.Forall₂ (Stands platform.reader) placed streams :=
  Shared.run_stands (s := ⟨[], h⟩) hhonours.in_drive host .nil ops

theorem sharedReader_refines_silent :
    let ops : List SharedOp := [.openTrackStream Toc.cdExtra 1 .default,
      .openTrackStream Toc.cdExtra 2 .default, .onStream 1 .nextChunk,
      .onStream 0 (.seekToSector 9), .readToc, .onStream 0 .nextChunk]
    ∃ trace events placed streams, SharedRun Medium.silent .desktop [] trace events placed ∧
      trace.map Prod.fst = ops ∧
      Shared.run .desktop Platform.silent.reader ⟨[], []⟩ ops = (trace, ⟨streams, events⟩) ∧
      List.Forall₂ (Stands Platform.silent.reader) placed streams :=
  sharedReader_refines Platform.silent_honours .desktop _ []

/-- A stream opened anywhere in a program, and from then on only read, hands
over its track from the first sector on, whatever the program does with other
streams and with the reader; and all of it, once it says that it is done. -/
theorem sharedStreams_deliver (hhonours : platform.Honours medium) (host : Host)
    (before ops : List SharedOp) (h : History) {s : Shared}
    (hs : (Shared.run host platform.reader ⟨[], h⟩ before).2 = s)
    (hopen : platform.reader.openTrackStreamWithOptions host toc trackNo options = .ok stream)
    (hnext : ∀ o, .onStream s.streams.length o ∈ ops → o = .nextChunk) :
    ∃ start sectors p, getTrackBounds host toc trackNo = .ok (start, sectors) ∧
      p ≤ sectors.toNat ∧
      medium.Holds options.format start.toNat p (delivered s.streams.length
        (s.run host platform.reader (.openTrackStream toc trackNo options :: ops)).1) ∧
      (finishedAt s.streams.length ∈
          (s.run host platform.reader (.openTrackStream toc trackNo options :: ops)).1 →
        p = sectors.toNat) := by
  have hin := hhonours.in_drive
  obtain ⟨_, events, placed, streams, -, -, hrun, hstands⟩ :=
    Shared.run_stands (s := ⟨[], h⟩) hin host .nil before
  rw [hrun] at hs
  subst hs
  obtain ⟨start, sectors, hrequest, rfl⟩ := CdReader.openTrackStreamWithOptions_ok hopen
  have hlen : placed.length = streams.length := hstands.length_eq
  have hopened : Stands platform.reader ⟨options.cursor start sectors, 0⟩
      (.opened platform.reader start sectors options) := by
    rw [← TrackStream.opened_atSector]
    exact .at rfl (TrackStream.opened_fits platform.reader options hrequest) (Nat.zero_le _)
  obtain ⟨trace, _, placed', _, hrest, hops, hrun', -⟩ :=
    Shared.run_stands (s := ⟨streams ++ [_], h ++ events⟩) hin host
      (List.rel_append hstands (.cons hopened .nil)) ops
  have hi : (placed ++ [⟨options.cursor start sectors, 0⟩])[streams.length]? =
      some ⟨options.cursor start sectors, 0⟩ := by
    rw [← hlen, List.getElem?_concat_length]
  obtain ⟨p, hdelivers, hfinished⟩ := hrest.delivers hi (Nat.zero_le _) (by rwa [hops])
  have htrace : (Shared.run host platform.reader ⟨streams, h ++ events⟩
      (.openTrackStream toc trackNo options :: ops)).1 =
        (.openTrackStream toc trackNo options, .opened (.ok ())) :: trace := by
    simp only [Shared.run, SharedOp.run, hopen, hrun']
  refine ⟨start, sectors, p, getTrackBounds_of_request hrequest, hdelivers.le_total, ?_, ?_⟩
  · have hcontent := hdelivers.content
    rw [htrace]
    simpa [Medium.content, delivered, chunkFor, TrackStreamOptions.cursor] using hcontent
  · rw [htrace]
    intro hmem
    rcases List.mem_cons.mp hmem with heq | hmem
    · cases heq
    · exact hfinished hmem

theorem sharedStreams_deliver_silent :
    let s : Shared := ⟨[.opened Platform.silent.reader 0 10000 .default], []⟩
    let ops : List SharedOp := [.onStream 0 .nextChunk, .onStream 1 .nextChunk,
      .readTrack Toc.cdExtra 2 .default, .onStream 1 .nextChunk]
    ∃ start sectors p, getTrackBounds .desktop Toc.cdExtra 2 = .ok (start, sectors) ∧
      p ≤ sectors.toNat ∧
      Medium.silent.Holds .audio start.toNat p (delivered 1
        (s.run .desktop Platform.silent.reader
          (.openTrackStream Toc.cdExtra 2 .default :: ops)).1) ∧
      (finishedAt 1 ∈
          (s.run .desktop Platform.silent.reader
            (.openTrackStream Toc.cdExtra 2 .default :: ops)).1 →
        p = sectors.toNat) := by
  intro s ops
  have hopen : Platform.silent.reader.openTrackStreamWithOptions .desktop Toc.cdExtra 2 .default =
      .ok (.opened Platform.silent.reader 10000 18600 .default) := rfl
  refine sharedStreams_deliver (s := s) Platform.silent_honours .desktop
    [.openTrackStream Toc.cdExtra 1 .default] ops [] rfl hopen ?_
  simp [s, ops]

end CdDaReader
