import CdDaReader.Drive

/-!
# Parsing a READ TOC response

A format-0 response is a header of four bytes and descriptors of eight. The
parser walks the descriptors by offset, under two bounds. `descriptorsFrom`
is the list of descriptors the walk has ahead of it, and `parseToc_eq` reads
the parser as `decode` of the descriptors it walks over.
-/

namespace CdDaReader

open Rust

/-- The addition panics on overflow when overflow checks are on. -/
def lbaToMsf (host : Host) (lba : UInt32) : Checked (UInt8 × UInt8 × UInt8) := do
  let totalFrames ← add32 host.overflowChecks lba 150
  let minutes := (totalFrames / 75 / 60).toUInt8
  let seconds := (totalFrames / 75 % 60).toUInt8
  let frames := (totalFrames % 75).toUInt8
  return (minutes, seconds, frames)

structure TocScan where
  offset : Nat
  tracks : List Track
  leadOutLba : Option UInt32

section
variable (host : Host) (data : Bytes)

/-- One pass of the descriptor loop. -/
def parseDescriptor (scan : TocScan) : Outcome IoError TocScan := do
  let trackNum ← index data (scan.offset + 2)
  let control ← index data (scan.offset + 1)
  let b4 ← index data (scan.offset + 4)
  let b5 ← index data (scan.offset + 5)
  let b6 ← index data (scan.offset + 6)
  let b7 ← index data (scan.offset + 7)
  let lba := u32FromBeBytes b4 b5 b6 b7
  let msf ← lbaToMsf host lba
  if trackNum ≠ 0xAA then
    let track : Track :=
      { number := trackNum, startLba := lba, startMsf := msf, isAudio := control &&& 0x04 == 0 }
    return { scan with offset := scan.offset + 8, tracks := scan.tracks ++ [track] }
  else
    return { scan with offset := scan.offset + 8, leadOutLba := some lba }

def parseToc : Outcome IoError Toc := do
  if data.length < 4 then
    fail (IoError.mk .invalidData "TOC data too short")
  let b0 ← index data 0
  let b1 ← index data 1
  let tocLength := (u16FromBeBytes b0 b1).toNat
  let firstTrack ← index data 2
  let lastTrack ← index data 3
  -- every pass moves the offset on, so the length bounds the passes
  let scan ← whileLoop (throw .diverged)
    (fun scan => decide (scan.offset + 8 ≤ data.length) && decide (scan.offset < tocLength + 2))
    (parseDescriptor host data) (data.length + 1)
    { offset := 4, tracks := [], leadOutLba := none }
  match scan.leadOutLba with
  | some leadout => return { firstTrack, lastTrack, tracks := scan.tracks, leadoutLba := leadout }
  | none => fail (IoError.mk .invalidData "Didn't find 0xAA")

end

-- ---------------------------------------------------------------------------
-- Descriptors
-- ---------------------------------------------------------------------------

/-- What the parser reads of a descriptor: bytes 1, 2 and 4 to 7. -/
structure Descriptor where
  control : UInt8
  number : UInt8
  lba : UInt32
  deriving DecidableEq, Repr

def descriptors : Bytes → List Descriptor
  | _ :: control :: number :: _ :: b4 :: b5 :: b6 :: b7 :: rest =>
    ⟨control, number, u32FromBeBytes b4 b5 b6 b7⟩ :: descriptors rest
  | _ => []

namespace Descriptor

def isLeadOut (d : Descriptor) : Bool := d.number == 0xAA

/-- The address has no MSF address in 32 bits. -/
def overflows (d : Descriptor) : Bool := decide (2 ^ 32 ≤ d.lba.toNat + 150)

def startMsf (d : Descriptor) : UInt8 × UInt8 × UInt8 :=
  (((d.lba + 150) / 75 / 60).toUInt8, ((d.lba + 150) / 75 % 60).toUInt8,
    ((d.lba + 150) % 75).toUInt8)

def track (d : Descriptor) : Track where
  number := d.number
  startLba := d.lba
  startMsf := d.startMsf
  isAudio := d.control &&& 0x04 == 0

end Descriptor

def tracksOf (ds : List Descriptor) : List Track :=
  (ds.filter fun d => !d.isLeadOut).map Descriptor.track

/-- The address of the last lead-out descriptor. -/
def leadOutOf (ds : List Descriptor) : Option UInt32 :=
  (ds.filter Descriptor.isLeadOut).getLast?.map Descriptor.lba

def tocOf (firstTrack lastTrack : UInt8) (tracks : List Track) (leadOutLba : Option UInt32) :
    Outcome IoError Toc :=
  match leadOutLba with
  | some leadoutLba => .ok { firstTrack, lastTrack, tracks, leadoutLba }
  | none => .error (.error ⟨.invalidData, "Didn't find 0xAA"⟩)

def decode (host : Host) (firstTrack lastTrack : UInt8) (ds : List Descriptor) :
    Outcome IoError Toc :=
  if host.overflowChecks && ds.any Descriptor.overflows then .error (.panic .arithmeticOverflow)
  else tocOf firstTrack lastTrack (tracksOf ds) (leadOutOf ds)

/-- The descriptors that the loop still walks over from an offset, when the
declared length ends at `limit`: every whole one that starts below it. -/
def descriptorsFrom (data : Bytes) (limit offset : Nat) : List Descriptor :=
  (descriptors (data.drop offset)).take ((limit - offset + 7) / 8)

theorem lbaToMsf_eq (host : Host) (d : Descriptor) : lbaToMsf host d.lba =
    if host.overflowChecks && d.overflows then .error .arithmeticOverflow
    else .ok d.startMsf := by
  unfold lbaToMsf add32 Descriptor.overflows
  have h150 : (150 : UInt32).toNat = 150 := rfl
  rw [h150]
  split <;> rfl

theorem length_descriptors : (body : Bytes) → (descriptors body).length = body.length / 8
  | _ :: _ :: _ :: _ :: _ :: _ :: _ :: _ :: rest => by
    rw [descriptors, List.length_cons, length_descriptors rest]
    simp only [List.length_cons]
    omega
  | [] | [_] | [_, _] | [_, _, _] | [_, _, _, _] | [_, _, _, _, _] | [_, _, _, _, _, _]
  | [_, _, _, _, _, _, _] => by simp [descriptors]

theorem exists_descriptor {body : Bytes} (h : 8 ≤ body.length) :
    ∃ b0 b1 b2 b3 b4 b5 b6 b7 rest,
      body = b0 :: b1 :: b2 :: b3 :: b4 :: b5 :: b6 :: b7 :: rest := by
  match body, h with
  | b0 :: b1 :: b2 :: b3 :: b4 :: b5 :: b6 :: b7 :: rest, _ =>
    exact ⟨b0, b1, b2, b3, b4, b5, b6, b7, rest, rfl⟩

theorem index_of_drop {data : List α} (h : data.drop offset = rest) (hk : rest[k]? = some a) :
    (index data (offset + k) : Checked α) = .ok a := by
  apply index_ok
  rw [← hk, ← h, List.getElem?_drop]

theorem descriptorsFrom_nil {data : Bytes} (h : ¬ (offset + 8 ≤ data.length ∧ offset < limit)) :
    descriptorsFrom data limit offset = [] := by
  unfold descriptorsFrom
  rcases Nat.lt_or_ge offset limit with hlt | hge
  · have hshort : ¬ offset + 8 ≤ data.length := fun hfit => h ⟨hfit, hlt⟩
    have hnil : descriptors (data.drop offset) = [] := by
      apply List.eq_nil_of_length_eq_zero
      rw [length_descriptors, List.length_drop]
      omega
    rw [hnil, List.take_nil]
  · have hzero : (limit - offset + 7) / 8 = 0 := by omega
    rw [hzero, List.take_zero]

/-- One pass reads the first of the remaining descriptors. -/
theorem parseDescriptor_eq (host : Host) {data : Bytes} {scan : TocScan}
    (hfit : scan.offset + 8 ≤ data.length) (hlt : scan.offset < limit) :
    ∃ d, descriptorsFrom data limit scan.offset =
        d :: descriptorsFrom data limit (scan.offset + 8) ∧
      parseDescriptor host data scan =
        if host.overflowChecks && d.overflows then .error (.panic .arithmeticOverflow)
        else .ok { offset := scan.offset + 8
                   tracks := scan.tracks ++ tracksOf [d]
                   leadOutLba := if d.isLeadOut then some d.lba else scan.leadOutLba } := by
  have hlen : 8 ≤ (data.drop scan.offset).length := by
    rw [List.length_drop]
    omega
  obtain ⟨b0, b1, b2, b3, b4, b5, b6, b7, rest, hdrop⟩ := exists_descriptor hlen
  refine ⟨⟨b1, b2, u32FromBeBytes b4 b5 b6 b7⟩, ?_, ?_⟩
  · have hcount : (limit - scan.offset + 7) / 8 = (limit - (scan.offset + 8) + 7) / 8 + 1 := by
      omega
    have hrest : data.drop (scan.offset + 8) = rest := by
      rw [← List.drop_drop, hdrop]
      rfl
    rw [descriptorsFrom, descriptorsFrom, hdrop, hcount, hrest]
    rfl
  · have hmsf := lbaToMsf_eq host ⟨b1, b2, u32FromBeBytes b4 b5 b6 b7⟩
    unfold parseDescriptor
    rw [index_of_drop hdrop (k := 2) rfl, index_of_drop hdrop (k := 1) rfl,
      index_of_drop hdrop (k := 4) rfl, index_of_drop hdrop (k := 5) rfl,
      index_of_drop hdrop (k := 6) rfl, index_of_drop hdrop (k := 7) rfl]
    simp only [Outcome.lift_ok, Outcome.bind_ok]
    simp only at hmsf
    rw [hmsf]
    split
    · rfl
    · by_cases hnum : b2 = 0xAA
      · simp [hnum, Descriptor.isLeadOut, tracksOf]
      · simp [hnum, Descriptor.isLeadOut, tracksOf, Descriptor.track]

theorem tracksOf_append (ds ds' : List Descriptor) :
    tracksOf (ds ++ ds') = tracksOf ds ++ tracksOf ds' := by
  simp [tracksOf]

theorem leadOutOf_append (ds ds' : List Descriptor) :
    leadOutOf (ds ++ ds') = (leadOutOf ds').or (leadOutOf ds) := by
  unfold leadOutOf
  rw [List.filter_append, List.getLast?_append]
  cases (ds'.filter Descriptor.isLeadOut).getLast? <;> rfl

theorem leadOutOf_singleton (d : Descriptor) :
    leadOutOf [d] = if d.isLeadOut then some d.lba else none := by
  cases h : d.isLeadOut <;> simp [leadOutOf, h]

theorem tracksOf_cons (d : Descriptor) (ds : List Descriptor) :
    tracksOf (d :: ds) = tracksOf [d] ++ tracksOf ds := tracksOf_append [d] ds

theorem leadOutOf_cons_or (d : Descriptor) (ds : List Descriptor) (leadOutLba : Option UInt32) :
    (leadOutOf (d :: ds)).or leadOutLba =
      (leadOutOf ds).or (if d.isLeadOut then some d.lba else leadOutLba) := by
  rw [← List.singleton_append, leadOutOf_append, leadOutOf_singleton, Option.or_assoc]
  cases d.isLeadOut <;> rfl

section
variable (host : Host) (firstTrack lastTrack : UInt8) (data : Bytes) (limit : Nat)

def walkFrom (scan : TocScan) : Outcome IoError Toc :=
  if host.overflowChecks && (descriptorsFrom data limit scan.offset).any Descriptor.overflows then
    .error (.panic .arithmeticOverflow)
  else tocOf firstTrack lastTrack (scan.tracks ++ tracksOf (descriptorsFrom data limit scan.offset))
    ((leadOutOf (descriptorsFrom data limit scan.offset)).or scan.leadOutLba)

/-- The loop, from any of its states, walks over the remaining descriptors. -/
theorem parseLoop_eq (scan : TocScan) (hpasses : data.length - scan.offset < passes) :
    (whileLoop (throw .diverged)
        (fun scan => decide (scan.offset + 8 ≤ data.length) && decide (scan.offset < limit))
        (parseDescriptor host data) passes scan >>= fun scan =>
          tocOf firstTrack lastTrack scan.tracks scan.leadOutLba) =
      walkFrom host firstTrack lastTrack data limit scan := by
  refine whileLoop_induction (fun _ => True) (fun scan => data.length - scan.offset)
    (fun scan (run : Outcome IoError TocScan) =>
      (run >>= fun scan => tocOf firstTrack lastTrack scan.tracks scan.leadOutLba) =
        walkFrom host firstTrack lastTrack data limit scan)
    ?_ ?_ trivial hpasses
  · intro scan _ hstop
    have hnil : descriptorsFrom data limit scan.offset = [] := by
      apply descriptorsFrom_nil
      simpa using hstop
    simp [walkFrom, hnil, tracksOf, leadOutOf]
  · intro scan _ hgo k hk
    obtain ⟨hfit, hlt⟩ : scan.offset + 8 ≤ data.length ∧ scan.offset < limit := by
      simpa using hgo
    obtain ⟨d, hrem, hpass⟩ := parseDescriptor_eq host hfit hlt
    rw [hpass, walkFrom, hrem, List.any_cons, Bool.and_or_distrib_left]
    cases hover : host.overflowChecks && d.overflows with
    | true => rfl
    | false =>
      simp only [Bool.false_eq_true, ↓reduceIte, Outcome.bind_ok, Bool.false_or]
      rw [hk _ trivial (by simp only; omega), walkFrom, tracksOf_cons d (descriptorsFrom ..),
        leadOutOf_cons_or, List.append_assoc]

end

theorem parseToc_short (host : Host) {data : Bytes} (h : data.length < 4) :
    parseToc host data = .error (.error ⟨.invalidData, "TOC data too short"⟩) := by
  unfold parseToc
  rw [if_pos h]
  rfl

/-- The declared end of a response, counted from its first byte. -/
def declaredEnd (b0 b1 : UInt8) : Nat := (u16FromBeBytes b0 b1).toNat + 2

/-- The parser decodes the whole descriptors that start below the declared
end. -/
theorem parseToc_eq (host : Host) (b0 b1 firstTrack lastTrack : UInt8) (body : Bytes) :
    parseToc host (b0 :: b1 :: firstTrack :: lastTrack :: body) =
      decode host firstTrack lastTrack
        (descriptorsFrom (b0 :: b1 :: firstTrack :: lastTrack :: body) (declaredEnd b0 b1) 4) := by
  have hloop := parseLoop_eq host firstTrack lastTrack
    (b0 :: b1 :: firstTrack :: lastTrack :: body) (declaredEnd b0 b1)
    { offset := 4, tracks := [], leadOutLba := none } (Nat.lt_succ_of_le (Nat.sub_le ..))
  rw [walkFrom, Option.or_none, List.nil_append] at hloop
  unfold parseToc
  rw [if_neg (by simp)]
  exact hloop

end CdDaReader
