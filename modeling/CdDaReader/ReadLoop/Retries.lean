import CdDaReader.ReadLoop.Range
import Mathlib.Data.List.Chain

/-!
# The discipline of retries

The calls of a run split into rounds (`Consecutive`), each of which stays at
one address, makes a bounded number of attempts with sizes that follow the
reduction, and starts right after what the round before it read. A run
fails exactly when a round used up its attempts, with the error of its last
call. A drive that fails few small commands at any one address is therefore
read to the end.
-/

namespace CdDaReader

open Rust

structure Call where
  lba : UInt32
  sectors : UInt32
  answer : Answer

def Call.result (format : SectorReadFormat) (call : Call) : Answer :=
  checkChunk format call.lba call.sectors call.answer

/-- The call failed or came back with a wrong length, which is the error. -/
def Call.Fails (format : SectorReadFormat) (call : Call) (err : CdReaderError) : Prop :=
  call.result format = .error err

def Call.Failed (format : SectorReadFormat) (call : Call) : Prop := ∃ err, call.Fails format err

def Call.Served (format : SectorReadFormat) (call : Call) : Prop :=
  ∃ chunk, call.result format = .ok chunk

def calls : List Event → List Call
  | [] => []
  | .command (.readCd lba sectors _) answer :: events => ⟨lba, sectors, answer⟩ :: calls events
  | _ :: events => calls events

@[simp] theorem calls_append (events events' : List Event) :
    calls (events ++ events') = calls events ++ calls events' := by
  induction events with
  | nil => rfl
  | cons event events ih =>
    obtain ⟨cmd, _⟩ | _ := event
    · cases cmd <;> simp [calls, ih]
    · exact ih

@[simp] theorem calls_pauses (backoff : Duration) : calls (pauses backoff) = [] := by
  unfold pauses
  split <;> rfl

-- ---------------------------------------------------------------------------
-- One round
-- ---------------------------------------------------------------------------

/-- A round of at most `left` calls at `lba`, the first for `first` sectors. -/
structure IsRound (format : SectorReadFormat) (cfg : RetryConfig) (lba left first : Nat)
    (round : List Call) : Prop where
  nonempty : round ≠ []
  length_le : round.length ≤ left
  lba_eq : ∀ call ∈ round, call.lba.toNat = lba
  failed : ∀ call ∈ round.dropLast, call.Failed format
  head : ∀ call ∈ round.head?, call.sectors.toNat = first
  bounded : ∀ call ∈ round, min first cfg.minChunk.toNat ≤ call.sectors.toNat ∧
    1 ≤ call.sectors.toNat ∧ call.sectors.toNat ≤ first
  antitone : round.Pairwise fun a b => b.sectors.toNat ≤ a.sectors.toNat
  reduced : cfg.reduceChunkOnRetry = true → round.IsChain fun a b =>
    cfg.minChunk.toNat < a.sectors.toNat → b.sectors.toNat < a.sectors.toNat
  constant : cfg.reduceChunkOnRetry = false → ∀ call ∈ round, call.sectors.toNat = first

theorem IsRound.singleton (call : Call) (hsectors : 1 ≤ call.sectors.toNat) (hleft : 1 ≤ left) :
    IsRound format cfg call.lba.toNat left call.sectors.toNat [call] := by
  refine ⟨by simp, by simpa using hleft, by simp, by simp, by simp, ?_, by simp, by simp, by simp⟩
  simp only [List.mem_singleton, forall_eq]
  omega

/-- A failed call before a round that starts with the next size. -/
theorem IsRound.cons (call : Call) {round : List Call}
    (h : IsRound format cfg call.lba.toNat left (cfg.shrink call.sectors).toNat round)
    (hf : call.Failed format) (hsectors : 1 ≤ call.sectors.toNat) :
    IsRound format cfg call.lba.toNat (left + 1) call.sectors.toNat (call :: round) := by
  have hshrink := cfg.shrink_cases call.sectors
  have hle := cfg.shrink_le call.sectors
  constructor
  case nonempty => exact List.cons_ne_nil _ _
  case length_le => simpa using h.length_le
  case lba_eq =>
    intro other hmem
    rcases List.mem_cons.mp hmem with rfl | hmem
    · rfl
    · exact h.lba_eq other hmem
  case failed =>
    rw [List.dropLast_cons_of_ne_nil h.nonempty]
    intro other hmem
    rcases List.mem_cons.mp hmem with rfl | hmem
    · exact hf
    · exact h.failed other hmem
  case head => simp
  case bounded =>
    intro other hmem
    rcases List.mem_cons.mp hmem with rfl | hmem
    · omega
    · obtain ⟨h1, h2, h3⟩ := h.bounded other hmem
      rcases hshrink with ⟨hs, -⟩ | ⟨-, hs⟩
      · rw [hs] at h1 h3
        omega
      · omega
  case antitone =>
    refine List.pairwise_cons.mpr ⟨?_, h.antitone⟩
    intro other hmem
    have hb := h.bounded other hmem
    omega
  case reduced =>
    intro hreduce
    refine List.isChain_cons.mpr ⟨?_, h.reduced hreduce⟩
    intro next hnext hlt
    rw [h.head next hnext]
    rcases hshrink with ⟨-, hs⟩ | ⟨-, hs⟩
    · have := hs hreduce
      omega
    · omega
  case constant =>
    intro hreduce other hmem
    rcases List.mem_cons.mp hmem with rfl | hmem
    · rfl
    · rw [h.constant hreduce other hmem]
      rcases hshrink with ⟨hs, -⟩ | ⟨hs, -⟩
      · rw [hs]
      · simp [hreduce] at hs

theorem Attempts.isRound (hatt : Attempts format cfg lba left n backoff events result)
    (hn : 1 ≤ n.toNat) : IsRound format cfg lba.toNat left n.toNat (calls events) := by
  induction hatt with
  | served hc => exact IsRound.singleton ⟨lba, _, _⟩ hn (by omega)
  | gaveUp hc => exact IsRound.singleton ⟨lba, _, _⟩ hn (Nat.le_refl _)
  | @retried n answer err left backoff events result hc _ ih =>
    have hround := ih (cfg.one_le_shrink hn)
    simpa [calls] using IsRound.cons ⟨lba, n, answer⟩ hround ⟨err, hc⟩ hn

/-- How a round ends: a served last call, or no attempts left. -/
theorem Attempts.last (hatt : Attempts format cfg lba left n backoff events result) :
    ∃ call, (calls events).getLast? = some call ∧
      match result with
      | .ok (m, chunk) => call.sectors = m ∧ call.result format = .ok chunk
      | .error err => (calls events).length = left ∧ call.Fails format err := by
  induction hatt with
  | served hc => exact ⟨_, rfl, rfl, hc⟩
  | gaveUp hc => exact ⟨_, rfl, rfl, hc⟩
  | @retried n answer err left backoff events result hc _ ih =>
    obtain ⟨call, hlast, h⟩ := ih
    refine ⟨call, ?_, ?_⟩
    · simp [calls, List.getLast?_cons, hlast]
    · cases result with
      | ok read => exact h
      | error err => simpa [calls] using h

-- ---------------------------------------------------------------------------
-- Consecutive rounds
-- ---------------------------------------------------------------------------

abbrev IsRoundFor (format : SectorReadFormat) (cfg : RetryConfig) (lba remaining : Nat) :=
  IsRound format cfg lba cfg.attempts (min remaining format.maxSectorsPerXfer.toNat)

theorem Attempts.isRoundFor (hatt : Attempts format cfg (.ofNat lba) cfg.attempts
    (format.firstChunk remaining) backoff events result) (hr : 0 < remaining)
    (hlt : remaining < 2 ^ 32) (hlba : lba < 2 ^ 32) :
    IsRoundFor format cfg lba remaining (calls events) := by
  have hround := hatt.isRound (format.firstChunk_bounds hr hlt).1
  rwa [toNat_ofNat32 hlba, format.toNat_firstChunk hlt] at hround

/-- A round that used all its attempts and failed at the last with `err`. -/
def Exhausted (format : SectorReadFormat) (cfg : RetryConfig) (err : CdReaderError)
    (round : List Call) : Prop :=
  round.length = cfg.attempts ∧ (∀ call ∈ round, call.Failed format) ∧
    ∃ call, round.getLast? = some call ∧ call.Fails format err

/-- Rounds for `remaining` sectors from `lba` on: until nothing remains or a
round is exhausted. Any other round ends in a served call, and the next
starts right after that call's sectors. -/
inductive Consecutive (format : SectorReadFormat) (cfg : RetryConfig) :
    Nat → Nat → List (List Call) → Prop
  | done : Consecutive format cfg lba 0 []
  | failed {round : List Call} (hround : IsRoundFor format cfg lba remaining round)
      (hexhausted : Exhausted format cfg err round) :
      Consecutive format cfg lba remaining [round]
  | served {round : List Call} (hround : IsRoundFor format cfg lba remaining round)
      (hlast : round.getLast? = some call) (hserved : call.Served format)
      (rest : Consecutive format cfg (lba + call.sectors.toNat) (remaining - call.sectors.toNat)
        rounds) :
      Consecutive format cfg lba remaining (round :: rounds)

theorem Exhausted.not_served {round : List Call} (h : Exhausted format cfg err round)
    (hlast : round.getLast? = some call) : ¬ call.Served format := by
  rintro ⟨chunk, hok⟩
  obtain ⟨-, -, call', hlast', hf⟩ := h
  cases hlast.symm.trans hlast'
  cases hok.symm.trans hf

theorem IsRound.all_failed {round : List Call} (h : IsRound format cfg lba left first round)
    (hlast : round.getLast? = some call) (hf : call.Failed format) :
    ∀ call ∈ round, call.Failed format := by
  intro other hmem
  have hsplit := List.dropLast_append_getLast? call hlast
  rw [← hsplit, List.mem_append, List.mem_singleton] at hmem
  rcases hmem with hmem | rfl
  · exact h.failed other hmem
  · exact hf

/-- The events of one round, from its first attempt on. -/
def RunsRound (format : SectorReadFormat) (cfg : RetryConfig) (events : List Event) : Prop :=
  ∃ lba n result, Attempts format cfg lba cfg.attempts n
    (cfg.initialBackoff.min cfg.maxBackoff) events result

theorem Rounds.consecutive (hrounds : Rounds format cfg lba remaining events result)
    (hlt : remaining < 2 ^ 32) (hspan : lba + remaining ≤ 2 ^ 32) :
    ∃ groups : List (List Event), events = groups.flatten ∧
      (∀ group ∈ groups, RunsRound format cfg group) ∧
      Consecutive format cfg lba remaining (groups.map calls) ∧
      (∀ err, result = .error err ↔
        ∃ round ∈ groups.map calls, Exhausted format cfg err round) ∧
      ∀ err, ∀ round ∈ groups.map calls, Exhausted format cfg err round →
        (groups.map calls).getLast? = some round := by
  induction hrounds with
  | done => exact ⟨[], rfl, by simp, .done, by simp, by simp⟩
  | @gaveUp remaining lba events err hr hatt =>
    have hround := hatt.isRoundFor hr hlt (by omega)
    obtain ⟨call, hlast, hlen, hf⟩ := hatt.last
    have hall := hround.all_failed hlast ⟨err, hf⟩
    have hexhausted : Exhausted format cfg err (calls events) := ⟨hlen, hall, call, hlast, hf⟩
    have hruns : ∀ group ∈ [events], RunsRound format cfg group :=
      List.forall_mem_singleton.mpr ⟨_, _, _, hatt⟩
    refine ⟨[events], by simp, hruns, .failed hround hexhausted, ?_, by simp⟩
    intro err'
    simp only [List.map_cons, List.map_nil, List.mem_singleton, exists_eq_left,
      Except.error.injEq]
    constructor
    · rintro rfl
      exact hexhausted
    · rintro ⟨-, -, call', hlast', hf'⟩
      cases hlast.symm.trans hlast'
      cases hf.symm.trans hf'
      rfl
  | @served remaining lba events n chunk events' result hr hatt _ ih =>
    have hround := hatt.isRoundFor hr hlt (by omega)
    obtain ⟨call, hlast, rfl, hok⟩ := hatt.last
    have hserved : call.Served format := ⟨chunk, hok⟩
    obtain ⟨-, hle, -⟩ := hatt.round_bounds hr hlt
    obtain ⟨groups, rfl, hruns, hrest, herr, hfinal⟩ := ih (by omega) (by omega)
    have hfirst : ∀ err, ¬ Exhausted format cfg err (calls events) :=
      fun err h => h.not_served hlast hserved
    refine ⟨events :: groups, rfl, ?_, .served hround hlast hserved hrest, ?_, ?_⟩
    · exact List.forall_mem_cons.mpr ⟨⟨_, _, _, hatt⟩, hruns⟩
    · intro err
      simp only [List.map_cons, List.mem_cons, exists_eq_or_imp, hfirst err, false_or,
        ← herr err]
      cases result <;> simp [Except.map]
    · intro err round hmem h
      rcases List.mem_cons.mp hmem with rfl | hmem
      · exact (hfirst err h).elim
      · rw [List.map_cons, List.getLast?_cons, hfinal err round hmem h]
        rfl

theorem calls_flatten (groups : List (List Event)) :
    calls groups.flatten = (groups.map calls).flatten := by
  induction groups with
  | nil => rfl
  | cons group groups ih =>
    rw [List.flatten_cons, calls_append, ih, List.map_cons, List.flatten_cons]

/-- Rounds and errors of a run that passed its checks, whatever the drive
answers: the calls it made split into consecutive rounds, and it returns an
error exactly when one of them, then the last, is exhausted with that error. -/
theorem readSectorsChunked_discipline {start sectors : UInt32}
    (hr : host.rejection format start.toNat sectors.toNat = none) (cfg : RetryConfig)
    (readChunk : ReadChunk) (h : History) :
    ∃ events result rounds,
      (readSectorsChunked host format cfg readChunk start sectors).exec h =
        (ofResult result, h ++ events) ∧
      Answered readChunk format h events ∧
      calls events = rounds.flatten ∧
      Consecutive format cfg start.toNat sectors.toNat rounds ∧
      (∀ err, result = .error err ↔ ∃ round ∈ rounds, Exhausted format cfg err round) ∧
      ∀ err, ∀ round ∈ rounds, Exhausted format cfg err round → rounds.getLast? = some round := by
  obtain ⟨events, result, hrounds, hans, hexec⟩ :=
    readSectorsChunked_rounds host cfg readChunk hr h
  obtain ⟨groups, rfl, -, hcons, herr, hlast⟩ :=
    hrounds.consecutive sectors.toNat_lt (host.span_of_accepted hr)
  exact ⟨_, result, groups.map calls, hexec, hans, calls_flatten groups, hcons, herr, hlast⟩

theorem readSectorsChunked_discipline_warmingUp :
    ∃ events result rounds,
      (readSectorsChunked .desktop .audio .default ((Disc.blank 7).warmingUp .audio) 100 60).exec
        [] = (ofResult result, events) ∧
      Answered ((Disc.blank 7).warmingUp .audio) .audio [] events ∧
      calls events = rounds.flatten ∧ Consecutive .audio .default 100 60 rounds ∧
      (∀ err, result = .error err ↔ ∃ round ∈ rounds, Exhausted .audio .default err round) ∧
      ∀ err, ∀ round ∈ rounds, Exhausted .audio .default err round →
        rounds.getLast? = some round := by
  have hr : Host.desktop.rejection .audio (100 : UInt32).toNat (60 : UInt32).toNat = none := by
    decide
  exact readSectorsChunked_discipline hr .default ((Disc.blank 7).warmingUp .audio) []

-- ---------------------------------------------------------------------------
-- Drives that fail few small commands
-- ---------------------------------------------------------------------------

/-- A failed call at `lba` for no more than `m` sectors. -/
def Call.failsSmall (format : SectorReadFormat) (m : Nat) (lba : UInt32) (call : Call) : Bool :=
  call.lba == lba && decide (call.sectors.toNat ≤ m) && !(call.result format).isOk

/-- At any one address no more than `k` calls of at most `m` sectors failed;
larger calls may fail in any pattern. -/
def ServesSmall (format : SectorReadFormat) (m k : Nat) (events : List Event) : Prop :=
  ∀ lba, (calls events).countP (·.failsSmall format m lba) ≤ k

/-- How many calls larger than the minimum the ladder still makes. -/
def RetryConfig.rungs (cfg : RetryConfig) (n : UInt32) : Nat :=
  if n.toNat ≤ cfg.minChunk.toNat then 0
  else if n.toNat ≤ 8 ∨ 8 ≤ cfg.minChunk.toNat then 1
  else 2

theorem RetryConfig.rungs_le_two (cfg : RetryConfig) (n : UInt32) : cfg.rungs n ≤ 2 := by
  unfold rungs
  split
  · omega
  · split <;> omega

/-- A failed call is a small one or takes the ladder down a rung. -/
theorem RetryConfig.rungs_shrink (cfg : RetryConfig) (hreduce : cfg.reduceChunkOnRetry = true)
    (n : UInt32) :
    cfg.rungs (cfg.shrink n) + (if n.toNat ≤ cfg.minChunk.toNat then 0 else 1) ≤ cfg.rungs n := by
  unfold rungs
  rcases cfg.shrink_cases n with ⟨hs, hle⟩ | ⟨-, hs⟩
  · have := hle hreduce
    rw [hs]
    simp [this]
  · repeat' split
    all_goals omega

theorem Attempts.left_le (hatt : Attempts format cfg lba left n backoff events result)
    (hreduce : cfg.reduceChunkOnRetry = true) (hresult : result = .error err) :
    left ≤ (calls events).countP (·.failsSmall format cfg.minChunk.toNat lba) + cfg.rungs n := by
  induction hatt with
  | served => cases hresult
  | @gaveUp n answer err' backoff hc =>
    by_cases hsmall : n.toNat ≤ cfg.minChunk.toNat
    · simp [calls, Call.failsSmall, Call.result, hc, hsmall, Except.isOk, Except.toBool]
    · simp only [RetryConfig.rungs, hsmall, ↓reduceIte]
      split <;> omega
  | @retried n answer err' left backoff events result hc _ ih =>
    have hrest := ih hresult
    have hrung := cfg.rungs_shrink hreduce n
    by_cases hsmall : n.toNat ≤ cfg.minChunk.toNat
    · have hcall : (Call.mk lba n answer).failsSmall format cfg.minChunk.toNat lba = true := by
        simp [Call.failsSmall, Call.result, hc, hsmall, Except.isOk, Except.toBool]
      simp only [calls, calls_append, calls_pauses, List.nil_append, List.countP_cons, hcall]
      simp only [hsmall, ↓reduceIte] at hrung ⊢
      omega
    · simp only [calls, calls_append, calls_pauses, List.nil_append, List.countP_cons]
      simp only [hsmall, ↓reduceIte] at hrung
      omega

theorem Rounds.attempts_le (hrounds : Rounds format cfg lba remaining events result)
    (hreduce : cfg.reduceChunkOnRetry = true) (hresult : result = .error err) :
    ∃ lba, cfg.attempts ≤
      (calls events).countP (·.failsSmall format cfg.minChunk.toNat lba) + 2 := by
  induction hrounds with
  | done => cases hresult
  | @gaveUp remaining lba events err' hr hatt =>
    have hle := hatt.left_le hreduce rfl
    have hrungs := cfg.rungs_le_two (format.firstChunk remaining)
    exact ⟨.ofNat lba, by omega⟩
  | @served remaining lba events n chunk events' result hr hatt _ ih =>
    cases result with
    | ok rest => cases hresult
    | error err' =>
      obtain ⟨lba, hle⟩ := ih (by cases hresult; rfl)
      exact ⟨lba, by rw [calls_append, List.countP_append]; omega⟩

/-- With reduction on, two attempts beyond the small failures and one for
the success are enough at every address, and the whole range is read. -/
theorem readSectorsChunked_rescued {start sectors : UInt32}
    (hr : host.rejection format start.toNat sectors.toNat = none)
    (hreduce : cfg.reduceChunkOnRetry = true) (hattempts : k + 3 ≤ cfg.maxAttempts.toNat)
    (hserves : ∀ result events,
      (readSectorsChunked host format cfg readChunk start sectors).exec h = (result, h ++ events) →
        ServesSmall format (max 1 cfg.minSectorsPerRead.toNat) k events) :
    ∃ out h', (readSectorsChunked host format cfg readChunk start sectors).exec h =
      (.ok out, h') ∧ out.length = sectors.toNat * format.sectorSize := by
  obtain ⟨events, result, hrounds, -, hexec⟩ := readSectorsChunked_rounds host cfg readChunk hr h
  cases result with
  | ok out => exact ⟨out, _, hexec, hrounds.length_eq sectors.toNat_lt rfl⟩
  | error err =>
    obtain ⟨lba, hle⟩ := hrounds.attempts_le hreduce rfl
    have hmin : cfg.minChunk.toNat = max 1 cfg.minSectorsPerRead.toNat := by
      rw [RetryConfig.minChunk, toNat_max32, Nat.max_comm]
      rfl
    have hfew := hserves _ events hexec lba
    have hmany := cfg.maxAttempts_le_attempts
    rw [hmin] at hle
    omega

/-- A call for one sector at `lba` was made before. -/
def triedAlone (lba : UInt32) (h : History) : Bool :=
  (calls h).any fun call => call.lba == lba && decide (call.sectors.toNat ≤ 1)

/-- A drive that only ever serves single sectors, and each only once it has
failed to. -/
def Disc.worn (disc : Disc) (format : SectorReadFormat) : ReadChunk := fun h lba n =>
  if decide (n.toNat ≤ 1) && triedAlone lba h then .ok (disc.sectors format lba.toNat n.toNat)
  else .error (.io ⟨.other, "unreadable"⟩)

theorem Disc.countP_worn (disc : Disc) (hans : Answered (disc.worn format) format h events)
    (lba : UInt32) :
    (calls events).countP (·.failsSmall format 1 lba) ≤ if triedAlone lba h then 0 else 1 := by
  induction events generalizing h with
  | nil => simp [calls]
  | cons event events ih =>
    obtain ⟨hfirst, hrest⟩ := hans
    have hle := ih hrest
    cases event with
    | slept pause =>
      have htried : triedAlone lba (h ++ [.slept pause]) = triedAlone lba h := by
        simp [triedAlone, calls]
      rwa [htried] at hle
    | command cmd answer =>
      obtain ⟨lba', n, rfl, rfl⟩ := hfirst _ _ rfl
      have htried : triedAlone lba (h ++ [.readCd lba' n format (disc.worn format h lba' n)]) =
          (triedAlone lba h || (lba' == lba && decide (n.toNat ≤ 1))) := by
        simp [triedAlone, calls]
      rw [htried] at hle
      simp only [calls, List.countP_cons]
      by_cases hsmall : lba' = lba ∧ n.toNat ≤ 1
      · obtain ⟨rfl, hn⟩ := hsmall
        have hzero : (calls events).countP (·.failsSmall format 1 lba') ≤ 0 := by
          simpa [hn] using hle
        cases hseen : triedAlone lba' h with
        | false =>
          simp only [Bool.false_eq_true, ↓reduceIte]
          split <;> omega
        | true =>
          have hserved : checkChunk format lba' n (disc.worn format h lba' n) =
              .ok (disc.sectors format lba'.toNat n.toNat) := by
            simp [worn, hn, hseen, checkChunk, disc.length_sectors]
          simpa [Call.failsSmall, Call.result, hserved, Except.isOk, Except.toBool] using hzero
      · have hother : (Call.mk lba' n (disc.worn format h lba' n)).failsSmall format 1 lba =
            false := by
          simp only [not_and] at hsmall
          by_cases heq : lba' = lba
          · simp [Call.failsSmall, hsmall heq]
          · simp [Call.failsSmall, heq]
        have hsame : (lba' == lba && decide (n.toNat ≤ 1)) = false := by
          simpa using hsmall
        simpa [hother, hsame] using hle

/-- The default policy reads such a disc to the end. -/
theorem readSectorsChunked_rescued_worn :
    ∃ out h', (readSectorsChunked .desktop .audio .default ((Disc.blank 7).worn .audio)
      100 60).exec [] = (.ok out, h') ∧ out.length = 60 * 2352 := by
  have hr : Host.desktop.rejection .audio (100 : UInt32).toNat (60 : UInt32).toNat = none := by
    decide
  refine readSectorsChunked_rescued hr rfl (Nat.le_refl 4) ?_
  intro result events hexec lba
  exact (Disc.blank 7).countP_worn (readSectorsChunked_answered _ hr hexec) lba

end CdDaReader
