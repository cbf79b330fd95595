import CdDaReader.ReadLoop.Retries
import CdDaReader.ReadLoop.Range
import Mathlib.Algebra.Order.BigOperators.Group.List
import Mathlib.Algebra.Order.Ring.Nat

/-!
# Backoff in closed form

The loop doubles its delay and caps it at every step, with a product that
saturates. `RetryConfig.pause` is what this comes to, in exact arithmetic:
the initial delay doubled once for each earlier failure, and capped. `paced`
puts these pauses between the calls of a round, and every run is such rounds,
one after the other.
-/

namespace CdDaReader

open Rust

/-- The delay between a round's failed attempt `j`, counted from one, and the
attempt after it. -/
def RetryConfig.pause (cfg : RetryConfig) (j : Nat) : Duration where
  nanos := min (cfg.initialBackoff.nanos * 2 ^ (j - 1)) cfg.maxBackoff.nanos
  nanos_le := Nat.le_trans (Nat.min_le_right ..) cfg.maxBackoff.nanos_le

def Call.event (format : SectorReadFormat) (call : Call) : Event :=
  .readCd call.lba call.sectors format call.answer

/-- The events of a round whose first call is attempt `j`: the calls, and
between any two of them the pause, unless it is zero. -/
def paced (format : SectorReadFormat) (cfg : RetryConfig) : Nat → List Call → List Event
  | _, [] => []
  | _, [call] => [call.event format]
  | j, call :: next :: round =>
    call.event format :: (pauses (cfg.pause j) ++ paced format cfg (j + 1) (next :: round))

def sleeps : List Event → List Nat
  | [] => []
  | .slept pause :: events => pause.nanos :: sleeps events
  | _ :: events => sleeps events

-- ---------------------------------------------------------------------------
-- The delay follows the closed form
-- ---------------------------------------------------------------------------

theorem Duration.ext_nanos {a b : Duration} (h : a.nanos = b.nanos) : a = b := by
  cases a
  cases b
  cases h
  rfl

theorem nanos_min (a b : Duration) : (a.min b).nanos = min a.nanos b.nanos := by
  unfold Duration.min
  split <;> omega

/-- The cap is a duration, so the product may as well not saturate. -/
theorem RetryConfig.nanos_grow (cfg : RetryConfig) (backoff : Duration) :
    (cfg.grow backoff).nanos = min (backoff.nanos * 2) cfg.maxBackoff.nanos := by
  have hdouble : (backoff.saturatingMul 2).nanos = min (backoff.nanos * 2) Duration.maxNanos := rfl
  have hmax := cfg.maxBackoff.nanos_le
  rw [grow, nanos_min, hdouble]
  omega

theorem RetryConfig.nanos_pause (cfg : RetryConfig) (j : Nat) : (cfg.pause j).nanos =
    min (cfg.initialBackoff.nanos * 2 ^ (j - 1)) cfg.maxBackoff.nanos :=
  rfl

theorem RetryConfig.pause_one (cfg : RetryConfig) :
    cfg.initialBackoff.min cfg.maxBackoff = cfg.pause 1 := by
  apply Duration.ext_nanos
  rw [nanos_min, nanos_pause, Nat.sub_self, Nat.pow_zero, Nat.mul_one]

theorem RetryConfig.grow_pause (cfg : RetryConfig) (hj : 1 ≤ j) :
    cfg.grow (cfg.pause j) = cfg.pause (j + 1) := by
  have hdouble : cfg.initialBackoff.nanos * 2 ^ j =
      cfg.initialBackoff.nanos * 2 ^ (j - 1) * 2 := by
    rw [Nat.mul_assoc, ← Nat.pow_succ, Nat.succ_eq_add_one, Nat.sub_add_cancel hj]
  apply Duration.ext_nanos
  rw [nanos_grow, nanos_pause, nanos_pause, Nat.add_sub_cancel, hdouble]
  omega

/-- The default policy, in milliseconds. -/
example : [1, 2, 3, 4, 5].map (fun j => (RetryConfig.default.pause j).nanos / 1000000) =
    [20, 40, 80, 160, 300] := by decide

theorem Attempts.calls_ne_nil (hatt : Attempts format cfg lba left n backoff events result) :
    calls events ≠ [] := by
  cases hatt <;> simp [calls]

theorem Attempts.paced (hatt : Attempts format cfg lba left n backoff events result)
    (hj : 1 ≤ j) (hbackoff : backoff = cfg.pause j) :
    events = paced format cfg j (calls events) := by
  induction hatt generalizing j with
  | served | gaveUp => rfl
  | @retried n answer err left backoff events result _ rest ih =>
    have hnext : cfg.grow backoff = cfg.pause (j + 1) := by rw [hbackoff, cfg.grow_pause hj]
    obtain ⟨call, round, hcalls⟩ := List.exists_cons_of_ne_nil rest.calls_ne_nil
    have htail := ih (by omega) hnext
    simp only [calls, calls_append, calls_pauses, List.nil_append, hbackoff]
    rw [hcalls] at htail ⊢
    rw [CdDaReader.paced, ← htail]
    rfl

-- ---------------------------------------------------------------------------
-- The pauses of a round
-- ---------------------------------------------------------------------------

theorem sleeps_append (events events' : List Event) :
    sleeps (events ++ events') = sleeps events ++ sleeps events' := by
  induction events with
  | nil => rfl
  | cons event events ih => cases event <;> simp [sleeps, ih]

theorem sleeps_pauses (backoff : Duration) :
    sleeps (pauses backoff) = [backoff.nanos].filter (0 < ·) := by
  unfold pauses Duration.isZero
  cases hnanos : backoff.nanos <;> simp [sleeps, hnanos]

/-- One pause between any two calls, less those of no length. -/
theorem sleeps_paced (format : SectorReadFormat) (cfg : RetryConfig) (j : Nat)
    (round : List Call) : sleeps (paced format cfg j round) =
      ((List.range' j (round.length - 1)).map fun i => (cfg.pause i).nanos).filter (0 < ·) := by
  induction round generalizing j with
  | nil => rfl
  | cons call round ih =>
    cases round with
    | nil => rfl
    | cons next round =>
      have htail := ih (j + 1)
      have hcons : sleeps (paced format cfg j (call :: next :: round)) =
          sleeps (pauses (cfg.pause j)) ++ sleeps (paced format cfg (j + 1) (next :: round)) :=
        sleeps_append ..
      simp only [List.length_cons, Nat.add_sub_cancel] at htail ⊢
      rw [hcons, htail, sleeps_pauses, List.range'_succ, List.map_cons, ← List.filter_append]
      rfl

theorem RetryConfig.nanos_pause_le (cfg : RetryConfig) (j : Nat) :
    (cfg.pause j).nanos ≤ cfg.maxBackoff.nanos :=
  Nat.min_le_right ..

theorem RetryConfig.nanos_pause_mono (cfg : RetryConfig) (h : j ≤ k) :
    (cfg.pause j).nanos ≤ (cfg.pause k).nanos := by
  have hpow : 2 ^ (j - 1) ≤ 2 ^ (k - 1) := Nat.pow_le_pow_right (by decide) (by omega)
  have hmul := Nat.mul_le_mul_left cfg.initialBackoff.nanos hpow
  rw [nanos_pause, nanos_pause]
  omega

/-- The pauses of one round, from the first attempt on: no shorter than any
before them, no longer than the cap, and no more than the attempts allow. -/
structure BacksOff (cfg : RetryConfig) (delays : List Nat) : Prop where
  monotone : delays.Pairwise (· ≤ ·)
  capped : ∀ delay ∈ delays, delay ≤ cfg.maxBackoff.nanos
  sum_le : delays.sum ≤ (max 1 cfg.maxAttempts.toNat - 1) * cfg.maxBackoff.nanos

theorem backsOff_paced (format : SectorReadFormat) {cfg : RetryConfig} {round : List Call}
    (hlen : round.length ≤ cfg.attempts) : BacksOff cfg (sleeps (paced format cfg 1 round)) := by
  have hcapped : ∀ pause ∈ sleeps (paced format cfg 1 round), pause ≤ cfg.maxBackoff.nanos := by
    rw [sleeps_paced]
    intro pause hmem
    obtain ⟨j, -, rfl⟩ := List.mem_map.mp (List.mem_of_mem_filter hmem)
    exact cfg.nanos_pause_le j
  constructor
  case monotone =>
    rw [sleeps_paced]
    apply List.Pairwise.filter
    apply List.pairwise_map.mpr
    apply List.Pairwise.imp _ (List.pairwise_lt_range' (s := 1))
    intro j k hlt
    exact cfg.nanos_pause_mono (Nat.le_of_lt hlt)
  case capped => exact hcapped
  case sum_le =>
    have hcount : (sleeps (paced format cfg 1 round)).length ≤ round.length - 1 := by
      rw [sleeps_paced]
      refine Nat.le_trans (List.length_filter_le ..) (Nat.le_of_eq ?_)
      rw [List.length_map, List.length_range']
    calc (sleeps (paced format cfg 1 round)).sum
      _ ≤ (sleeps (paced format cfg 1 round)).length * cfg.maxBackoff.nanos :=
        List.sum_le_card_nsmul _ _ hcapped
      _ ≤ (max 1 cfg.maxAttempts.toNat - 1) * cfg.maxBackoff.nanos := by
        apply Nat.mul_le_mul_right
        rw [cfg.attempts_eq] at hlen
        omega

-- ---------------------------------------------------------------------------
-- Whole runs
-- ---------------------------------------------------------------------------

theorem Consecutive.length_le {rounds : List (List Call)}
    (hcons : Consecutive format cfg lba remaining rounds) :
    ∀ round ∈ rounds, round.length ≤ cfg.attempts := by
  induction hcons with
  | done => simp
  | failed hround => exact List.forall_mem_singleton.mpr hround.length_le
  | served hround _ _ _ ih => exact List.forall_mem_cons.mpr ⟨hround.length_le, ih⟩

theorem RunsRound.paced (hruns : RunsRound format cfg events) :
    events = paced format cfg 1 (calls events) := by
  obtain ⟨lba, n, result, hatt⟩ := hruns
  exact hatt.paced (Nat.le_refl 1) cfg.pause_one

theorem flatten_eq_paced {groups : List (List Event)}
    (hruns : ∀ group ∈ groups, RunsRound format cfg group) :
    groups.flatten = (groups.map calls).flatMap (paced format cfg 1) := by
  induction groups with
  | nil => rfl
  | cons group groups ih =>
    obtain ⟨hfirst, hrest⟩ := List.forall_mem_cons.mp hruns
    rw [List.flatten_cons, ih hrest, List.map_cons, List.flatMap_cons, ← hfirst.paced]

/-- A run is its rounds, each of them paced from its first attempt on. Where
the request is refused there are none. -/
theorem readSectorsChunked_backsOff (host : Host) (format : SectorReadFormat) (cfg : RetryConfig)
    (readChunk : ReadChunk) (start sectors : UInt32) (h : History) :
    ∃ events result rounds,
      (readSectorsChunked host format cfg readChunk start sectors).exec h =
        (ofResult result, h ++ events) ∧
      (host.rejection format start.toNat sectors.toNat = none →
        Consecutive format cfg start.toNat sectors.toNat rounds) ∧
      (host.rejection format start.toNat sectors.toNat ≠ none → rounds = []) ∧
      events = rounds.flatMap (paced format cfg 1) ∧
      ∀ round ∈ rounds, BacksOff cfg (sleeps (paced format cfg 1 round)) := by
  obtain ⟨events, result, hreads, hexec⟩ :=
    readSectorsChunked_reads host format cfg readChunk start sectors h
  cases hreads with
  | refused hr =>
    refine ⟨[], _, [], hexec, ?_, fun _ => rfl, rfl, nofun⟩
    intro hnone
    cases hr.symm.trans hnone
  | accepted hr hrounds =>
    obtain ⟨groups, rfl, hruns, hcons, -, -⟩ :=
      hrounds.consecutive sectors.toNat_lt (host.span_of_accepted hr)
    refine ⟨_, result, groups.map calls, hexec, fun _ => hcons, fun hne => absurd hr hne,
      flatten_eq_paced hruns, ?_⟩
    intro round hmem
    exact backsOff_paced format (hcons.length_le round hmem)

end CdDaReader
