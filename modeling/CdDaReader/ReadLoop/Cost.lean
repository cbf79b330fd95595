import CdDaReader.ReadLoop.Backoff

/-!
# What a read costs

How many commands a read sends and how long it sleeps, whatever the drive
answers. A failed command costs at most one more besides itself, since only a
round with a failure reads less than a whole transfer; and the configuration
bounds both commands and pauses by itself. Without a failure the commands are
the plan: whole transfers one after the other, and the rest.
-/

namespace CdDaReader

open Rust

-- ---------------------------------------------------------------------------
-- Transfers
-- ---------------------------------------------------------------------------

/-- The transfers of at most `size` sectors that `n` sectors take. -/
def transfers (size n : Nat) : Nat := (n + size - 1) / size

theorem transfers_zero (hsize : 1 ≤ size) : transfers size 0 = 0 := by
  unfold transfers
  exact Nat.div_eq_of_lt (by omega)

theorem transfers_pos (hsize : 1 ≤ size) (hn : 1 ≤ n) : 1 ≤ transfers size n :=
  Nat.div_pos (by omega) hsize

theorem transfers_mono (size : Nat) (h : n ≤ n') : transfers size n ≤ transfers size n' :=
  Nat.div_le_div_right (by omega)

theorem transfers_add (hsize : 1 ≤ size) (n : Nat) :
    transfers size (n + size) = transfers size n + 1 := by
  have hshift : n + size + size - 1 = n + size - 1 + size := by omega
  rw [transfers, hshift, Nat.add_div_right _ hsize, transfers]

/-- A whole transfer, or the last one, leaves one less to make. -/
theorem transfers_sub (hsize : 1 ≤ size) (hn : 1 ≤ n) (hm : min n size ≤ m) :
    transfers size (n - m) + 1 ≤ transfers size n := by
  rcases Nat.le_total size n with hle | hle
  · have hrest := transfers_add hsize (n - size)
    rw [Nat.sub_add_cancel hle] at hrest
    rw [hrest]
    exact Nat.succ_le_succ (transfers_mono size (by omega))
  · have hdone : n - m = 0 := by omega
    rw [hdone, transfers_zero hsize]
    exact transfers_pos hsize hn

theorem transfers_le_sub (hsize : 1 ≤ size) (hm : m ≤ size) :
    transfers size n ≤ transfers size (n - m) + 1 := by
  rw [← transfers_add hsize]
  exact transfers_mono size (by omega)

-- ---------------------------------------------------------------------------
-- Rounds
-- ---------------------------------------------------------------------------

def failures (format : SectorReadFormat) (calls : List Call) : Nat :=
  calls.countP fun call => !(call.result format).isOk

theorem failures_append (format : SectorReadFormat) (round calls : List Call) :
    failures format (round ++ calls) = failures format round + failures format calls :=
  List.countP_append ..

theorem Call.Failed.isOk {call : Call} (h : call.Failed format) :
    (!(call.result format).isOk) = true := by
  obtain ⟨err, herr⟩ := h
  rw [Fails] at herr
  rw [herr]
  rfl

theorem failures_eq_length {round : List Call} (h : ∀ call ∈ round, call.Failed format) :
    failures format round = round.length :=
  List.countP_eq_length.mpr fun call hmem => (h call hmem).isOk

/-- The fewest sectors a served command reads, unless fewer are left. -/
def RetryConfig.leastRead (cfg : RetryConfig) (format : SectorReadFormat) : Nat :=
  if cfg.reduceChunkOnRetry then min format.maxSectorsPerXfer.toNat cfg.minChunk.toNat
  else format.maxSectorsPerXfer.toNat

theorem RetryConfig.one_le_leastRead (cfg : RetryConfig) (format : SectorReadFormat) :
    1 ≤ cfg.leastRead format := by
  have hmin := cfg.one_le_minChunk
  have hmax := format.one_le_maxSectorsPerXfer
  unfold leastRead
  split <;> omega

section
variable {format : SectorReadFormat} {cfg : RetryConfig} {round : List Call}

/-- All calls of a round but the last failed. -/
theorem IsRound.length_le_failures (h : IsRound format cfg lba left first round) :
    round.length ≤ failures format round + 1 := by
  have hsplit := List.dropLast_append_getLast h.nonempty
  have hfailed := failures_eq_length h.failed
  have hlen : round.dropLast.length = round.length - 1 := List.length_dropLast
  have hle : failures format round.dropLast ≤ failures format round :=
    (List.dropLast_sublist round).countP_le
  omega

theorem IsRoundFor.remaining_pos (h : IsRoundFor format cfg lba remaining round) :
    1 ≤ remaining := by
  obtain ⟨call, hmem⟩ := List.exists_mem_of_ne_nil round h.nonempty
  have hbounds := h.bounded call hmem
  omega

theorem IsRoundFor.leastRead_le (h : IsRoundFor format cfg lba remaining round)
    (hmem : call ∈ round) : min remaining (cfg.leastRead format) ≤ call.sectors.toNat := by
  have hbounds := h.bounded call hmem
  unfold RetryConfig.leastRead
  split <;> rename_i hreduce
  · omega
  · rw [h.constant (by simpa using hreduce) call hmem]

/-- A round without a failure reads a whole transfer, or all that is left. -/
theorem IsRoundFor.sectors_eq (h : IsRoundFor format cfg lba remaining round)
    (hlast : round.getLast? = some call) (hnone : failures format round = 0) :
    round = [call] ∧ call.sectors.toNat = min remaining format.maxSectorsPerXfer.toNat := by
  have hlen := h.length_le_failures
  cases round with
  | nil => cases hlast
  | cons first rest =>
    have hrest : rest = [] := by
      apply List.eq_nil_of_length_eq_zero
      simp only [List.length_cons] at hlen
      omega
    subst hrest
    cases hlast
    exact ⟨rfl, h.head _ rfl⟩

-- ---------------------------------------------------------------------------
-- Runs of rounds
-- ---------------------------------------------------------------------------

variable {rounds : List (List Call)}

theorem Consecutive.length_le_flatten (h : Consecutive format cfg lba remaining rounds) :
    rounds.length ≤ rounds.flatten.length := by
  induction h with
  | done => exact Nat.le_refl 0
  | failed hround =>
    have hpos := List.length_pos_of_ne_nil hround.nonempty
    simpa using Nat.succ_le_of_lt hpos
  | served hround _ _ _ ih =>
    have hpos := List.length_pos_of_ne_nil hround.nonempty
    simp only [List.flatten_cons, List.length_append, List.length_cons]
    omega

theorem Consecutive.length_flatten_le (h : Consecutive format cfg lba remaining rounds) :
    rounds.flatten.length ≤ failures format rounds.flatten + rounds.length := by
  induction h with
  | done => exact Nat.le_refl 0
  | failed hround =>
    have hlen := hround.length_le_failures
    simpa using hlen
  | served hround _ _ _ ih =>
    have hlen := hround.length_le_failures
    simp only [List.flatten_cons, List.length_append, failures_append, List.length_cons]
    omega

/-- Every round but those with a failure is a whole transfer. -/
theorem Consecutive.length_le_failures (h : Consecutive format cfg lba remaining rounds) :
    rounds.length ≤
      transfers format.maxSectorsPerXfer.toNat remaining + failures format rounds.flatten := by
  have hmax := format.one_le_maxSectorsPerXfer
  induction h with
  | done => exact Nat.zero_le _
  | failed hround =>
    have hpos := transfers_pos hmax hround.remaining_pos
    exact Nat.le_add_right_of_le hpos
  | @served lba remaining call rounds round hround hlast _ _ ih =>
    simp only [List.flatten_cons, failures_append, List.length_cons]
    by_cases hnone : failures format round = 0
    · obtain ⟨-, hwhole⟩ := hround.sectors_eq hlast hnone
      have hrest := transfers_sub hmax hround.remaining_pos (Nat.le_of_eq hwhole.symm)
      omega
    · have hrest := transfers_mono format.maxSectorsPerXfer.toNat
        (Nat.sub_le remaining call.sectors.toNat)
      omega

theorem Consecutive.length_le_leastRead (h : Consecutive format cfg lba remaining rounds) :
    rounds.length ≤ transfers (cfg.leastRead format) remaining := by
  have hleast := cfg.one_le_leastRead format
  induction h with
  | done => exact Nat.zero_le _
  | failed hround => exact transfers_pos hleast hround.remaining_pos
  | served hround hlast _ _ ih =>
    have hread := hround.leastRead_le (List.mem_of_getLast? hlast)
    have hrest := transfers_sub hleast hround.remaining_pos hread
    rw [List.length_cons]
    omega

theorem Consecutive.transfers_le (h : Consecutive format cfg lba remaining rounds)
    (hserved : ∀ err, ∀ round ∈ rounds, ¬ Exhausted format cfg err round) :
    transfers format.maxSectorsPerXfer.toNat remaining ≤ rounds.length := by
  have hmax := format.one_le_maxSectorsPerXfer
  induction h with
  | done => rw [transfers_zero hmax]; exact Nat.zero_le _
  | failed _ hexhausted => exact (hserved _ _ (List.mem_singleton_self _) hexhausted).elim
  | @served _ remaining call _ _ hround hlast _ _ ih =>
    obtain ⟨-, -, hcap⟩ := hround.bounded call (List.mem_of_getLast? hlast)
    have hrest := ih fun err round hmem => hserved err round (List.mem_cons_of_mem _ hmem)
    have hone : transfers format.maxSectorsPerXfer.toNat remaining ≤ _ :=
      transfers_le_sub hmax (Nat.le_trans hcap (Nat.min_le_right ..))
    exact Nat.le_trans hone (Nat.succ_le_succ hrest)

theorem calls_paced (format : SectorReadFormat) (cfg : RetryConfig) (j : Nat)
    (round : List Call) : calls (paced format cfg j round) = round := by
  induction round generalizing j with
  | nil => rfl
  | cons call round ih =>
    cases round with
    | nil => rfl
    | cons next round =>
      have htail := ih (j + 1)
      simp only [paced, Call.event, calls, calls_append, calls_pauses, List.nil_append, htail]

theorem calls_flatMap_paced (format : SectorReadFormat) (cfg : RetryConfig)
    (rounds : List (List Call)) : calls (rounds.flatMap (paced format cfg 1)) = rounds.flatten := by
  induction rounds with
  | nil => rfl
  | cons round rounds ih =>
    simp only [List.flatMap_cons, calls_append, calls_paced, ih, List.flatten_cons]

/-- One pause, of the cap at most, after each failure but the last. -/
theorem IsRoundFor.sum_sleeps_le (h : IsRoundFor format cfg lba remaining round) :
    (sleeps (paced format cfg 1 round)).sum ≤ (round.length - 1) * cfg.maxBackoff.nanos := by
  have hcount : (sleeps (paced format cfg 1 round)).length ≤ round.length - 1 := by
    rw [sleeps_paced]
    refine Nat.le_trans (List.length_filter_le ..) (Nat.le_of_eq ?_)
    rw [List.length_map, List.length_range']
  have hcapped := (backsOff_paced format h.length_le).capped
  exact Nat.le_trans (List.sum_le_card_nsmul _ _ hcapped) (Nat.mul_le_mul_right _ hcount)

theorem Consecutive.sum_sleeps_le (h : Consecutive format cfg lba remaining rounds) :
    (sleeps (rounds.flatMap (paced format cfg 1))).sum ≤
      (rounds.flatten.length - rounds.length) * cfg.maxBackoff.nanos := by
  induction h with
  | done => exact Nat.zero_le _
  | failed hround =>
    have hsum := hround.sum_sleeps_le
    simpa using hsum
  | @served _ _ _ rounds round hround _ _ rest ih =>
    have hsum := hround.sum_sleeps_le
    have hpos := List.length_pos_of_ne_nil hround.nonempty
    have hlen := rest.length_le_flatten
    simp only [List.flatMap_cons, sleeps_append, List.sum_append, List.flatten_cons,
      List.length_append, List.length_cons]
    have hsplit : round.length + rounds.flatten.length - (rounds.length + 1) =
        (round.length - 1) + (rounds.flatten.length - rounds.length) := by omega
    rw [hsplit, Nat.add_mul]
    exact Nat.add_le_add hsum ih

theorem Consecutive.length_flatten_le_attempts
    (h : Consecutive format cfg lba remaining rounds) :
    rounds.flatten.length ≤ rounds.length * cfg.attempts := by
  have hle : ∀ len ∈ rounds.map List.length, len ≤ cfg.attempts :=
    List.forall_mem_map.mpr h.length_le
  simpa [List.length_flatten] using List.sum_le_card_nsmul _ _ hle

end

-- ---------------------------------------------------------------------------
-- Whole runs
-- ---------------------------------------------------------------------------

/-- The price of a read of `sectors` sectors, in commands and in time asleep. -/
structure Costs (format : SectorReadFormat) (cfg : RetryConfig) (sectors : Nat)
    (events : List Event) (result : Answer) : Prop where
  commands_le : (calls events).length ≤
    transfers format.maxSectorsPerXfer.toNat sectors + 2 * failures format (calls events)
  commands_bounded : (calls events).length ≤
    cfg.attempts * transfers (cfg.leastRead format) sectors
  slept_le : (sleeps events).sum ≤ failures format (calls events) * cfg.maxBackoff.nanos
  slept_bounded : (sleeps events).sum ≤
    (cfg.attempts - 1) * transfers (cfg.leastRead format) sectors * cfg.maxBackoff.nanos
  least : ∀ out, result = .ok out →
    transfers format.maxSectorsPerXfer.toNat sectors ≤ (calls events).length

theorem Consecutive.costs {rounds : List (List Call)}
    (h : Consecutive format cfg lba sectors rounds)
    (hserved : ∀ out, result = .ok out → ∀ err, ∀ round ∈ rounds,
      ¬ Exhausted format cfg err round) :
    Costs format cfg sectors (rounds.flatMap (paced format cfg 1)) result := by
  have hfailures := h.length_flatten_le
  have hwhole := h.length_le_failures
  have hleast := h.length_le_leastRead
  have hflatten := h.length_le_flatten
  have hattempts := h.length_flatten_le_attempts
  have hmul := Nat.mul_le_mul_right cfg.attempts hleast
  constructor
  case commands_le =>
    rw [calls_flatMap_paced]
    omega
  case commands_bounded =>
    rw [calls_flatMap_paced, Nat.mul_comm]
    exact Nat.le_trans hattempts hmul
  case slept_le =>
    rw [calls_flatMap_paced]
    refine Nat.le_trans h.sum_sleeps_le (Nat.mul_le_mul_right _ ?_)
    omega
  case slept_bounded =>
    refine Nat.le_trans h.sum_sleeps_le (Nat.mul_le_mul_right _ ?_)
    have hrest := Nat.mul_le_mul_left (cfg.attempts - 1) hleast
    rw [Nat.sub_mul, Nat.one_mul, Nat.mul_comm] at hrest
    refine Nat.le_trans (Nat.sub_le_sub_right hattempts _) hrest
  case least =>
    intro out hout
    rw [calls_flatMap_paced]
    exact Nat.le_trans (h.transfers_le (hserved out hout)) hflatten

/-- Every request has its price, whatever the drive answers. -/
theorem readSectorsChunked_costs (host : Host) (format : SectorReadFormat) (cfg : RetryConfig)
    (readChunk : ReadChunk) (start sectors : UInt32) (h : History) :
    ∃ events result,
      (readSectorsChunked host format cfg readChunk start sectors).exec h =
        (ofResult result, h ++ events) ∧
      Costs format cfg sectors.toNat events result := by
  obtain ⟨events, result, hreads, hexec⟩ :=
    readSectorsChunked_reads host format cfg readChunk start sectors h
  refine ⟨events, result, hexec, ?_⟩
  cases hreads with
  | refused hr =>
    constructor
    case least => rintro out ⟨⟩
    all_goals exact Nat.zero_le _
  | accepted hr hrounds =>
    obtain ⟨groups, rfl, hruns, hcons, herr, -⟩ :=
      hrounds.consecutive sectors.toNat_lt (host.span_of_accepted hr)
    rw [flatten_eq_paced hruns]
    apply hcons.costs
    rintro out rfl err round hmem hexhausted
    cases (herr err).mpr ⟨round, hmem, hexhausted⟩

-- ---------------------------------------------------------------------------
-- The plan
-- ---------------------------------------------------------------------------

/-- Whole transfers one after the other from `lba` on, and the rest. -/
def SectorReadFormat.plan (format : SectorReadFormat) (lba n : Nat) : List (Nat × Nat) :=
  let size := format.maxSectorsPerXfer.toNat
  (List.range (transfers size n)).map fun k => (lba + k * size, min size (n - k * size))

example : SectorReadFormat.audio.plan 100 60 = [(100, 27), (127, 27), (154, 6)] := by decide

def Call.span (call : Call) : Nat × Nat := (call.lba.toNat, call.sectors.toNat)

theorem SectorReadFormat.plan_zero (format : SectorReadFormat) (lba : Nat) :
    format.plan lba 0 = [] := by
  simp [plan, transfers_zero format.one_le_maxSectorsPerXfer]

theorem SectorReadFormat.plan_next (format : SectorReadFormat) (lba : Nat) (hn : 1 ≤ n)
    (hm : m = min n format.maxSectorsPerXfer.toNat) :
    format.plan lba n = (lba, m) :: format.plan (lba + m) (n - m) := by
  have hmax := format.one_le_maxSectorsPerXfer
  have hcount : transfers format.maxSectorsPerXfer.toNat n =
      transfers format.maxSectorsPerXfer.toNat (n - m) + 1 :=
    Nat.le_antisymm (transfers_le_sub hmax (by omega)) (transfers_sub hmax hn (by omega))
  unfold plan
  simp only [hcount, List.range_succ_eq_map, List.map_cons, List.map_map]
  congr 1
  · simp [hm, Nat.min_comm]
  · rcases Nat.le_total n format.maxSectorsPerXfer.toNat with hle | hle
    · -- nothing is left
      have hrest : n - m = 0 := by omega
      rw [hrest, transfers_zero hmax]
      rfl
    · have hwhole : m = format.maxSectorsPerXfer.toNat := by omega
      subst hwhole
      apply List.map_congr_left
      intro k _
      simp only [Function.comp, Nat.succ_mul, Prod.mk.injEq]
      omega

theorem Consecutive.plan {rounds : List (List Call)}
    (h : Consecutive format cfg lba remaining rounds)
    (hnone : failures format rounds.flatten = 0) :
    rounds.flatten.map Call.span = format.plan lba remaining ∧
      rounds.flatMap (paced format cfg 1) = rounds.flatten.map (Call.event format) ∧
      ∀ err, ∀ round ∈ rounds, ¬ Exhausted format cfg err round := by
  induction h with
  | done => exact ⟨(format.plan_zero _).symm, rfl, by simp⟩
  | failed hround hexhausted =>
    obtain ⟨-, hfailed, -⟩ := hexhausted
    have hall := failures_eq_length hfailed
    have hpos := List.length_pos_of_ne_nil hround.nonempty
    simp only [List.flatten_cons, List.flatten_nil, List.append_nil] at hnone
    omega
  | @served lba remaining call rounds round hround hlast hserved _ ih =>
    simp only [List.flatten_cons, failures_append, Nat.add_eq_zero_iff] at hnone
    obtain ⟨rfl, hsectors⟩ := hround.sectors_eq hlast hnone.1
    obtain ⟨hspans, hevents, hrest⟩ := ih hnone.2
    have hlba := hround.lba_eq call (List.mem_singleton_self call)
    refine ⟨?_, ?_, ?_⟩
    · rw [format.plan_next lba hround.remaining_pos hsectors, ← hspans, ← hlba]
      rfl
    · rw [List.flatMap_cons, hevents]
      rfl
    · intro err
      refine List.forall_mem_cons.mpr ⟨fun hexhausted => ?_, hrest err⟩
      exact hexhausted.not_served hlast hserved

/-- A read in which no command failed returns, has no pause, and its commands
are the plan. -/
theorem readSectorsChunked_plan (host : Host) {format : SectorReadFormat} {start sectors : UInt32}
    (hr : host.rejection format start.toNat sectors.toNat = none) (cfg : RetryConfig)
    (readChunk : ReadChunk) (h : History) :
    ∃ events result,
      (readSectorsChunked host format cfg readChunk start sectors).exec h =
        (ofResult result, h ++ events) ∧
      (failures format (calls events) = 0 →
        events = (calls events).map (Call.event format) ∧
        (calls events).map Call.span = format.plan start.toNat sectors.toNat ∧
        result.isOk = true) := by
  obtain ⟨events, result, hrounds, -, hexec⟩ := readSectorsChunked_rounds host cfg readChunk hr h
  refine ⟨events, result, hexec, ?_⟩
  obtain ⟨groups, rfl, hruns, hcons, herr, -⟩ :=
    hrounds.consecutive sectors.toNat_lt (host.span_of_accepted hr)
  rw [flatten_eq_paced hruns, calls_flatMap_paced]
  intro hnone
  obtain ⟨hspans, hevents, hserved⟩ := hcons.plan hnone
  refine ⟨hevents, hspans, ?_⟩
  cases result with
  | ok out => rfl
  | error err =>
    obtain ⟨round, hmem, hexhausted⟩ := (herr err).mp rfl
    exact (hserved err round hmem hexhausted).elim

/-- A drive that serves every command makes no failures. -/
theorem Disc.ServesFrom.failures_eq {disc : Disc} (hs : disc.ServesFrom format readChunk h)
    (hans : Answered readChunk format h events) : failures format (calls events) = 0 := by
  induction events generalizing h with
  | nil => rfl
  | cons event events ih =>
    have hrest := ih (hs.append [event]) hans.2
    cases event with
    | slept pause => exact hrest
    | command cmd answer =>
      obtain ⟨lba, n, rfl, rfl⟩ := hans.1 _ _ rfl
      have hserved := hs [] lba n
      rw [List.append_nil] at hserved
      have hresult : (Call.mk lba n (readChunk h lba n)).result format =
          .ok (disc.sectors format lba.toNat n.toNat) := by
        simp [Call.result, hserved, checkChunk, disc.length_sectors]
      have hfirst : (!((Call.mk lba n (readChunk h lba n)).result format).isOk) = false := by
        rw [hresult]
        rfl
      unfold failures at hrest ⊢
      rw [calls, List.countP_cons_of_neg (by simp [hfirst])]
      exact hrest

/-- Once warm, the drive serves a read of sixty sectors in three commands. -/
theorem readSectorsChunked_plan_warmingUp :
    ∃ events result,
      (readSectorsChunked .desktop .audio .default ((Disc.blank 7).warmingUp .audio) 100 60).exec
          [.slept .zero] = (ofResult result, [.slept .zero] ++ events) ∧
      events = (calls events).map (Call.event .audio) ∧
      (calls events).map Call.span = [(100, 27), (127, 27), (154, 6)] ∧ result.isOk = true := by
  have hr : Host.desktop.rejection .audio (100 : UInt32).toNat (60 : UInt32).toNat = none := by
    decide
  have hserves : (Disc.blank 7).ServesFrom .audio ((Disc.blank 7).warmingUp .audio)
      [.slept .zero] := fun _ _ _ => rfl
  obtain ⟨events, result, hexec, hplan⟩ := readSectorsChunked_plan .desktop hr .default
    ((Disc.blank 7).warmingUp .audio) [.slept .zero]
  have hfailures := hserves.failures_eq (readSectorsChunked_answered _ hr hexec)
  obtain ⟨hevents, hspans, hok⟩ := hplan hfailures
  exact ⟨events, result, hexec, hevents, hspans, hok⟩

end CdDaReader
