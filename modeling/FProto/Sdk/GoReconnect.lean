import FProto.Sdk.GoClient
import Mathlib.Algebra.Order.Ring.Cast
import Mathlib.Algebra.Order.Ring.Int
import Mathlib.Algebra.Order.Ring.Rat
import Mathlib.Logic.Function.Iterate

/-!
Owns the delays of `sdk/go/reconnect.go`: how long `ConnectWithReconnect` sleeps between
its attempts, and `NextDelay`.

Durations are nanoseconds. What the source computes with `float64` is computed with
rational numbers, so without rounding and overflow.

**Main result.** The loop multiplies and caps its delay after each sleep, while `NextDelay`
caps a closed form. The two agree, stay below the cap and do not decrease exactly when
the initial delay is below the cap and, from the second attempt on, the multiplier is not
zero (`backoff_followed_iff`). A partly filled configuration meets neither condition.
-/

namespace FProto.Sdk.Go

open FProto.Foundation
open FProto.Crypto

/-! ### Delays -/

/-- `ReconnectConfig` with all its fields. -/
structure BackoffConfig extends ReconnectConfig where
  maxDelay : Int
  multiplier : ℚ
  jitter : ℚ

/-- `DefaultReconnectConfig`. -/
def defaultReconnectConfig : BackoffConfig where
  initialDelay := 1000000000
  maxDelay := 30000000000
  multiplier := 2
  jitter := 1 / 5
  maxAttempts := 0

/-- The configuration that the loop uses. -/
def BackoffConfig.effective (cfg : BackoffConfig) : BackoffConfig :=
  if cfg.initialDelay = 0 then defaultReconnectConfig else cfg

/-- `time.Duration(value)`, which rounds towards zero. -/
def duration (value : ℚ) : Int :=
  value.num.tdiv value.den

/-- `applyJitter`, with what `rand.Float64` returns. -/
def applyJitter (d : Int) (jitter random : ℚ) : Int :=
  if jitter ≤ 0 then d
  else
    let delta := d * jitter
    let low := d - delta
    let high := d + delta
    duration (low + random * (high - low))

/-- `NextDelay`. -/
def nextDelay (attempt : Nat) (cfg : BackoffConfig) (random : ℚ) : Int :=
  let delay := cfg.initialDelay * cfg.multiplier ^ attempt
  let delay := if cfg.maxDelay < delay then (cfg.maxDelay : ℚ) else delay
  applyJitter (duration delay) cfg.jitter random

/-- The delay after a sleep. -/
def BackoffConfig.advance (cfg : BackoffConfig) (delay : Int) : Int :=
  let delay := duration (delay * cfg.multiplier)
  if cfg.maxDelay < delay then cfg.maxDelay else delay

/-! ### The loop -/

/-- One attempt of a reconnecting client: what `Connect` meets, what `rand.Float64`
returns, and what ends the wait, the time or the error of the context. -/
structure Try (noise : Noise) where
  attempt : Attempt noise
  random : ℚ
  waited : Except String Unit

section Loop

variable {noise : Noise} (transportType : String) (cfg : BackoffConfig) (key : KeyPair)

/-- The configuration of a client that dials this transport. -/
def BackoffConfig.config : Config := ⟨transportType, cfg.toReconnectConfig⟩

/-- The loop of `ConnectWithReconnect`: its sleeps, and how it ends. -/
def backoffLoop (config : Config) (world : World noise) (delay : Int) (attempt : Nat) :
    List (Try noise) → List Int × Option (Except String Unit × World noise)
  | [] => ([], none)
  | tried :: rest =>
      match world.connect config key tried.attempt with
      | (.ok _, world) => ([], some (.ok (), world))
      | (.error error, world) =>
          if 0 < cfg.maxAttempts ∧ cfg.maxAttempts ≤ attempt + 1 then
            ([], some (.error error, world))
          else
            let jittered := applyJitter delay cfg.jitter tried.random
            match tried.waited with
            | .error error => ([jittered], some (.error error, world))
            | .ok _ =>
                let (sleeps, outcome) :=
                  backoffLoop config world (cfg.advance delay) (attempt + 1) rest
                (jittered :: sleeps, outcome)

/-- `Client.ConnectWithReconnect` with its sleeps. -/
def World.connectWithBackoff (world : World noise) (tries : List (Try noise)) :
    List Int × Option (Except String Unit × World noise) :=
  backoffLoop cfg.effective key (cfg.config transportType) world cfg.effective.initialDelay 0 tries

/-- Without its sleeps, the loop is the one of the client model. -/
theorem backoffLoop_outcome {config : Config} (same : config.maxAttempts = cfg.maxAttempts)
    (world : World noise) (delay : Int) (attempt : Nat) (tries : List (Try noise)) :
    (backoffLoop cfg key config world delay attempt tries).2 =
      world.connectWithReconnect config key attempt
        (tries.map fun tried => (tried.attempt, tried.waited)) := by
  induction tries generalizing world delay attempt with
  | nil => rfl
  | cons tried rest inductionHypothesis =>
      rw [backoffLoop, List.map_cons, World.connectWithReconnect, same]
      cases world.connect config key tried.attempt with
      | mk outcome after =>
          cases outcome with
          | ok _ => rfl
          | error error =>
              dsimp only
              split
              · rfl
              · cases tried.waited with
                | error error => rfl
                | ok _ => exact inductionHypothesis after (cfg.advance delay) (attempt + 1)

theorem connectWithBackoff_outcome (world : World noise) (tries : List (Try noise)) :
    (world.connectWithBackoff transportType cfg key tries).2 =
      world.connectWithReconnect (cfg.config transportType) key 0
        (tries.map fun tried => (tried.attempt, tried.waited)) := by
  refine backoffLoop_outcome cfg.effective key ?_ world _ 0 tries
  show (if cfg.initialDelay = 0 then 0 else cfg.maxAttempts) = cfg.effective.maxAttempts
  unfold BackoffConfig.effective
  split <;> rfl

/-! ### Runs in which every attempt fails -/

variable {transportType cfg key}

theorem connect_fails {config : Config} {attempt : Attempt noise}
    (fails : ¬(Call.connect attempt).Connects config key) (world : World noise) :
    ∃ error after, world.connect config key attempt = (.error error, after) := by
  unfold World.connect
  cases dialed : dial config attempt.reached with
  | error error => exact ⟨_, _, rfl⟩
  | ok _ =>
      cases shaken : attempt.handshake key with
      | error error => exact ⟨_, _, rfl⟩
      | ok session => exact absurd ⟨dialed, session, shaken⟩ fails

/-- The number of sleeps when every attempt fails. -/
def sleepCount : List (Try noise) → Nat
  | [] => 0
  | tried :: rest =>
      match tried.waited with
      | .error _ => 1
      | .ok _ => sleepCount rest + 1

/-- Every sleep is the last delay, advanced. -/
theorem sleeps_eq {config : Config} (unlimited : cfg.maxAttempts = 0) (steady : cfg.jitter = 0)
    {tries : List (Try noise)}
    (fails : ∀ tried ∈ tries, ¬(Call.connect tried.attempt).Connects config key)
    (world : World noise) (delay : Int) (attempt : Nat) :
    (backoffLoop cfg key config world delay attempt tries).1 =
      (List.range (sleepCount tries)).map fun index => cfg.advance^[index] delay := by
  induction tries generalizing world delay attempt with
  | nil => rfl
  | cons tried rest inductionHypothesis =>
      obtain ⟨failsFirst, failsLater⟩ := List.forall_mem_cons.mp fails
      obtain ⟨error, after, connected⟩ := connect_fails failsFirst world
      have goesOn : ¬(0 < cfg.maxAttempts ∧ cfg.maxAttempts ≤ attempt + 1) := by
        rw [unlimited]
        exact fun both => absurd both.1 (by decide)
      have plain : applyJitter delay cfg.jitter tried.random = delay := by
        rw [applyJitter, if_pos (le_of_eq steady)]
      rw [backoffLoop, connected, sleepCount]
      dsimp only
      rw [if_neg goesOn, plain]
      cases tried.waited with
      | error error => rfl
      | ok _ =>
          dsimp only
          rw [inductionHypothesis failsLater, List.range_succ_eq_map, List.map_cons, List.map_map]
          rfl

/-- The client makes a second attempt. -/
def TriesAgain (tries : List (Try noise)) : Prop :=
  ∃ first second rest, tries = first :: second :: rest ∧ first.waited = .ok ()

theorem sleepCount_pos_iff {tries : List (Try noise)} : 0 < sleepCount tries ↔ tries ≠ [] := by
  cases tries with
  | nil => simp [sleepCount]
  | cons tried rest =>
      rw [sleepCount]
      cases tried.waited <;> simp

theorem one_lt_sleepCount_iff {tries : List (Try noise)} :
    1 < sleepCount tries ↔ TriesAgain tries := by
  cases tries with
  | nil => simp [sleepCount, TriesAgain]
  | cons tried rest =>
      have again : TriesAgain (tried :: rest) ↔ tried.waited = .ok () ∧ rest ≠ [] := by
        constructor
        · rintro ⟨first, second, others, same, passed⟩
          obtain ⟨rfl, rfl⟩ := List.cons.inj same
          exact ⟨passed, List.cons_ne_nil _ _⟩
        · rintro ⟨passed, more⟩
          obtain ⟨second, others, rfl⟩ := List.exists_cons_of_ne_nil more
          exact ⟨tried, second, others, rfl, passed⟩
      rw [again, sleepCount, ← sleepCount_pos_iff]
      cases tried.waited with
      | error error => simp
      | ok _ => simp

end Loop

/-! ### Natural multipliers -/

theorem duration_intCast (value : Int) : duration value = value := by
  simp [duration]

/-- A delay under the cap. -/
def BackoffConfig.cap (cfg : BackoffConfig) (delay : Int) : Int :=
  if cfg.maxDelay < delay then cfg.maxDelay else delay

section Natural

variable {cfg : BackoffConfig} {multiplier : Nat} (natural : cfg.multiplier = multiplier)

theorem cap_le (cfg : BackoffConfig) (delay : Int) : cfg.cap delay ≤ cfg.maxDelay := by
  unfold BackoffConfig.cap
  split <;> omega

include natural in
theorem advance_eq (delay : Int) : cfg.advance delay = cfg.cap (delay * multiplier) := by
  have product : (delay : ℚ) * cfg.multiplier = ((delay * multiplier : Int) : ℚ) := by
    rw [natural]
    push_cast
    rfl
  rw [BackoffConfig.advance, product, duration_intCast]
  rfl

include natural in
theorem nextDelay_eq (steady : cfg.jitter = 0) (attempt : Nat) (random : ℚ) :
    nextDelay attempt cfg random = cfg.cap (cfg.initialDelay * (multiplier : Int) ^ attempt) := by
  have power : (cfg.initialDelay : ℚ) * cfg.multiplier ^ attempt =
      ((cfg.initialDelay * (multiplier : Int) ^ attempt : Int) : ℚ) := by
    rw [natural]
    push_cast
    rfl
  unfold nextDelay
  dsimp only
  rw [applyJitter, if_pos (le_of_eq steady), power, BackoffConfig.cap]
  simp only [Int.cast_lt]
  split <;> exact duration_intCast _

theorem le_mul_multiplier (grows : 1 ≤ multiplier) {delay : Int} (nonneg : 0 ≤ delay) :
    delay ≤ delay * multiplier := by
  have scaled := Int.mul_le_mul_of_nonneg_left (show (1 : Int) ≤ multiplier by omega) nonneg
  omega

/-- Capping after each multiplication is capping once, when the multiplier is not zero. -/
theorem cap_mul (grows : 1 ≤ multiplier) (capNonneg : 0 ≤ cfg.maxDelay) {delay : Int}
    (nonneg : 0 ≤ delay) : cfg.cap (cfg.cap delay * multiplier) = cfg.cap (delay * multiplier) := by
  have capGrows := le_mul_multiplier grows capNonneg
  have delayGrows := le_mul_multiplier grows nonneg
  unfold BackoffConfig.cap
  split_ifs <;> omega

theorem cap_nonneg (capNonneg : 0 ≤ cfg.maxDelay) {delay : Int} (nonneg : 0 ≤ delay) :
    0 ≤ cfg.cap delay := by
  unfold BackoffConfig.cap
  split <;> omega

/-- A delay under the cap does not shrink. -/
theorem le_cap_mul (grows : 1 ≤ multiplier) {delay : Int} (nonneg : 0 ≤ delay)
    (fits : delay ≤ cfg.maxDelay) : delay ≤ cfg.cap (delay * multiplier) := by
  have delayGrows := le_mul_multiplier grows nonneg
  unfold BackoffConfig.cap
  split <;> omega

theorem initial_mul_pow_nonneg (positive : 0 < cfg.initialDelay) (index : Nat) :
    0 ≤ cfg.initialDelay * (multiplier : Int) ^ index :=
  Int.mul_nonneg (by omega) (pow_nonneg (by omega) index)

include natural in
theorem iterate_advance (fits : cfg.initialDelay ≤ cfg.maxDelay) (positive : 0 < cfg.initialDelay)
    (grows : 1 ≤ multiplier) (index : Nat) :
    cfg.advance^[index] cfg.initialDelay =
      cfg.cap (cfg.initialDelay * (multiplier : Int) ^ index) := by
  induction index with
  | zero =>
      rw [Function.iterate_zero_apply, pow_zero, mul_one, BackoffConfig.cap, if_neg]
      omega
  | succ index inductionHypothesis =>
      rw [Function.iterate_succ_apply', inductionHypothesis, advance_eq natural,
        cap_mul grows (by omega) (initial_mul_pow_nonneg positive index), pow_succ, mul_assoc]

end Natural

/-! ### The documented backoff -/

/-- The k-th sleep is `NextDelay(k)` and at most the cap, and no sleep is shorter than the
one before it. -/
structure FollowsBackoff (cfg : BackoffConfig) (sleeps : List Int) : Prop where
  closedForm : ∀ index sleep, sleeps[index]? = some sleep →
    ∀ random, sleep = nextDelay index cfg random
  capped : ∀ sleep ∈ sleeps, sleep ≤ cfg.maxDelay
  growing : ∀ index earlier later, sleeps[index]? = some earlier →
    sleeps[index + 1]? = some later → earlier ≤ later

section Backoff

variable {cfg : BackoffConfig} {multiplier : Nat} (natural : cfg.multiplier = multiplier)

/-- A sleep of a run in which every attempt fails. -/
theorem getElem?_sleeps {delay : Int} {count index : Nat} {sleep : Int} :
    ((List.range count).map fun index => cfg.advance^[index] delay)[index]? = some sleep ↔
      index < count ∧ sleep = cfg.advance^[index] delay := by
  by_cases inside : index < count
  · simp [inside, eq_comm]
  · simp [inside]

include natural in
theorem followsBackoff_of_fits (fits : cfg.initialDelay ≤ cfg.maxDelay)
    (positive : 0 < cfg.initialDelay) (grows : 1 ≤ multiplier) (steady : cfg.jitter = 0)
    (count : Nat) :
    FollowsBackoff cfg
      ((List.range count).map fun index => cfg.advance^[index] cfg.initialDelay) := by
  have closed := iterate_advance natural fits positive grows
  refine ⟨?_, ?_, ?_⟩
  · intro index sleep isSleep random
    rw [(getElem?_sleeps.mp isSleep).2, closed, nextDelay_eq natural steady]
  · intro sleep member
    obtain ⟨index, -, rfl⟩ := List.mem_map.mp member
    rw [closed]
    exact cap_le cfg _
  · intro index earlier later isEarlier isLater
    rw [(getElem?_sleeps.mp isEarlier).2, (getElem?_sleeps.mp isLater).2,
      Function.iterate_succ_apply', advance_eq natural, closed]
    exact le_cap_mul grows (cap_nonneg (by omega) (initial_mul_pow_nonneg positive index))
      (cap_le cfg _)

/-- A single sleep has the initial delay, whatever the multiplier. -/
theorem followsBackoff_single {multiplier : Nat} (natural : cfg.multiplier = multiplier)
    (fits : cfg.initialDelay ≤ cfg.maxDelay) (steady : cfg.jitter = 0) :
    FollowsBackoff cfg [cfg.initialDelay] := by
  refine ⟨?_, by simpa using fits, ?_⟩
  · intro index sleep isSleep random
    obtain ⟨rfl, rfl⟩ : index = 0 ∧ cfg.initialDelay = sleep := by
      simpa [List.getElem?_singleton] using isSleep
    rw [nextDelay_eq natural steady, pow_zero, mul_one, BackoffConfig.cap, if_neg]
    omega
  · intro index earlier later _ isLater
    simp at isLater

include natural in
theorem followsBackoff_iff (positive : 0 < cfg.initialDelay) (capNonneg : 0 ≤ cfg.maxDelay)
    (steady : cfg.jitter = 0) (count : Nat) :
    FollowsBackoff cfg
        ((List.range count).map fun index => cfg.advance^[index] cfg.initialDelay) ↔
      (0 < count → cfg.initialDelay ≤ cfg.maxDelay) ∧ (1 < count → 1 ≤ multiplier) := by
  constructor
  · intro follows
    constructor
    · intro sleeps
      exact follows.capped _ (List.mem_map.mpr ⟨0, List.mem_range.mpr sleeps, rfl⟩)
    · intro sleepsAgain
      have grown := follows.growing 0 _ _ (getElem?_sleeps.mpr ⟨by omega, rfl⟩)
        (getElem?_sleeps.mpr ⟨sleepsAgain, rfl⟩)
      rw [Function.iterate_zero_apply, Function.iterate_one, advance_eq natural] at grown
      -- with the multiplier zero the second sleep would be empty
      by_contra stuck
      obtain rfl : multiplier = 0 := by omega
      rw [Int.natCast_zero, Int.mul_zero, BackoffConfig.cap, if_neg (by omega)] at grown
      omega
  · rintro ⟨fits, grows⟩
    rcases Nat.eq_zero_or_pos multiplier with isZero | nonzero
    · have once : count ≤ 1 := Nat.le_of_not_lt fun again => by
        have := grows again
        omega
      rcases Nat.le_one_iff_eq_zero_or_eq_one.mp once with rfl | rfl
      · exact ⟨by simp, by simp, by simp⟩
      · exact followsBackoff_single natural (fits Nat.one_pos) steady
    · rcases Nat.eq_zero_or_pos count with rfl | sleeps
      · exact ⟨by simp, by simp, by simp⟩
      · exact followsBackoff_of_fits natural (fits sleeps) positive nonzero steady count

end Backoff

/-- **When the delays follow the documented backoff.** For every configuration with a
positive initial delay, a natural multiplier and neither jitter nor a limit, and every run
in which all attempts fail. -/
theorem backoff_followed_iff {noise : Noise} {transportType : String} {key : KeyPair}
    {cfg : BackoffConfig} {multiplier : Nat} (positive : 0 < cfg.initialDelay)
    (capNonneg : 0 ≤ cfg.maxDelay) (natural : cfg.multiplier = multiplier)
    (steady : cfg.jitter = 0) (unlimited : cfg.maxAttempts = 0) (world : World noise)
    {tries : List (Try noise)}
    (fails : ∀ tried ∈ tries,
      ¬(Call.connect tried.attempt).Connects (cfg.config transportType) key) :
    FollowsBackoff cfg (world.connectWithBackoff transportType cfg key tries).1 ↔
      (tries ≠ [] → cfg.initialDelay ≤ cfg.maxDelay) ∧ (TriesAgain tries → 1 ≤ multiplier) := by
  have filled : cfg.effective = cfg := if_neg (by omega)
  rw [World.connectWithBackoff, filled, sleeps_eq unlimited steady fails,
    followsBackoff_iff natural positive capNonneg steady, sleepCount_pos_iff,
    one_lt_sleepCount_iff]

/-- The server is not reached, and the client waits. -/
def refusedTry : Try sampleNoise :=
  ⟨⟨.error "connection refused", (), fun _ => .error "broken pipe"⟩, 0, .ok ()⟩

theorem refusedTry_fails (config : Config) (key : KeyPair) :
    ¬(Call.connect refusedTry.attempt).Connects config key := by
  rintro ⟨dialed, -⟩
  revert dialed
  show ¬(dial config (.error "connection refused") = .ok ())
  unfold dial
  split
  · simp
  · split <;> simp

/-- One second, doubled up to three. -/
def sampleBackoff : BackoffConfig where
  initialDelay := 1000000000
  maxAttempts := 0
  maxDelay := 3000000000
  multiplier := 2
  jitter := 0

theorem backoff_followed_sample :
    FollowsBackoff sampleBackoff
      (World.new.connectWithBackoff "ws" sampleBackoff sampleKeyPair
        [refusedTry, refusedTry, refusedTry]).1 := by
  have natural : sampleBackoff.multiplier = (2 : Nat) := rfl
  have fails : ∀ tried ∈ [refusedTry, refusedTry, refusedTry],
      ¬(Call.connect tried.attempt).Connects (sampleBackoff.config "ws") sampleKeyPair := by
    intro tried member
    obtain rfl : tried = refusedTry := by simpa using member
    exact refusedTry_fails _ _
  refine (backoff_followed_iff (by decide) (by decide) natural rfl rfl World.new fails).mpr ?_
  exact ⟨fun _ => by decide, fun _ => by decide⟩

/-- A configuration of which only the initial delay is filled in. -/
def unfilledBackoff : BackoffConfig where
  initialDelay := 1000000000
  maxAttempts := 0
  maxDelay := 0
  multiplier := 0
  jitter := 0

/-- Its first sleep is not the documented one and above the cap, and then it does not
sleep at all. -/
theorem unfilled_config_never_waits :
    (World.new.connectWithBackoff "ws" unfilledBackoff sampleKeyPair
        [refusedTry, refusedTry, refusedTry]).1 = [1000000000, 0, 0] ∧
      nextDelay 0 unfilledBackoff 0 = 0 := by
  decide +kernel

end FProto.Sdk.Go
