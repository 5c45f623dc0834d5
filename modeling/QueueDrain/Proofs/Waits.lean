import Mathlib.Data.List.Basic
import QueueDrain.Backoff.Json
import QueueDrain.Proofs.Attempts
import QueueDrain.Proofs.Backoff

/-!
# The waits of a series of attempts

The attempts of a series are counted up from one, and before each of them the series waits as long
as the policy says. Waits that do not shrink with the number of the attempt therefore do not shrink
in the course of a series. This holds in every environment, and for every policy with a multiplier
that is not zero. `create` raises a multiplier of zero to one. A policy that is read from a text
keeps the zero, and then only the first attempt is waited for.

A wait is read off the states of a series, and not off the lines that it logs: the environment may
log lines of its own.

## Main definitions

* `Connect.series` — a series of attempts, by steps
* `Connect.Run.At` — a series has come to an attempt of a certain number at least
* `Connect.Waited` — from where to where an attempt is waited for

## Main results

* `Connect.Run.At.step`, `Connect.series_at` — the numbers of the attempts never go back
* `Connect.Waited.now_eq` — how long an attempt is waited for
* `Connect.waits_grow` — waits do not shrink, unless the multiplier is zero
-/

namespace QueueDrain

namespace Connect

variable {ω : Type} {E : Environment ω} {policy : Backoff.Policy} {endpoint : String}

/-- The number of the attempt that an activity belongs to. -/
def Activity.number? : Activity → Option Nat
  | .backingOff attempt _ => some attempt
  | .establishing attempt _ => attempt

/-! ### Steps -/

namespace Run

variable {r : Run ω} {k attempt wake : Nat}

/-- What a step of a series is. -/
theorem step_cases (E : Environment ω) (policy : Backoff.Policy) (endpoint : String) (r : Run ω) :
    (∃ result, r.stage = .over result ∧ r.step E policy endpoint = r) ∨
    ∃ a, r.stage = .ongoing a ∧
      (r.step E policy endpoint = { r with course := r.course.advance E [a.wake] } ∨
        Move E policy endpoint r.course a (r.step E policy endpoint).course
          (r.step E policy endpoint).stage) := by
  match hs : r.stage with
  | .over result => exact .inl ⟨result, rfl, by rw [step, hs]⟩
  | .ongoing a =>
    refine .inr ⟨a, rfl, ?_⟩
    cases hmove : Connect.step E policy endpoint a r.course with
    | none => exact .inl (by rw [step_of_none hs hmove, hs])
    | some next =>
      rw [step_of_some hs hmove]
      exact .inr (step_move hmove)

/-- While a series goes on, it is at attempt `k` or at a later one. -/
def At (k : Nat) (r : Run ω) : Prop :=
  ∀ a, r.stage = .ongoing a →
    ∃ attempt, a.number? = some attempt ∧ k ≤ attempt ∧ attempt ≤ maxAttempt

/-- A step does not go back to an earlier attempt. -/
theorem At.step (h : At k r) : At k (r.step E policy endpoint) := by
  rcases step_cases E policy endpoint r with ⟨_, -, hsame⟩ | ⟨a, ha, hwaits | hmove⟩
  · rwa [hsame]
  · rw [hwaits]
    exact h
  · obtain ⟨attempt, hnumber, hk, hmax⟩ := h a ha
    intro next hnext
    generalize (r.step E policy endpoint).course = c at hmove
    rw [hnext] at hmove
    cases hmove with
    | began => exact ⟨attempt, hnumber, hk, hmax⟩
    | retried =>
      obtain rfl := Option.some.inj hnumber
      exact ⟨_, rfl, by omega, Nat.min_le_right _ _⟩

/-- A series that waits is interrupted, or begins an attempt at the end of the wait, or waits on. -/
theorem step_of_backingOff (E : Environment ω) (policy : Backoff.Policy) (endpoint : String)
    (hs : r.stage = .ongoing (.backingOff attempt wake)) :
    (r.step E policy endpoint).stage = .over (.ok none) ∨
    (wake ≤ r.course.now ∧ ∃ due,
      (r.step E policy endpoint).stage = .ongoing (.establishing (some attempt) due)) ∨
    ((r.step E policy endpoint).stage = .ongoing (.backingOff attempt wake) ∧
      (r.step E policy endpoint).course.now ≤ max r.course.now wake) := by
  have hwait : ∀ a, r.stage = .ongoing a → a = .backingOff attempt wake := fun a ha =>
    (Stage.ongoing.inj (hs.symm.trans ha)).symm
  rcases step_cases E policy endpoint r with ⟨_, hover, -⟩ | ⟨a, ha, hwaits | hmove⟩
  · rw [hs] at hover
    cases hover
  · obtain rfl := hwait a ha
    rw [hwaits]
    exact .inr (.inr ⟨hs, r.course.advance_now_le List.mem_cons_self⟩)
  · obtain rfl := hwait a ha
    generalize (r.step E policy endpoint).course = c,
      (r.step E policy endpoint).stage = stage at hmove ⊢
    cases hmove with
    | overtaken => exact .inl rfl
    | began hw => exact .inr (.inl ⟨hw, _, rfl⟩)

/-- A wait that begins is as long as the policy says. -/
theorem wake_of_step (hs : ∀ attempt wake, r.stage ≠ .ongoing (.backingOff attempt wake))
    (h : (r.step E policy endpoint).stage = .ongoing (.backingOff attempt wake)) :
    wake = (r.step E policy endpoint).course.now + (policy.delayFor attempt).millisCeil := by
  rcases step_cases E policy endpoint r with ⟨_, -, hsame⟩ | ⟨a, ha, hwaits | hmove⟩
  · rw [hsame] at h
    exact absurd h (hs _ _)
  · rw [hwaits] at h
    exact absurd h (hs _ _)
  · generalize (r.step E policy endpoint).course = c at hmove ⊢
    rw [h] at hmove
    generalize hnext : Activity.backingOff attempt wake = next at hmove
    cases hmove with
    | began => cases hnext
    | retried =>
      cases hnext
      rfl

end Run

/-! ### Runs -/

/-- A series of attempts after some steps. -/
def series (E : Environment ω) (policy : Backoff.Policy) (endpoint : String) (c : Course ω)
    (n : Nat) : Run ω :=
  (Run.repeated policy endpoint c).run E policy endpoint n

variable {c : Course ω} {n m n' m' attempt attempt' : Nat}

theorem series_succ (n : Nat) :
    series E policy endpoint c (n + 1) = (series E policy endpoint c n).step E policy endpoint := by
  rw [series, series, Run.run_eq, Run.run_eq, Function.iterate_succ_apply']

theorem series_at_first : (series E policy endpoint c 0).At 1 := by
  intro a ha
  obtain rfl := Stage.ongoing.inj ha
  exact ⟨1, rfl, Nat.le_refl 1, by decide⟩

/-- **A series never goes back to an earlier attempt.** -/
theorem series_at {k : Nat} (h : (series E policy endpoint c n).At k) (hm : n ≤ m) :
    (series E policy endpoint c m).At k := by
  induction hm with
  | refl => exact h
  | step _ ih =>
    rw [Nat.succ_eq_add_one, series_succ]
    exact ih.step

/-- An attempt is waited for from step `n` of a series to step `m`, and begins with the next one. -/
structure Waited (E : Environment ω) (policy : Backoff.Policy) (endpoint : String) (c : Course ω)
    (n m attempt : Nat) : Prop where
  le : n ≤ m
  /-- The series did not wait before. -/
  begins : ∀ k, n = k + 1 → ∀ attempt wake,
    (series E policy endpoint c k).stage ≠ .ongoing (.backingOff attempt wake)
  waits : ∀ k, n ≤ k → k ≤ m → ∃ wake,
    (series E policy endpoint c k).stage = .ongoing (.backingOff attempt wake)
  ends : ∃ due,
    (series E policy endpoint c (m + 1)).stage = .ongoing (.establishing (some attempt) due)

namespace Waited

theorem wake_eq {wake : Nat} (h : Waited E policy endpoint c n m attempt)
    (hs : (series E policy endpoint c n).stage = .ongoing (.backingOff attempt wake)) :
    wake = (series E policy endpoint c n).course.now + (policy.delayFor attempt).millisCeil := by
  cases n with
  | zero =>
    cases hs
    rfl
  | succ k =>
    rw [series_succ] at hs ⊢
    exact Run.wake_of_step (h.begins k rfl) hs

/-- Until a wait is over, the clock does not pass its end. -/
theorem before_wake {wake k : Nat} (h : Waited E policy endpoint c n m attempt)
    (hs : (series E policy endpoint c n).stage = .ongoing (.backingOff attempt wake))
    (hn : n ≤ k) (hm : k ≤ m) :
    (series E policy endpoint c k).stage = .ongoing (.backingOff attempt wake) ∧
      (series E policy endpoint c k).course.now ≤ wake := by
  induction hn with
  | refl => exact ⟨hs, (h.wake_eq hs).symm ▸ Nat.le_add_right _ _⟩
  | @step k hn ih =>
    obtain ⟨hstage, hnow⟩ := ih (Nat.le_of_succ_le hm)
    obtain ⟨later, hlater⟩ := h.waits (k + 1) (Nat.le_succ_of_le hn) hm
    rw [series_succ] at hlater ⊢
    rcases Run.step_of_backingOff E policy endpoint hstage with
      hover | ⟨-, due, hbegun⟩ | ⟨hsame, hclock⟩
    · rw [hover] at hlater
      cases hlater
    · rw [hbegun] at hlater
      cases hlater
    · exact ⟨hsame, by omega⟩

/-- **An attempt is waited for as long as the policy says.** -/
theorem now_eq (h : Waited E policy endpoint c n m attempt) :
    (series E policy endpoint c m).course.now
      = (series E policy endpoint c n).course.now + (policy.delayFor attempt).millisCeil := by
  obtain ⟨wake, hs⟩ := h.waits n (Nat.le_refl n) h.le
  obtain ⟨hstage, hnow⟩ := h.before_wake hs h.le (Nat.le_refl m)
  obtain ⟨due, hends⟩ := h.ends
  rw [← h.wake_eq hs]
  rw [series_succ] at hends
  rcases Run.step_of_backingOff E policy endpoint hstage with
    hover | ⟨hw, -⟩ | ⟨hsame, -⟩
  · rw [hover] at hends
    cases hends
  · exact Nat.le_antisymm hnow hw
  · rw [hsame] at hends
    cases hends

/-- A later wait is for a later attempt, or for the last one that is counted. -/
theorem attempt_le (h : Waited E policy endpoint c n m attempt)
    (h' : Waited E policy endpoint c n' m' attempt') (hn : n ≤ n') : attempt ≤ attempt' := by
  have hat : (series E policy endpoint c n).At attempt := by
    obtain ⟨wake, hs⟩ := h.waits n (Nat.le_refl n) h.le
    intro a ha
    rw [hs] at ha
    obtain rfl := Stage.ongoing.inj ha
    obtain ⟨k, hk, -, hmax⟩ := series_at series_at_first (Nat.zero_le n) _ hs
    obtain rfl := Option.some.inj hk
    exact ⟨attempt, rfl, Nat.le_refl _, hmax⟩
  obtain ⟨wake, hs⟩ := h'.waits n' (Nat.le_refl n') h'.le
  obtain ⟨k, hk, hle, -⟩ := series_at hat hn _ hs
  obtain rfl := Option.some.inj hk
  exact hle

end Waited

/-! ### Waits and multipliers -/

/-- Milliseconds from step `n` of a series to step `m`. -/
def elapsed (E : Environment ω) (policy : Backoff.Policy) (endpoint : String) (c : Course ω)
    (n m : Nat) : Nat :=
  (series E policy endpoint c m).course.now - (series E policy endpoint c n).course.now

theorem Waited.elapsed_eq (h : Waited E policy endpoint c n m attempt) :
    elapsed E policy endpoint c n m = (policy.delayFor attempt).millisCeil := by
  rw [elapsed, h.now_eq]
  omega

theorem Waited.elapsed_mono (hm : policy.multiplier ≠ 0)
    (h : Waited E policy endpoint c n m attempt) (h' : Waited E policy endpoint c n' m' attempt')
    (hn : n ≤ n') : elapsed E policy endpoint c n m ≤ elapsed E policy endpoint c n' m' := by
  rw [h.elapsed_eq, h'.elapsed_eq]
  exact Duration.millisCeil_mono (Backoff.Policy.delayFor_mono hm (h.attempt_le h' hn))

theorem Waited.elapsed_pos (hm : policy.multiplier ≠ 0) (hinitial : 0 < policy.initialDelay.nanos)
    (hmax : 0 < policy.maxDelay.nanos) (h : Waited E policy endpoint c n m attempt) :
    0 < elapsed E policy endpoint c n m := by
  have hpos := Backoff.Policy.delayFor_pos hm hinitial hmax attempt
  rw [h.elapsed_eq]
  exact Duration.millisCeil_pos (beq_eq_false_iff_ne.mpr (Nat.ne_of_gt hpos))

/-- **Waits do not shrink, unless the multiplier is zero.** No wait is longer than the policy
allows. With any other multiplier later attempts have no shorter delays, later waits of a series
last no less time, and neither is ever zero where the initial delay and the longest one are not.
With a multiplier of zero only the first attempt has a delay. The policies that `create` makes, and
the default one among them, have another multiplier. -/
theorem waits_grow (E : Environment ω) (policy : Backoff.Policy) (endpoint : String)
    (c : Course ω) :
    (∀ attempt, (policy.delayFor attempt).nanos ≤ policy.maxDelay.nanos) ∧
    (policy.multiplier ≠ 0 →
      (∀ a b, a ≤ b → (policy.delayFor a).nanos ≤ (policy.delayFor b).nanos) ∧
      (∀ n m attempt n' m' attempt', Waited E policy endpoint c n m attempt →
        Waited E policy endpoint c n' m' attempt' → n ≤ n' →
          elapsed E policy endpoint c n m ≤ elapsed E policy endpoint c n' m') ∧
      (0 < policy.initialDelay.nanos → 0 < policy.maxDelay.nanos →
        (∀ attempt, 0 < (policy.delayFor attempt).nanos) ∧
        ∀ n m attempt, Waited E policy endpoint c n m attempt →
          0 < elapsed E policy endpoint c n m)) ∧
    (policy.multiplier = 0 →
      (∀ attempt, policy.delayFor attempt =
        if attempt ≤ 1 then policy.initialDelay.min policy.maxDelay else .zero) ∧
      ∀ n m attempt, Waited E policy endpoint c n m attempt → 1 < attempt →
        elapsed E policy endpoint c n m = 0) ∧
    (∀ initialDelay maxDelay multiplier,
      (Backoff.Policy.create initialDelay maxDelay multiplier).multiplier ≠ 0) ∧
    Backoff.Policy.default.multiplier ≠ 0 := by
  refine ⟨policy.delayFor_le_maxDelay, fun hm => ⟨fun _ _ => Backoff.Policy.delayFor_mono hm,
    fun _ _ _ _ _ _ h h' hn => h.elapsed_mono hm h' hn, fun hinitial hmax =>
      ⟨Backoff.Policy.delayFor_pos hm hinitial hmax,
        fun _ _ _ h => h.elapsed_pos hm hinitial hmax⟩⟩,
    fun hm => ⟨fun attempt => ?_, fun n m attempt h hlate => ?_⟩,
    Backoff.Policy.create_multiplier_ne_zero, Backoff.Policy.create_multiplier_ne_zero _ _ _⟩
  · split
    next hfirst => exact policy.delayFor_of_le_one hfirst
    next hlate => exact Backoff.Policy.delayFor_of_multiplier_eq_zero hm (by omega)
  · rw [h.elapsed_eq, Backoff.Policy.delayFor_of_multiplier_eq_zero hm hlate]
    rfl

/-- Two attempts fail, and the third one is never answered. -/
def failing : Attempts where
  policy := .default
  endpoint := "amqp://fake:5672 (vhost '/')"
  start := 0
  answers k := if k < 2 then some { result := .error (.transport .missingHeartbeat) } else none

/-- A second is waited for, and then two. -/
theorem waits_grow_failing :
    Waited failing.environment .default failing.endpoint failing.opening 0 1 1 ∧
    Waited failing.environment .default failing.endpoint failing.opening 3 4 2 ∧
    elapsed failing.environment .default failing.endpoint failing.opening 0 1 = 1000 ∧
    elapsed failing.environment .default failing.endpoint failing.opening 3 4 = 2000 ∧
    elapsed failing.environment .default failing.endpoint failing.opening 0 1
      ≤ elapsed failing.environment .default failing.endpoint failing.opening 3 4 := by
  have hfirst : Waited failing.environment .default failing.endpoint failing.opening 0 1 1 :=
    { le := by decide
      begins := nofun
      waits := fun k _ hk => by
        obtain rfl | rfl : k = 0 ∨ k = 1 := by omega
        · exact ⟨1000, rfl⟩
        · exact ⟨1000, rfl⟩
      ends := ⟨_, rfl⟩ }
  have hsecond : Waited failing.environment .default failing.endpoint failing.opening 3 4 2 :=
    { le := by decide
      begins := fun k hk => by
        obtain rfl : k = 2 := by omega
        exact nofun
      waits := fun k _ hk => by
        obtain rfl | rfl : k = 3 ∨ k = 4 := by omega
        · exact ⟨3000, rfl⟩
        · exact ⟨3000, rfl⟩
      ends := ⟨_, rfl⟩ }
  obtain ⟨-, hgrow, -, -, hdefault⟩ :=
    waits_grow failing.environment .default failing.endpoint failing.opening
  exact ⟨hfirst, hsecond, rfl, rfl, (hgrow hdefault).2.1 _ _ _ _ _ _ hfirst hsecond (by decide)⟩

/-- A policy in JSON with a multiplier of zero. -/
def shrinkingText : String :=
  "\x7b\"initial_delay\":\x7b\"secs\":1,\"nanos\":0\x7d," ++
  "\"max_delay\":\x7b\"secs\":30,\"nanos\":0\x7d,\"multiplier\":0\x7d"

/-- What it is read as. -/
def shrinking : Backoff.Policy := { Backoff.Policy.default with multiplier := 0 }

/-- A policy that is read from a text can shrink: the second attempt is not waited for, though the
policy that `create` makes of the same values waits a second before every attempt. -/
theorem shrinking_delayFor_lt :
    Backoff.Policy.ofJson shrinkingText = .ok shrinking ∧
    (shrinking.delayFor 2).nanos < (shrinking.delayFor 1).nanos ∧
    (shrinking.delayFor 2).nanos = 0 ∧
    (Backoff.Policy.create shrinking.initialDelay shrinking.maxDelay 0).delayFor 2
      = shrinking.initialDelay := by
  have hread : Backoff.Policy.ofJson shrinkingText = .ok shrinking := by cbv
  exact ⟨hread, by decide, by decide, by decide⟩

end Connect

end QueueDrain
