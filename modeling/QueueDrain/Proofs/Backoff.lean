import QueueDrain.Backoff
import QueueDrain.Proofs.Word

/-!
# The waits of a backoff policy

A wait is computed in words, and three of its steps can overflow: the power of the multiplier, the
product of the seconds, and the carry of the nanoseconds. The first falls back on the largest factor
and the others on the longest wait. On exact numbers all this is one formula, and what is to be
known about the waits is read off it.

The factor is held at the largest word. That is what keeps some policies from ever reaching their
longest wait: where it is more than the largest factor times the initial delay, the waits stop
growing below it.

## Main results

* `Backoff.growth_eq` — the growth factor in exact numbers
* `Backoff.Policy.nanos_delayFor` — a wait in exact numbers
* `Backoff.Policy.delayFor_mono`, `Backoff.Policy.delayFor_pos` — waits do not shrink and are not
  zero, unless the multiplier is
* `Backoff.Policy.nanos_delayFor_create` — the waits of a policy that `create` makes
* `Backoff.Policy.delayFor_reaches_maxDelay` — which of those policies reach their longest wait
-/

namespace QueueDrain

namespace Backoff

/-- The growth factor is a power of the multiplier, held at the largest word. -/
theorem growth_eq (multiplier : UInt32) (exponent : Nat) :
    (growth multiplier exponent).toNat = min growthLimit.toNat (multiplier.toNat ^ exponent) := by
  have hword : growthLimit.toNat + 1 = 2 ^ 32 := rfl
  rw [growth]
  cases hpow : Word.pow? multiplier.toBitVec exponent with
  | some factor =>
    have hexact : factor.toNat = multiplier.toNat ^ exponent :=
      (Word.pow?_eq_some_iff (by decide)).mp hpow
    have hlt := factor.isLt
    rw [Option.map_some, Option.getD_some, UInt32.toNat_ofBitVec]
    omega
  | none =>
    have hlarge : 2 ^ 32 ≤ multiplier.toNat ^ exponent := by
      refine Nat.le_of_not_lt fun hlt => ?_
      obtain ⟨factor, hfactor⟩ := Word.exists_toNat_eq_of_lt hlt
      have hsome : Word.pow? multiplier.toBitVec exponent = some factor :=
        (Word.pow?_eq_some_iff (by decide)).mpr hfactor
      rw [hpow] at hsome
      cases hsome
    rw [Option.map_none, Option.getD_none]
    omega

namespace Policy

variable {p : Policy} {a b attempt : Nat}

/-! ### Any policy -/

/-- **A wait in exact numbers.** -/
theorem nanos_delayFor (p : Policy) (attempt : Nat) :
    (p.delayFor attempt).nanos = min p.maxDelay.nanos
      (p.initialDelay.nanos * min (2 ^ 32 - 1) (p.multiplier.toNat ^ (attempt - 1))) := by
  have hfactor : (growth p.multiplier (attempt - 1)).toNat
      = min (2 ^ 32 - 1) (p.multiplier.toNat ^ (attempt - 1)) := growth_eq _ _
  rw [delayFor, ← hfactor]
  cases hproduct : p.initialDelay.mul? (growth p.multiplier (attempt - 1)) with
  | some delay =>
    have hexact := Duration.mul?_eq_some_iff.mp hproduct
    rw [← hexact, Nat.min_comm]
    exact Duration.nanos_min delay p.maxDelay
  | none =>
    -- a product that is no duration is longer than the longest wait, which is one
    have hlong := Duration.mul?_eq_none_iff.mp hproduct
    have hshort := p.maxDelay.nanos_lt
    rw [Nat.min_eq_left (by omega)]

theorem delayFor_le_maxDelay (p : Policy) (attempt : Nat) :
    (p.delayFor attempt).nanos ≤ p.maxDelay.nanos := by
  rw [nanos_delayFor]
  exact Nat.min_le_left _ _

theorem toNat_multiplier_pos (hm : p.multiplier ≠ 0) : 0 < p.multiplier.toNat := by
  refine Nat.pos_of_ne_zero fun hzero => hm ?_
  exact UInt32.toNat_inj.mp hzero

/-- **Waits do not shrink.** -/
theorem delayFor_mono (hm : p.multiplier ≠ 0) (h : a ≤ b) :
    (p.delayFor a).nanos ≤ (p.delayFor b).nanos := by
  have hpower : p.multiplier.toNat ^ (a - 1) ≤ p.multiplier.toNat ^ (b - 1) :=
    Nat.pow_le_pow_right (toNat_multiplier_pos hm) (by omega)
  have hfactor : min (2 ^ 32 - 1) (p.multiplier.toNat ^ (a - 1))
      ≤ min (2 ^ 32 - 1) (p.multiplier.toNat ^ (b - 1)) := by omega
  have hproduct := Nat.mul_le_mul_left p.initialDelay.nanos hfactor
  rw [nanos_delayFor, nanos_delayFor]
  omega

/-- **No wait is zero** where neither the initial delay nor the longest wait is. -/
theorem delayFor_pos (hm : p.multiplier ≠ 0) (hinitial : 0 < p.initialDelay.nanos)
    (hmax : 0 < p.maxDelay.nanos) (attempt : Nat) : 0 < (p.delayFor attempt).nanos := by
  have hpower : 0 < p.multiplier.toNat ^ (attempt - 1) :=
    Nat.pow_pos (toNat_multiplier_pos hm)
  have hproduct := Nat.mul_pos hinitial
    (show 0 < min (2 ^ 32 - 1) (p.multiplier.toNat ^ (attempt - 1)) by omega)
  rw [nanos_delayFor]
  omega

/-- The first wait does not depend on the multiplier. -/
theorem delayFor_of_le_one (p : Policy) (h : attempt ≤ 1) :
    p.delayFor attempt = p.initialDelay.min p.maxDelay := by
  have hexponent : attempt - 1 = 0 := by omega
  refine Duration.ext ?_
  rw [nanos_delayFor, Duration.nanos_min, hexponent, Nat.pow_zero]
  exact (Nat.min_comm _ _).trans (by simp)

/-- A multiplier of zero leaves no wait behind the first one. -/
theorem delayFor_of_multiplier_eq_zero (hm : p.multiplier = 0) (h : 1 < attempt) :
    p.delayFor attempt = .zero := by
  refine Duration.ext ?_
  rw [nanos_delayFor, hm, UInt32.toNat_zero, Nat.zero_pow (by omega)]
  simp [Duration.zero]

/-! ### Policies that `create` makes -/

theorem toNat_create_multiplier (initialDelay maxDelay : Duration) (multiplier : UInt32) :
    (create initialDelay maxDelay multiplier).multiplier.toNat = max multiplier.toNat 1 := by
  unfold create
  split
  next h => rw [h]; rfl
  next h =>
    have hpos : 0 < multiplier.toNat :=
      Nat.pos_of_ne_zero fun hzero => h (UInt32.toNat_inj.mp hzero)
    exact (Nat.max_eq_left hpos).symm

theorem create_multiplier_ne_zero (initialDelay maxDelay : Duration) (multiplier : UInt32) :
    (create initialDelay maxDelay multiplier).multiplier ≠ 0 := by
  intro hzero
  have hmax := toNat_create_multiplier initialDelay maxDelay multiplier
  rw [hzero, UInt32.toNat_zero] at hmax
  omega

theorem nanos_delayFor_of_create (initialDelay maxDelay : Duration) (multiplier : UInt32)
    (attempt : Nat) :
    ((create initialDelay maxDelay multiplier).delayFor attempt).nanos = min maxDelay.nanos
      (initialDelay.nanos * min (2 ^ 32 - 1) (max multiplier.toNat 1 ^ (attempt - 1))) := by
  rw [nanos_delayFor, toNat_create_multiplier]
  rfl

/-- **The waits of a policy that `create` makes.** No overflow changes their value: a wait is the
initial delay times the power of the multiplier, with the factor held at the largest word and the
wait at the longest one. A product that is no duration gives the longest wait. -/
theorem nanos_delayFor_create (initialDelay maxDelay : Duration) (multiplier : UInt32)
    (attempt : Nat) :
    let p := create initialDelay maxDelay multiplier
    let product := initialDelay.nanos *
      min (max multiplier.toNat 1 ^ (max attempt 1 - 1)) (2 ^ 32 - 1)
    (p.delayFor attempt).nanos = min maxDelay.nanos product ∧
      (Duration.limit ≤ product → p.delayFor attempt = maxDelay) := by
  intro p product
  have hexponent : max attempt 1 - 1 = attempt - 1 := by omega
  have hdelay : (p.delayFor attempt).nanos = min maxDelay.nanos product := by
    rw [nanos_delayFor_of_create, Nat.min_comm (2 ^ 32 - 1), ← hexponent]
  refine ⟨hdelay, fun hlong => Duration.ext ?_⟩
  have hshort := maxDelay.nanos_lt
  rw [hdelay, Nat.min_eq_left (by omega)]

/-- From the 33rd attempt on the factor of a policy that grows is the largest one. -/
theorem le_pow_of_lt {multiplier : Nat} (hm : 2 ≤ multiplier) (h : 32 < attempt) :
    2 ^ 32 - 1 ≤ multiplier ^ (attempt - 1) :=
  calc 2 ^ 32 - 1
      ≤ 2 ^ (attempt - 1) :=
        Nat.le_trans (Nat.sub_le _ 1) (Nat.pow_le_pow_right (by decide) (by omega))
    _ ≤ multiplier ^ (attempt - 1) := Nat.pow_le_pow_left hm _

/-- What holds from some attempt on holds at the last attempt that there is. -/
theorem last_of_eventually {P : Nat → Prop} {first : UInt32}
    (h : ∀ attempt : UInt32, first ≤ attempt → P attempt.toNat) : P (2 ^ 32 - 1) := by
  refine h (-1) (UInt32.le_iff_toNat_le.mpr ?_)
  exact Nat.le_of_lt_succ first.toNat_lt

/-- **Which policies reach their longest wait.** A policy that grows has the longest wait for good
from some attempt on if and only if the initial delay times the largest word is that long. It then
has it at every attempt for which the exact wait, without a bound on the factor, would be that long.
In any case the waits do not change from the 33rd attempt on. -/
theorem delayFor_reaches_maxDelay (initialDelay maxDelay : Duration) (multiplier : UInt32)
    (hmultiplier : 2 ≤ multiplier.toNat) :
    let p := create initialDelay maxDelay multiplier
    ((∃ first : UInt32, ∀ attempt : UInt32, first ≤ attempt →
        p.delayFor attempt.toNat = maxDelay) ↔
      maxDelay.nanos ≤ initialDelay.nanos * (2 ^ 32 - 1)) ∧
    (maxDelay.nanos ≤ initialDelay.nanos * (2 ^ 32 - 1) → ∀ attempt,
      maxDelay.nanos ≤ initialDelay.nanos * multiplier.toNat ^ (attempt - 1) →
        p.delayFor attempt = maxDelay) ∧
    ∀ attempt, 32 < attempt →
      (p.delayFor attempt).nanos = min maxDelay.nanos (initialDelay.nanos * (2 ^ 32 - 1)) := by
  intro p
  have hdelay : ∀ attempt, (p.delayFor attempt).nanos = min maxDelay.nanos
      (initialDelay.nanos * min (2 ^ 32 - 1) (multiplier.toNat ^ (attempt - 1))) := by
    intro attempt
    rw [nanos_delayFor_of_create, Nat.max_eq_left (by omega)]
  have hlate : ∀ attempt, 32 < attempt →
      (p.delayFor attempt).nanos = min maxDelay.nanos (initialDelay.nanos * (2 ^ 32 - 1)) := by
    intro attempt h
    rw [hdelay, Nat.min_eq_left (le_pow_of_lt hmultiplier h)]
  have hreach : maxDelay.nanos ≤ initialDelay.nanos * (2 ^ 32 - 1) → ∀ attempt,
      maxDelay.nanos ≤ initialDelay.nanos * multiplier.toNat ^ (attempt - 1) →
        p.delayFor attempt = maxDelay := by
    intro hlimit attempt hexact
    refine Duration.ext ?_
    rw [hdelay, Nat.min_eq_left]
    rcases Nat.le_total (2 ^ 32 - 1) (multiplier.toNat ^ (attempt - 1)) with h | h
    · rwa [Nat.min_eq_left h]
    · rwa [Nat.min_eq_right h]
  refine ⟨⟨?_, fun hlimit => ⟨33, fun attempt h => ?_⟩⟩, hreach, hlate⟩
  · rintro ⟨first, hfirst⟩
    have hlast : p.delayFor (2 ^ 32 - 1) = maxDelay :=
      last_of_eventually (P := fun n => p.delayFor n = maxDelay) hfirst
    have hnanos := hlate (2 ^ 32 - 1) (by decide)
    rw [hlast] at hnanos
    omega
  · have hlt : 32 < attempt.toNat := UInt32.le_iff_toNat_le.mp h
    exact hreach hlimit _ (Nat.le_trans hlimit
      (Nat.mul_le_mul_left _ (le_pow_of_lt hmultiplier hlt)))

/-- One second, doubled up to half a minute, waits half a minute at the sixth attempt. -/
theorem delayFor_reaches_maxDelay_default :
    2 ≤ (2 : UInt32).toNat ∧
    (Duration.seconds 30).nanos ≤ (Duration.seconds 1).nanos * (2 ^ 32 - 1) ∧
    (Duration.seconds 30).nanos ≤ (Duration.seconds 1).nanos * (2 : UInt32).toNat ^ (6 - 1) ∧
    default.delayFor 6 = Duration.seconds 30 := by
  have hmultiplier : 2 ≤ (2 : UInt32).toNat := by decide
  have hlimit : (Duration.seconds 30).nanos ≤ (Duration.seconds 1).nanos * (2 ^ 32 - 1) := by
    decide
  have hexact : (Duration.seconds 30).nanos
      ≤ (Duration.seconds 1).nanos * (2 : UInt32).toNat ^ (6 - 1) := by decide
  exact ⟨hmultiplier, hlimit, hexact,
    (delayFor_reaches_maxDelay (.seconds 1) (.seconds 30) 2 hmultiplier).2.1 hlimit 6 hexact⟩

/-- A nanosecond, doubled up to half a minute. -/
def slow : Policy := create ⟨1, by decide⟩ default.maxDelay 2

/-- The exact wait passes half a minute at the 36th attempt, and no wait is ever that long. -/
theorem slow_delayFor_lt_maxDelay :
    slow.maxDelay.nanos ≤ slow.initialDelay.nanos * slow.multiplier.toNat ^ (36 - 1) ∧
    slow.delayFor 36 ≠ slow.maxDelay ∧
    ¬ ∃ first : UInt32, ∀ attempt : UInt32, first ≤ attempt →
      slow.delayFor attempt.toNat = slow.maxDelay := by
  refine ⟨by decide, by decide, ?_⟩
  rintro ⟨first, hfirst⟩
  have hlast : slow.delayFor (2 ^ 32 - 1) = slow.maxDelay :=
    last_of_eventually (P := fun n => slow.delayFor n = slow.maxDelay) hfirst
  exact absurd hlast (by decide)

end Policy

end Backoff

end QueueDrain
