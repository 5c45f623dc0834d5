import Mathlib.Algebra.Order.Ring.Nat
import QueueDrain.Word

/-!
# Powers of words

A power of a word is computed by repeated squaring, and a square that is no word ends the
computation. The power is no word either then, since a square is only made for binary digits of the
exponent that are left.

## Main results

* `Word.powFrom?_eq_some_iff` — the invariant of the rounds
* `Word.pow?_eq_some_iff` — a power is exact, and where the exact power is a word there is one
-/

namespace QueueDrain

namespace Word

variable {w : Nat} {acc base r : BitVec w} {rounds exponent : Nat}

theorem exists_toNat_eq_of_lt {n : Nat} (h : n < 2 ^ w) : ∃ c : BitVec w, c.toNat = n :=
  exists_toNat_eq (by rw [BitVec.toNat_allOnes]; omega)

theorem digit?_eq_some_iff :
    digit? acc base exponent = some r ↔ r.toNat = acc.toNat * base.toNat ^ (exponent % 2) := by
  unfold digit?
  split
  next h => rw [h, Nat.pow_one, mul?_eq_some_iff]
  next h =>
    have hzero : exponent % 2 = 0 := by omega
    rw [hzero, Nat.pow_zero, Nat.mul_one, Option.some_inj, ← BitVec.toNat_inj, eq_comm]

theorem pow_split_digit (base exponent : Nat) :
    base ^ exponent = base ^ (exponent % 2) * (base * base) ^ (exponent / 2) := by
  rw [← Nat.pow_two, ← Nat.pow_mul, ← Nat.pow_add, Nat.mod_add_div]

/-- Where a power is a word, so is what a round computes on the way to it. -/
theorem round_lt (hexponent : 2 ≤ exponent) (hacc : acc.toNat = 0 → base.toNat = 0)
    (h : acc.toNat * base.toNat ^ exponent < 2 ^ w) :
    acc.toNat * base.toNat ^ (exponent % 2) < 2 ^ w ∧ base.toNat * base.toNat < 2 ^ w := by
  by_cases hbase : base.toNat = 0
  · have hdigit : base.toNat ^ (exponent % 2) ≤ 1 := by
      rcases Nat.mod_two_eq_zero_or_one exponent with h | h <;> simp [h, hbase]
    refine ⟨Nat.lt_of_le_of_lt (Nat.mul_le_mul_left _ hdigit) ?_, ?_⟩
    · rw [Nat.mul_one]
      exact acc.isLt
    · simp [hbase]
  · have hpos : 0 < base.toNat := Nat.pos_of_ne_zero hbase
    constructor
    · refine Nat.lt_of_le_of_lt (Nat.mul_le_mul_left _ ?_) h
      exact Nat.pow_le_pow_right hpos (Nat.mod_le exponent 2)
    · refine Nat.lt_of_le_of_lt ?_ h
      calc base.toNat * base.toNat
          = base.toNat ^ 2 := (Nat.pow_two _).symm
        _ ≤ base.toNat ^ exponent := Nat.pow_le_pow_right hpos hexponent
        _ ≤ acc.toNat * base.toNat ^ exponent :=
          Nat.le_mul_of_pos_left _ (Nat.pos_of_ne_zero fun h => hbase (hacc h))

/-- **The rounds together are exact.** A square that is no word is one of a base that still counts,
so the power is no word either. Only a zero base need not count: the product is zero then too. -/
theorem powFrom?_eq_some_iff (hrounds : exponent < 2 ^ rounds)
    (hacc : acc.toNat = 0 → base.toNat = 0) :
    powFrom? acc base rounds exponent = some r ↔ r.toNat = acc.toNat * base.toNat ^ exponent := by
  induction rounds generalizing acc base exponent with
  | zero =>
    obtain rfl : exponent = 0 := by simpa using hrounds
    rw [powFrom?, Nat.pow_zero, Nat.mul_one, Option.some_inj, ← BitVec.toNat_inj, eq_comm]
  | succ rounds ih =>
    rw [powFrom?, Option.bind_eq_some_iff]
    by_cases hlast : exponent ≤ 1
    · have hdigit : exponent % 2 = exponent := by omega
      simp only [if_pos hlast, digit?_eq_some_iff, hdigit, Option.some_inj, exists_eq_right]
    · have hhalf : exponent / 2 < 2 ^ rounds := by
        rw [Nat.pow_succ] at hrounds
        omega
      -- the invariant: product and base of the next round make the same power
      have hnext : ∀ {acc' base' : BitVec w},
          acc'.toNat = acc.toNat * base.toNat ^ (exponent % 2) →
          base'.toNat = base.toNat * base.toNat →
          (powFrom? acc' base' rounds (exponent / 2) = some r ↔
            r.toNat = acc.toNat * base.toNat ^ exponent) := by
        intro acc' base' ha hb
        rw [ih hhalf, ha, hb, pow_split_digit base.toNat exponent, Nat.mul_assoc]
        intro hzero
        rw [ha, Nat.mul_eq_zero] at hzero
        have hbase : base.toNat = 0 := hzero.elim hacc fun hp => (Nat.pow_eq_zero.mp hp).1
        rw [hb, hbase]
      simp only [if_neg hlast, digit?_eq_some_iff, Option.bind_eq_some_iff, mul?_eq_some_iff]
      constructor
      · rintro ⟨acc', ha, base', hb, hr⟩
        exact (hnext ha hb).mp hr
      · intro hr
        obtain ⟨hdigit, hsquare⟩ := round_lt (by omega) hacc (hr ▸ r.isLt)
        obtain ⟨acc', ha⟩ := exists_toNat_eq_of_lt hdigit
        obtain ⟨base', hb⟩ := exists_toNat_eq_of_lt hsquare
        exact ⟨acc', ha, base', hb, (hnext ha hb).mpr hr⟩

/-- **A power is exact, and there is one wherever the exact power is a word.** -/
theorem pow?_eq_some_iff (hw : 0 < w) :
    pow? base exponent = some r ↔ r.toNat = base.toNat ^ exponent := by
  have hone : (1 : BitVec w).toNat = 1 := BitVec.toNat_one hw
  rw [pow?, powFrom?_eq_some_iff Nat.lt_log2_self (by rw [hone]; nofun), hone, Nat.one_mul]

end Word

end QueueDrain
