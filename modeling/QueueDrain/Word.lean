/-!
# Words that notice an overflow

Sums, products and powers of machine words that are words again or do not exist. A word is a bit
vector, so one definition serves every width.

## Main definitions

* `Word.add?`, `Word.mul?` — the sum and the product of two words, if it is a word
* `Word.pow?` — a power, by repeated squaring

## Main results

* `Word.add?_eq_some_iff`, `Word.mul?_eq_some_iff` — a result is exact, and where the exact result
  is a word there is one
-/

namespace QueueDrain

namespace Word

variable {w : Nat} {a b c acc base : BitVec w}

/-! ### Sums and products -/

/-- The sum of two words, if it is a word. -/
def add? (a b : BitVec w) : Option (BitVec w) :=
  if a.uaddOverflow b then none else some (a + b)

/-- The product of two words, if it is a word. -/
def mul? (a b : BitVec w) : Option (BitVec w) :=
  if a.umulOverflow b then none else some (a * b)

theorem add?_eq_some_iff : add? a b = some c ↔ c.toNat = a.toNat + b.toNat := by
  unfold add? BitVec.uaddOverflow
  split
  next h =>
    have hlarge := of_decide_eq_true h
    exact ⟨nofun, fun hc => absurd (hc ▸ c.isLt) (Nat.not_lt.mpr hlarge)⟩
  next h =>
    have hlt := Nat.lt_of_not_le (of_decide_eq_false (Bool.eq_false_iff.mpr h))
    rw [Option.some_inj, ← BitVec.toNat_inj, BitVec.toNat_add, Nat.mod_eq_of_lt hlt, eq_comm]

theorem mul?_eq_some_iff : mul? a b = some c ↔ c.toNat = a.toNat * b.toNat := by
  unfold mul? BitVec.umulOverflow
  split
  next h =>
    have hlarge := of_decide_eq_true h
    exact ⟨nofun, fun hc => absurd (hc ▸ c.isLt) (Nat.not_lt.mpr hlarge)⟩
  next h =>
    have hlt := Nat.lt_of_not_le (of_decide_eq_false (Bool.eq_false_iff.mpr h))
    rw [Option.some_inj, ← BitVec.toNat_inj, BitVec.toNat_mul, Nat.mod_eq_of_lt hlt, eq_comm]

/-- A word with the value of an exact result that is not larger than the largest word. -/
theorem exists_toNat_eq {n : Nat} (h : n ≤ (BitVec.allOnes w).toNat) :
    ∃ c : BitVec w, c.toNat = n :=
  ⟨BitVec.ofNatLT n (Nat.lt_of_le_of_lt h (BitVec.allOnes w).isLt), BitVec.toNat_ofNatLT n _⟩

/-! ### Powers -/

/-- What the last binary digit of an exponent makes of the product so far. -/
def digit? (acc base : BitVec w) (exponent : Nat) : Option (BitVec w) :=
  if exponent % 2 = 1 then mul? acc base else some acc

/-- The product so far, times a power of the base. A round takes the last binary digit off the
exponent and squares the base for the digits that are left. -/
def powFrom? (acc base : BitVec w) : (rounds exponent : Nat) → Option (BitVec w)
  | 0, _ => some acc
  | rounds + 1, exponent =>
    (digit? acc base exponent).bind fun acc =>
      if exponent ≤ 1 then some acc
      else (mul? base base).bind fun base => powFrom? acc base rounds (exponent / 2)

/-- A power of a word, if it is a word. There is a round for every binary digit of the exponent. -/
def pow? (base : BitVec w) (exponent : Nat) : Option (BitVec w) :=
  powFrom? 1 base (exponent.log2 + 1) exponent

end Word

end QueueDrain
