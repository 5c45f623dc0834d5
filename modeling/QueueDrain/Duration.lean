import QueueDrain.Text.Decimal
import QueueDrain.Word

/-!
# Durations

A duration is a whole number of nanoseconds below `2 ^ 64` seconds. Its two usual parts, a word of
seconds and the nanoseconds within the last one, are read off that number. A multiple is computed on
the parts, in words, and comes out as if it had been computed on the number.

## Main definitions

* `Duration`, `Duration.ofParts?` — a span of time, and the span that two parts make
* `Duration.mul?` — a multiple, where it still is a duration
* `Duration.millisCeil` — the length of a sleep on a clock of whole milliseconds
* `Duration.text` — the largest unit that fits, with the fraction it needs

## Main results

* `Duration.secs_lt`, `Duration.subsecNanos_lt`, `Duration.nanos_eq` — the parts make the whole
* `Duration.mul?_eq_some_iff` — a multiple is exact, and where the exact product is a duration there
  is one
-/

namespace QueueDrain

/-- The first number of nanoseconds that is no duration any more. -/
def Duration.limit : Nat := 18446744073709551616 * 1000000000

/-- A span of time of whole nanoseconds. -/
@[ext]
structure Duration where
  /-- The length in nanoseconds. -/
  nanos : Nat
  nanos_lt : nanos < Duration.limit
deriving DecidableEq, Repr

namespace Duration

/-- The duration of `n` nanoseconds, if there is one. -/
def ofNanos? (n : Nat) : Option Duration :=
  if h : n < limit then some ⟨n, h⟩ else none

/-- The duration of `secs` seconds and `nanos` nanoseconds; nanoseconds past a full second carry. -/
def ofParts? (secs nanos : Nat) : Option Duration := ofNanos? (secs * 1000000000 + nanos)

/-- No time at all. -/
def zero : Duration := ⟨0, by decide⟩

/-- A few seconds, for the defaults of this library. -/
def seconds (n : Nat) (h : n < 1000000000 := by decide) : Duration :=
  ⟨n * 1000000000, by unfold limit; omega⟩

/-- Whole seconds. -/
def secs (d : Duration) : Nat := d.nanos / 1000000000

/-- Nanoseconds past the whole seconds. -/
def subsecNanos (d : Duration) : Nat := d.nanos % 1000000000

/-- Whether no time passes. -/
def isZero (d : Duration) : Bool := d.nanos == 0

/-- The shorter of two durations. -/
def min (a b : Duration) : Duration := if a.nanos ≤ b.nanos then a else b

/-- The nanoseconds within the last second of `d`, taken `k` times. Nothing is lost here, since
neither factor fills half of the word. -/
def subsecProduct (d : Duration) (k : UInt32) : BitVec 64 :=
  .ofNat 64 d.subsecNanos * k.toBitVec.setWidth 64

/-- `d` taken `k` times, if that is a duration. Seconds and nanoseconds are multiplied apart, and
the full seconds among the nanoseconds are carried over. -/
def mul? (d : Duration) (k : UInt32) : Option Duration := do
  let whole ← Word.mul? (.ofNat 64 d.secs) (k.toBitVec.setWidth 64)
  let secs ← Word.add? whole (d.subsecProduct k / 1000000000)
  ofParts? secs.toNat (d.subsecProduct k % 1000000000).toNat

/-- Milliseconds until a sleep of `d` has passed on a clock that shows whole milliseconds. -/
def millisCeil (d : Duration) : Nat := (d.nanos + 999999) / 1000000

/-- A sleep that is not over at once takes a millisecond at least. -/
theorem millisCeil_pos {d : Duration} (h : d.isZero = false) : 0 < d.millisCeil := by
  have hnanos : d.nanos ≠ 0 := by simpa [isZero] using h
  rw [millisCeil]
  omega

theorem millisCeil_mono {d e : Duration} (h : d.nanos ≤ e.nanos) :
    d.millisCeil ≤ e.millisCeil := by
  unfold millisCeil
  omega

/-! ### The parts and the whole -/

theorem secs_lt (d : Duration) : d.secs < 18446744073709551616 := by
  have := d.nanos_lt
  unfold limit at this
  unfold secs
  omega

theorem subsecNanos_lt (d : Duration) : d.subsecNanos < 1000000000 := by
  unfold subsecNanos
  omega

theorem nanos_eq (d : Duration) : d.nanos = d.secs * 1000000000 + d.subsecNanos := by
  unfold secs subsecNanos
  omega

theorem ofParts?_secs_subsecNanos (d : Duration) : ofParts? d.secs d.subsecNanos = some d := by
  rw [ofParts?, ← nanos_eq, ofNanos?, dif_pos d.nanos_lt]

theorem ofNanos?_eq_some_iff {n : Nat} {d : Duration} : ofNanos? n = some d ↔ d.nanos = n := by
  unfold ofNanos?
  split
  · constructor
    · rintro ⟨⟩; rfl
    · rintro rfl; rfl
  · rename_i h
    constructor
    · rintro ⟨⟩
    · rintro rfl; exact absurd d.nanos_lt h

theorem ofNanos?_eq_none_iff {n : Nat} : ofNanos? n = none ↔ limit ≤ n := by
  unfold ofNanos?
  split <;> simp <;> omega

theorem ofParts?_eq_some_iff {secs nanos : Nat} {d : Duration} :
    ofParts? secs nanos = some d ↔ d.nanos = secs * 1000000000 + nanos := ofNanos?_eq_some_iff

theorem toNat_setWidth_word (k : UInt32) : (k.toBitVec.setWidth 64).toNat = k.toNat := by
  simp

theorem toNat_ofNat_secs (d : Duration) : (BitVec.ofNat 64 d.secs).toNat = d.secs := by
  have := d.secs_lt
  simp [Nat.mod_eq_of_lt this]

/-- The product of the nanoseconds does not wrap. -/
@[simp] theorem toNat_subsecProduct (d : Duration) (k : UInt32) :
    (d.subsecProduct k).toNat = d.subsecNanos * k.toNat := by
  have hnanos := d.subsecNanos_lt
  have hk := k.toNat_lt
  have hproduct : d.subsecNanos * k.toNat < 1000000000 * 4294967296 :=
    Nat.mul_lt_mul'' hnanos hk
  rw [subsecProduct, BitVec.toNat_mul, toNat_setWidth_word, BitVec.toNat_ofNat,
    Nat.mod_eq_of_lt (by omega : d.subsecNanos < 2 ^ 64), Nat.mod_eq_of_lt (by omega)]

/-- The product of the whole is put together from the products of the parts. -/
theorem nanos_mul (d : Duration) (k : Nat) :
    d.nanos * k = (d.secs * k + d.subsecNanos * k / 1000000000) * 1000000000
      + d.subsecNanos * k % 1000000000 := by
  rw [d.nanos_eq, Nat.add_mul, Nat.mul_right_comm]
  omega

/-- **A multiple is exact, and there is one wherever the exact product is a duration.** Where the
seconds overflow, or the carry makes them do so, the exact product is longer than any duration. -/
theorem mul?_eq_some_iff {d e : Duration} {k : UInt32} :
    d.mul? k = some e ↔ e.nanos = d.nanos * k.toNat := by
  have hcarry : (d.subsecProduct k / 1000000000).toNat
      = d.subsecNanos * k.toNat / 1000000000 := by simp
  have hrest : (d.subsecProduct k % 1000000000).toNat
      = d.subsecNanos * k.toNat % 1000000000 := by simp
  simp only [mul?, Option.bind_eq_bind, Option.bind_eq_some_iff, Word.mul?_eq_some_iff,
    Word.add?_eq_some_iff, ofParts?_eq_some_iff, toNat_setWidth_word, toNat_ofNat_secs, hcarry,
    hrest, nanos_mul]
  constructor
  · rintro ⟨whole, hwhole, secs, hsecs, he⟩
    rw [he, hsecs, hwhole]
  · intro he
    have hlt := e.nanos_lt
    unfold limit at hlt
    have hlargest : (BitVec.allOnes 64).toNat = 18446744073709551615 := rfl
    obtain ⟨whole, hwhole⟩ := Word.exists_toNat_eq (w := 64) (n := d.secs * k.toNat) (by omega)
    obtain ⟨secs, hsecs⟩ := Word.exists_toNat_eq (w := 64)
      (n := d.secs * k.toNat + d.subsecNanos * k.toNat / 1000000000) (by omega)
    exact ⟨whole, hwhole, secs, by rw [hsecs, hwhole], by rw [he, hsecs]⟩

/-- A multiple is missing only where the exact product is longer than any duration. -/
theorem mul?_eq_none_iff {d : Duration} {k : UInt32} :
    d.mul? k = none ↔ limit ≤ d.nanos * k.toNat := by
  refine ⟨fun hnone => Nat.le_of_not_lt fun hlt => ?_, fun hlong => ?_⟩
  · have hsome : d.mul? k = some ⟨d.nanos * k.toNat, hlt⟩ := mul?_eq_some_iff.mpr rfl
    rw [hnone] at hsome
    cases hsome
  · cases hproduct : d.mul? k with
    | none => rfl
    | some e => exact absurd (mul?_eq_some_iff.mp hproduct ▸ e.nanos_lt) (Nat.not_lt.mpr hlong)

theorem nanos_min (a b : Duration) : (a.min b).nanos = Nat.min a.nanos b.nanos := by
  unfold min
  split <;> simp [Nat.min_def, *]

/-! ### Text -/

/-- `whole` units and `fraction` of the next smaller scale of `places` digits: the fraction without
its trailing zeros, and no point where nothing is left of it. -/
def decimalText (whole fraction places : Nat) : String :=
  let kept := ((Decimal.padded places fraction).reverse.dropWhile (· == '0')).reverse
  if kept.isEmpty then Decimal.text whole
  else Decimal.text whole ++ "." ++ String.ofList kept

/-- The duration in the largest of the units s, ms, µs and ns whose whole part is not zero. -/
def text (d : Duration) : String :=
  let n := d.nanos
  if 1000000000 ≤ n then decimalText (n / 1000000000) (n % 1000000000) 9 ++ "s"
  else if 1000000 ≤ n then decimalText (n / 1000000) (n % 1000000) 6 ++ "ms"
  else if 1000 ≤ n then decimalText (n / 1000) (n % 1000) 3 ++ "µs"
  else Decimal.text n ++ "ns"

end Duration

end QueueDrain
