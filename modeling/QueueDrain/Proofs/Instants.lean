import Mathlib.Algebra.Order.Ring.Nat
import QueueDrain.Timestamp
import QueueDrain.Proofs.Tokens

/-!
# Instants in texts

A text of an instant is read back as the instant, unless it has a leap second where no minute ends:
such a second is written like the one behind it, and so is read as that. Dates are read with the
usual rules of the Gregorian calendar, which know nothing of the arithmetic that dates are made
with: lengths of the months, and a leap day in every fourth year but for three of four full
centuries. The arithmetic counts years from March and four hundred of them at a time, so that the
leap day is the last of its year, century and four centuries; the reading counts from January of the
year one.

## Main definitions

* `CivilDate.toDays` — the day of a date, by the rules of the calendar
* `Timestamp.ofText?` — the instant of a text
* `Timestamp.IsNormal`, `Timestamp.normal` — an instant whose leap second ends a minute

## Main results

* `CivilDate.toDays_ofDays` — the date of a day is that day's
* `Timestamp.ofText?_text` — the text of an instant is read as the instant in its normal form
-/

namespace QueueDrain

namespace CivilDate

/-! ### The calendar -/

/-- A year with a leap day. -/
def IsLeapYear (year : Int) : Prop := year % 4 = 0 ∧ (year % 100 ≠ 0 ∨ year % 400 = 0)

instance (year : Int) : Decidable (IsLeapYear year) :=
  inferInstanceAs (Decidable (year % 4 = 0 ∧ (year % 100 ≠ 0 ∨ year % 400 = 0)))

/-- Days of the leap day, if a year has one. -/
def leapDays (year : Int) : Int := if IsLeapYear year then 1 else 0

/-- Days from the beginning of the year one to the beginning of a year. -/
def daysToYear (year : Int) : Int :=
  365 * (year - 1) + (year - 1) / 4 - (year - 1) / 100 + (year - 1) / 400

/-- The lengths of the months of a year without a leap day. -/
def monthLengths : List Nat := [31, 28, 31, 30, 31, 30, 31, 31, 30, 31, 30, 31]

/-- Days from the beginning of a year without a leap day to the beginning of a month. -/
def daysToMonth (month : Nat) : Nat := (monthLengths.take (month - 1)).sum

/-- The day of a date, counted from the first of January 1970. -/
def toDays (d : CivilDate) : Int :=
  daysToYear d.year + daysToMonth d.month + (if 2 < d.month then leapDays d.year else 0)
    + (d.day - 1) - daysToYear 1970

/-- A year takes as many days as it has. -/
theorem daysToYear_succ (year : Int) :
    daysToYear (year + 1) = daysToYear year + 365 + leapDays year := by
  by_cases h : IsLeapYear year
  · rw [leapDays, if_pos h]
    unfold IsLeapYear at h
    unfold daysToYear
    omega
  · rw [leapDays, if_neg h]
    unfold IsLeapYear at h
    unfold daysToYear
    omega

/-! ### Four hundred years -/

/-- The centuries of four hundred years are told apart by the days that are left out of them; the
first three of them have one day less than the last. -/
theorem yearOfEra_spec {day : Nat} (h : day < 146096) :
    yearOfEra day / 100 = day / 36524 ∧
    365 * yearOfEra day + yearOfEra day / 4 ≤ day + day / 36524 ∧
    day + day / 36524 ≤ 365 * yearOfEra day + yearOfEra day / 4 + 365 := by
  have hlast : day / 146096 = 0 := Nat.div_eq_of_lt h
  obtain ⟨c, hc⟩ : ∃ c, c = day / 36524 := ⟨_, rfl⟩
  obtain ⟨y, hy⟩ : ∃ y, y = (day - day / 1460 + c) / 365 := ⟨_, rfl⟩
  have hyear : yearOfEra day = y := by rw [yearOfEra, hlast, Nat.sub_zero, hy, hc]
  rw [hyear, ← hc]
  have hcentury : c = 0 ∨ c = 1 ∨ c = 2 ∨ c = 3 := by omega
  rcases hcentury with rfl | rfl | rfl | rfl
  all_goals refine ⟨?_, ?_, ?_⟩ <;> omega

/-- A day of four hundred years is a day of its year. -/
theorem day_of_year {day : Nat} (h : day < daysPerEra) :
    yearOfEra day < 400 ∧ daysBeforeYear (yearOfEra day) ≤ day ∧
      day - daysBeforeYear (yearOfEra day) ≤ 365 := by
  by_cases hlast : day = 146096
  · rw [hlast]
    decide
  · have hday : day < 146096 := by
      unfold daysPerEra at h
      omega
    obtain ⟨hcentury, hle, hge⟩ := yearOfEra_spec hday
    unfold daysBeforeYear
    unfold daysPerEra at h
    omega

/-- A day of a year is a day of its month. -/
theorem day_of_month {day : Nat} (h : day ≤ 365) :
    monthOfYear day < 12 ∧ daysBeforeMonth (monthOfYear day) ≤ day := by
  unfold daysBeforeMonth monthOfYear
  omega

/-- Four hundred years take as many days as an era has, and years count from March in it. -/
theorem daysToYear_era (era : Int) {year : Nat} (h : year < 400) :
    daysToYear (era * 400 + year + 1) = era * daysPerEra + daysBeforeYear year := by
  unfold daysToYear daysBeforeYear daysPerEra
  omega

/-- The months of a year that begins in March, as months of the year that goes on in it and of the
year that begins in it. -/
theorem daysToMonth_spec : ∀ month < 12,
    if 10 ≤ month then daysToMonth (month - 9) + 306 = daysBeforeMonth month
    else daysToMonth (month + 3) = daysBeforeMonth month + 59 := by
  decide

/-- **The date of a day is that day's.** -/
theorem toDays_ofDays (n : Int) : toDays (ofDays n) = n := by
  obtain ⟨era, hera⟩ : ∃ era, era = (n + epochOffset) / daysPerEra := ⟨_, rfl⟩
  obtain ⟨day, hday⟩ : ∃ day, day = ((n + epochOffset) % daysPerEra).toNat := ⟨_, rfl⟩
  obtain ⟨year, hyear⟩ : ∃ year, year = yearOfEra day := ⟨_, rfl⟩
  obtain ⟨dayOfYear, hdayOfYear⟩ : ∃ dayOfYear, dayOfYear = day - daysBeforeYear year := ⟨_, rfl⟩
  obtain ⟨month, hmonth⟩ : ∃ month, month = monthOfYear dayOfYear := ⟨_, rfl⟩
  have hofDays : ofDays n =
      { year := era * 400 + year + (if 10 ≤ month then 1 else 0)
        month := if 10 ≤ month then month - 9 else month + 3
        day := dayOfYear - daysBeforeMonth month + 1 } := by
    rw [hmonth, hdayOfYear, hyear, hday, hera]
    rfl
  have hsplit : n + epochOffset = era * daysPerEra + day ∧ day < daysPerEra := by
    rw [hera, hday]
    unfold daysPerEra
    omega
  obtain ⟨hyearLt, hyearLe, hdayLe⟩ := day_of_year hsplit.2
  rw [← hyear] at hyearLt hyearLe hdayLe
  rw [← hdayOfYear] at hdayLe
  obtain ⟨hmonthLt, hmonthLe⟩ := day_of_month hdayLe
  rw [← hmonth] at hmonthLt hmonthLe
  -- the day in terms of the year that begins in January, while the year that is counted is going on
  have hjanuary := daysToYear_era era hyearLt
  have hsucc := daysToYear_succ (era * 400 + year)
  have hepoch : daysToYear 1970 + 306 = epochOffset := by decide
  have htable := daysToMonth_spec month hmonthLt
  rw [hofDays, toDays]
  by_cases hnext : 10 ≤ month
  · rw [if_pos hnext] at htable
    have hjanuaryOrFebruary : ¬2 < month - 9 := by omega
    simp only [if_pos hnext, if_neg hjanuaryOrFebruary]
    omega
  · rw [if_neg hnext] at htable
    have hlater : 2 < month + 3 := by omega
    simp only [if_neg hnext, if_pos hlater, Int.add_zero]
    omega

end CivilDate

/-! ### Numerals of a fixed width -/

namespace Decimal

open Json

theorem isDigit_of_mem_digits {n : Nat} {c : Char} (h : c ∈ digits n) : IsDigit c := by
  obtain ⟨d, ds, hdigits, -, hds, -⟩ := Number.digits_eq_cons n
  rw [hdigits] at h
  rcases List.mem_cons.mp h with rfl | h
  · exact Number.isDigit_digitChar d
  · exact hds c h

theorem isDigits_padded (width n : Nat) : IsDigits (padded width n) := by
  obtain ⟨d, ds, hdigits, -⟩ := Number.digits_eq_cons n
  refine ⟨fun h => ?_, fun c hc => ?_⟩
  · rw [padded, hdigits] at h
    exact List.cons_ne_nil _ _ (List.append_eq_nil_iff.mp h).2
  · rcases List.mem_append.mp hc with hc | hc
    · rw [List.eq_of_mem_replicate hc]
      decide
    · exact isDigit_of_mem_digits hc

/-- Leading zeros do not count. -/
theorem value_padded (width n : Nat) : value (padded width n) = n := by
  have hzeros (k : Nat) (cs : List Char) : value (List.replicate k '0' ++ cs) = value cs := by
    induction k with
    | zero => rfl
    | succ k ih =>
      rw [← ih]
      rfl
  rw [padded, hzeros, value_digits]

theorem length_digits_le {width n : Nat} (h : n < 10 ^ (width + 1)) :
    (digits n).length ≤ width + 1 := by
  induction width generalizing n with
  | zero =>
    rw [digits, if_pos (by simpa using h)]
    exact Nat.le_refl 1
  | succ width ih =>
    rw [digits]
    split
    · simp
    · rw [List.length_append, List.length_singleton]
      exact Nat.succ_le_succ (ih (Nat.div_lt_of_lt_mul (by rwa [← Nat.pow_succ'])))

theorem length_padded {width n : Nat} (h : n < 10 ^ (width + 1)) :
    (padded (width + 1) n).length = width + 1 := by
  have := length_digits_le h
  rw [padded, List.length_append, List.length_replicate]
  omega

end Decimal

namespace Timestamp

open Json

/-! ### Reading an instant -/

/-- The number of the digits in front of a mark, and what is behind the mark. -/
def numberBefore? (mark : Char) (cs : List Char) : Option (Nat × List Char) :=
  match cs.dropWhile Number.isDigit with
  | c :: rest =>
    if c = mark then some (Decimal.value (cs.takeWhile Number.isDigit), rest) else none
  | [] => none

/-- The year in front of a dash, with a sign or without, and what is behind the dash. -/
def year? : List Char → Option (Int × List Char)
  | '-' :: cs => (numberBefore? '-' cs).map fun (n, rest) => (-(n : Int), rest)
  | '+' :: cs => (numberBefore? '-' cs).map fun (n, rest) => ((n : Int), rest)
  | cs => (numberBefore? '-' cs).map fun (n, rest) => ((n : Int), rest)

/-- A second and its nanoseconds, in universal time and at the end of a text. -/
def second? (cs : List Char) : Option (Nat × Nat) :=
  match cs.dropWhile Number.isDigit with
  | ['Z'] => some (Decimal.value (cs.takeWhile Number.isDigit), 0)
  | '.' :: rest =>
    let fraction := rest.takeWhile Number.isDigit
    if rest.dropWhile Number.isDigit = ['Z'] then
      some (Decimal.value (cs.takeWhile Number.isDigit),
        Decimal.value fraction * 10 ^ (9 - fraction.length))
    else none
  | _ => none

/-- The instant of a text. Second number sixty is a leap second. -/
def ofText? (cs : List Char) : Option Timestamp := do
  let (year, cs) ← year? cs
  let (month, cs) ← numberBefore? '-' cs
  let (day, cs) ← numberBefore? 'T' cs
  let (hour, cs) ← numberBefore? ':' cs
  let (minute, cs) ← numberBefore? ':' cs
  let (second, nanos) ← second? cs
  let date : CivilDate := { year, month, day }
  ofParts? (((date.toDays * 24 + hour) * 60 + minute) * 60 + Nat.min second 59)
    (if second = 60 then 1000000000 + nanos else nanos)

/-! ### Reading a text back -/

theorem takeWhile_digits {ds : List Char} (h : IsDigits ds) {c : Char} (hc : ¬IsDigit c)
    (rest : List Char) : (ds ++ c :: rest).takeWhile Number.isDigit = ds ∧
      (ds ++ c :: rest).dropWhile Number.isDigit = c :: rest := by
  have hend : Number.beginsWithDigit (c :: rest) = false :=
    Bool.eq_false_iff.mpr (mt Number.isDigit_iff.mp hc)
  refine ⟨?_, Number.dropWhile_digits h.2 hend⟩
  rw [List.takeWhile_append_of_pos fun d hd => Number.isDigit_iff.mpr (h.2 d hd),
    Number.takeWhile_of_not_beginsWithDigit hend, List.append_nil]

theorem numberBefore?_padded (width n : Nat) {mark : Char} (hmark : ¬IsDigit mark)
    (rest : List Char) :
    numberBefore? mark (Decimal.padded width n ++ mark :: rest) = some (n, rest) := by
  obtain ⟨htake, hdrop⟩ := takeWhile_digits (Decimal.isDigits_padded width n) hmark rest
  rw [numberBefore?, hdrop, htake, Decimal.value_padded]
  exact if_pos rfl

/-- A sign is read with a year that has one. -/
theorem year?_yearText (year : Int) (rest : List Char) :
    year? (CivilDate.yearText year ++ '-' :: rest) = some (year, rest) := by
  have hdash : ¬IsDigit '-' := by decide
  have hnumber (n : Nat) := numberBefore?_padded 4 n hdash rest
  unfold CivilDate.yearText
  by_cases hfour : 0 ≤ year ∧ year ≤ 9999
  · -- four digits: the text begins with a digit and not with a sign
    obtain ⟨c, ds, hds⟩ := List.exists_cons_of_ne_nil (Decimal.isDigits_padded 4 year.toNat).1
    have hc : IsDigit c := (Decimal.isDigits_padded 4 year.toNat).2 c (by rw [hds]; simp)
    have hread := hnumber year.toNat
    rw [hds, List.cons_append] at hread
    have hvalue : (year.toNat : Int) = year := Int.toNat_of_nonneg hfour.1
    rw [if_pos hfour, hds, List.cons_append, year?, hread]
    · simp only [Option.map_some, hvalue]
    · rintro _ ⟨⟩
      exact absurd hc (by decide)
    · rintro _ ⟨⟩
      exact absurd hc (by decide)
  · rw [if_neg hfour, List.cons_append]
    by_cases hnegative : year < 0
    · have hvalue : -(year.natAbs : Int) = year := by omega
      rw [if_pos hnegative, year?, hnumber]
      simp only [Option.map_some, hvalue]
    · have hvalue : (year.natAbs : Int) = year := by omega
      rw [if_neg hnegative, year?, hnumber]
      simp only [Option.map_some, hvalue]

/-- The digits of a fraction, scaled to nanoseconds. -/
theorem second?_fraction (second : Nat) {width : Nat} (hwidth : width < 9) {n : Nat}
    (hn : n < 10 ^ (width + 1)) :
    second? (Decimal.padded 2 second ++ '.' :: (Decimal.padded (width + 1) n ++ ['Z']))
      = some (second, n * 10 ^ (8 - width)) := by
  obtain ⟨htake, hdrop⟩ := takeWhile_digits (Decimal.isDigits_padded 2 second)
    (show ¬IsDigit '.' by decide) (Decimal.padded (width + 1) n ++ ['Z'])
  obtain ⟨htake', hdrop'⟩ := takeWhile_digits (Decimal.isDigits_padded (width + 1) n)
    (show ¬IsDigit 'Z' by decide) []
  have hscale : 9 - (width + 1) = 8 - width := by omega
  simp only [second?, hdrop, htake, hdrop', htake', if_true, Decimal.value_padded,
    Decimal.length_padded hn, hscale]

/-- The second is read, to the nanosecond. -/
theorem second?_fractionText (second : Nat) {nanos : Nat} (h : nanos < 1000000000) :
    second? (Decimal.padded 2 second ++ (fractionText nanos ++ ['Z'])) = some (second, nanos) := by
  unfold fractionText
  split_ifs with hnone hmillis hmicros
  · obtain ⟨htake, hdrop⟩ := takeWhile_digits (Decimal.isDigits_padded 2 second)
      (show ¬IsDigit 'Z' by decide) []
    simp only [List.nil_append, second?, hdrop, htake, Decimal.value_padded, hnone]
  · rw [List.cons_append, second?_fraction second (by decide) (by omega)]
    have hexact : nanos / 1000000 * 10 ^ (8 - 2) = nanos := by omega
    rw [hexact]
  · rw [List.cons_append, second?_fraction second (by decide) (by omega)]
    have hexact : nanos / 1000 * 10 ^ (8 - 5) = nanos := by omega
    rw [hexact]
  · rw [List.cons_append, second?_fraction second (by decide) (by omega)]
    have hexact : nanos * 10 ^ (8 - 8) = nanos := by omega
    rw [hexact]

/-! ### Leap seconds -/

/-- A leap second, if this is one, ends a minute. -/
def IsNormal (t : Timestamp) : Prop := t.nanos < 1000000000 ∨ t.secs % 60 = 59

instance (t : Timestamp) : Decidable t.IsNormal :=
  inferInstanceAs (Decidable (t.nanos < 1000000000 ∨ t.secs % 60 = 59))

/-- An instant in its normal form: a leap second that ends no minute is the second behind it. -/
def normal (t : Timestamp) : Timestamp :=
  if h : t.IsNormal then t
  else
    { secs := t.secs + 1
      nanos := t.nanos - 1000000000
      secs_ge := Int.le_trans t.secs_ge (Int.le_add_one (Int.le_refl t.secs))
      secs_le := by
        -- the last second of all ends a minute
        have hle := t.secs_le
        have hends : t.secs % 60 ≠ 59 := fun hends => h (.inr hends)
        omega
      nanos_lt := Nat.lt_of_le_of_lt (Nat.sub_le _ _) t.nanos_lt }

theorem normal_of_isNormal {t : Timestamp} (h : t.IsNormal) : t.normal = t := dif_pos h

theorem normal_of_not_isNormal {t : Timestamp} (h : ¬t.IsNormal) :
    t.normal.secs = t.secs + 1 ∧ t.normal.nanos = t.nanos - 1000000000 := by
  rw [normal, dif_neg h]
  exact ⟨rfl, rfl⟩

theorem isNormal_normal (t : Timestamp) : t.normal.IsNormal := by
  by_cases h : t.IsNormal
  · rwa [normal_of_isNormal h]
  · have hlt := t.nanos_lt
    have hnanos := (normal_of_not_isNormal h).2
    exact .inl (by omega)

/-- Instants that are made of their parts are in their normal form. -/
theorem isNormal_of_ofParts? {secs : Int} {nanos : Nat} {t : Timestamp}
    (h : ofParts? secs nanos = some t) : t.IsNormal := by
  unfold ofParts? at h
  split at h
  · rename_i hparts
    cases h
    exact hparts.2.2.2
  · cases h

/-- **A leap second that ends no minute is written like the second behind it.** -/
theorem text_normal (t : Timestamp) : t.normal.text = t.text := by
  by_cases h : t.IsNormal
  · rw [normal_of_isNormal h]
  · obtain ⟨hnanos, hends⟩ : ¬t.nanos < 1000000000 ∧ t.secs % 60 ≠ 59 := not_or.mp h
    obtain ⟨hsecs', hnanos'⟩ := normal_of_not_isNormal h
    have hlt := t.nanos_lt
    have hday : t.normal.day = t.day := by
      unfold day
      omega
    have hleap : t.isLeap = true := decide_eq_true (Nat.not_lt.mp hnanos)
    have hleap' : t.normal.isLeap = false := decide_eq_false (by omega)
    have hfraction : t.normal.nanos % 1000000000 = t.nanos % 1000000000 := by omega
    have hsecond : t.normal.secondOfDay = t.secondOfDay + 1 ∧ t.secondOfDay % 60 ≠ 59 := by
      unfold secondOfDay
      omega
    have htime : t.normal.timeText = t.timeText := by
      obtain ⟨hnext, hends⟩ := hsecond
      have hhour : (t.secondOfDay + 1) / 3600 = t.secondOfDay / 3600 := by omega
      have hminute : (t.secondOfDay + 1) / 60 % 60 = t.secondOfDay / 60 % 60 := by omega
      have hnumber : (t.secondOfDay + 1) % 60 = t.secondOfDay % 60 + 1 := by omega
      simp only [timeText, hnext, hleap, hleap', hfraction, hhour, hminute, hnumber, if_true,
        Bool.false_eq_true, if_false]
    rw [text, text, hday, htime]

/-! ### Instants read back -/

theorem ofParts?_eq {t : Timestamp} (h : t.IsNormal) : ofParts? t.secs t.nanos = some t := by
  rw [ofParts?, dif_pos ⟨t.secs_ge, t.secs_le, t.nanos_lt, h⟩]

/-- A leap second that ends a minute is second number sixty. -/
theorem second_eq {t : Timestamp} (h : t.IsNormal) :
    (if t.isLeap then t.secondOfDay % 60 + 1 else t.secondOfDay % 60)
      = if 1000000000 ≤ t.nanos then 60 else t.secondOfDay % 60 := by
  by_cases hleap : 1000000000 ≤ t.nanos
  · have hends : t.secs % 60 = 59 := h.resolve_left (by omega)
    rw [if_pos hleap, isLeap, decide_eq_true hleap, if_pos rfl]
    unfold secondOfDay
    omega
  · rw [if_neg hleap, isLeap, decide_eq_false hleap, if_neg (by decide)]

/-- The seconds since 1970, from the day and the time of day. -/
theorem secs_eq {t : Timestamp} (h : t.IsNormal) :
    ((t.day * 24 + (t.secondOfDay / 3600 : Nat)) * 60 + (t.secondOfDay / 60 % 60 : Nat)) * 60
      + Nat.min (if 1000000000 ≤ t.nanos then 60 else t.secondOfDay % 60) 59 = t.secs := by
  have hsecond : Nat.min (if 1000000000 ≤ t.nanos then 60 else t.secondOfDay % 60) 59
      = t.secondOfDay % 60 := by
    split
    next hleap =>
      have hends : t.secs % 60 = 59 := h.resolve_left (by omega)
      unfold secondOfDay
      show 59 = _
      omega
    next => exact Nat.min_eq_left (by omega)
  rw [hsecond]
  unfold day secondOfDay
  omega

theorem nanos_eq (t : Timestamp) :
    (if (if 1000000000 ≤ t.nanos then 60 else t.secondOfDay % 60) = 60 then
      1000000000 + t.nanos % 1000000000 else t.nanos % 1000000000) = t.nanos := by
  have := t.nanos_lt
  split_ifs <;> omega

theorem ofText?_text_of_isNormal {t : Timestamp} (h : t.IsNormal) : ofText? t.text = some t := by
  have hdash : ¬IsDigit '-' := by decide
  have hcolon : ¬IsDigit ':' := by decide
  have hletter : ¬IsDigit 'T' := by decide
  have hnanos : t.nanos % 1000000000 < 1000000000 := Nat.mod_lt _ (by decide)
  have hdate (d : CivilDate) : (⟨d.year, d.month, d.day⟩ : CivilDate).toDays = d.toDays := rfl
  simp only [ofText?, text, timeText, CivilDate.text, List.append_assoc, List.cons_append,
    List.nil_append, year?_yearText, numberBefore?_padded _ _ hdash,
    numberBefore?_padded _ _ hletter, numberBefore?_padded _ _ hcolon,
    second?_fractionText _ hnanos, Option.bind_eq_bind, Option.bind_some, hdate,
    CivilDate.toDays_ofDays, second_eq h, secs_eq h, nanos_eq, ofParts?_eq h]

/-- **The text of an instant is read as the instant**, in its normal form. -/
theorem ofText?_text (t : Timestamp) : ofText? t.text = some t.normal := by
  rw [← text_normal, ofText?_text_of_isNormal t.isNormal_normal]

end Timestamp

end QueueDrain
