import Mathlib.Data.List.Forall2
import QueueDrain.Json.Skip

/-!
# Tokens of JSON texts

Numbers and strings as the grammar of JSON has them, and what the readers make of them. A number
ends where something stands that cannot be part of it, so what is said of a number in front of more
text needs to know what may follow a value; a string ends with its quote whatever follows.

A string has two readings. Where its characters are wanted, every escape has to denote one, and two
halves of a surrogate pair denote one together. Where it is passed over, four hexadecimal digits
will do, whatever they denote.

## Main definitions

* `Json.IsBlanks`, `Json.IsDelimited` — blanks between tokens, and what may follow a value
* `Json.IsNumber` — the numbers of the grammar
* `Json.IsLiteral` — the strings of the grammar
* `Json.Denotes` — the characters that a string denotes

## Main results

* `Json.Number.read_digits` — the digits of a number are read as that number
* `Json.Number.skip_isNumber`, `Json.Quoted.skip_isLiteral` — tokens are passed over whole
* `Json.Quoted.read_denotes` — a string is read as what it denotes
* `Json.Quoted.denotes_encode` — a text that is written as a string is what the string denotes
-/

namespace QueueDrain

namespace Json

/-! ### Blanks -/

/-- Blanks between tokens. -/
def IsBlanks (cs : List Char) : Prop := ∀ c ∈ cs, c = ' ' ∨ c = '\n' ∨ c = '\t' ∨ c = '\r'

instance (cs : List Char) : Decidable (IsBlanks cs) := List.decidableBAll _ cs

/-- What may stand behind a value: nothing, a blank, a comma or a closing bracket. -/
def IsDelimited (rest : List Char) : Prop :=
  ∀ c, rest.head? = some c → isBlank c = true ∨ c = ',' ∨ c = ']' ∨ c = '\x7d'

theorem isBlanks_nil : IsBlanks [] := List.forall_mem_nil _

theorem IsBlanks.append {ws ws' : List Char} (h : IsBlanks ws) (h' : IsBlanks ws') :
    IsBlanks (ws ++ ws') := fun c hc => (List.mem_append.mp hc).elim (h c) (h' c)

theorem IsBlanks.isBlank {ws : List Char} (h : IsBlanks ws) {c : Char} (hc : c ∈ ws) :
    isBlank c = true := by
  rcases h c hc with rfl | rfl | rfl | rfl <;> decide

/-- Blanks in front of a text are passed over. -/
theorem skipBlanks_append {ws : List Char} (h : IsBlanks ws) (cs : List Char) :
    skipBlanks (ws ++ cs) = skipBlanks cs :=
  List.dropWhile_append_of_pos fun _ hc => h.isBlank hc

theorem skipBlanks_cons {c : Char} (h : isBlank c = false) (cs : List Char) :
    skipBlanks (c :: cs) = c :: cs := by
  rw [skipBlanks, List.dropWhile_cons_of_neg (by simp [h])]

/-- Behind blanks comes what is no blank. -/
theorem skipBlanks_of_isBlanks {ws : List Char} (h : IsBlanks ws) {c : Char}
    (hc : isBlank c = false) (cs : List Char) : skipBlanks (ws ++ c :: cs) = c :: cs := by
  rw [skipBlanks_append h, skipBlanks_cons hc]

theorem isDelimited_nil : IsDelimited [] := fun _ h => nomatch h

theorem isDelimited_cons {c : Char} (h : isBlank c = true ∨ c = ',' ∨ c = ']' ∨ c = '\x7d')
    (cs : List Char) : IsDelimited (c :: cs) := fun d hd => by
  rw [List.head?_cons, Option.some_inj] at hd
  exact hd ▸ h

/-- Blanks in front of what may follow a value may follow it as well. -/
theorem IsDelimited.append {ws rest : List Char} (hws : IsBlanks ws) (h : IsDelimited rest) :
    IsDelimited (ws ++ rest) := by
  cases ws with
  | nil => exact h
  | cons c ws => exact isDelimited_cons (.inl (hws.isBlank List.mem_cons_self)) _

/-- What follows a value is no part of a number. -/
theorem IsDelimited.head?_ne {rest : List Char} (h : IsDelimited rest) {c : Char}
    (hc : isBlank c = false ∧ c ≠ ',' ∧ c ≠ ']' ∧ c ≠ '\x7d') : rest.head? ≠ some c := fun hd => by
  rcases h c hd with hblank | hcomma | hbracket | hbrace
  · rw [hc.1] at hblank
    cases hblank
  · exact hc.2.1 hcomma
  · exact hc.2.2.1 hbracket
  · exact hc.2.2.2 hbrace

/-! ### Numbers -/

/-- A decimal digit. -/
def IsDigit (c : Char) : Prop := '0' ≤ c ∧ c ≤ '9'

instance : DecidablePred IsDigit := fun c => inferInstanceAs (Decidable ('0' ≤ c ∧ c ≤ '9'))

/-- Digits, one at least. -/
def IsDigits (cs : List Char) : Prop := cs ≠ [] ∧ ∀ c ∈ cs, IsDigit c

/-- The whole part of a number: a zero stands alone. -/
def IsWhole (cs : List Char) : Prop := IsDigits cs ∧ (cs.head? = some '0' → cs = ['0'])

/-- The fraction of a number, if it has one. -/
def IsFraction (cs : List Char) : Prop := cs = [] ∨ ∃ ds, IsDigits ds ∧ cs = '.' :: ds

/-- The exponent of a number, if it has one. -/
def IsExponent (cs : List Char) : Prop :=
  cs = [] ∨ ∃ letter sign ds, (letter = 'e' ∨ letter = 'E') ∧
    (sign = [] ∨ sign = ['+'] ∨ sign = ['-']) ∧ IsDigits ds ∧ cs = letter :: (sign ++ ds)

/-- A number. -/
def IsNumber (cs : List Char) : Prop :=
  ∃ sign whole fraction exponent, (sign = [] ∨ sign = ['-']) ∧ IsWhole whole ∧
    IsFraction fraction ∧ IsExponent exponent ∧ cs = sign ++ (whole ++ (fraction ++ exponent))

/-- A number begins with a minus sign or a digit. -/
theorem IsNumber.exists_head {cs : List Char} (h : IsNumber cs) :
    ∃ c cs', cs = c :: cs' ∧ (c = '-' ∨ IsDigit c) := by
  obtain ⟨sign, whole, fraction, exponent, hsign, ⟨⟨hne, hwhole⟩, -⟩, -, -, rfl⟩ := h
  rcases hsign with rfl | rfl
  · obtain ⟨c, ds, rfl⟩ := List.exists_cons_of_ne_nil hne
    exact ⟨c, _, rfl, .inr (hwhole c List.mem_cons_self)⟩
  · exact ⟨'-', _, rfl, .inl rfl⟩

namespace Number

theorem isDigit_iff {c : Char} : isDigit c = true ↔ IsDigit c := by
  rw [isDigit, Decimal.digitValue?, IsDigit]
  split <;> simp [*]

/-- What holds of ten characters holds of every digit. -/
theorem forall_isDigit {P : Char → Prop} (h : ∀ k : Fin 10, P (Decimal.digitChar k)) {c : Char}
    (hc : IsDigit c) : P c := by
  have hlow : 48 ≤ c.toNat := hc.1
  have hhigh : c.toNat ≤ 57 := hc.2
  have hvalue : '0'.toNat + (c.toNat - 48) % 10 = c.toNat := by
    show 48 + _ = _
    omega
  have hdigit : Decimal.digitChar (c.toNat - 48) = c := by
    rw [Decimal.digitChar, hvalue, Char.ofNat_toNat]
  exact hdigit ▸ h ⟨c.toNat - 48, by omega⟩

theorem isDigit_digitChar (n : Nat) : IsDigit (Decimal.digitChar n) := by
  rw [← isDigit_iff, isDigit, Decimal.digitValue?_digitChar]
  rfl

theorem beginsWithDigit_append {ds : List Char} (h : IsDigits ds) (rest : List Char) :
    beginsWithDigit (ds ++ rest) = true := by
  obtain ⟨hne, hall⟩ := h
  cases ds with
  | nil => exact absurd rfl hne
  | cons c ds => exact isDigit_iff.mpr (hall c List.mem_cons_self)

/-- A number does not go on where something else begins. -/
theorem beginsWithDigit_of_head? {rest : List Char}
    (h : ∀ c, IsDigit c → rest.head? ≠ some c) : beginsWithDigit rest = false := by
  cases rest with
  | nil => rfl
  | cons c rest =>
    have hc := mt isDigit_iff.mp fun hc => h c hc rfl
    simpa [beginsWithDigit] using hc

theorem dropWhile_digits {ds : List Char} (h : ∀ c ∈ ds, IsDigit c) {rest : List Char}
    (hrest : beginsWithDigit rest = false) : (ds ++ rest).dropWhile isDigit = rest := by
  rw [List.dropWhile_append_of_pos fun c hc => isDigit_iff.mpr (h c hc)]
  cases rest with
  | nil => rfl
  | cons c rest => exact List.dropWhile_cons_of_neg (by simpa [beginsWithDigit] using hrest)

theorem takeWhile_of_not_beginsWithDigit {rest : List Char} (h : beginsWithDigit rest = false) :
    rest.takeWhile isDigit = [] := by
  cases rest with
  | nil => rfl
  | cons c rest => exact List.takeWhile_cons_of_neg (by simpa [beginsWithDigit] using h)

/-- A digit is no delimiter. -/
theorem ne_delimiter {c : Char} (h : IsDigit c) :
    isBlank c = false ∧ c ≠ ',' ∧ c ≠ ']' ∧ c ≠ '\x7d' :=
  forall_isDigit (P := fun c => isBlank c = false ∧ c ≠ ',' ∧ c ≠ ']' ∧ c ≠ '\x7d') (by decide) h

/-- A digit is no sign. -/
theorem ne_sign {c : Char} (h : IsDigit c) : c ≠ '+' ∧ c ≠ '-' :=
  forall_isDigit (P := fun c => c ≠ '+' ∧ c ≠ '-') (by decide) h

theorem beginsWithDigit_of_isDelimited {rest : List Char} (h : IsDelimited rest) :
    beginsWithDigit rest = false :=
  beginsWithDigit_of_head? fun _ hc => h.head?_ne (ne_delimiter hc)

/-! ### Reading a number -/

/-- The number that digits denote behind the digits of `n`. -/
def valueFrom (n : Nat) (ds : List Char) : Nat :=
  ds.foldl (fun n c => n * 10 + (Decimal.digitValue? c).getD 0) n

theorem valueFrom_append_singleton (n : Nat) (ds : List Char) (k : Nat) :
    valueFrom n (ds ++ [Decimal.digitChar k]) = valueFrom n ds * 10 + k % 10 := by
  simp only [valueFrom, List.foldl_append, List.foldl_cons, List.foldl_nil,
    Decimal.digitValue?_digitChar, Option.getD_some]

theorem le_valueFrom (n : Nat) (ds : List Char) : n ≤ valueFrom n ds := by
  induction ds generalizing n with
  | nil => exact Nat.le_refl n
  | cons c ds ih =>
    have hstep : n ≤ n * 10 + (Decimal.digitValue? c).getD 0 := by omega
    exact Nat.le_trans hstep (ih _)

/-- All the digits are taken, if their number is not too large. -/
theorem takeDigits_append {limit n : Nat} {ds rest : List Char} (hds : ∀ c ∈ ds, IsDigit c)
    (hlimit : valueFrom n ds ≤ limit) (hrest : beginsWithDigit rest = false) :
    takeDigits limit n (ds ++ rest) = (valueFrom n ds, ds.length, rest) := by
  induction ds generalizing n with
  | nil =>
    cases rest with
    | nil => rfl
    | cons c rest =>
      have hnone : Decimal.digitValue? c = none := by
        simpa [beginsWithDigit, isDigit] using hrest
      rw [List.nil_append, takeDigits, hnone]
      rfl
  | cons c ds ih =>
    obtain ⟨hc, hds⟩ := List.forall_mem_cons.mp hds
    obtain ⟨d, hd⟩ := Option.isSome_iff_exists.mp (isDigit_iff.mpr hc)
    have hvalue : valueFrom n (c :: ds) = valueFrom (n * 10 + d) ds := by
      simp only [valueFrom, List.foldl_cons, hd, Option.getD_some]
    rw [hvalue] at hlimit ⊢
    have hle := Nat.le_trans (le_valueFrom _ ds) hlimit
    rw [List.cons_append, takeDigits, hd]
    simp only [if_pos hle, ih hds hlimit, List.length_cons]

/-- A number has a first digit, which is zero only where no other digit follows. -/
theorem digits_eq_cons (n : Nat) : ∃ d ds, Decimal.digits n = Decimal.digitChar d :: ds ∧ d < 10 ∧
    (∀ c ∈ ds, IsDigit c) ∧ valueFrom d ds = n ∧ (d = 0 → ds = []) := by
  induction n using Decimal.digits.induct with
  | case1 n h =>
    rw [Decimal.digits, if_pos h]
    exact ⟨n, [], rfl, h, by simp, rfl, fun _ => rfl⟩
  | case2 n h ih =>
    obtain ⟨d, ds, hdigits, hd, hds, hvalue, hzero⟩ := ih
    rw [Decimal.digits, if_neg h, hdigits]
    refine ⟨d, ds ++ [Decimal.digitChar n], rfl, hd, ?_, ?_, fun hd => ?_⟩
    · intro c hc
      rcases List.mem_append.mp hc with hc | hc
      · exact hds c hc
      · rw [List.mem_singleton.mp hc]
        exact isDigit_digitChar n
    · rw [valueFrom_append_singleton, hvalue]
      omega
    · -- a number of two digits or more does not begin with zero
      rw [hzero hd, hd] at hvalue
      have hsmall : 0 = n / 10 := hvalue
      omega

/-- **The digits of a number are read as that number.** -/
theorem read_digits {n : Nat} (hn : n ≤ significandLimit) {rest : List Char}
    (hrest : IsDelimited rest) : read (Decimal.digits n ++ rest) = .ok (.natural n, rest) := by
  obtain ⟨d, ds, hdigits, hd, hds, hvalue, hzero⟩ := digits_eq_cons n
  have hend := beginsWithDigit_of_isDelimited hrest
  have hsign := (ne_sign (isDigit_digitChar d)).2
  have hdigit : Decimal.digitValue? (Decimal.digitChar d) = some d := by
    rw [Decimal.digitValue?_digitChar, Nat.mod_eq_of_lt hd]
  have hfirst : (decide (d = 0) && beginsWithDigit (ds ++ rest)) = false := by
    by_cases h : d = 0
    · simp [hzero h, hend]
    · simp [h]
  have htake := takeDigits_append hds (hvalue.symm ▸ hn) hend
  have hread : read (Decimal.digitChar d :: (ds ++ rest))
      = readUnsigned false (Decimal.digitChar d :: (ds ++ rest)) := by
    rw [read]
    intro rest' heq
    exact hsign (List.cons.inj heq).1
  -- neither a point nor the letter of an exponent follows
  have hpoint : ∀ rest', rest ≠ '.' :: rest' := fun rest' h =>
    hrest.head?_ne (c := '.') (by decide) (h ▸ rfl)
  have hsmall : rest.head? ≠ some 'e' := hrest.head?_ne (by decide)
  have hlarge : rest.head? ≠ some 'E' := hrest.head?_ne (by decide)
  have hdrop : rest.dropWhile isDigit = rest := dropWhile_digits (List.forall_mem_nil _) hend
  rw [hdigits, List.cons_append, hread, readUnsigned, hdigit]
  simp only [hfirst, htake, hvalue, takeWhile_of_not_beginsWithDigit hend, hdrop,
    Bool.false_eq_true, if_false, List.length_nil]
  simp [hsmall, hlarge, ofInteger]

/-! ### Passing over a number -/

theorem skipExponent_isDigits {sign ds rest : List Char}
    (hsign : sign = [] ∨ sign = ['+'] ∨ sign = ['-']) (hds : IsDigits ds)
    (hrest : beginsWithDigit rest = false) : skipExponent (sign ++ (ds ++ rest)) = .ok rest := by
  have hskip : skipExponent (ds ++ rest) = .ok rest := by
    obtain ⟨c, ds, rfl⟩ := List.exists_cons_of_ne_nil hds.1
    obtain ⟨hplus, hminus⟩ := ne_sign (hds.2 c List.mem_cons_self)
    have hbegins := beginsWithDigit_append hds rest
    have hdrop := dropWhile_digits hds.2 hrest
    rw [List.cons_append] at hbegins hdrop ⊢
    rw [skipExponent]
    · rw [hbegins, if_pos rfl, hdrop]
    · exact fun _ heq => hplus (List.cons.inj heq).1
    · exact fun _ heq => hminus (List.cons.inj heq).1
  rcases hsign with rfl | rfl | rfl
  · exact hskip
  · rw [List.singleton_append, skipExponent, beginsWithDigit_append hds, if_pos rfl,
      dropWhile_digits hds.2 hrest]
  · rw [List.singleton_append, skipExponent, beginsWithDigit_append hds, if_pos rfl,
      dropWhile_digits hds.2 hrest]

theorem skipScale_isExponent {exponent rest : List Char} (h : IsExponent exponent)
    (hrest : IsDelimited rest) : skipScale (exponent ++ rest) = .ok rest := by
  rcases h with rfl | ⟨letter, sign, ds, hletter, hsign, hds, rfl⟩
  · rw [List.nil_append, skipScale]
    · exact fun rest' h => hrest.head?_ne (c := 'e') (by decide) (h ▸ rfl)
    · exact fun rest' h => hrest.head?_ne (c := 'E') (by decide) (h ▸ rfl)
  · have hskip := skipExponent_isDigits hsign hds (beginsWithDigit_of_isDelimited hrest)
    rw [List.cons_append, List.append_assoc]
    rcases hletter with rfl | rfl
    · exact hskip
    · exact hskip

/-- An exponent does not begin with a digit or a point, and neither does what follows a number. -/
theorem head?_exponent_ne {exponent rest : List Char} (h : IsExponent exponent)
    (hrest : IsDelimited rest) {c : Char} (hc : IsDigit c ∨ c = '.') :
    (exponent ++ rest).head? ≠ some c := by
  rcases h with rfl | ⟨letter, sign, ds, hletter, -, -, rfl⟩
  · rcases hc with hc | rfl
    · exact hrest.head?_ne (ne_delimiter hc)
    · exact hrest.head?_ne (by decide)
  · rw [List.cons_append, List.head?_cons, Ne, Option.some_inj]
    rintro rfl
    rcases hc with hc | rfl
    · rcases hletter with rfl | rfl <;> exact absurd hc (by decide)
    · rcases hletter with h | h <;> exact absurd h (by decide)

theorem skipUnsigned_isWhole {whole fraction exponent rest : List Char} (hwhole : IsWhole whole)
    (hfraction : IsFraction fraction) (hexponent : IsExponent exponent)
    (hrest : IsDelimited rest) :
    skipUnsigned (whole ++ (fraction ++ (exponent ++ rest))) = .ok rest := by
  have hscale := skipScale_isExponent hexponent hrest
  have hnodigit : beginsWithDigit (exponent ++ rest) = false :=
    beginsWithDigit_of_head? fun c hc => head?_exponent_ne hexponent hrest (.inl hc)
  have hbehind : beginsWithDigit (fraction ++ (exponent ++ rest)) = false := by
    rcases hfraction with rfl | ⟨ds, -, rfl⟩
    · exact hnodigit
    · rfl
  -- a zero is the only digit of its number
  have hzero : ¬((whole ++ (fraction ++ (exponent ++ rest))).head? = some '0' ∧
      beginsWithDigit ((whole ++ (fraction ++ (exponent ++ rest))).drop 1) = true) := by
    rintro ⟨hhead, hbegins⟩
    obtain ⟨c, ds, hcons⟩ := List.exists_cons_of_ne_nil hwhole.1.1
    rw [hcons, List.cons_append, List.head?_cons] at hhead
    have hone := hwhole.2 (by rw [hcons, List.head?_cons, hhead])
    rw [hone, List.singleton_append, List.drop_one, List.tail_cons, hbehind] at hbegins
    cases hbegins
  rw [skipUnsigned, beginsWithDigit_append hwhole.1]
  simp only [Bool.not_true, Bool.false_eq_true, if_false, Bool.and_eq_true, decide_eq_true_eq,
    if_neg hzero, dropWhile_digits hwhole.1.2 hbehind]
  rcases hfraction with rfl | ⟨ds, hds, rfl⟩
  · rw [List.nil_append]
    split
    next rest' hpoint =>
      exact absurd (by rw [hpoint]; rfl) (head?_exponent_ne hexponent hrest (.inr rfl))
    next => exact hscale
  · rw [List.cons_append]
    simp only [beginsWithDigit_append hds, if_true, dropWhile_digits hds.2 hnodigit, hscale]

/-- **A number is passed over whole.** -/
theorem skip_isNumber {cs rest : List Char} (h : IsNumber cs) (hrest : IsDelimited rest) :
    skip (cs ++ rest) = .ok rest := by
  obtain ⟨sign, whole, fraction, exponent, hsign, hwhole, hfraction, hexponent, rfl⟩ := h
  have hskip := skipUnsigned_isWhole hwhole hfraction hexponent hrest
  simp only [List.append_assoc]
  rcases hsign with rfl | rfl
  · obtain ⟨c, ds, rfl⟩ := List.exists_cons_of_ne_nil hwhole.1.1
    have hc := (ne_sign (hwhole.1.2 c List.mem_cons_self)).2
    rw [List.nil_append, List.cons_append, skip]
    · exact hskip
    · exact fun rest' heq => hc (List.cons.inj heq).1
  · exact hskip

end Number

/-! ### Strings -/

/-- A character that stands for itself in a string. -/
def IsPlain (c : Char) : Prop := c ≠ '"' ∧ c ≠ '\\' ∧ 32 ≤ c.toNat

/-- The letters that may follow a backslash, each with the character that is meant. -/
def escapeLetters : List (Char × Char) :=
  [('"', '"'), ('\\', '\\'), ('/', '/'), ('b', Char.ofNat 8), ('f', Char.ofNat 12), ('n', '\n'),
    ('r', '\r'), ('t', '\t')]

/-- Four hexadecimal digits and the number that they denote. -/
inductive IsHex : List Char → Nat → Prop where
  | four {a b c d : Char} {i j k l : Nat} (ha : Percent.hexValue? a = some i)
      (hb : Percent.hexValue? b = some j) (hc : Percent.hexValue? c = some k)
      (hd : Percent.hexValue? d = some l) : IsHex [a, b, c, d] (((i * 16 + j) * 16 + k) * 16 + l)

/-- A piece of a string with the character that it denotes. -/
inductive Writes : List Char → Char → Prop where
  | plain {c : Char} (h : IsPlain c) : Writes [c] c
  | letter {letter c : Char} (h : (letter, c) ∈ escapeLetters) : Writes ['\\', letter] c
  | code {digits : List Char} {n : Nat} (h : IsHex digits n) (hn : n < 0xD800 ∨ 0xDFFF < n) :
      Writes ('\\' :: 'u' :: digits) (Char.ofNat n)
  /-- A character past the first 65536 may be written as two halves. -/
  | pair {first second : List Char} {high low : Nat} (hfirst : IsHex first high)
      (hsecond : IsHex second low) (hhigh : 0xD800 ≤ high ∧ high ≤ 0xDBFF)
      (hlow : 0xDC00 ≤ low ∧ low ≤ 0xDFFF) :
      Writes ('\\' :: 'u' :: (first ++ '\\' :: 'u' :: second))
        (Char.ofNat ((high - 0xD800) * 1024 + (low - 0xDC00) + 0x10000))

/-- A string with the characters that it denotes. -/
def Denotes (literal cs : List Char) : Prop :=
  ∃ pieces, List.Forall₂ Writes pieces cs ∧ literal = '"' :: (pieces.flatten ++ ['"'])

/-- A piece of a string, whatever it denotes. -/
inductive IsPiece : List Char → Prop where
  | plain {c : Char} (h : IsPlain c) : IsPiece [c]
  | letter {letter c : Char} (h : (letter, c) ∈ escapeLetters) : IsPiece ['\\', letter]
  | code {digits : List Char} {n : Nat} (h : IsHex digits n) : IsPiece ('\\' :: 'u' :: digits)

/-- A string, whatever it denotes. -/
def IsLiteral (literal : List Char) : Prop :=
  ∃ pieces : List (List Char), (∀ piece ∈ pieces, IsPiece piece) ∧
    literal = '"' :: (pieces.flatten ++ ['"'])

/-- A string that denotes characters is a string of the grammar. -/
theorem Denotes.isLiteral {literal cs : List Char} (h : Denotes literal cs) :
    IsLiteral literal := by
  obtain ⟨pieces, hpieces, rfl⟩ := h
  suffices hsplit : ∃ pieces' : List (List Char), (∀ piece ∈ pieces', IsPiece piece) ∧
      pieces'.flatten = pieces.flatten by
    obtain ⟨pieces', hpieces', hflatten⟩ := hsplit
    exact ⟨pieces', hpieces', by rw [hflatten]⟩
  induction hpieces with
  | nil => exact ⟨[], List.forall_mem_nil _, rfl⟩
  | cons hpiece _ ih =>
    obtain ⟨pieces', hpieces', hflatten⟩ := ih
    rw [List.flatten_cons, ← hflatten]
    cases hpiece with
    | plain h => exact ⟨_ :: pieces', List.forall_mem_cons.mpr ⟨.plain h, hpieces'⟩, rfl⟩
    | letter h => exact ⟨_ :: pieces', List.forall_mem_cons.mpr ⟨.letter h, hpieces'⟩, rfl⟩
    | code h => exact ⟨_ :: pieces', List.forall_mem_cons.mpr ⟨.code h, hpieces'⟩, rfl⟩
    | pair hfirst hsecond =>
      refine ⟨_ :: _ :: pieces', List.forall_mem_cons.mpr ⟨.code hfirst,
        List.forall_mem_cons.mpr ⟨.code hsecond, hpieces'⟩⟩, ?_⟩
      simp only [List.flatten_cons, List.cons_append, List.append_assoc]

namespace Quoted

theorem simpleEscape?_of_mem {letter c : Char} (h : (letter, c) ∈ escapeLetters) :
    letter ≠ 'u' ∧ simpleEscape? letter = some c := by
  have hall : ∀ p ∈ escapeLetters, p.1 ≠ 'u' ∧ simpleEscape? p.1 = some p.2 := by decide
  exact hall _ h

theorem readHex_isHex {digits : List Char} {n : Nat} (h : IsHex digits n) (rest : List Char) :
    readHex (digits ++ rest) = .ok (n, rest) := by
  obtain ⟨ha, hb, hc, hd⟩ := h
  simp only [List.cons_append, List.nil_append, readHex, ha, hb, hc, hd]

/-! ### Reading a string -/

theorem read_plain {c : Char} (h : IsPlain c) (rest : List Char) :
    read (c :: rest) = (read rest).map fun (cs, rest) => (c :: cs, rest) := by
  rw [read, if_neg h.1, if_neg h.2.1, if_neg (Nat.not_lt.mpr h.2.2)]

theorem read_escape {c : Char} {escaped rest : List Char} (h : readEscape escaped = .ok (c, rest)) :
    read ('\\' :: escaped) = (read rest).map fun (cs, rest) => (c :: cs, rest) := by
  rw [read, if_neg (by decide), if_pos rfl]
  split
  next hstop => rw [h] at hstop; cases hstop
  next hread => rw [h] at hread; cases hread; rfl

/-- A letter is read as what it means. -/
theorem readEscape_letter {letter c : Char} (h : (letter, c) ∈ escapeLetters) (rest : List Char) :
    readEscape (letter :: rest) = .ok (c, rest) := by
  obtain ⟨hu, hsimple⟩ := simpleEscape?_of_mem h
  rw [readEscape, hsimple]
  exact hu

/-- A code that is no half of a pair is read as its character. -/
theorem readEscape_code {digits : List Char} {n : Nat} (h : IsHex digits n)
    (hn : n < 0xD800 ∨ 0xDFFF < n) (rest : List Char) :
    readEscape ('u' :: (digits ++ rest)) = .ok (Char.ofNat n, rest) := by
  have hsecond : ¬(0xDC00 ≤ n ∧ n ≤ 0xDFFF) := by omega
  have hfirst : ¬(0xD800 ≤ n ∧ n ≤ 0xDBFF) := by omega
  rw [readEscape, readHex_isHex h]
  simp only [Bool.and_eq_true, decide_eq_true_eq, if_neg hsecond, if_neg hfirst]

/-- Two halves are read as one character. -/
theorem readEscape_pair {first second : List Char} {high low : Nat} (hfirst : IsHex first high)
    (hsecond : IsHex second low) (hhigh : 0xD800 ≤ high ∧ high ≤ 0xDBFF)
    (hlow : 0xDC00 ≤ low ∧ low ≤ 0xDFFF) (rest : List Char) :
    readEscape ('u' :: (first ++ '\\' :: 'u' :: (second ++ rest)))
      = .ok (Char.ofNat ((high - 0xD800) * 1024 + (low - 0xDC00) + 0x10000), rest) := by
  have hnotLow : ¬(0xDC00 ≤ high ∧ high ≤ 0xDFFF) := by omega
  have hin : ¬(low < 0xDC00 ∨ 0xDFFF < low) := by omega
  rw [readEscape, readHex_isHex hfirst]
  simp only [Bool.and_eq_true, decide_eq_true_eq, if_neg hnotLow, if_pos hhigh]
  rw [readTrailing, readHex_isHex hsecond]
  simp only [Bool.or_eq_true, decide_eq_true_eq, if_neg hin]

/-- A piece of a string is read as its character. -/
theorem read_writes {piece : List Char} {c : Char} (h : Writes piece c) (rest : List Char) :
    read (piece ++ rest) = (read rest).map fun (cs, rest) => (c :: cs, rest) := by
  cases h with
  | plain h => exact read_plain h rest
  | letter h => exact read_escape (readEscape_letter h rest)
  | code h hn => exact read_escape (readEscape_code h hn rest)
  | pair hfirst hsecond hhigh hlow =>
    simp only [List.cons_append, List.append_assoc]
    exact read_escape (readEscape_pair hfirst hsecond hhigh hlow rest)

theorem read_pieces {pieces : List (List Char)} {cs : List Char}
    (h : List.Forall₂ Writes pieces cs) (rest : List Char) :
    read (pieces.flatten ++ '"' :: rest) = .ok (cs, rest) := by
  induction h with
  | nil => rw [List.flatten_nil, List.nil_append, read, if_pos rfl]
  | cons hpiece _ ih =>
    rw [List.flatten_cons, List.append_assoc, read_writes hpiece, ih]
    rfl

/-- **A string is read as what it denotes.** -/
theorem read_denotes {literal cs : List Char} (h : Denotes literal cs) (rest : List Char) :
    ∃ body, literal ++ rest = '"' :: body ∧ read body = .ok (cs, rest) := by
  obtain ⟨pieces, hpieces, rfl⟩ := h
  refine ⟨pieces.flatten ++ '"' :: rest, ?_, read_pieces hpieces rest⟩
  rw [List.cons_append, List.append_assoc, List.singleton_append]

/-! ### Passing over a string -/

theorem skip_escape {escaped rest : List Char} (h : skipEscape escaped = .ok rest) :
    skip ('\\' :: escaped) = skip rest := by
  rw [skip, if_neg (by decide), if_pos rfl]
  split
  next hstop => rw [h] at hstop; cases hstop
  next hskip => rw [h] at hskip; cases hskip; rfl

theorem skipEscape_letter {letter c : Char} (h : (letter, c) ∈ escapeLetters) (rest : List Char) :
    skipEscape (letter :: rest) = .ok rest := by
  obtain ⟨hu, hsimple⟩ := simpleEscape?_of_mem h
  rw [skipEscape, hsimple]
  exact hu

theorem skipEscape_code {digits : List Char} {n : Nat} (h : IsHex digits n) (rest : List Char) :
    skipEscape ('u' :: (digits ++ rest)) = .ok rest := by
  rw [skipEscape, readHex_isHex h]

theorem skip_piece {piece : List Char} (h : IsPiece piece) (rest : List Char) :
    skip (piece ++ rest) = skip rest := by
  cases h with
  | plain h =>
    rw [List.singleton_append, skip, if_neg h.1, if_neg h.2.1, if_neg (Nat.not_lt.mpr h.2.2)]
  | letter h => exact skip_escape (skipEscape_letter h rest)
  | code h => exact skip_escape (skipEscape_code h rest)

theorem skip_pieces {pieces : List (List Char)} (h : ∀ piece ∈ pieces, IsPiece piece)
    (rest : List Char) : skip (pieces.flatten ++ '"' :: rest) = .ok rest := by
  induction pieces with
  | nil => rw [List.flatten_nil, List.nil_append, skip, if_pos rfl]
  | cons piece pieces ih =>
    obtain ⟨hpiece, hpieces⟩ := List.forall_mem_cons.mp h
    rw [List.flatten_cons, List.append_assoc, skip_piece hpiece, ih hpieces]

/-- **A string is passed over whole.** -/
theorem skip_isLiteral {literal : List Char} (h : IsLiteral literal) (rest : List Char) :
    ∃ body, literal ++ rest = '"' :: body ∧ skip body = .ok rest := by
  obtain ⟨pieces, hpieces, rfl⟩ := h
  refine ⟨pieces.flatten ++ '"' :: rest, ?_, skip_pieces hpieces rest⟩
  rw [List.cons_append, List.append_assoc, List.singleton_append]

/-! ### Writing a string -/

theorem hexValue?_hexDigit {n : Nat} (h : n < 16) :
    Percent.hexValue? (Shown.hexDigit n) = some n := by
  have hall : ∀ k : Fin 16, Percent.hexValue? (Shown.hexDigit k) = some (k : Nat) := by decide
  exact hall ⟨n, h⟩

/-- A character is written as a piece that denotes it. -/
theorem writes_escape (c : Char) : Writes (escape c) c := by
  have hof {n : Nat} (h : c.toNat = n) : c = Char.ofNat n := by rw [← h, Char.ofNat_toNat]
  unfold escape
  split_ifs with hquote hbackslash hline htab hbell hfeed hreturn hcontrol
  · exact .letter (by rw [hquote]; decide)
  · exact .letter (by rw [hbackslash]; decide)
  · exact .letter (by rw [hline]; decide)
  · exact .letter (by rw [htab]; decide)
  · exact .letter (by rw [hof hbell]; decide)
  · exact .letter (by rw [hof hfeed]; decide)
  · exact .letter (by rw [hof hreturn]; decide)
  · have hhex : IsHex ['0', '0', Shown.hexDigit (c.toNat / 16), Shown.hexDigit (c.toNat % 16)]
        (((0 * 16 + 0) * 16 + c.toNat / 16) * 16 + c.toNat % 16) :=
      .four rfl rfl (hexValue?_hexDigit (by omega)) (hexValue?_hexDigit (by omega))
    have hvalue : ((0 * 16 + 0) * 16 + c.toNat / 16) * 16 + c.toNat % 16 = c.toNat := by omega
    rw [hvalue] at hhex
    have hwrites := Writes.code hhex (.inl (by omega))
    rwa [Char.ofNat_toNat] at hwrites
  · exact .plain ⟨hquote, hbackslash, by omega⟩

/-- **A text is what the string denotes that it is written as.** -/
theorem denotes_encode (cs : List Char) : Denotes (encode cs) cs := by
  refine ⟨cs.map escape, ?_, ?_⟩
  · rw [List.forall₂_map_left_iff]
    exact List.forall₂_same.mpr fun c _ => writes_escape c
  · rw [encode, List.flatMap_def, List.cons_append]

end Quoted

end Json

end QueueDrain
