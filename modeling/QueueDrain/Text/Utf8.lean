import QueueDrain.Text.Decimal

/-!
# UTF-8

Characters as octets and back. Decoding that meets octets which are no UTF-8 says where they begin
and how long the offending run is; lossy decoding puts a replacement character for each such run.

## Main definitions

* `Utf8.encodeChar`, `Utf8.encode` — characters as octets
* `Utf8.scan` — the first character of a nonempty run of octets, or the length of what is none
* `Utf8.decode`, `Utf8.decodeLossy` — octets as characters
* `Utf8.Fault`, `Utf8.Fault.message` — where decoding fails

## Main results

* `Utf8.decode_encode` — what is encoded can be decoded
-/

namespace QueueDrain

namespace Utf8

/-- The octets of a character. -/
def encodeChar (c : Char) : List UInt8 :=
  let n := c.toNat
  if n < 0x80 then [UInt8.ofNat n]
  else if n < 0x800 then [UInt8.ofNat (0xC0 + n / 64), UInt8.ofNat (0x80 + n % 64)]
  else if n < 0x10000 then
    [UInt8.ofNat (0xE0 + n / 4096), UInt8.ofNat (0x80 + n / 64 % 64), UInt8.ofNat (0x80 + n % 64)]
  else
    [UInt8.ofNat (0xF0 + n / 262144), UInt8.ofNat (0x80 + n / 4096 % 64),
      UInt8.ofNat (0x80 + n / 64 % 64), UInt8.ofNat (0x80 + n % 64)]

/-- The octets of a text. -/
def encode (cs : List Char) : List UInt8 := cs.flatMap encodeChar

/-- What a run of octets begins with. -/
inductive Scan where
  /-- A character, with the number of octets behind its first one. -/
  | char (c : Char) (tail : Nat)
  /-- Octets that no character begins with; `tail` of them behind the first one. -/
  | invalid (tail : Nat)
  /-- The beginning of a character whose end is missing. -/
  | incomplete
deriving DecidableEq, Repr

/-- Whether an octet continues a character. -/
def isTail (b : Nat) : Bool := 0x80 ≤ b && b ≤ 0xBF

/-- The values that the second octet may take behind a given first octet of three or four: what
would make the encoding longer than it need be, a surrogate, or too large a number is left out. -/
def secondRange (first : Nat) : Nat × Nat :=
  if first = 0xE0 then (0xA0, 0xBF)
  else if first = 0xED then (0x80, 0x9F)
  else if first = 0xF0 then (0x90, 0xBF)
  else if first = 0xF4 then (0x80, 0x8F)
  else (0x80, 0xBF)

/-- Whether an octet may come second. -/
def isSecond (first b : Nat) : Bool := (secondRange first).1 ≤ b && b ≤ (secondRange first).2

/-- What a run of octets begins with, given its first octet and the others. -/
def scan (first : Nat) (rest : List UInt8) : Scan :=
  if first < 0x80 then .char (Char.ofNat first) 0
  else if first < 0xC2 then .invalid 0
  else if first < 0xE0 then
    match rest with
    | [] => .incomplete
    | b :: _ =>
      if isTail b.toNat then .char (Char.ofNat ((first - 0xC0) * 64 + (b.toNat - 0x80))) 1
      else .invalid 0
  else if first < 0xF0 then
    match rest with
    | [] => .incomplete
    | b :: rest =>
      if isSecond first b.toNat then
        match rest with
        | [] => .incomplete
        | c :: _ =>
          if isTail c.toNat then
            .char (Char.ofNat ((first - 0xE0) * 4096 + (b.toNat - 0x80) * 64 + (c.toNat - 0x80))) 2
          else .invalid 1
      else .invalid 0
  else if first < 0xF5 then
    match rest with
    | [] => .incomplete
    | b :: rest =>
      if isSecond first b.toNat then
        match rest with
        | [] => .incomplete
        | c :: rest =>
          if isTail c.toNat then
            match rest with
            | [] => .incomplete
            | d :: _ =>
              if isTail d.toNat then
                .char (Char.ofNat ((first - 0xF0) * 262144 + (b.toNat - 0x80) * 4096
                  + (c.toNat - 0x80) * 64 + (d.toNat - 0x80))) 3
              else .invalid 2
          else .invalid 1
      else .invalid 0
  else .invalid 0

/-- Where decoding fails. -/
inductive Fault where
  /-- Octets that are no UTF-8, `length` of them from `index` on. -/
  | invalid (length index : Nat)
  /-- A character that begins at `index` and does not end. -/
  | incomplete (index : Nat)
deriving DecidableEq, Repr

/-- The wording of a fault. -/
def Fault.message : Fault → String
  | .invalid length index =>
    "invalid utf-8 sequence of " ++ Decimal.text length ++ " bytes from index "
      ++ Decimal.text index
  | .incomplete index => "incomplete utf-8 byte sequence from index " ++ Decimal.text index

/-- The characters of a run of octets that begins at an index of the whole. -/
def decodeFrom (index : Nat) (octets : List UInt8) : Except Fault (List Char) :=
  match octets with
  | [] => .ok []
  | b :: rest =>
    match scan b.toNat rest with
    | .char c tail => (decodeFrom (index + 1 + tail) (rest.drop tail)).map (c :: ·)
    | .invalid tail => .error (.invalid (tail + 1) index)
    | .incomplete => .error (.incomplete index)
termination_by octets.length
decreasing_by simp only [List.length_drop, List.length_cons]; omega

/-- The characters of a run of octets. -/
def decode (octets : List UInt8) : Except Fault (List Char) := decodeFrom 0 octets

/-! ### Reading back -/

theorem toNat_ofNat_of_lt {n : Nat} (h : n < 256) : (UInt8.ofNat n).toNat = n := by
  simp [Nat.mod_eq_of_lt h]

theorem toNat_lt (c : Char) : c.toNat < 0xD800 ∨ 0xDFFF < c.toNat ∧ c.toNat < 0x110000 := c.valid

/-- The second octet of a character of three octets is one that may come second. -/
theorem isSecond_three {n : Nat} (h : n < 0x10000) (hl : 0x800 ≤ n)
    (hs : n < 0xD800 ∨ 0xDFFF < n) : isSecond (0xE0 + n / 4096) (0x80 + n / 64 % 64) = true := by
  unfold isSecond secondRange
  repeat' split
  all_goals simp only [Bool.and_eq_true, decide_eq_true_eq]
  all_goals omega

/-- The second octet of a character of four octets is one that may come second. -/
theorem isSecond_four {n : Nat} (h : n < 0x110000) (hl : 0x10000 ≤ n) :
    isSecond (0xF0 + n / 262144) (0x80 + n / 4096 % 64) = true := by
  unfold isSecond secondRange
  repeat' split
  all_goals simp only [Bool.and_eq_true, decide_eq_true_eq]
  all_goals omega

theorem isTail_ofNat (n : Nat) : isTail (0x80 + n % 64) = true := by
  simp only [isTail, Bool.and_eq_true, decide_eq_true_eq]
  omega

/-- The octets of a character, in front of any others, are read as that character. -/
theorem decodeFrom_encodeChar_append (c : Char) (index : Nat) (rest : List UInt8) :
    decodeFrom index (encodeChar c ++ rest)
      = (decodeFrom (index + (encodeChar c).length) rest).map (c :: ·) := by
  have hv := toNat_lt c
  have hc : Char.ofNat c.toNat = c := Char.ofNat_toNat c
  unfold encodeChar
  simp only
  generalize hn : c.toNat = n at *
  split
  · rename_i h
    have h0 : (UInt8.ofNat n).toNat = n := toNat_ofNat_of_lt (by omega)
    have hs : scan n rest = .char c 0 := by unfold scan; rw [if_pos h, hc]
    rw [List.singleton_append, decodeFrom, h0, hs]
    simp
  · rename_i h1
    split
    · rename_i h2
      have ha : (UInt8.ofNat (0xC0 + n / 64)).toNat = 0xC0 + n / 64 := toNat_ofNat_of_lt (by omega)
      have hb : (UInt8.ofNat (0x80 + n % 64)).toNat = 0x80 + n % 64 := toNat_ofNat_of_lt (by omega)
      have hr : (0xC0 + n / 64 - 0xC0) * 64 + (0x80 + n % 64 - 0x80) = n := by omega
      have hs : scan (0xC0 + n / 64) (UInt8.ofNat (0x80 + n % 64) :: rest) = .char c 1 := by
        unfold scan
        rw [if_neg (by omega), if_neg (by omega), if_pos (by omega)]
        simp only [hb, isTail_ofNat, if_true, hr, hc]
      rw [List.cons_append, List.cons_append, List.nil_append, decodeFrom, ha, hs]
      simp [Nat.add_assoc]
    · rename_i h2
      split
      · rename_i h3
        have ha : (UInt8.ofNat (0xE0 + n / 4096)).toNat = 0xE0 + n / 4096 :=
          toNat_ofNat_of_lt (by omega)
        have hb : (UInt8.ofNat (0x80 + n / 64 % 64)).toNat = 0x80 + n / 64 % 64 :=
          toNat_ofNat_of_lt (by omega)
        have hd : (UInt8.ofNat (0x80 + n % 64)).toNat = 0x80 + n % 64 :=
          toNat_ofNat_of_lt (by omega)
        have hr : (0xE0 + n / 4096 - 0xE0) * 4096 + (0x80 + n / 64 % 64 - 0x80) * 64
            + (0x80 + n % 64 - 0x80) = n := by omega
        have hs : scan (0xE0 + n / 4096) (UInt8.ofNat (0x80 + n / 64 % 64)
            :: UInt8.ofNat (0x80 + n % 64) :: rest) = .char c 2 := by
          unfold scan
          rw [if_neg (by omega), if_neg (by omega), if_neg (by omega), if_pos (by omega)]
          simp only [hb, hd, isSecond_three h3 (by omega) (by omega), isTail_ofNat, if_true, hr, hc]
        rw [List.cons_append, List.cons_append, List.cons_append, List.nil_append, decodeFrom, ha,
          hs]
        simp [Nat.add_assoc]
      · rename_i h3
        have ha : (UInt8.ofNat (0xF0 + n / 262144)).toNat = 0xF0 + n / 262144 :=
          toNat_ofNat_of_lt (by omega)
        have hb : (UInt8.ofNat (0x80 + n / 4096 % 64)).toNat = 0x80 + n / 4096 % 64 :=
          toNat_ofNat_of_lt (by omega)
        have hd : (UInt8.ofNat (0x80 + n / 64 % 64)).toNat = 0x80 + n / 64 % 64 :=
          toNat_ofNat_of_lt (by omega)
        have he : (UInt8.ofNat (0x80 + n % 64)).toNat = 0x80 + n % 64 :=
          toNat_ofNat_of_lt (by omega)
        have hr : (0xF0 + n / 262144 - 0xF0) * 262144 + (0x80 + n / 4096 % 64 - 0x80) * 4096
            + (0x80 + n / 64 % 64 - 0x80) * 64 + (0x80 + n % 64 - 0x80) = n := by omega
        have hs : scan (0xF0 + n / 262144) (UInt8.ofNat (0x80 + n / 4096 % 64)
            :: UInt8.ofNat (0x80 + n / 64 % 64) :: UInt8.ofNat (0x80 + n % 64) :: rest)
              = .char c 3 := by
          unfold scan
          rw [if_neg (by omega), if_neg (by omega), if_neg (by omega), if_neg (by omega),
            if_pos (by omega)]
          simp only [hb, hd, he, isSecond_four (by omega : n < 0x110000) (by omega), isTail_ofNat,
            if_true, hr, hc]
        rw [List.cons_append, List.cons_append, List.cons_append, List.cons_append, List.nil_append,
          decodeFrom, ha, hs]
        simp [Nat.add_assoc]

theorem decodeFrom_encode (cs : List Char) (index : Nat) :
    decodeFrom index (encode cs) = .ok cs := by
  induction cs generalizing index with
  | nil => simp [encode, decodeFrom]
  | cons c cs ih =>
    have : encode (c :: cs) = encodeChar c ++ encode cs := by simp [encode]
    rw [this, decodeFrom_encodeChar_append, ih]
    rfl

/-- **What is encoded can be decoded.** -/
theorem decode_encode (cs : List Char) : decode (encode cs) = .ok cs := decodeFrom_encode cs 0

/-! ### Lossy decoding -/

/-- The replacement character. -/
def replacement : Char := Char.ofNat 0xFFFD

/-- The characters of a run of octets, with a replacement character for each run that is none. -/
def decodeLossy (octets : List UInt8) : List Char :=
  match octets with
  | [] => []
  | b :: rest =>
    match scan b.toNat rest with
    | .char c tail => c :: decodeLossy (rest.drop tail)
    | .invalid tail => replacement :: decodeLossy (rest.drop tail)
    | .incomplete => [replacement]
termination_by octets.length
decreasing_by all_goals simp only [List.length_drop, List.length_cons]; omega

end Utf8

end QueueDrain
