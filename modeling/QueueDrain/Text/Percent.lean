import QueueDrain.Text.Utf8

/-!
# Percent-encoding

Octets written as a percent sign with two hexadecimal digits, as URIs have them, and the variant of
forms, in which a plus sign is a space.

## Main definitions

* `Percent.hexValue?`, `Percent.hexDigit` — hexadecimal digits
* `Percent.encode` — every octet escaped
* `Percent.decode` — the octets that a text with escapes denotes
* `Percent.formDecode` — the text that a field of a form denotes

## Main results

* `Percent.decode_escape_append`, `Percent.decode_encode` — escapes denote their octets
-/

namespace QueueDrain

namespace Percent

/-- The value of a hexadecimal digit. -/
def hexValue? (c : Char) : Option Nat :=
  if '0' ≤ c ∧ c ≤ '9' then some (c.toNat - '0'.toNat)
  else if 'A' ≤ c ∧ c ≤ 'F' then some (c.toNat - 'A'.toNat + 10)
  else if 'a' ≤ c ∧ c ≤ 'f' then some (c.toNat - 'a'.toNat + 10)
  else none

/-- The upper-case hexadecimal digit of a number below sixteen. -/
def hexDigit (n : Nat) : Char :=
  if n < 10 then Char.ofNat ('0'.toNat + n) else Char.ofNat ('A'.toNat + (n - 10))

/-- An octet as an escape. -/
def escape (b : UInt8) : List Char := ['%', hexDigit (b.toNat / 16), hexDigit (b.toNat % 16)]

/-- The escapes of a text: every octet of it is escaped. -/
def encode (cs : List Char) : List Char := (Utf8.encode cs).flatMap escape

/-- The octets that a text denotes. A percent sign that two hexadecimal digits do not follow stands
for itself. -/
def decode : List Char → List UInt8
  | [] => []
  | '%' :: a :: b :: rest =>
    match hexValue? a, hexValue? b with
    | some high, some low => UInt8.ofNat (high * 16 + low) :: decode rest
    | _, _ => Utf8.encodeChar '%' ++ decode (a :: b :: rest)
  | c :: rest => Utf8.encodeChar c ++ decode rest

/-- The text of a form field: plus signs are spaces, escapes are octets, and octets that are no
UTF-8 are replaced. -/
def formDecode (cs : List Char) : List Char :=
  Utf8.decodeLossy (decode (cs.map fun c => if c = '+' then ' ' else c))

theorem hexValue?_hexDigit {n : Nat} (h : n < 16) : hexValue? (hexDigit n) = some n := by
  have : ∀ k : Fin 16, hexValue? (hexDigit k) = some (k : Nat) := by decide
  exact this ⟨n, h⟩

/-- **An escape denotes its octet.** -/
theorem decode_escape_append (b : UInt8) (rest : List Char) :
    decode (escape b ++ rest) = b :: decode rest := by
  have hb : b.toNat < 256 := b.toNat_lt
  simp only [escape, List.cons_append, List.nil_append]
  rw [decode, hexValue?_hexDigit (show b.toNat / 16 < 16 by omega),
    hexValue?_hexDigit (show b.toNat % 16 < 16 by omega)]
  simp only [List.cons.injEq, and_true]
  rw [show b.toNat / 16 * 16 + b.toNat % 16 = b.toNat by omega]
  simp

theorem decode_flatMap_escape (bs : List UInt8) : decode (bs.flatMap escape) = bs := by
  induction bs with
  | nil => rfl
  | cons b bs ih => rw [List.flatMap_cons, decode_escape_append, ih]

/-- Escaping and then reading the escapes gives the octets of the text. -/
theorem decode_encode (cs : List Char) : decode (encode cs) = Utf8.encode cs :=
  decode_flatMap_escape _

end Percent

end QueueDrain
