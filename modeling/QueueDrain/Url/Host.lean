import QueueDrain.Text.Decimal
import QueueDrain.Text.Percent

/-!
# Hosts of URLs

The host of a URL is a name, an IPv4 address or an IPv6 address in brackets. For schemes that the
URL standard does not single out a name is any text without the characters that delimit the parts
of a URL; the special schemes (`http` and its like) read it as a domain name or an IPv4 address.

## Main definitions

* `Url.Fault` — why a text is no URL
* `Url.Host` — a host
* `Url.Ipv6.parse?`, `Url.Ipv4.parse` — addresses
* `Url.Host.parseOpaque`, `Url.Host.parseSpecial` — hosts
-/

namespace QueueDrain

namespace Url

/-- Why a text is no URL. -/
inductive Fault where
  | emptyHost
  | invalidDomainName
  | invalidPort
  | invalidIpv4Address
  | invalidIpv6Address
  | invalidDomainCharacter
  | relativeWithoutBase
deriving DecidableEq, Repr

/-- The wording of a fault. -/
def Fault.message : Fault → String
  | .emptyHost => "empty host"
  | .invalidDomainName => "invalid international domain name"
  | .invalidPort => "invalid port number"
  | .invalidIpv4Address => "invalid IPv4 address"
  | .invalidIpv6Address => "invalid IPv6 address"
  | .invalidDomainCharacter => "invalid domain character"
  | .relativeWithoutBase => "relative URL without a base"

/-- The host of a URL. A name is kept as it is written, escapes included. -/
inductive Host where
  | name (text : List Char)
  | ipv4 (address : Nat)
  | ipv6 (pieces : List Nat)
deriving DecidableEq, Repr

/-- A text cut at every occurrence of a character. -/
def splitOn (sep : Char) : List Char → List (List Char)
  | [] => [[]]
  | c :: cs =>
    match splitOn sep cs with
    | [] => [[]]
    | part :: parts => if c = sep then [] :: part :: parts else (c :: part) :: parts

namespace Ipv6

/-- The value of a run of hexadecimal digits. -/
def hexNumber (cs : List Char) : Nat :=
  cs.foldl (fun n c => n * 16 + (Percent.hexValue? c).getD 0) 0

/-- One of the four numbers that may end an address: up to 255, without leading zeros. -/
def tailNumber? (cs : List Char) : Option Nat :=
  match cs with
  | [] => none
  | c :: rest =>
    if (c :: rest).all (fun c => (Decimal.digitValue? c).isSome) && (c != '0' || rest.isEmpty)
        && Decimal.value (c :: rest) ≤ 255 then
      some (Decimal.value (c :: rest))
    else none

/-- The two pieces that a dotted ending stands for. -/
def tail? (cs : List Char) : Option (List Nat) :=
  match (splitOn '.' cs).mapM tailNumber? with
  | some [a, b, c, d] => some [a * 256 + b, c * 256 + d]
  | _ => none

/-- The leading hexadecimal digits of a text, at most `limit` of them, and the rest. -/
def spanHex : Nat → List Char → List Char × List Char
  | limit + 1, c :: cs =>
    if (Percent.hexValue? c).isSome then
      let (digits, rest) := spanHex limit cs
      (c :: digits, rest)
    else ([], c :: cs)
  | _, cs => ([], cs)

theorem length_spanHex (limit : Nat) (cs : List Char) :
    (spanHex limit cs).2.length ≤ cs.length := by
  induction limit generalizing cs with
  | zero => simp [spanHex]
  | succ limit ih =>
    cases cs with
    | nil => simp [spanHex]
    | cons c cs =>
      rw [spanHex]
      split
      · have := ih cs
        simp only [List.length_cons]
        omega
      · simp

/-- The pieces of an address from some point on, behind the pieces that are known and with the
place of the gap if there was one. -/
def pieces? (known : List Nat) (gap : Option Nat) (cs : List Char) :
    Option (List Nat × Option Nat) :=
  match cs with
  | [] => some (known, gap)
  | ':' :: rest =>
    if known.length = 8 || gap.isSome then none
    else pieces? (known ++ [0]) (some (known.length + 1)) rest
  | c :: rest =>
    if known.length = 8 then none
    else
      match _h : spanHex 4 (c :: rest) with
      | (digits, []) => some (known ++ [hexNumber digits], gap)
      | (digits, d :: behind) =>
        if d = '.' then
          if digits.isEmpty || 6 < known.length then none
          else (tail? (c :: rest)).map fun two => (known ++ two, gap)
        else if d = ':' then
          if behind.isEmpty then none else pieces? (known ++ [hexNumber digits]) gap behind
        else none
termination_by cs.length
decreasing_by
  · simp
  · have := length_spanHex 4 (c :: rest)
    rw [_h] at this
    simp only [List.length_cons] at this ⊢
    omega

/-- The eight pieces of an address, the gap filled with zeros. -/
def parse? (cs : List Char) : Option (List Nat) :=
  let found :=
    match cs with
    | ':' :: ':' :: rest => pieces? [0] (some 1) rest
    | ':' :: _ | [] | [_] => none
    | cs => pieces? [] none cs
  match found with
  | some (pieces, none) => if pieces.length = 8 then some pieces else none
  | some (pieces, some gap) =>
    some (pieces.take gap ++ List.replicate (8 - pieces.length) 0 ++ pieces.drop gap)
  | none => none

end Ipv6

namespace Ipv4

/-- A part of an address: decimal, octal behind a zero, hexadecimal behind `0x`. The outer option
tells whether it is a number, the inner one whether the number fits 32 bits. -/
def part? (cs : List Char) : Option (Option Nat) :=
  let (base, digits) : Nat × List Char :=
    match cs with
    | '0' :: 'x' :: rest | '0' :: 'X' :: rest => (16, rest)
    | '0' :: c :: rest => (8, c :: rest)
    | cs => (10, cs)
  if cs.isEmpty then none
  else if digits.all (fun c => (Percent.hexValue? c).any (· < base)) then
    let n := digits.foldl (fun n c => n * base + (Percent.hexValue? c).getD 0) 0
    if n < 4294967296 then some (some n) else some none
  else none

/-- The parts of a text between dots, an empty last one left out. -/
def parts (cs : List Char) : List (List Char) :=
  let all := splitOn '.' cs
  if all.getLast? = some [] && 1 < all.length then all.dropLast else all

/-- Whether a domain name has to be an address because its last part is a number. -/
def endsInNumber (cs : List Char) : Bool :=
  match (parts cs).getLast? with
  | some last =>
    (!last.isEmpty && last.all (fun c => (Decimal.digitValue? c).isSome)) || (part? last).isSome
  | none => false

/-- An address of up to four parts, the last of which fills the rest. -/
def parse (cs : List Char) : Except Fault Nat :=
  let parts := parts cs
  if 4 < parts.length then .error .invalidIpv4Address
  else
    match parts.mapM (fun p => (part? p).join) with
    | none => .error .invalidIpv4Address
    | some numbers =>
      let high := numbers.dropLast
      let last := numbers.getLast?.getD 0
      if high.any (255 < ·) || Nat.pow 256 (4 - high.length) ≤ last then .error .invalidIpv4Address
      else
        .ok ((high.mapIdx fun i n => n * Nat.pow 256 (3 - i)).foldr (· + ·) last)

end Ipv4

namespace Host

/-- Characters that no opaque host has, because they delimit the parts of a URL. -/
def forbidden : List Char :=
  ['\x00', '\t', '\n', '\x0d', ' ', '#', '/', ':', '<', '>', '?', '@', '[', '\\', ']', '^', '|']

/-- An address in brackets. -/
def parseBracketed (cs : List Char) : Except Fault Host :=
  if cs.getLast? = some ']' then
    match Ipv6.parse? (cs.drop 1).dropLast with
    | some pieces => .ok (.ipv6 pieces)
    | none => .error .invalidIpv6Address
  else .error .invalidIpv6Address

/-- The host of a URL with an ordinary scheme. -/
def parseOpaque (cs : List Char) : Except Fault Host :=
  match cs with
  | '[' :: _ => parseBracketed cs
  | _ => if cs.any (forbidden.contains ·) then .error .invalidDomainCharacter else .ok (.name cs)

/-- The lower-case form of an ASCII letter. -/
def lowerAscii (c : Char) : Char :=
  if 'A' ≤ c ∧ c ≤ 'Z' then Char.ofNat (c.toNat + 32) else c

/-- The host of a URL with a special scheme: escapes are resolved, letters are lower-cased, and a
name that ends in a number has to be an address. Names beyond ASCII are taken as they are. -/
def parseSpecial (cs : List Char) : Except Fault Host :=
  match cs with
  | '[' :: _ => parseBracketed cs
  | _ =>
    match Utf8.decode (Percent.decode cs) with
    | .error _ => .error .invalidDomainName
    | .ok decoded =>
      let domain := decoded.map lowerAscii
      if domain.any (fun c => c.toNat < 0x20 || c = '%' || c.toNat = 0x7F || forbidden.contains c)
      then .error .invalidDomainName
      else if domain.isEmpty then .error .emptyHost
      else if Ipv4.endsInNumber domain then (Ipv4.parse domain).map .ipv4
      else .ok (.name domain)

end Host

end Url

end QueueDrain
