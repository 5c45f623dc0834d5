import QueueDrain.Json.Issue

/-!
# Strings in JSON texts

A string stands between quotes. Quotes, backslashes and control characters in it are escaped;
everything else stands for itself.

## Main definitions

* `Json.Quoted.escape`, `Json.Quoted.encode` — a string as a literal
* `Json.Quoted.read` — the string of a literal, from behind its opening quote
* `Json.Quoted.skip` — what follows a literal, whatever code points its escapes denote
-/

namespace QueueDrain

namespace Json

namespace Quoted

/-! ### Writing -/

/-- A character in a literal. -/
def escape (c : Char) : List Char :=
  if c = '"' then ['\\', '"']
  else if c = '\\' then ['\\', '\\']
  else if c = '\n' then ['\\', 'n']
  else if c = '\t' then ['\\', 't']
  else if c.toNat = 8 then ['\\', 'b']
  else if c.toNat = 12 then ['\\', 'f']
  else if c.toNat = 13 then ['\\', 'r']
  else if c.toNat < 32 then
    ['\\', 'u', '0', '0', Shown.hexDigit (c.toNat / 16), Shown.hexDigit (c.toNat % 16)]
  else [c]

/-- A string as a literal. -/
def encode (cs : List Char) : List Char := '"' :: cs.flatMap escape ++ ['"']

/-! ### Reading -/

/-- The number of four hexadecimal digits, and what follows. Fewer than four octets end the text;
four octets that are not all digits count as read. -/
def readHex (cs : List Char) : Reading Nat :=
  match cs with
  | a :: b :: c :: d :: rest =>
    match Percent.hexValue? a, Percent.hexValue? b, Percent.hexValue? c, Percent.hexValue? d with
    | some a, some b, some c, some d => .ok (((a * 16 + b) * 16 + c) * 16 + d, rest)
    | _, _, _, _ => .error { issue := .badEscape, rest := cs, octets := 4 }
  | _ =>
    if (cs.map Char.utf8Size).foldr (· + ·) 0 < 4 then stopAt .unfinishedString []
    else .error { issue := .badEscape, rest := cs, octets := 4 }

/-- The character that a backslash with a letter denotes. -/
def simpleEscape? (c : Char) : Option Char :=
  if c = '"' then some '"'
  else if c = '\\' then some '\\'
  else if c = '/' then some '/'
  else if c = 'b' then some (Char.ofNat 8)
  else if c = 'f' then some (Char.ofNat 12)
  else if c = 'n' then some '\n'
  else if c = 'r' then some (Char.ofNat 13)
  else if c = 't' then some '\t'
  else none

/-- The second half of a surrogate pair, from behind the first. -/
def readTrailing (high : Nat) : List Char → Reading Char
  | [] => stopAt .unfinishedString []
  | ['\\'] => stopAt .unfinishedString []
  | '\\' :: 'u' :: rest =>
    match readHex rest with
    | .error stop => .error stop
    | .ok (low, rest) =>
      if low < 0xDC00 || 0xDFFF < low then stopAt .loneSurrogate rest
      else .ok (Char.ofNat ((high - 0xD800) * 1024 + (low - 0xDC00) + 0x10000), rest)
  | '\\' :: rest => stopBehind .unfinishedSurrogates rest
  | rest => stopBehind .unfinishedSurrogates rest

/-- The character of an escape, from behind its backslash. -/
def readEscape : List Char → Reading Char
  | [] => stopAt .unfinishedString []
  | 'u' :: rest =>
    match readHex rest with
    | .error stop => .error stop
    | .ok (n, rest) =>
      if 0xDC00 ≤ n && n ≤ 0xDFFF then stopAt .loneSurrogate rest
      else if 0xD800 ≤ n && n ≤ 0xDBFF then readTrailing n rest
      else .ok (Char.ofNat n, rest)
  | c :: rest =>
    match simpleEscape? c with
    | some d => .ok (d, rest)
    | none => stopBehind .badEscape (c :: rest)

/-- What an escape is followed by. A code point that is no character is not looked at. -/
def skipEscape : List Char → Except Stop (List Char)
  | [] => stopAt .unfinishedString []
  | 'u' :: rest =>
    match readHex rest with
    | .error stop => .error stop
    | .ok (_, rest) => .ok rest
  | c :: rest =>
    match simpleEscape? c with
    | some _ => .ok rest
    | none => stopBehind .badEscape (c :: rest)

theorem length_of_readHex {cs rest : List Char} {n : Nat} (h : readHex cs = .ok (n, rest)) :
    rest.length ≤ cs.length := by
  unfold readHex at h
  split at h
  · split at h
    · cases h
      simp only [List.length_cons]
      omega
    · cases h
  · split at h <;> cases h

theorem length_of_readTrailing {high : Nat} {cs rest : List Char} {d : Char}
    (h : readTrailing high cs = .ok (d, rest)) : rest.length ≤ cs.length := by
  unfold readTrailing at h
  split at h
  · cases h
  · cases h
  · split at h
    · cases h
    · rename_i hr
      split at h
      · cases h
      · obtain ⟨-, rfl⟩ := Prod.mk.inj (Except.ok.inj h)
        have := length_of_readHex hr
        simp only [List.length_cons]
        omega
  · cases h
  · cases h

theorem length_of_readEscape {cs rest : List Char} {d : Char} (h : readEscape cs = .ok (d, rest)) :
    rest.length ≤ cs.length := by
  unfold readEscape at h
  split at h
  · cases h
  · split at h
    · cases h
    · rename_i hr
      have := length_of_readHex hr
      simp only [List.length_cons]
      split at h
      · cases h
      · split at h
        · have := length_of_readTrailing h
          omega
        · obtain ⟨-, rfl⟩ := Prod.mk.inj (Except.ok.inj h)
          omega
  · split at h
    · cases h
      simp
    · cases h

theorem length_of_skipEscape {cs rest : List Char} (h : skipEscape cs = .ok rest) :
    rest.length ≤ cs.length := by
  unfold skipEscape at h
  split at h
  · cases h
  · split at h
    · cases h
    · rename_i hr
      have := length_of_readHex hr
      cases h
      simp only [List.length_cons]
      omega
  · split at h
    · cases h
      simp
    · cases h

/-- The characters of a literal, from behind its opening quote, and what follows. -/
def read : List Char → Reading (List Char)
  | [] => stopAt .unfinishedString []
  | c :: cs =>
    if c = '"' then .ok ([], cs)
    else if c = '\\' then
      match _h : readEscape cs with
      | .error stop => .error stop
      | .ok (d, rest) => (read rest).map fun (ds, rest) => (d :: ds, rest)
    else if c.toNat < 32 then stopBehind .controlCharacter (c :: cs)
    else (read cs).map fun (ds, rest) => (c :: ds, rest)
termination_by cs => cs.length
decreasing_by
  · have := length_of_readEscape _h
    simp only [List.length_cons]
    omega
  · simp

/-- What follows a literal, from behind its opening quote. -/
def skip : List Char → Except Stop (List Char)
  | [] => stopAt .unfinishedString []
  | c :: cs =>
    if c = '"' then .ok cs
    else if c = '\\' then
      match _h : skipEscape cs with
      | .error stop => .error stop
      | .ok rest => skip rest
    else if c.toNat < 32 then stopAt .controlCharacter (c :: cs)
    else skip cs
termination_by cs => cs.length
decreasing_by
  · have := length_of_skipEscape _h
    simp only [List.length_cons]
    omega
  · simp

end Quoted

end Json

end QueueDrain
