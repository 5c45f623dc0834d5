import QueueDrain.Json.Skip

/-!
# Records in JSON texts

A record is written as an object with its fields in any order, or as an array of its fields in their
own order. What is wrong with a record as a whole, such as a field that is missing, is reported with
the place behind its closing bracket.

## Main definitions

* `Json.Field`, `Json.Record` — what a record consists of
* `Json.Record.read` — the record at the beginning of a text
* `Json.readNatural` — a bounded natural number at the beginning of a text
* `Json.readAll` — a text that is one value
-/

namespace QueueDrain

namespace Json

/-! ### Single values -/

/-- The stop at a value of the wrong type: what is there is read, and the place is behind it, or
before it if it is an array or an object. -/
def wrongType (expected : String) (cs : List Char) : Stop :=
  let found (f : Found) (rest : List Char) : Stop := { issue := .wrongType f expected, rest }
  let behind (f : Found) : Except Stop (List Char) → Stop
    | .ok rest => found f rest
    | .error stop => stop
  match cs with
  | [] => { issue := .noValue, rest := [], octets := 1 }
  | c :: rest =>
    if c = 'n' then behind .null (skipWord "ull".toList rest)
    else if c = 't' then behind (.boolean true) (skipWord "rue".toList rest)
    else if c = 'f' then behind (.boolean false) (skipWord "alse".toList rest)
    else if c = '-' || Number.isDigit c then
      match Number.read cs with
      | .ok (n, rest) => found n.found rest
      | .error stop => stop
    else if c = '"' then
      match Quoted.read rest with
      | .ok (text, rest) => found (.string (String.ofList text)) rest
      | .error stop => stop
    else if c = '[' then found .array cs
    else if c = '\x7b' then found .object cs
    else { issue := .noValue, rest := cs, octets := 1 }

/-- A natural number up to `limit`. -/
def readNatural (expected : String) (limit : Nat) (cs : List Char) : Reading Nat :=
  match skipBlanks cs with
  | [] => stopAt .unfinishedValue []
  | c :: rest =>
    if c = '-' || Number.isDigit c then
      match Number.read (c :: rest) with
      | .error stop => .error stop
      | .ok (.natural n, rest) =>
        if n ≤ limit then .ok (n, rest) else stopAt (.wrongValue n expected) rest
      | .ok (.negative n, rest) => stopAt (.wrongValue (-(n : Int)) expected) rest
      | .ok (n, rest) => stopAt (.wrongType n.found expected) rest
    else .error (wrongType expected (c :: rest))

/-! ### Records -/

/-- A field of a record. The fields that are known so far are kept in a value of type `σ`. -/
structure Field (σ : Type) where
  name : String
  /-- Whether the field is known. -/
  isKnown : σ → Bool
  /-- Reading the field. -/
  read : σ → List Char → Reading σ

/-- What a record consists of. -/
structure Record (σ α : Type) where
  fields : List (Field σ)
  /-- No field is known. -/
  nothing : σ
  /-- The record of its fields. -/
  complete : σ → Except Issue α
  /-- How messages name the record. -/
  expected : String
  /-- How messages name an array of the right length. -/
  expectedArray : String
  /-- Whether other fields are passed over. -/
  isOpen : Bool

variable {σ α : Type}

/-- The field of a name. -/
def Record.field? (r : Record σ α) (name : String) : Option (Field σ) :=
  r.fields.find? (·.name == name)

/-- The next key of an object, from behind its bracket or behind a member, and what follows; or
nothing, if the closing bracket comes next. -/
def readKey (isFirst : Bool) (cs : List Char) : Reading (Option String) :=
  let key (cs : List Char) : Reading (Option String) :=
    match cs with
    | [] => stopAt .unfinishedValue []
    | c :: rest =>
      if c = '"' then (Quoted.read rest).map fun (name, rest) => (some (String.ofList name), rest)
      else if c = '\x7d' && !isFirst then stopBehind .trailingComma (c :: rest)
      else stopBehind .keyNotString (c :: rest)
  match skipBlanks cs with
  | [] => stopAt .unfinishedObject []
  | c :: rest =>
    if c = '\x7d' then .ok (none, c :: rest)
    else if isFirst then key (c :: rest)
    else if c = ',' then key (skipBlanks rest)
    else stopBehind .noCommaInObject (c :: rest)

/-- The member behind a key. -/
def Record.readMember (r : Record σ α) (known : σ) (name : String) (cs : List Char) : Reading σ :=
  match r.field? name with
  | some field =>
    if field.isKnown known then stopPending (.duplicateField name) cs
    else (skipColon cs).bind (field.read known)
  | none =>
    if r.isOpen then ((skipColon cs).bind skipValue).map (known, ·)
    else stopPending (.unknownField name (r.fields.map (·.name))) cs

/-- The members of an object up to its closing bracket. Every member takes a character at least, so
their number is bounded by that of the characters. -/
def Record.readMembers (r : Record σ α) : Nat → Bool → σ → List Char → Reading σ
  | 0, _, _, cs => stopAt .unfinishedObject cs
  | limit + 1, isFirst, known, cs =>
    match readKey isFirst cs with
    | .error stop => .error stop
    | .ok (none, rest) => .ok (known, rest)
    | .ok (some name, rest) =>
      match r.readMember known name rest with
      | .error stop => .error stop
      | .ok (known, rest) => r.readMembers limit false known rest

/-- Whether an array has another element, and the text from there on. -/
def readElement (isFirst : Bool) (cs : List Char) : Reading Bool :=
  match skipBlanks cs with
  | [] => stopAt .unfinishedArray []
  | c :: rest =>
    if c = ']' then .ok (false, c :: rest)
    else if isFirst then .ok (true, c :: rest)
    else if c = ',' then
      match skipBlanks rest with
      | [] => stopAt .unfinishedValue []
      | d :: rest =>
        if d = ']' then stopBehind .trailingComma (d :: rest) else .ok (true, d :: rest)
    else stopBehind .noCommaInArray (c :: rest)

/-- The elements of an array, one for each field. -/
def Record.readElements (r : Record σ α) : List (Field σ) → Nat → σ → List Char → Reading σ
  | [], _, known, cs => .ok (known, cs)
  | field :: fields, index, known, cs =>
    match readElement (index == 0) cs with
    | .error stop => .error stop
    | .ok (false, rest) => stopPending (.wrongLength index r.expectedArray) rest
    | .ok (true, rest) =>
      match field.read known rest with
      | .error stop => .error stop
      | .ok (known, rest) => r.readElements fields (index + 1) known rest

/-- The record of its fields, with the issues of the record as a whole. -/
def Record.finish (r : Record σ α) (known : σ) (cs : List Char) : Reading α :=
  match r.fields.find? (fun f => !f.isKnown known) with
  | some field => stopPending (.missingField field.name) cs
  | none =>
    match r.complete known with
    | .ok a => .ok (a, cs)
    | .error issue => stopPending issue cs

/-- What follows the end of an object. -/
def closeObject (cs : List Char) : Except Stop (List Char) :=
  match skipBlanks cs with
  | [] => stopAt .unfinishedObject []
  | c :: rest =>
    if c = '\x7d' then .ok rest
    else stopBehind (if c = ',' then .trailingComma else .trailingText) (c :: rest)

/-- What follows the end of an array. -/
def closeArray (cs : List Char) : Except Stop (List Char) :=
  match skipBlanks cs with
  | [] => stopAt .unfinishedArray []
  | c :: rest =>
    if c = ']' then .ok rest
    else if c = ',' then
      let rest := skipBlanks rest
      stopBehind (if rest.head? = some ']' then .trailingComma else .trailingText) rest
    else stopBehind .trailingText (c :: rest)

/-- A record whose bracket is about to close. An issue of the record as a whole is placed where the
attempt to close the bracket ends. -/
def close (closing : List Char → Except Stop (List Char)) (r : Reading α) : Reading α :=
  match r with
  | .ok (a, cs) => (closing cs).map (a, ·)
  | .error stop =>
    if stop.pending then
      match closing stop.rest with
      | .ok rest => stopAt stop.issue rest
      | .error failed => stopAt stop.issue failed.rest
    else .error stop

/-- The record at the beginning of a text. -/
def Record.read (r : Record σ α) (cs : List Char) : Reading α :=
  match skipBlanks cs with
  | [] => stopAt .unfinishedValue []
  | c :: rest =>
    if c = '\x7b' then
      close closeObject
        ((r.readMembers (rest.length + 1) true r.nothing rest).bind fun (known, rest) =>
          r.finish known rest)
    else if c = '[' then
      close closeArray
        ((r.readElements r.fields 0 r.nothing rest).bind fun (known, rest) => r.finish known rest)
    else .error (wrongType r.expected (c :: rest))

/-! ### Whole texts -/

/-- A text that is one value, with blanks around it. -/
def readAll (read : List Char → Reading α) (text : String) : Except Fault α :=
  let cs := text.toList
  match read cs with
  | .error stop => .error (stop.fault cs)
  | .ok (a, rest) =>
    match skipBlanks rest with
    | [] => .ok a
    | rest => .error (Stop.fault cs { issue := .trailingText, rest, octets := 1 })

end Json

end QueueDrain
