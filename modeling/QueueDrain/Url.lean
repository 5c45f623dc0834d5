import QueueDrain.Url.Path
import QueueDrain.Url.Query

/-!
# URLs

Absolute URLs as the URL standard reads them: surrounding blanks and control characters do not
count, nor do tabs and line breaks anywhere; the scheme is lower-cased; user and password end at the
last at sign of the authority. Components are kept as they are written, escapes included.

## Main definitions

* `Url` — the components of a URL
* `Url.parse` — a text as a URL
-/

namespace QueueDrain

/-- The components of a URL. -/
structure Url where
  scheme : String
  /-- The user name, empty if there is none. -/
  username : List Char := []
  password : Option (List Char) := none
  host : Option Url.Host := none
  /-- The port, if it is given and not the one that the scheme has anyway. -/
  port : Option Nat := none
  /-- Whether the path has no hierarchy because no slash begins it. -/
  hasOpaquePath : Bool := false
  /-- The segments of the path; an empty path has none. -/
  segments : List Url.Segment := []
  /-- The text between the question mark and the fragment. -/
  query : Option (List Char) := none

namespace Url

/-! ### The text around -/

/-- Whether a character is a blank or a control character of ASCII's first block. -/
def isControlOrSpace (c : Char) : Bool := c ≤ ' '

/-- Whether a character is left out wherever it stands. -/
def isIgnored (c : Char) : Bool := c == '\t' || c == '\n' || c.toNat == 13

/-- The characters of a text that count. -/
def significant (raw : String) : List Char :=
  let trimmed := (raw.toList.dropWhile isControlOrSpace).reverse.dropWhile isControlOrSpace
  trimmed.reverse.filter (fun c => !isIgnored c)

/-! ### Schemes -/

def isAsciiAlpha (c : Char) : Bool := ('a' ≤ c && c ≤ 'z') || ('A' ≤ c && c ≤ 'Z')

def isSchemeChar (c : Char) : Bool :=
  isAsciiAlpha c || ('0' ≤ c && c ≤ '9') || c == '+' || c == '-' || c == '.'

/-- The scheme in lower case and what follows its colon. -/
def scheme? (cs : List Char) : Option (String × List Char) :=
  match cs with
  | c :: _ =>
    if isAsciiAlpha c then
      match cs.dropWhile isSchemeChar with
      | ':' :: rest => some (String.ofList ((cs.takeWhile isSchemeChar).map Host.lowerAscii), rest)
      | _ => none
    else none
  | [] => none

/-- The schemes that the standard reads in a way of their own. -/
inductive Kind where
  | file
  /-- A scheme like `http`, with the port it has unless another is given. -/
  | special (port : Nat)
  | ordinary
deriving DecidableEq, Repr

def Kind.ofScheme : String → Kind
  | "file" => .file
  | "http" | "ws" => .special 80
  | "https" | "wss" => .special 443
  | "ftp" => .special 21
  | _ => .ordinary

/-- Whether a backslash is read as a slash. -/
def Kind.isSpecial : Kind → Bool
  | .ordinary => false
  | _ => true

/-- Whether a character ends the authority. -/
def Kind.endsAuthority (k : Kind) (c : Char) : Bool :=
  c == '/' || c == '?' || c == '#' || (k.isSpecial && c == '\\')

/-- Whether a character is read as a slash. -/
def Kind.isSlash (k : Kind) (c : Char) : Bool := c == '/' || (k.isSpecial && c == '\\')

/-! ### The authority -/

/-- What stands before the last at sign, and what stands behind it. -/
def splitAtLast? (sep : Char) (cs : List Char) : Option (List Char × List Char) :=
  let reversed := cs.reverse
  match reversed.dropWhile (· != sep) with
  | [] => none
  | _ :: before => some (before.reverse, (reversed.takeWhile (· != sep)).reverse)

/-- User name and password: the password stands behind the first colon, and an empty one counts as
none. -/
def credentials (userinfo : List Char) : List Char × Option (List Char) :=
  let username := userinfo.takeWhile (· != ':')
  match (userinfo.dropWhile (· != ':')).drop 1 with
  | [] => (username, none)
  | password => (username, some password)

/-- The text of a host, up to a colon outside of brackets, and what follows. -/
def spanHost (k : Kind) (bracketed : Bool) : List Char → List Char × List Char
  | [] => ([], [])
  | c :: cs =>
    if (c == ':' && !bracketed) || k.endsAuthority c then ([], c :: cs)
    else
      let bracketed := c == '[' || (c != ']' && bracketed)
      let (host, rest) := spanHost k bracketed cs
      (c :: host, rest)

/-- The host of a URL with an authority. -/
def Kind.parseHost (k : Kind) (cs : List Char) : Except Fault Host :=
  match k with
  | .ordinary => Host.parseOpaque cs
  | .special _ => if cs.isEmpty then .error .emptyHost else Host.parseSpecial cs
  | .file => Host.parseSpecial cs

/-- A port up to the end of the authority, and what follows. No digits are no port. -/
def spanPort (k : Kind) : Option Nat → List Char → Except Fault (Option Nat × List Char)
  | port, [] => .ok (port, [])
  | port, c :: cs =>
    match Decimal.digitValue? c with
    | some d =>
      let n := port.getD 0 * 10 + d
      if 65535 < n then .error .invalidPort else spanPort k (some n) cs
    | none =>
      if c == '/' || c == '\\' || c == '?' || c == '#' then .ok (port, c :: cs)
      else .error .invalidPort

/-- The port behind a host. The port that the scheme has anyway counts as none. -/
def parsePort (k : Kind) (cs : List Char) : Except Fault (Option Nat × List Char) :=
  match cs with
  | ':' :: rest => do
    let (port, rest) ← spanPort k none rest
    let own := match k with
      | .special own => some own
      | _ => none
    return (if port = own then none else port, rest)
  | _ => .ok (none, cs)

/-! ### Path and query -/

/-- The text cut at every slash, and at every backslash that is read as one. -/
def Kind.splitSlashes (k : Kind) (cs : List Char) : List Segment :=
  splitOn '/' (cs.map fun c => if k.isSlash c then '/' else c)

/-- The segments of the path that a text behind the authority has. -/
def Kind.segments (k : Kind) (cs : List Char) : List Segment :=
  match cs with
  | [] => if k.isSpecial then [[]] else []
  | c :: rest => Path.resolve (k.splitSlashes (if k.isSlash c then rest else c :: rest))

/-- The text of a path and the query behind it; the fragment is dropped. -/
def splitQuery (cs : List Char) : List Char × Option (List Char) :=
  let beforeFragment := cs.takeWhile (· != '#')
  match beforeFragment.dropWhile (· != '?') with
  | [] => (beforeFragment, none)
  | _ :: query => (beforeFragment.takeWhile (· != '?'), some query)

/-! ### The whole -/

/-- A URL with an authority, from the authority on. -/
def parseAuthority (scheme : String) (k : Kind) (cs : List Char) : Except Fault Url := do
  let authority := cs.takeWhile (fun c => !k.endsAuthority c)
  let behind := cs.dropWhile (fun c => !k.endsAuthority c)
  let (userinfo, hostAndPort) ←
    match splitAtLast? '@' authority with
    | none => pure ([], authority)
    | some ([], rest) =>
      if rest.isEmpty && !behind.isEmpty then throw .emptyHost else pure ([], rest)
    | some found => pure found
  let (username, password) := credentials userinfo
  let (hostText, rest) := spanHost k false (hostAndPort ++ behind)
  let host ← k.parseHost hostText
  if hostText.isEmpty && (rest.head? = some ':' || k.isSpecial) then throw .emptyHost
  let (port, rest) ← parsePort k rest
  if hostText.isEmpty && (!username.isEmpty || password.isSome) then throw .emptyHost
  let (path, query) := splitQuery rest
  return { scheme, username, password, port, query
           host := if hostText.isEmpty then none else some host
           segments := k.segments path }

/-- A URL of files, whose host may be empty. -/
def parseFile (scheme : String) (cs : List Char) : Except Fault Url := do
  let k := Kind.file
  match cs with
  | a :: b :: rest =>
    if k.isSlash a && k.isSlash b then
      let hostText := rest.takeWhile (fun c => !k.endsAuthority c)
      let behind := rest.dropWhile (fun c => !k.endsAuthority c)
      if hostText.isEmpty || Path.isDriveLetter hostText then
        let (path, query) := splitQuery rest
        return { scheme, query, segments := k.segments path }
      else
        let host ← k.parseHost hostText
        let (path, query) := splitQuery behind
        return { scheme, query, host := some host, segments := k.segments path }
    else
      let (path, query) := splitQuery cs
      return { scheme, query, segments := k.segments path }
  | _ =>
    let (path, query) := splitQuery cs
    return { scheme, query, segments := k.segments path }

/-- A text as a URL. -/
def parse (raw : String) : Except Fault Url :=
  match scheme? (significant raw) with
  | none => .error .relativeWithoutBase
  | some (scheme, rest) =>
    match Kind.ofScheme scheme with
    | .file => parseFile scheme rest
    | .special port =>
      parseAuthority scheme (.special port) (rest.dropWhile (fun c => c == '/' || c == '\\'))
    | .ordinary =>
      match rest with
      | '/' :: '/' :: rest => parseAuthority scheme .ordinary rest
      | '/' :: rest =>
        let (path, query) := splitQuery rest
        .ok { scheme, query, segments := Path.resolve (splitOn '/' path) }
      | rest => .ok { scheme, query := (splitQuery rest).2, hasOpaquePath := true }

end Url

end QueueDrain
