import QueueDrain.Url.Host

/-!
# Paths of URLs

The path of a URL is a list of segments. Segments that are one or two dots, written out or escaped,
are resolved while the path is read.

## Main definitions

* `Url.Path.isSingleDot`, `Url.Path.isDoubleDot` — the segments with a meaning
* `Url.Path.resolve` — a list of segments without them
* `Url.Path.text` — the path behind its first slash
-/

namespace QueueDrain

namespace Url

/-- A segment of a path, escapes included. -/
abbrev Segment := List Char

namespace Path

/-- The segments that mean the directory itself. -/
def isSingleDot (s : Segment) : Bool :=
  ["." , "%2e", "%2E"].any (·.toList == s)

/-- The segments that mean the directory above. -/
def isDoubleDot (s : Segment) : Bool :=
  ["..", "%2e%2e", "%2e%2E", "%2E%2e", "%2E%2E", "%2e.", "%2E.", ".%2e", ".%2E"].any (·.toList == s)

/-- Whether a segment is a letter with a colon or a bar, the name of a drive, which stays. -/
def isDriveLetter : Segment → Bool
  | [letter, mark] =>
    (('a' ≤ letter && letter ≤ 'z') || ('A' ≤ letter && letter ≤ 'Z'))
      && (mark == ':' || mark == '|')
  | _ => false

/-- The segments, last one first, of the directory above. -/
def shorten : List Segment → List Segment
  | [] => []
  | s :: rest => if isDriveLetter s then s :: rest else rest

/-- The segments of a path, last one first, behind those of `done`. A path that ends in a directory
ends in an empty segment. -/
def resolveOnto (done : List Segment) : List Segment → List Segment
  | [] => done
  | [s] =>
    if isDoubleDot s then [] :: shorten done
    else if isSingleDot s then [] :: done
    else s :: done
  | s :: rest =>
    if isDoubleDot s then resolveOnto (shorten done) rest
    else if isSingleDot s then resolveOnto done rest
    else resolveOnto (s :: done) rest

/-- The segments of a path with dots resolved. -/
def resolve (segments : List Segment) : List Segment := (resolveOnto [] segments).reverse

/-- The text of a path behind its first slash. -/
def text (segments : List Segment) : List Char := List.intercalate ['/'] segments

end Path

end Url

end QueueDrain
