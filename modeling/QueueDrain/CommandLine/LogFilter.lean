import QueueDrain.Notice

/-!
# Log filters

Which lines of the log are shown. A filter is a list of directives with commas between them: a level
for everything, a target whose lines are all shown, or a target with a level. Of the directives
whose target a line's target begins with, the longest decides. Behind a slash a filter may have a
text that lines have to contain.

## Main definitions

* `LogFilter`, `LogFilter.parse` — a filter as it is written
* `LogFilter.shows` — whether a line passes
-/

namespace QueueDrain

/-- A directive of a filter. -/
structure LogFilter.Directive where
  /-- The beginning of the targets that it is for, or `none` for all. -/
  target : Option String
  /-- The greatest rank that is shown; zero shows nothing. -/
  limit : Nat
deriving DecidableEq, Repr

/-- Which lines of the log are shown. -/
structure LogFilter where
  directives : List LogFilter.Directive
  /-- A text that lines have to contain. -/
  text : Option String := none
deriving DecidableEq, Repr

namespace LogFilter

/-- The names of levels, by rank from nothing on. -/
def levelNames : List String := ["off", "error", "warn", "info", "debug", "trace"]

/-- The rank of a level's name in any case. -/
def readLevel? (name : List Char) : Option Nat :=
  levelNames.findIdx? fun n => n.toList == name.map Char.toLower

/-- The rank up to which a target without a level is shown. -/
def allLevels : Nat := 5

/-- A text without blanks around it. -/
def trim (cs : List Char) : List Char :=
  ((cs.dropWhile Char.isWhitespace).reverse.dropWhile Char.isWhitespace).reverse

/-- A directive; one that is malformed counts as none. -/
def readDirective? (cs : List Char) : Option Directive :=
  let cs := trim cs
  let target := cs.takeWhile (· != '=')
  match cs.dropWhile (· != '=') with
  | [] =>
    if cs.isEmpty then none
    else
      match readLevel? cs with
      | some limit => some { target := none, limit }
      | none => some { target := some (String.ofList cs), limit := allLevels }
  | _ :: level =>
    let level := trim level
    if level.isEmpty then some { target := some (String.ofList target), limit := allLevels }
    else (readLevel? level).map fun limit => { target := some (String.ofList target), limit }

/-- The directives of a text with commas between them. -/
def readDirectives (cs : List Char) : List Directive :=
  let rec pieces (current : List Char) : List Char → List (List Char)
    | [] => [current.reverse]
    | ',' :: rest => current.reverse :: pieces [] rest
    | c :: rest => pieces (c :: current) rest
  (pieces [] cs).filterMap readDirective?

/-- A filter as it is written. One with two slashes counts as empty, and an empty one shows
errors. -/
def parse (spec : String) : LogFilter :=
  let cs := spec.toList
  let behind := (cs.dropWhile (· != '/')).drop 1
  let directives :=
    if behind.contains '/' then [] else readDirectives (cs.takeWhile (· != '/'))
  { directives := if directives.isEmpty then [{ target := none, limit := 1 }] else directives
    text := if behind.isEmpty || behind.contains '/' then none else some (String.ofList behind) }

/-- The filter that a program has unless it is given another. -/
def default : LogFilter := parse "info"

/-- Whether a directive is for a target. -/
def Directive.isFor (d : Directive) (target : String) : Bool :=
  match d.target with
  | none => true
  | some t => t.toList.isPrefixOf target.toList

/-- How specific a directive is. -/
def Directive.length (d : Directive) : Nat := (d.target.map String.length).getD 0

/-- The directive that decides about a target: the most specific one, and of two the later. -/
def decisive? (f : LogFilter) (target : String) : Option Directive :=
  (f.directives.filter (·.isFor target)).foldl
    (fun best d =>
      match best with
      | some b => if b.length ≤ d.length then some d else some b
      | none => some d)
    none

/-- Whether a text occurs in another. -/
def occursIn (part : List Char) : List Char → Bool
  | [] => part.isEmpty
  | c :: cs => part.isPrefixOf (c :: cs) || occursIn part cs

/-- Whether a line passes. -/
def shows (f : LogFilter) (line : Notice) : Bool :=
  (match f.decisive? line.target with
    | some d => line.level.rank ≤ d.limit
    | none => false)
  && (match f.text with
    | some text => occursIn text.toList line.message.toList
    | none => true)

end LogFilter

/-- A line as the log has it, behind the bracket that opens it and the time. -/
def Notice.text (n : Notice) : String :=
  let level := n.level.text
  let blanks := List.replicate (6 - level.length) ' '
  level ++ String.ofList blanks ++ n.target ++ "] " ++ n.message

end QueueDrain
