import QueueDrain.Url.Host

/-!
# Queries of URLs

A query is a list of fields with ampersands between them; a field is a name with a value behind the
first equals sign.

## Main definitions

* `Url.Query.fields` — the fields of a query
* `Url.Query.first?` — the value of the first field of a name
-/

namespace QueueDrain

namespace Url

namespace Query

/-- A field cut at its first equals sign. A field without one has an empty value. -/
def field (cs : List Char) : String × String :=
  let name := cs.takeWhile (· != '=')
  let value := (cs.dropWhile (· != '=')).drop 1
  (String.ofList (Percent.formDecode name), String.ofList (Percent.formDecode value))

/-- The fields of a query, in order. Nothing between two ampersands is no field. -/
def fields (query : List Char) : List (String × String) :=
  ((splitOn '&' query).filter (fun cs => !cs.isEmpty)).map field

/-- The value of the first field of a name. -/
def first? (name : String) (fields : List (String × String)) : Option String := fields.lookup name

end Query

end Url

end QueueDrain
