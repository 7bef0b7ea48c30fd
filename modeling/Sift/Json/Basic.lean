import Sift.Double.Decimal

/-!
# JSON values

The values that documents, records and filters are stored as.

* `Json`: the values; an object is a list of entries, in the order they are
  written;
* `Json.put`: an entry put into entries sorted by key, in the place of one with
  the same key: the way objects are read.
-/

namespace Sift

/-- A number: an integer, or a number that was not written as one. -/
inductive Json.Number where
  | integer (value : Int)
  | double (value : Double)
deriving DecidableEq

/-- A JSON value. -/
inductive Json where
  | null
  | boolean (value : Bool)
  | number (value : Json.Number)
  | text (value : String)
  | list (items : List Json)
  | object (entries : List (String × Json))

namespace Json

/-- The double nearest to a number. -/
def Number.toDouble : Number → Double
  | .integer i => .ofInt i
  | .double d => d

/-- The value under a key. -/
def get? (entries : List (String × Json)) (key : String) : Option Json :=
  (entries.find? fun entry => entry.1 == key).map Prod.snd

/-- Puts an entry into entries sorted by key; one with the same key goes. -/
def put (key : String) (value : Json) : List (String × Json) → List (String × Json)
  | [] => [(key, value)]
  | (k, v) :: rest =>
    if key < k then (key, value) :: (k, v) :: rest
    else if key = k then (key, value) :: rest
    else (k, v) :: put key value rest

/-- The object with these entries, sorted by key; of several with one key the
    last one counts. -/
def ofEntries (entries : List (String × Json)) : Json :=
  .object (entries.foldl (fun sorted entry => put entry.1 entry.2 sorted) [])

end Json

end Sift
