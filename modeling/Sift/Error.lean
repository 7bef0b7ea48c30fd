import Sift.Filter.Checking
import Sift.Json.Reader
import Sift.Query.Reader
import Sift.Response

/-!
# Errors

Everything that can go wrong around filtering; filtering itself never fails.

* `Error`: the causes;
* `Error.message`, `Error.chain`: an error in one line, alone or with the cause
  below it.
-/

namespace Sift

/-- What can go wrong. -/
inductive Error where
  | record (fault : Record.Fault)
  | page (id : String) (cause : Response.Cause)
  | filter (fault : Filter.Fault)
  | schema (fault : Schema.Fault)
  | query (fault : Query.ParseError)
  | json (fault : Json.ReadError)
  | shape (fault : Json.ShapeError)
  | yaml
  | file (reason : String)

namespace Error

/-- The error of a response that holds no records. -/
def ofResponse : Response.Fault → Error
  | .shape fault => shape fault
  | .page id cause => page id cause

/-- The wording of an error. -/
def message : Error → String
  | record fault => fault.message
  | page id cause => "page " ++ id ++ ": " ++ cause.message
  | filter fault => fault.message
  | schema fault => fault.message
  | query fault => fault.message
  | json fault => "invalid JSON: " ++ fault.message
  | shape fault => "invalid JSON: " ++ fault.message
  | yaml => "invalid YAML"
  | file reason => "I/O error: " ++ reason

/-- The wording of an error and of the cause below it, if it has one. -/
def chain (e : Error) : String :=
  match e with
  | json fault => e.message ++ ": " ++ fault.message
  | shape fault => e.message ++ ": " ++ fault.message
  | file reason => e.message ++ ": " ++ reason
  | _ => e.message

end Error

end Sift
