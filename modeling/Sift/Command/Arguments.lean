import Sift.Document
import Sift.Filter.Selection

/-!
# Command lines

What a command line asks for. Arguments are taken from left to right; the first
one that is wrong, or that asks for help or for the version, decides.

* `Arguments`: a request;
* `Arguments.parse`: a command line as a request, with variables of the
  environment for what it leaves open;
* `Arguments.namedPaths`: the documents that a command line names.
-/

namespace Sift.Command

/-- How the records that are kept are shown. -/
inductive Output where
  | json
  | ids
deriving DecidableEq

/-- The options with a value. -/
inductive Setting where
  | records
  | input
  | schema
  | filter
  | output
  | values
  | comparators
  | dateEquality
deriving DecidableEq

/-- The options without a value. -/
inductive Switch where
  | count
  | lenient
deriving DecidableEq

namespace Setting

/-- All options with a value. -/
def all : List Setting :=
  [records, input, schema, filter, output, values, comparators, dateEquality]

/-- The name of an option, without the dashes in front of it. -/
def name : Setting → String
  | records => "records"
  | input => "input"
  | schema => "schema"
  | filter => "filter"
  | output => "output"
  | values => "values"
  | comparators => "comparators"
  | dateEquality => "date-equality"

/-- The variable that stands in for an option. -/
def environmentName : Setting → Option String
  | records => some "ROWQ_RECORDS"
  | input => some "ROWQ_INPUT"
  | schema => some "ROWQ_SCHEMA"
  | filter => some "ROWQ_FILTER"
  | _ => none

/-- The variables that stand in for options. -/
def environmentNames : List String := all.filterMap environmentName

/-- Whether an option may have a value: paths are not empty, and choices are
    among the given ones. -/
def accepts (s : Setting) (value : String) : Bool :=
  match s with
  | records | schema | filter => value != ""
  | input => ["records", "notion"].contains value
  | output => ["json", "ids"].contains value
  | dateEquality => ["identity", "instant"].contains value
  | values | comparators => true

end Setting

namespace Switch

/-- The name of a switch, without the dashes in front of it. -/
def name : Switch → String
  | count => "count"
  | lenient => "lenient"

end Switch

/-- What a command line asks for. -/
structure Arguments where
  settings : List (Setting × String)
  switches : List Switch
  query : Option String
deriving DecidableEq

/-- What becomes of a command line. -/
inductive Request where
  | run (arguments : Arguments)
  | help
  | version
  | refused
deriving DecidableEq

namespace Arguments

/-- The request of an empty command line. -/
def none : Arguments := ⟨[], [], .none⟩

/-- The value of an option. -/
def get? (a : Arguments) (s : Setting) : Option String :=
  (a.settings.find? fun entry => entry.1 = s).map Prod.snd

/-- Whether a switch is on. -/
def has (a : Arguments) (s : Switch) : Bool := a.switches.contains s

/-- What the document with the records is. -/
def layout (a : Arguments) : Layout :=
  if a.get? .input = some "notion" then .response else .records

/-- How the records that are kept are shown. -/
def output (a : Arguments) : Output := if a.get? .output = some "ids" then .ids else .json

/-- How dates are compared. -/
def dateEquality (a : Arguments) : DateEquality :=
  if a.get? .dateEquality = some "instant" then .instant else .identity

/-- The request with one more option; an option may be given once, with a value
    that it accepts. -/
def set (s : Setting) (value : String) (a : Arguments) : Option Arguments :=
  if (a.get? s).isSome || !s.accepts value then .none
  else some { a with settings := a.settings ++ [(s, value)] }

/-- The request with one more switch. -/
def turnOn (s : Switch) (a : Arguments) : Option Arguments :=
  if a.has s then .none else some { a with switches := a.switches ++ [s] }

/-- The request with a query; there may be one. -/
def ask (query : String) (a : Arguments) : Option Arguments :=
  if a.query.isSome then .none else some { a with query := some query }

/-- The request with what the environment says about the options that are not
    given. -/
def withVariables (environment : String → Option String) :
    List Setting → Arguments → Option Arguments
  | [], a => some a
  | s :: more, a =>
    match a.get? s, s.environmentName.bind environment with
    | .none, some value => (a.set s value).bind (withVariables environment more)
    | _, _ => withVariables environment more a

/-- A finished command line: a query and a filter exclude each other. -/
def finish (environment : String → Option String) (a : Arguments) : Request :=
  match a.withVariables environment Setting.all with
  | .none => .refused
  | some a => if (a.get? .filter).isSome && a.query.isSome then .refused else .run a

/-- An argument of the command line. -/
inductive Piece where
  /-- The mark after which all arguments are queries. -/
  | endOfOptions
  | setting (s : Setting) (value : Option String)
  | switch (s : Switch)
  | help
  | version
  | plain (text : String)
  | wrong

/-- The option with a name, and the value that is attached to it. -/
def Piece.ofLong (text : List Char) : Piece :=
  let name := String.ofList (text.takeWhile (· != '='))
  let value := match text.dropWhile (· != '=') with
    | [] => .none
    | _ :: v => some (String.ofList v)
  match Setting.all.find? fun s => s.name == name with
  | some s => setting s value
  | .none =>
    if value.isSome then wrong
    else match [Switch.count, Switch.lenient].find? fun s => s.name == name with
      | some s => switch s
      | .none => if name = "help" then help else if name = "version" then version else wrong

/-- An argument by its first characters. -/
def Piece.ofText (text : String) : Piece :=
  match text.toList with
  | ['-', '-'] => endOfOptions
  | '-' :: '-' :: name => ofLong name
  | ['-'] => plain text
  | '-' :: 'h' :: _ => help
  | '-' :: 'V' :: _ => version
  | '-' :: _ => wrong
  | _ => plain text

/-- A command line in which an option still waits for its value (`pending`),
    or only queries may follow (`ended`). -/
def take (environment : String → Option String) (pending : Option Setting) (ended : Bool)
    (a : Arguments) : List String → Request
  | [] => if pending.isSome then .refused else a.finish environment
  | text :: more =>
    match pending with
    | some s =>
      match Piece.ofText text with
      | .plain _ =>
        match a.set s text with
        | some a => take environment .none ended a more
        | .none => .refused
      | _ => .refused
    | .none =>
      if ended then
        match a.ask text with
        | some a => take environment .none true a more
        | .none => .refused
      else match Piece.ofText text with
        | .endOfOptions => take environment .none true a more
        | .setting s .none => take environment (some s) ended a more
        | .setting s (some value) =>
          match a.set s value with
          | some a => take environment .none ended a more
          | .none => .refused
        | .switch s =>
          match a.turnOn s with
          | some a => take environment .none ended a more
          | .none => .refused
        | .help => .help
        | .version => .version
        | .plain text =>
          match a.ask text with
          | some a => take environment .none ended a more
          | .none => .refused
        | .wrong => .refused

/-- The request of a command line. -/
def parse (environment : String → Option String) (arguments : List String) : Request :=
  take environment .none false .none arguments

/-- The paths of the documents that a request needs. -/
def paths (a : Arguments) : List String := [Setting.schema, .records, .filter].filterMap a.get?

/-- The paths of the documents that a command line names. -/
def namedPaths (environment : String → Option String) (arguments : List String) : List String :=
  match parse environment arguments with
  | .run a => a.paths
  | .help | .version | .refused => []

end Arguments

end Sift.Command
