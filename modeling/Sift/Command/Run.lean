import Sift.Command.Arguments
import Sift.Command.Path
import Sift.Json.Writer
import Sift.Tally

/-!
# Running a command line

The command line tool as a function: from the arguments, the environment, the
files and standard input to an exit code and the two output texts.

* `Command.Sources`: what a run can read, and `Command.Sources.ofRead`: what was read
  beforehand;
* `Command.run`: the outcome of a command line.

A run goes through stages, and the first one that fails ends it: the schema,
the records, the filter, and its check against the schema. Lists of comparators
and values need only the first ones.
-/

namespace Sift.Command

/-- What a run can read. -/
structure Sources where
  /-- The text of a file, or why it cannot be read. -/
  file : String → Except String String
  /-- The text of standard input, or why it cannot be read. -/
  standardInput : Except String String
  environment : String → Option String

/-- Some variables, some files and standard input, as they were read beforehand. -/
def Sources.ofRead (found : List (String × String))
    (files : List (String × Except String String)) (input : Except String String) : Sources where
  file path := (files.lookup path).getD (.error "not read")
  standardInput := input
  environment name := found.lookup name

/-- What a run leaves. -/
structure Outcome where
  exit : UInt8
  output : String
  errors : String
deriving DecidableEq

/-- A run that succeeds. -/
def Outcome.success (lines : List String) : Outcome :=
  ⟨0, String.join (lines.map (· ++ "\n")), ""⟩

/-- A run that finds nothing. -/
def Outcome.nothing (lines : List String) : Outcome :=
  ⟨1, String.join (lines.map (· ++ "\n")), ""⟩

/-- A run that fails. -/
def Outcome.failure (line : String) : Outcome := ⟨2, "", line ++ "\n"⟩

/-- Reads a document: standard input, or a file in the language of its name.
    Standard input has nothing more to give once it is exhausted. -/
def readDocument (sources : Sources) (exhausted : Bool) (path : String) : Except Error Json :=
  let fromInput := Path.isStandardInput path
  let language := if Path.isYaml path then .yaml else .json
  let text := if !fromInput then sources.file path
    else if exhausted then .ok "" else sources.standardInput
  match text with
  | .error reason => .error (.file reason)
  | .ok text => Document.parse language text

/-- An error about a file, in one line. -/
def about (doing path : String) (e : Error) : String := doing ++ ": " ++ path ++ ": " ++ e.chain

/-- Whether one of the paths of earlier stages is standard input. -/
def exhausted (a : Arguments) (earlier : List Setting) : Bool :=
  earlier.any fun s => (a.get? s).any Path.isStandardInput

/-- The stage of the schema. -/
def schemaStage (sources : Sources) (a : Arguments) : Except String (Option Schema) :=
  match a.get? .schema with
  | none => .ok none
  | some path =>
    match (readDocument sources false path).bind Document.schema with
    | .ok schema => .ok (some schema)
    | .error e => .error ("Error: " ++ about "Failed to load schema" path e)

/-- The stage of the records. -/
def recordsStage (sources : Sources) (a : Arguments) (schema : Option Schema) :
    Except String (List Record × Schema) :=
  match a.get? .records with
  | none => .error "Error: No records specified. Use --records or set ROWQ_RECORDS"
  | some path =>
    match readDocument sources (exhausted a [.schema]) path with
    | .error e => .error ("Error: " ++ about "Failed to read records" path e)
    | .ok j =>
      match Document.records a.layout schema j with
      | .error e => .error ("Error: " ++ about "Failed to decode records" path e)
      | .ok loaded => .ok loaded

/-- The stage of the filter. -/
def filterStage (sources : Sources) (a : Arguments) : Except String Filter :=
  match a.get? .filter, a.query with
  | some path, _ =>
    match (readDocument sources (exhausted a [.schema, .records]) path).bind Document.filter with
    | .ok f => .ok f
    | .error e => .error ("Filter error: " ++ about "Failed to load filter" path e)
  | none, some query =>
    match Document.query query with
    | .ok f => .ok f
    | .error e => .error ("Filter error: " ++ e.chain)
  | none, none => .ok .none

/-- The stage of the check. -/
def checkStage (a : Arguments) (schema : Schema) (f : Filter) : Except String Filter :=
  if a.has .lenient then .ok f
  else match Document.checked schema f with
    | .ok f => .ok f
    | .error e => .error ("Filter error: " ++ e.message)

/-- The comparators for a property. -/
def listComparators (schema : Schema) (property : String) : Outcome :=
  let title := match schema.get? property with
    | some t => "# " ++ property ++ " (" ++ t.name ++ ")"
    | none => "# " ++ property ++ " (undeclared, treated as text)"
  .success (title :: (schema.comparatorsFor property).map fun c => c.name ++ "\t" ++ c.label)

/-- The values of a property. -/
def listValues (rs : List Record) (property : String) (counted : Bool) : Outcome :=
  let counts := tally rs property
  if counts.isEmpty then .nothing []
  else .success (if counted then listedWithCounts counts else listed counts)

/-- The records that a filter keeps. -/
def listRecords (rs : List Record) (output : Output) : Outcome :=
  let lines := match output with
    | .json => [String.ofList (Record.listToJson rs).laidOut]
    | .ids => rs.map Record.id
  if rs.isEmpty then .nothing lines else .success lines

/-- The outcome of a request, or the line about the first stage that fails. -/
def perform (sources : Sources) (a : Arguments) : Except String Outcome := do
  let schema ← schemaStage sources a
  match a.get? .comparators, a.get? .records with
  | some property, none => return listComparators (schema.getD .stock) property
  | comparators, _ =>
    let (rs, schema) ← recordsStage sources a schema
    match comparators, a.get? .values with
    | some property, _ => return listComparators schema property
    | none, some property => return listValues rs property (a.has .count)
    | none, none =>
      let f ← checkStage a schema (← filterStage sources a)
      return listRecords (f.select a.dateEquality rs) a.output

/-- How the tool is called. -/
def usage : String :=
  "Filter database rows with nested boolean filter expressions\n\n" ++
  "Usage: rowq [OPTIONS] [QUERY]\n\n" ++
  "Options:\n" ++
  "      --records <RECORDS>\n" ++
  "      --input <records|notion>\n" ++
  "      --schema <SCHEMA>\n" ++
  "      --filter <FILTER>\n" ++
  "      --output <json|ids>\n" ++
  "      --values <VALUES>\n" ++
  "      --count\n" ++
  "      --comparators <COMPARATORS>\n" ++
  "      --lenient\n" ++
  "      --date-equality <identity|instant>\n" ++
  "  -h, --help\n" ++
  "  -V, --version\n"

/-- The outcome of a command line. -/
def run (sources : Sources) (arguments : List String) : Outcome :=
  match Arguments.parse sources.environment arguments with
  | .help => ⟨0, usage, ""⟩
  | .version => .success ["rowq 0.1.0"]
  | .refused => .failure "error: invalid command line"
  | .run a =>
    match perform sources a with
    | .ok outcome => outcome
    | .error line => .failure line

end Sift.Command
