/-!
# Paths

The parts of a path that decide how its file is read.

* `Path.parts`: the steps of a path;
* `Path.isYaml`: whether a file is named as a YAML document;
* `Path.isStandardInput`: whether a path stands for standard input.
-/

namespace Sift.Command.Path

/-- The pieces of a text between slashes. -/
def pieces : List Char → List (List Char)
  | [] => [[]]
  | c :: s =>
    if c = '/' then [] :: pieces s
    else match pieces s with
      | [] => [[c]]
      | p :: ps => (c :: p) :: ps

/-- The steps of a path. Empty steps do not count, nor does a dot, unless the
    path begins with it. -/
def parts (path : String) : List (List Char) :=
  match pieces path.toList with
  | [] => []
  | first :: others =>
    let others := others.filter fun p => p != [] && p != ['.']
    if first = [] then others else first :: others

/-- The name of the file at the end of a path. -/
def fileName? (path : String) : Option (List Char) :=
  (parts path).getLast?.filter fun p => p != ['.', '.'] && p != ['.']

/-- What follows the last dot of a name that does not begin with it. -/
def extension? (name : List Char) : Option (List Char) :=
  let after := (name.reverse.takeWhile (· != '.')).reverse
  let before := name.length - after.length
  if before ≤ 1 then none else some after

/-- Whether a file is named as a YAML document. -/
def isYaml (path : String) : Bool :=
  match (fileName? path).bind extension? with
  | some e => e == "yaml".toList || e == "yml".toList
  | none => false

/-- Whether a path stands for standard input. -/
def isStandardInput (path : String) : Bool :=
  path.toList.head? == some '-' && parts path == [['-']]

end Sift.Command.Path
