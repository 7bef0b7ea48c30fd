import Sift.Command.Run
import Sift.Text.Reader

/-!
# Disks

Folders and files as data, what reading a path gives on them, and so what a run
in one of the folders can read. A path is walked step by step, and the first step
that leads nowhere ends the walk.

* `Disk`: the folders and the files, each by its steps from the root;
* `Disk.read`: the text of the file that a path leads to, or why there is none;
* `Disk.sources`: the files of a disk for a run in one of its folders.
-/

namespace Sift.Command

/-- Folders and files, by their steps from the root. What has something in it
    is a folder, too. -/
structure Disk where
  folders : List (List (List Char))
  files : List (List (List Char) × String)

namespace Disk

/-- Why a path cannot be read. -/
inductive Reason where
  | missing
  | notFolder
  | folder
  | nameTooLong
deriving DecidableEq

/-- The wording of a reason. -/
def Reason.message : Reason → String
  | missing => "No such file or directory (os error 2)"
  | notFolder => "Not a directory (os error 20)"
  | folder => "Is a directory (os error 21)"
  | nameTooLong => "File name too long (os error 36)"

/-- What a path leads to. -/
inductive Node where
  | folder (steps : List (List Char))
  | file (text : String)

/-- Whether some steps from the root lead to a folder. -/
def hasFolder (d : Disk) (steps : List (List Char)) : Bool :=
  steps.isEmpty || d.folders.any steps.isPrefixOf || d.files.any fun f => steps.isPrefixOf f.1

/-- What some steps from the root lead to. -/
def node (d : Disk) (steps : List (List Char)) : Except Reason Node :=
  match d.files.lookup steps with
  | some text => .ok (.file text)
  | none => if d.hasFolder steps then .ok (.folder steps) else .error .missing

/-- The greatest number of bytes in the name of a file. -/
def nameLimit : Nat := 255

/-- The greatest number of bytes in a path. -/
def pathLimit : Nat := 4095

/-- One step of a path. An empty one and a dot stay where they are, two dots
    lead back, and from a file no step leads anywhere. -/
def step (d : Disk) : Node → List Char → Except Reason Node
  | .file _, _ => .error .notFolder
  | .folder steps, name =>
    if name = [] ∨ name = ['.'] then .ok (.folder steps)
    else if name = ['.', '.'] then .ok (.folder steps.dropLast)
    else if nameLimit < Text.byteCount name then .error .nameTooLong
    else d.node (steps ++ [name])

/-- The text of the file at a path, which begins in the folder `home` unless
    its first character is a slash. -/
def read (d : Disk) (home : List (List Char)) (path : String) : Except Reason String := do
  let s := path.toList
  if s.isEmpty then throw .missing
  if pathLimit < Text.byteCount s then throw .nameTooLong
  let start := if s.head? = some '/' then [] else home
  match ← (Path.pieces s).foldlM d.step (.folder start) with
  | .file text => return text
  | .folder _ => throw .folder

/-- What a run in the folder `home` can read. -/
def sources (d : Disk) (home : List (List Char)) (input : Except String String)
    (environment : String → Option String) : Sources where
  file path := (d.read home path).mapError Reason.message
  standardInput := input
  environment := environment

end Disk

end Sift.Command
