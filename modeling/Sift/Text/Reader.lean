/-!
# Reading text

A *reader* takes the text that is left and gives a value with the text it left
unread, or the fault it stopped at. Faults carry the unread text, so their
place in the whole text is a matter of counting (`Fault.offset`), and a reader
never has to know where it stands.

* `Reader`, `Fault`: the two outcomes of reading;
* `many`: repetition of a step, as long as it finds something;
* `wordOf`: the longest run of characters of a class;
* `keyword`: a word in any ASCII letter case.
-/

namespace Sift.Text

/-- The number of bytes of a text in UTF-8. -/
def byteCount (s : List Char) : Nat := s.foldr (fun c n => c.utf8Size + n) 0

/-- Why and where reading stopped: at `beyond` bytes into the unread text. -/
structure Fault (ε : Type) where
  reason : ε
  rest : List Char
  beyond : Nat

namespace Fault

variable {ε : Type}

/-- The bytes of `s` before the fault, which never lies past the end of `s`. -/
def offset (f : Fault ε) (s : List Char) : Nat :=
  min (byteCount s) (byteCount s - byteCount f.rest + f.beyond)

end Fault

/-- A reader of `α`, with reasons `ε` to stop. -/
abbrev Reader (ε α : Type) := List Char → Except (Fault ε) (α × List Char)

variable {ε α : Type}

/-- Stops in front of `rest`. -/
def stopAt (reason : ε) (rest : List Char) : Except (Fault ε) α := .error ⟨reason, rest, 0⟩

/-- Repetition of `step` on `s`, for at most as many rounds as `clock` has
    characters; `found` holds what the rounds before have found, the last one
    first. -/
def manyWithin (step : List Char → Except (Fault ε) (Option (α × List Char))) :
    (clock : List Char) → (found : List α) → Reader ε (List α)
  | [], found, s => .ok (found.reverse, s)
  | _ :: clock, found, s =>
    match step s with
    | .error e => .error e
    | .ok none => .ok (found.reverse, s)
    | .ok (some (x, r)) => manyWithin step clock (x :: found) r

/-- Repeats `step` for as long as it finds something. A step that finds
    something reads at least one character, so the text itself bounds the
    number of rounds. -/
def many (step : List Char → Except (Fault ε) (Option (α × List Char))) : Reader ε (List α) :=
  fun s => manyWithin step s [] s

/-- The longest run at the start of the text of characters of the class `p`,
    and what follows it. -/
def wordOf (p : Char → Bool) (s : List Char) : List Char × List Char :=
  (s.takeWhile p, s.dropWhile p)

/-- The lower case of ASCII, all other characters unchanged. -/
def lowerAscii (s : List Char) : List Char := s.map Char.toLower

/-- What follows `word`, given in lower case, at the start of the text in any
    ASCII letter case. -/
def literalAnyCase (word s : List Char) : Option (List Char) :=
  if lowerAscii (s.take word.length) = word then some (s.drop word.length) else none

/-- What follows the keyword `word`, given in lower case, in any ASCII letter
    case, if no character of the class `joins` carries it on. -/
def keyword (joins : Char → Bool) (word s : List Char) : Option (List Char) :=
  match literalAnyCase word s with
  | none => none
  | some [] => some []
  | some (c :: r) => if joins c then none else some (c :: r)

end Sift.Text
