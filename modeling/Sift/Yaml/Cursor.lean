import Sift.Text.Reader

/-!
# Places in a YAML text

* `Cursor`: the text from some place on, with the line and the column of that
  place;
* `Cursor.isBlankAt`, `Cursor.atMark`: looking ahead;
* `Cursor.skipWhile`, `Cursor.takeWhile`: moving on, within a line.
-/

namespace Sift.Yaml

/-- The text from a place on. -/
structure Cursor where
  rest : List Char
  /-- The number of bytes before the place. -/
  index : Nat
  line : Nat
  column : Nat

/-- The characters that a YAML text may have. -/
def isAllowed (c : Char) : Bool :=
  let n := c.toNat
  n == 0x09 || n == 0x0A || n == 0x0D || (0x20 ≤ n && n ≤ 0x7E) || n == 0x85 ||
    (0xA0 ≤ n && n ≤ 0xFFFD) || 0x10000 ≤ n

/-- Line breaks. -/
def isBreak (c : Char) : Bool :=
  c = '\n' || c = '\r' || c = '\u0085' || c = '\u2028' || c = '\u2029'

/-- The blanks within a line. -/
def isBlank (c : Char) : Bool := c = ' ' || c = '\t'

/-- The characters of names. -/
def isNameCharacter (c : Char) : Bool :=
  ('0' ≤ c && c ≤ '9') || ('A' ≤ c && c ≤ 'Z') || ('a' ≤ c && c ≤ 'z') || c = '_' || c = '-'

namespace Cursor

/-- The start of a text. -/
def ofText (s : List Char) : Cursor := ⟨s, 0, 0, 0⟩

/-- Past some characters of the line. -/
def skip (n : Nat) (c : Cursor) : Cursor :=
  { c with
    rest := c.rest.drop n
    index := c.index + Text.byteCount (c.rest.take n)
    column := c.column + n }

/-- Past one character of the line. -/
def next (c : Cursor) : Cursor := c.skip 1

/-- Past a line break. -/
def nextLine (c : Cursor) : Cursor :=
  match c.rest with
  | '\r' :: '\n' :: r => ⟨r, c.index + 2, c.line + 1, 0⟩
  | _ => ⟨c.rest.tail, c.index + Text.byteCount (c.rest.take 1), c.line + 1, 0⟩

/-- What a line break counts as: the separators of lines and paragraphs stay,
    all others are line feeds. -/
def breakText (c : Cursor) : List Char :=
  match c.rest with
  | [] => []
  | x :: _ => if x = '\u2028' ∨ x = '\u2029' then [x] else ['\n']

/-- Whether the character `n` places on is `x`. -/
def has (x : Char) (n : Nat) (c : Cursor) : Bool := c.rest[n]? == some x

/-- Whether the character `n` places on is one of `xs`. -/
def hasOneOf (xs : List Char) (n : Nat) (c : Cursor) : Bool := c.rest[n]?.any xs.contains

/-- Whether the text ends here. -/
def atEnd (c : Cursor) : Bool := c.rest.isEmpty

/-- Whether a line break is here. -/
def atBreak (c : Cursor) : Bool := c.rest.head?.any isBreak

/-- Whether a blank is here. -/
def atBlank (c : Cursor) : Bool := c.rest.head?.any isBlank

/-- Whether a blank, a line break or the end is `n` places on. -/
def isBlankAt (n : Nat) (c : Cursor) : Bool := c.rest[n]?.all fun x => isBlank x || isBreak x

/-- Whether a line starts with three characters `x` and nothing right after
    them: the marks between documents. -/
def atMark (x : Char) (c : Cursor) : Bool :=
  c.column == 0 && c.has x 0 && c.has x 1 && c.has x 2 && c.isBlankAt 3

/-- Past the characters of a class. -/
def skipWhile (p : Char → Bool) (c : Cursor) : Cursor := c.skip (c.rest.takeWhile p).length

/-- The characters of a class, and the cursor past them. -/
def takeWhile (p : Char → Bool) (c : Cursor) : List Char × Cursor :=
  (c.rest.takeWhile p, c.skipWhile p)

/-- To the end of the line. -/
def skipLine (c : Cursor) : Cursor := c.skipWhile fun x => !isBreak x

/-- Past a comment. -/
def skipComment (c : Cursor) : Cursor := if c.has '#' 0 then c.skipLine else c

/-- Past what may stand after a token to the end of its line. -/
def finishLine? (c : Cursor) : Option Cursor :=
  let c := (c.skipWhile isBlank).skipComment
  if c.atEnd then some c else if c.atBreak then some c.nextLine else none

end Cursor

end Sift.Yaml
