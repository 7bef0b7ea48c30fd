import Sift.Text.Digits
import Sift.Yaml.Cursor

/-!
# Scalars of YAML

The four ways to write a text in YAML, each read from a cursor: plain, between
quotes of two kinds, and as a block of indented lines. Line breaks within a
text are folded: one of them counts as a space, of several all but the first
are kept.

* `Scalar.plain`, `Scalar.quoted`, `Scalar.block`.

Every round of the loops here moves the cursor on, so the length of the text
that is left bounds their rounds.
-/

namespace Sift.Yaml.Scalar

open Text (hexValue?)

/-- What stands between two pieces of a text: blanks, or line breaks with the
    blanks around them. -/
structure Gap where
  blanks : List Char
  /-- Whether there is a line break. -/
  broken : Bool
  first : List Char
  others : List Char

namespace Gap

/-- The gap in which nothing stands. -/
def none : Gap := ⟨[], false, [], []⟩

/-- A gap that begins with a line break that does not count. -/
def continued : Gap := ⟨[], true, [], []⟩

/-- The gap with one more blank; blanks around line breaks do not count. -/
def addBlank (x : Char) (g : Gap) : Gap :=
  if g.broken then g else { g with blanks := g.blanks ++ [x] }

/-- The gap with one more line break. -/
def addBreak (x : List Char) (g : Gap) : Gap :=
  if g.broken then { g with others := g.others ++ x }
  else { g with blanks := [], broken := true, first := x }

/-- What a gap counts as within a text. -/
def folded (g : Gap) : List Char :=
  if !g.broken then g.blanks
  else if g.first = ['\n'] then if g.others.isEmpty then [' '] else g.others
  else g.first ++ g.others

end Gap

/-- Reads a gap. A tab in front of the column `margin` of a new line is
    refused. -/
def gap (margin : Int) : (rounds : Nat) → Gap → Cursor → Option (Gap × Cursor)
  | 0, g, c => some (g, c)
  | rounds + 1, g, c =>
    match c.rest with
    | [] => some (g, c)
    | x :: _ =>
      if isBlank x then
        if g.broken && x = '\t' && c.column < margin then none
        else gap margin rounds (g.addBlank x) c.next
      else if isBreak x then gap margin rounds (g.addBreak c.breakText) c.nextLine
      else some (g, c)

/-! ### Plain texts -/

/-- The characters that end a plain text in a flow collection. -/
def flowIndicators : List Char := [',', '[', ']', '\x7b', '\x7d']

/-- Whether a plain text ends at the cursor. -/
def plainEnds (flow : Bool) (c : Cursor) : Bool :=
  c.isBlankAt 0 || (c.has ':' 0 && c.isBlankAt 1) || (flow && c.hasOneOf flowIndicators 0)

/-- A piece of a plain text without blanks. In a flow collection no colon may
    stand in front of an indicator. -/
def plainPiece (flow : Bool) : (rounds : Nat) → Cursor → Option (List Char × Cursor)
  | 0, c => some ([], c)
  | rounds + 1, c =>
    match c.rest with
    | [] => some ([], c)
    | x :: _ =>
      if c.isBlankAt 0 then some ([], c)
      else if flow && x = ':' && c.hasOneOf ('?' :: flowIndicators) 1 then none
      else if plainEnds flow c then some ([], c)
      else do
        let (xs, c) ← plainPiece flow rounds c.next
        return (x :: xs, c)

/-- The pieces of a plain text after `read` and the gap `g`: the text, whether
    it is followed by a line break, and the cursor past it. -/
def plainPieces (flow : Bool) (margin : Int) :
    (rounds : Nat) → (read : List Char) → Gap → Cursor → Option (List Char × Bool × Cursor)
  | 0, read, g, c => some (read, g.broken, c)
  | rounds + 1, read, g, c =>
    if c.atMark '-' || c.atMark '.' || c.has '#' 0 then some (read, g.broken, c)
    else do
      let (piece, c) ← plainPiece flow c.rest.length c
      let (read, g) := if piece.isEmpty then (read, g) else (read ++ g.folded ++ piece, Gap.none)
      if !(c.atBlank || c.atBreak) then return (read, g.broken, c)
      let (g, c) ← gap margin c.rest.length g c
      if !flow && c.column < margin then return (read, g.broken, c)
      plainPieces flow margin rounds read g c

/-- A plain text in lines indented at least to the column `margin`. -/
def plain (flow : Bool) (margin : Int) (c : Cursor) : Option (List Char × Bool × Cursor) :=
  plainPieces flow margin (c.rest.length + 1) [] Gap.none c

/-! ### Quoted texts -/

/-- The character of an escape of one letter. -/
def escaped? (x : Char) : Option Char :=
  if x = '0' then some '\x00'
  else if x = 'a' then some '\x07'
  else if x = 'b' then some '\x08'
  else if x = 't' ∨ x = '\t' then some '\t'
  else if x = 'n' then some '\n'
  else if x = 'v' then some '\x0b'
  else if x = 'f' then some '\x0c'
  else if x = 'r' then some '\r'
  else if x = 'e' then some '\x1b'
  else if x = ' ' ∨ x = '"' ∨ x = '/' ∨ x = '\\' then some x
  else if x = 'N' then some '\u0085'
  else if x = '_' then some '\u00a0'
  else if x = 'L' then some '\u2028'
  else if x = 'P' then some '\u2029'
  else none

/-- The number of digits of a numbered escape. -/
def escapeLength? (x : Char) : Option Nat :=
  if x = 'x' then some 2 else if x = 'u' then some 4 else if x = 'U' then some 8 else none

/-- The character of a numbered escape. -/
def numbered? (digits : List Char) (length : Nat) : Option Char :=
  if digits.length < length then none
  else do
    let values ← digits.mapM hexValue?
    let n := values.foldl (fun n d => 16 * n + d) 0
    if n.isValidChar then some (Char.ofNat n) else none

/-- A piece of a quoted text without blanks, and whether it ends in an escaped
    line break. -/
def quotedPiece (single : Bool) : (rounds : Nat) → Cursor → Option (List Char × Bool × Cursor)
  | 0, c => some ([], false, c)
  | rounds + 1, c =>
    match c.rest with
    | [] => some ([], false, c)
    | x :: r =>
      if isBlank x || isBreak x then some ([], false, c)
      else if single then
        if x = '\'' then
          if c.has '\'' 1 then do
            let (xs, broken, c) ← quotedPiece single rounds (c.skip 2)
            return ('\'' :: xs, broken, c)
          else some ([], false, c)
        else do
          let (xs, broken, c) ← quotedPiece single rounds c.next
          return (x :: xs, broken, c)
      else if x = '"' then some ([], false, c)
      else if x = '\\' then
        match r with
        | [] => none
        | y :: s =>
          if isBreak y then some ([], true, c.next.nextLine)
          else do
            let (z, length) ← match escapeLength? y with
              | some n => (numbered? (s.take n) n).map fun z => (z, 2 + n)
              | none => (escaped? y).map fun z => (z, 2)
            let (xs, broken, c) ← quotedPiece single rounds (c.skip length)
            return (z :: xs, broken, c)
      else do
        let (xs, broken, c) ← quotedPiece single rounds c.next
        return (x :: xs, broken, c)

/-- The pieces of a quoted text after `read`. -/
def quotedPieces (single : Bool) :
    (rounds : Nat) → (read : List Char) → Cursor → Option (List Char × Cursor)
  | 0, _, _ => none
  | rounds + 1, read, c =>
    if c.atMark '-' || c.atMark '.' || c.atEnd then none
    else do
      let (piece, broken, c) ← quotedPiece single c.rest.length c
      if c.has (if single then '\'' else '"') 0 then return (read ++ piece, c.next)
      let (g, c) ← gap 0 c.rest.length (if broken then Gap.continued else Gap.none) c
      quotedPieces single rounds (read ++ piece ++ g.folded) c

/-- A text between quotes, from its opening quote on. -/
def quoted (single : Bool) (c : Cursor) : Option (List Char × Cursor) :=
  quotedPieces single (c.rest.length + 1) [] c.next

/-! ### Blocks -/

/-- What happens to the line breaks at the end of a block. -/
inductive Ending where
  | strip
  | clip
  | keep
deriving DecidableEq

/-- The header of a block: the ending, and the indentation if it is given. -/
def header (c : Cursor) : Option (Ending × Option Nat × Cursor) :=
  let ending (x : Char) : Option Ending :=
    if x = '+' then some .keep else if x = '-' then some .strip else none
  let digit (x : Char) : Option Nat :=
    if '0' ≤ x && x ≤ '9' then some (x.toNat - '0'.toNat) else none
  let (e, n, c) := match c.rest with
    | x :: y :: _ =>
      match ending x, digit x with
      | some e, _ =>
        match digit y with
        | some n => (e, some n, c.skip 2)
        | none => (e, none, c.next)
      | none, some n =>
        match ending y with
        | some e => (e, some n, c.skip 2)
        | none => (.clip, some n, c.next)
      | none, none => (.clip, none, c)
    | [x] =>
      match ending x, digit x with
      | some e, _ => (e, none, c.next)
      | none, some n => (.clip, some n, c.next)
      | none, none => (.clip, none, c)
    | [] => (.clip, none, c)
  if n = some 0 then none else some (e, n, c)

/-- Empty lines in front of a line of a block, with the greatest column seen.
    The indentation is skipped up to the column `margin`, if it is known. -/
def emptyLines (margin : Option Nat) :
    (rounds : Nat) → (widest : Nat) → (read : List Char) → Cursor →
      Option (List Char × Nat × Cursor)
  | 0, widest, read, c => some (read, widest, c)
  | rounds + 1, widest, read, c =>
    let within (c : Cursor) : Bool := margin.all fun m => c.column < m
    let spaces := (c.rest.takeWhile (· == ' ')).length
    let c := c.skip (match margin with
      | some m => min spaces (m - c.column)
      | none => spaces)
    let widest := max widest c.column
    if within c && c.has '\t' 0 then none
    else if c.atBreak then
      emptyLines margin rounds widest (read ++ c.breakText) c.nextLine
    else some (read, widest, c)

/-- The lines of a block after `read`. `last` is the break of the line before,
    `empty` are the breaks of the empty lines after it, and `spaced` says
    whether that line began with a blank. -/
def blockLines (literal : Bool) (ending : Ending) (margin : Nat) :
    (rounds : Nat) → (read last empty : List Char) → (spaced : Bool) → Cursor →
      Option (List Char × Cursor)
  | 0, _, _, _, _, _ => none
  | rounds + 1, read, last, empty, spaced, c =>
    if c.column = margin && !c.atEnd then do
      let blank := c.atBlank
      let joined :=
        if !literal && last = ['\n'] && !spaced && !blank then
          if empty.isEmpty then [' '] else empty
        else last ++ empty
      let (line, c) := c.takeWhile fun x => !isBreak x
      let last := c.breakText
      let c := if c.atEnd then c else c.nextLine
      let (empty, _, c) ← emptyLines (some margin) (c.rest.length + 1) 0 [] c
      blockLines literal ending margin rounds (read ++ joined ++ line) last empty blank c
    else
      let tail := match ending with
        | .strip => []
        | .clip => last
        | .keep => last ++ empty
      some (read ++ tail, c)

/-- A block, from its indicator on, in a collection indented to `indent`. -/
def block (literal : Bool) (indent : Int) (c : Cursor) : Option (List Char × Cursor) := do
  let (ending, increment, c) ← header c.next
  let c ← c.finishLine?
  let given := increment.map fun n => if 0 ≤ indent then indent.toNat + n else n
  let (empty, widest, c) ← emptyLines given (c.rest.length + 1) 0 [] c
  let margin := given.getD (max (max widest (indent + 1).toNat) 1)
  blockLines literal ending margin (c.rest.length + 1) [] [] empty false c

end Sift.Yaml.Scalar
