import Sift.Query.Reader

/-!
# Reading queries with a cursor

A query read by a cursor that walks over the bytes of the text. Nothing but
`advance` moves the cursor, and the text is seen only in pieces that are cut out
of it between two bytes. A cut that would split a character, or that ends
before it starts, crashes; loops and parentheses run on a clock. A routine keeps
a log of all this, so that where it looked, where it went and when a loop went
round can be read off its outcome.

* `Event`, `Ending`, `Trip`: what a cursor does, how reading ends, and both;
* `Routine`: what can be done with a cursor, and its steps `cut`, `advance`,
  `fail` and `loop`;
* `expression`: an expression at the cursor;
* `run`: a whole text.
-/

namespace Sift.Query.Cursor

open Text

/-- What happens to a cursor; places are counted in bytes. -/
inductive Event where
  /-- The text is cut at a place. -/
  | look (place : Nat)
  | move (before after : Nat)
  /-- A loop goes round: its last round began at `before`, the next one begins
      at `after`. -/
  | round (before after : Nat)
  /-- Inside an expression that began at `before`, one in parentheses begins at
      `after`. -/
  | nested (before after : Nat)
deriving DecidableEq

/-- How reading ends. -/
inductive Ending (α : Type) where
  /-- With a value, and the cursor at a place. -/
  | value (x : α) (place : Nat)
  | failure (e : ParseError)
  /-- On a cut that is none. -/
  | crash
  /-- On a clock that has run out. -/
  | timeout

/-- What a cursor has done, and how it ended. -/
structure Trip (α : Type) where
  log : List Event
  ending : Ending α

/-- What a cursor is given: a text, and how often a loop may go round. -/
structure Setting where
  text : String
  clock : Nat

/-- What can be done from a place of the text. -/
def Routine (α : Type) := Setting → (place : Nat) → Trip α

namespace Routine

variable {α β : Type}

/-- A routine and, if it gives a value, what follows on this value. -/
def andThen (m : Routine α) (next : α → Routine β) : Routine β := fun setting place =>
  match m setting place with
  | ⟨log, .value x place⟩ =>
    let trip := next x setting place
    ⟨log ++ trip.log, trip.ending⟩
  | ⟨log, .failure e⟩ => ⟨log, .failure e⟩
  | ⟨log, .crash⟩ => ⟨log, .crash⟩
  | ⟨log, .timeout⟩ => ⟨log, .timeout⟩

instance : Monad Routine where
  pure x := fun _ place => ⟨[], .value x place⟩
  bind := andThen

end Routine

variable {α β : Type}

/-! ### Steps -/

/-- The setting of the cursor. -/
def setting : Routine Setting := fun setting place => ⟨[], .value setting place⟩

/-- The place of the cursor. -/
def here : Routine Nat := fun _ place => ⟨[], .value place place⟩

/-- Notes an event. -/
def note (e : Event) : Routine Unit := fun _ place => ⟨[e], .value () place⟩

/-- Moves the cursor on by some bytes. -/
def advance (count : Nat) : Routine Unit := fun _ place =>
  ⟨[.move place (place + count)], .value () (place + count)⟩

/-- Stops at the cursor. -/
def fail (reason : Reason) : Routine α := fun _ place => ⟨[], .failure ⟨reason, place⟩⟩

/-- Gives up for want of time. -/
def timeout : Routine α := fun _ _ => ⟨[], .timeout⟩

/-- Whether no character of a text is split at a place. -/
def isBoundary (text : String) (place : Nat) : Bool := (⟨place⟩ : String.Pos.Raw).isValid text

/-- The piece of the text from one place to another one. -/
def cut (start stop : Nat) : Routine String := fun setting place =>
  if isBoundary setting.text start && isBoundary setting.text stop && start ≤ stop then
    ⟨[.look start, .look stop],
      .value ((⟨start⟩ : String.Pos.Raw).extract setting.text ⟨stop⟩) place⟩
  else ⟨[.look start, .look stop], .crash⟩

/-- Rounds of a loop, at most as many as the clock allows: a round gives either
    what the next one starts from or the value of the loop. -/
def loopWithin (round : β → Routine (β ⊕ α)) : (clock : Nat) → β → Routine α
  | 0, _ => timeout
  | clock + 1, b => do
    let start ← here
    match ← round b with
    | .inl b =>
      note (.round start (← here))
      loopWithin round clock b
    | .inr x => return x

/-- A loop. -/
def loop (round : β → Routine (β ⊕ α)) (b : β) : Routine α := do
  loopWithin round (← setting).clock b

/-! ### Looking at the text -/

/-- The place where the text ends. -/
def size : Routine Nat := return (← setting).text.utf8ByteSize

/-- Whether the cursor is at the end of the text. -/
def atEnd : Routine Bool := return (← size) ≤ (← here)

/-- The text from the cursor on. -/
def rest : Routine String := do cut (← here) (← size)

/-- The character at the cursor; `NUL` at the end of the text. -/
def current : Routine Char := return (← rest).toList.headD '\x00'

/-- Moves over a character, if it is the one at the cursor. -/
def matchChar (c : Char) : Routine Bool := do
  if ← atEnd then return false
  else if (← current) = c then
    advance c.utf8Size
    return true
  else return false

/-- Moves over a text, if it stands at the cursor. -/
def matchText (word : List Char) : Routine Bool := do
  if word.isPrefixOf (← rest).toList then
    advance (byteCount word)
    return true
  else return false

/-- Moves over a keyword, given in lower case, if it stands at the cursor and no
    letter, digit or underscore carries it on. -/
def matchKeyword (word : List Char) : Routine Bool := do
  let count := byteCount word
  let remaining ← rest
  if remaining.utf8ByteSize < count || !isBoundary remaining count then return false
  else
    let start ← here
    let candidate ← cut start (start + count)
    if lowerAscii candidate.toList ≠ word then return false
    else
      let after ← cut (start + count) (← size)
      if after.toList.head?.all fun c => !isWordCharacter c then
        advance count
        return true
      else return false

/-- A round of moving over the characters of a class, over each of them by its
    `width`. -/
def skipRound (p : Char → Bool) (width : Char → Nat) (_ : Unit) : Routine (Unit ⊕ Unit) := do
  if ← atEnd then return .inr ()
  else
    let c ← current
    if p c then
      advance (width c)
      return .inl ()
    else return .inr ()

/-- Moves over the characters of a class. -/
def skipWhile (p : Char → Bool) (width : Char → Nat) : Routine Unit := loop (skipRound p width) ()

/-- Moves over blanks. -/
def skip : Routine Unit := skipWhile isBlank Char.utf8Size

/-- The longest run of characters of a class, which must have one. -/
def word (reason : Reason) (p : Char → Bool) (width : Char → Nat) : Routine String := do
  let start ← here
  skipWhile p width
  let stop ← here
  if stop = start then fail reason
  else cut start stop

/-! ### Conditions -/

/-- A property name: bare, or between backticks. -/
def name : Routine String := do
  skip
  if ← matchChar '\x60' then
    let start ← here
    skipWhile (· != '\x60') Char.utf8Size
    let name ← cut start (← here)
    if ← matchChar '\x60' then return name
    else fail .unterminatedName
  else word .expectedName isNameCharacter Char.utf8Size

/-- A comparator: a symbol or a name. -/
def comparator : Routine Comparator := do
  skip
  if ← matchText ['>', '='] then return .greaterThanOrEqualTo
  else if ← matchText ['<', '='] then return .lessThanOrEqualTo
  else if ← matchText ['!', '='] then return .notEquals
  else if ← matchChar '=' then return .equals
  else if ← matchChar '>' then return .greaterThan
  else if ← matchChar '<' then return .lessThan
  else return .ofWord (← word .expectedComparator isComparatorCharacter fun _ => 1).toList

/-- A character of a text, or the closing quote. A backslash takes the character
    after it as it is. -/
def textRound (found : List Char) : Routine (List Char ⊕ List Char) := do
  if ← atEnd then fail .unterminatedText
  else
    let c ← current
    advance c.utf8Size
    if c = '"' then return .inr found
    else if c = '\\' then
      if ← atEnd then return .inl (found ++ [c])
      else
        let escaped ← current
        advance escaped.utf8Size
        return .inl (found ++ [escaped])
    else return .inl (found ++ [c])

/-- A text, after its opening quote. -/
def text : Routine String := return String.ofList (← loop textRound [])

/-- An item of a list, and what stands after it. -/
def listRound (found : List String) : Routine (List String ⊕ List String) := do
  skip
  if ← matchChar '"' then
    let item ← text
    skip
    if ← matchChar ']' then return .inr (found ++ [item])
    else if ← matchChar ',' then return .inl (found ++ [item])
    else fail .expectedCommaOrBracket
  else fail .expectedText

/-- A list, after its opening bracket. -/
def list : Routine (List String) := do
  skip
  if ← matchChar ']' then return []
  else loop listRound []

/-- A number or a date. -/
def number : Routine Operand := do
  let run ← word .expectedValue isNumberCharacter fun _ => 1
  match Double.ofText? run.toList with
  | some d => return .number d
  | none =>
    match Instant.ofText? run.toList with
    | some i => return .date i
    | none => fail .invalidNumber

/-- What a property is compared with. -/
def operand : Routine Operand := do
  skip
  if ← matchChar '"' then return .text (← text)
  else if ← matchChar '[' then return .list (← list)
  else if ← matchKeyword "true".toList then return .boolean true
  else if ← matchKeyword "false".toList then return .boolean false
  else number

/-! ### Expressions -/

/-- A condition: a name, a comparator and, unless the comparator takes none,
    an operand. -/
def condition : Routine Filter := do
  let property ← name
  skip
  let comparator ← comparator
  if comparator.isUnary then return .condition ⟨property, comparator, none⟩
  else
    skip
    return .condition ⟨property, comparator, some (← operand)⟩

/-- An expression in parentheses, or a condition, inside an expression that
    began at `outer`. -/
def primary (outer : Nat) (inner : Routine Filter) : Routine Filter := do
  skip
  if ← matchChar '(' then
    note (.nested outer (← here))
    let f ← inner
    skip
    if ← matchChar ')' then return f
    else fail .expectedClose
  else condition

/-- The next operand of a chain, after the keyword of its connective, if there
    is one. -/
def chainRound (connective : Connective) (operand : Routine Filter) (found : List Filter) :
    Routine (List Filter ⊕ Filter) := do
  skip
  if ← matchKeyword (lowerAscii connective.keyword) then return .inl (found ++ [← operand])
  else return .inr (join connective found)

/-- Operands joined by the keyword of a connective. -/
def chain (connective : Connective) (operand : Routine Filter) : Routine Filter := do
  loop (chainRound connective operand) [← operand]

/-- An expression, as long as the clock allows its parentheses to nest. -/
def expression : (clock : Nat) → Routine Filter
  | 0 => timeout
  | clock + 1 => do
    let start ← here
    chain .or (chain .and (primary start (expression clock)))

/-- A whole text as an expression. -/
def query : Routine Filter := do
  let f ← expression (← setting).clock
  skip
  if ← atEnd then return f
  else fail .unexpectedInput

/-- Reads a query from its first byte on. -/
def run (text : String) (clock : Nat) : Trip Filter := query ⟨text, clock⟩ 0

end Sift.Query.Cursor
