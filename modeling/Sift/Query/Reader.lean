import Sift.Double.Spelling
import Sift.Filter.Basic
import Sift.Text.Alphanumeric
import Sift.Text.Blank

/-!
# Reading queries

A text read as a filter: conditions joined by `and` and `or`, of which `and`
binds tighter, with parentheses. Keywords and the names of comparators may have
any ASCII letter case, and blanks may stand between any two tokens.

* `Query.expression`: an expression at the start of a text, with a bound on the
  nesting of its parentheses;
* `Query.parse`: a whole text;
* `Query.join`: the group of several filters, in which groups of the same
  connective are dissolved.
-/

namespace Sift.Query

open Text

/-- Why a text is not a query. -/
inductive Reason where
  | unexpectedInput
  | expectedClose
  | unterminatedName
  | expectedName
  | expectedComparator
  | unterminatedText
  | expectedText
  | expectedCommaOrBracket
  | expectedValue
  | invalidNumber
deriving DecidableEq

/-- The wording of a reason. -/
def Reason.message : Reason → String
  | unexpectedInput => "Unexpected input after expression"
  | expectedClose => "Expected ')'"
  | unterminatedName => "Unterminated property name"
  | expectedName => "Expected property name"
  | expectedComparator => "Expected comparator (=, !=, >, <, >=, <= or a comparator name)"
  | unterminatedText => "Unterminated string"
  | expectedText => "Expected string in list"
  | expectedCommaOrBracket => "Expected ',' or ']'"
  | expectedValue => "Expected value"
  | invalidNumber => "Invalid number or date"

/-! ### Names and comparators -/

/-- The characters that carry a keyword on. -/
def isWordCharacter (c : Char) : Bool := isAlphanumeric c || c = '_'

/-- The characters of a bare property name. -/
def isNameCharacter (c : Char) : Bool := isAlphanumeric c || c = '_' || c = '-'

/-- The characters of a comparator's name. -/
def isComparatorCharacter (c : Char) : Bool :=
  ('A' ≤ c && c ≤ 'Z') || ('a' ≤ c && c ≤ 'z') || c = '_'

/-- A property name: bare, or between backticks. -/
def readName : Reader Reason String := fun s =>
  match skipBlanks s with
  | '\x60' :: s =>
    match wordOf (· != '\x60') s with
    | (name, '\x60' :: r) => .ok (String.ofList name, r)
    | (_, r) => stopAt .unterminatedName r
  | s =>
    match wordOf isNameCharacter s with
    | ([], _) => stopAt .expectedName s
    | (name, r) => .ok (String.ofList name, r)

/-- A comparator: a symbol or a name. -/
def readComparator : Reader Reason Comparator := fun s =>
  match skipBlanks s with
  | '>' :: '=' :: r => .ok (.greaterThanOrEqualTo, r)
  | '<' :: '=' :: r => .ok (.lessThanOrEqualTo, r)
  | '!' :: '=' :: r => .ok (.notEquals, r)
  | '=' :: r => .ok (.equals, r)
  | '>' :: r => .ok (.greaterThan, r)
  | '<' :: r => .ok (.lessThan, r)
  | s =>
    match wordOf isComparatorCharacter s with
    | ([], _) => stopAt .expectedComparator s
    | (name, r) => .ok (Comparator.ofWord name, r)

/-! ### Operands -/

/-- A text, after its opening quote. A backslash takes the character after it
    as it is. -/
def readText : Reader Reason (List Char)
  | [] => stopAt .unterminatedText []
  | '"' :: r => .ok ([], r)
  | '\\' :: c :: r => do
    let (cs, r) ← readText r
    return (c :: cs, r)
  | c :: r => do
    let (cs, r) ← readText r
    return (c :: cs, r)

/-- An item of a list. -/
def readItem : Reader Reason String := fun s =>
  match skipBlanks s with
  | '"' :: r => (readText r).map fun (cs, r) => (String.ofList cs, r)
  | s => stopAt .expectedText s

/-- The next item of a list, after a comma, if there is one. -/
def nextItem (s : List Char) : Except (Fault Reason) (Option (String × List Char)) :=
  match skipBlanks s with
  | ',' :: r => (readItem r).map some
  | _ => .ok none

/-- A list, after its opening bracket. -/
def readList : Reader Reason (List String) := fun s =>
  match skipBlanks s with
  | ']' :: r => .ok ([], r)
  | s => do
    let (first, s) ← readItem s
    let (others, s) ← many nextItem s
    match skipBlanks s with
    | ']' :: r => return (first :: others, r)
    | s => stopAt .expectedCommaOrBracket s

/-- The characters of numbers and dates. -/
def isNumberCharacter (c : Char) : Bool :=
  isDigit c || c = '.' || c = '-' || c = '+' || c = ':' || c = 'T' || c = 'Z'

/-- A number or a date. -/
def readNumber : Reader Reason Operand := fun s =>
  match wordOf isNumberCharacter s with
  | ([], _) => stopAt .expectedValue s
  | (run, r) =>
    match Double.ofText? run with
    | some d => .ok (.number d, r)
    | none =>
      match Instant.ofText? run with
      | some i => .ok (.date i, r)
      | none => stopAt .invalidNumber r

/-- What a property is compared with. -/
def readOperand : Reader Reason Operand := fun s =>
  match skipBlanks s with
  | '"' :: r => (readText r).map fun (cs, r) => (.text (String.ofList cs), r)
  | '[' :: r => (readList r).map fun (names, r) => (.list names, r)
  | s =>
    match keyword isWordCharacter "true".toList s, keyword isWordCharacter "false".toList s with
    | some r, _ => .ok (.boolean true, r)
    | none, some r => .ok (.boolean false, r)
    | none, none => readNumber s

/-! ### Expressions -/

/-- The filters of a group of the given connective, with the groups of the same
    connective among them dissolved. -/
def spliced (connective : Connective) : List Filter → List Filter
  | [] => []
  | .group c fs :: rest =>
    if c = connective then fs ++ spliced connective rest
    else .group c fs :: spliced connective rest
  | f :: rest => f :: spliced connective rest

/-- Filters joined by a connective; a single one stays as it is. -/
def join (connective : Connective) : List Filter → Filter
  | [f] => f
  | fs => .group connective (spliced connective fs)

/-- A condition: a name, a comparator and, unless the comparator takes none,
    an operand. -/
def readCondition : Reader Reason Filter := fun s => do
  let (property, s) ← readName s
  let (comparator, s) ← readComparator s
  if comparator.isUnary then return (.condition ⟨property, comparator, none⟩, s)
  let (operand, s) ← readOperand s
  return (.condition ⟨property, comparator, some operand⟩, s)

/-- An expression in parentheses, or a condition. -/
def readPrimary (inner : Reader Reason Filter) : Reader Reason Filter := fun s =>
  match skipBlanks s with
  | '(' :: s => do
    let (f, s) ← inner s
    match skipBlanks s with
    | ')' :: r => return (f, r)
    | s => stopAt .expectedClose s
  | s => readCondition s

/-- The next operand of a chain, after the keyword of its connective, if there
    is one. -/
def nextOperand (connective : Connective) (operand : Reader Reason Filter) (s : List Char) :
    Except (Fault Reason) (Option (Filter × List Char)) :=
  match keyword isWordCharacter (lowerAscii connective.keyword) (skipBlanks s) with
  | some r => (operand r).map some
  | none => .ok none

/-- Operands joined by the keyword of a connective. -/
def chain (connective : Connective) (operand : Reader Reason Filter) : Reader Reason Filter :=
  fun s => do
    let (first, s) ← operand s
    let (others, s) ← many (nextOperand connective operand) s
    return (join connective (first :: others), s)

/-- An expression with parentheses nested at most `depth` levels deep. -/
def expression : (depth : Nat) → Reader Reason Filter
  | 0 => chain .or (chain .and readCondition)
  | depth + 1 => chain .or (chain .and (readPrimary (expression depth)))

/-! ### Texts -/

/-- Why a text is not a query, and after how many bytes. -/
structure ParseError where
  reason : Reason
  position : Nat
deriving DecidableEq

/-- The wording of an error, with its place. -/
def ParseError.message (e : ParseError) : String :=
  "Parse error at position " ++ toString e.position ++ ": " ++ e.reason.message

/-- A whole text as an expression. No text nests parentheses deeper than it has
    opening ones. -/
def parseChars (s : List Char) : Except (Fault Reason) Filter := do
  let (f, r) ← expression (s.count '(') s
  match skipBlanks r with
  | [] => return f
  | r => stopAt .unexpectedInput r

/-- Reads a query. -/
def parse (text : String) : Except ParseError Filter :=
  match parseChars text.toList with
  | .ok f => .ok f
  | .error f => .error ⟨f.reason, f.offset text.toList⟩

end Sift.Query
