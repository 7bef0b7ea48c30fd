import Sift.Json.Basic
import Sift.Double.Approximate
import Sift.Text.Reader

/-!
# Reading JSON

A text read as one JSON value. Objects come out sorted by key, and of several
entries with one key the last one counts. Faults name the line and the column,
counted in bytes; a fault about a character lies just past its first byte, or
at the end of the text.

* `Json.readValue`: a value at the start of a text, with a bound on its nesting;
* `Json.ofText`: a whole text.
-/

namespace Sift.Json

open Text

/-- Why a text is not JSON. -/
inductive Reason where
  | endInValue
  | endInList
  | endInObject
  | endInString
  | expectedValue
  | expectedWord
  | expectedColon
  | expectedItem
  | expectedEntry
  | keyNotText
  | trailingComma
  | trailingCharacters
  | invalidNumber
  | numberOutOfRange
  | invalidEscape
  | loneSurrogate
  | endOfSurrogatePair
  | tooDeep
  | controlCharacter
deriving DecidableEq

/-- The wording of a reason. -/
def Reason.message : Reason → String
  | endInValue => "EOF while parsing a value"
  | endInList => "EOF while parsing a list"
  | endInObject => "EOF while parsing an object"
  | endInString => "EOF while parsing a string"
  | expectedValue => "expected value"
  | expectedWord => "expected ident"
  | expectedColon => "expected `:`"
  | expectedItem => "expected `,` or `]`"
  | expectedEntry => "expected `,` or `\x7d`"
  | keyNotText => "key must be a string"
  | trailingComma => "trailing comma"
  | trailingCharacters => "trailing characters"
  | invalidNumber => "invalid number"
  | numberOutOfRange => "number out of range"
  | invalidEscape => "invalid escape"
  | loneSurrogate => "lone leading surrogate in hex escape"
  | endOfSurrogatePair => "unexpected end of hex escape"
  | tooDeep => "recursion limit exceeded"
  | controlCharacter => "control character (\\u0000-\\u001F) found while parsing a string"

/-- Stops at the character in front of `rest`, or at the end of the text. -/
def stopPast {α : Type} (reason : Reason) (rest : List Char) : Except (Fault Reason) α :=
  .error ⟨reason, rest, 1⟩

/-- The blanks of JSON. -/
def isSpace (c : Char) : Bool := c = ' ' || c = '\n' || c = '\t' || c = '\r'

/-- The text without the spaces in front. -/
def skipSpaces (s : List Char) : List Char := s.dropWhile isSpace

/-- The rest of a word that stands for a value. -/
def readWord (value : Json) : List Char → Reader Reason Json
  | [], s => .ok (value, s)
  | _ :: _, [] => stopAt .endInValue []
  | c :: cs, x :: s => if x = c then readWord value cs s else stopPast .expectedWord (x :: s)

/-! ### Strings -/

/-- The number of four hexadecimal digits. -/
def hexValue4? (s : List Char) : Option Nat :=
  match s with
  | [a, b, c, d] => do
    let a ← hexValue? a
    let b ← hexValue? b
    let c ← hexValue? c
    let d ← hexValue? d
    return ((a * 16 + b) * 16 + c) * 16 + d
  | _ => none

/-- The code unit of an escape, after its `\u`. -/
def codeUnit : Reader Reason Nat := fun s =>
  if byteCount s < 4 then stopAt .endInString []
  else match hexValue4? (s.take 4) with
    | some n => .ok (n, s.drop 4)
    | none => .error ⟨.invalidEscape, s, 4⟩

/-- The second half of a pair of code units, after the `high` one. -/
def lowHalf (high : Nat) : Reader Reason Char
  | [] => stopAt .endInString []
  | '\\' :: 'u' :: s =>
    match codeUnit s with
    | .error e => .error e
    | .ok (low, r) =>
      if 0xDC00 ≤ low ∧ low ≤ 0xDFFF then
        .ok (Char.ofNat (0x10000 + (high - 0xD800) * 0x400 + (low - 0xDC00)), r)
      else stopAt .loneSurrogate r
  | ['\\'] => stopAt .endInString []
  | '\\' :: s => stopPast .endOfSurrogatePair s
  | s => stopPast .endOfSurrogatePair s

/-- The character of an escape, after its `\u`. -/
def unicodeEscape : Reader Reason Char := fun s =>
  match codeUnit s with
  | .error e => .error e
  | .ok (n, r) =>
    if 0xDC00 ≤ n ∧ n ≤ 0xDFFF then stopAt .loneSurrogate r
    else if 0xD800 ≤ n ∧ n ≤ 0xDBFF then lowHalf n r
    else .ok (Char.ofNat n, r)

/-- The character that an escape of one letter stands for. -/
def escaped? (c : Char) : Option Char :=
  if c = '"' ∨ c = '\\' ∨ c = '/' then some c
  else if c = 'b' then some '\x08'
  else if c = 'f' then some '\x0c'
  else if c = 'n' then some '\n'
  else if c = 'r' then some '\r'
  else if c = 't' then some '\t'
  else none

/-- The next character of a string, or none at its closing quote. -/
def stringCharacter (s : List Char) : Except (Fault Reason) (Option (Char × List Char)) :=
  match s with
  | [] => stopAt .endInString []
  | '"' :: _ => .ok none
  | ['\\'] => stopAt .endInString []
  | '\\' :: 'u' :: s => (unicodeEscape s).map some
  | '\\' :: c :: s =>
    match escaped? c with
    | some c => .ok (some (c, s))
    | none => stopPast .invalidEscape (c :: s)
  | c :: s =>
    if c.toNat < 0x20 then stopPast .controlCharacter (c :: s) else .ok (some (c, s))

/-- A string, after its opening quote. -/
def readString : Reader Reason String := fun s =>
  match many stringCharacter s with
  | .error e => .error e
  | .ok (cs, '"' :: r) => .ok (String.ofList cs, r)
  | .ok (_, r) => stopAt .endInString r

/-! ### Numbers -/

/-- The exponent of a number, after its `e`, with its digits. -/
def readExponent : Reader Reason Int := fun s =>
  let (negative, s) := match s with
    | '+' :: r => (false, r)
    | '-' :: r => (true, r)
    | _ => (false, s)
  match s with
  | [] => stopAt .endInValue []
  | c :: r =>
    if isDigit c then
      let (digits, r) := wordOf isDigit (c :: r)
      .ok (if negative then -(valueOf digits : Int) else valueOf digits, r)
    else stopPast .invalidNumber (c :: r)

/-- The greatest exponent that is told apart from all greater ones. -/
def exponentBound : Nat := 2147483647

/-- The text after the digits of an exponent that pass the bound: up to and
    with the first digit that does. -/
def pastBound (value : Nat) : List Char → List Char
  | [] => []
  | c :: r =>
    if isDigit c then
      let value := 10 * value + digitValue c
      if exponentBound < value then r else pastBound value r
    else c :: r

/-- A number that is not an integer: a double near `x`, or out of range.
    `exponentDigits` is where the digits of its exponent begin. -/
def doubleOf (negative : Bool) (x : Decimal) (exponent : Int) (exponentDigits rest : List Char) :
    Except (Fault Reason) (Json × List Char) :=
  if exponentBound < exponent.natAbs then
    if x.coefficient = 0 ∨ exponent < 0 then
      .ok (.number (.double (.ofMagnitude negative 0)), rest)
    else stopAt .numberOutOfRange (pastBound 0 exponentDigits)
  else
    let d := x.approximate negative
    if d.isFinite then .ok (.number (.double d), rest) else stopAt .numberOutOfRange rest

/-- The text after the sign of an exponent. -/
def skipSign : List Char → List Char
  | '+' :: r => r
  | '-' :: r => r
  | s => s

/-- The exponent of a number, if it has one, and the number. -/
def withExponent (negative : Bool) (whole fraction s : List Char) :
    Except (Fault Reason) (Json × List Char) :=
  match s with
  | c :: r =>
    if c = 'e' ∨ c = 'E' then
      match readExponent r with
      | .error e => .error e
      | .ok (e, rest) => doubleOf negative (.cut whole fraction e) e (skipSign r) rest
    else doubleOf negative (.cut whole fraction 0) 0 [] s
  | [] => doubleOf negative (.cut whole fraction 0) 0 [] s

/-- The integer with these digits. It stays an integer within 64 bits, with or
    without a sign; beyond, and for `-0`, it becomes a double. -/
def integerOf (negative : Bool) (digits rest : List Char) :
    Except (Fault Reason) (Json × List Char) :=
  let n := valueOf digits
  if negative then
    if 0 < n ∧ n ≤ Nat.pow 2 63 then .ok (.number (.integer (-n)), rest)
    else doubleOf negative (.cut digits [] 0) 0 [] rest
  else if n < Nat.pow 2 64 then .ok (.number (.integer n), rest)
  else doubleOf negative (.cut digits [] 0) 0 [] rest

/-- A number, after its sign. -/
def readNumber (negative : Bool) : Reader Reason Json
  | [] => stopAt .endInValue []
  | c :: r =>
    if !isDigit c then stopPast .invalidNumber (c :: r)
    else
      let (whole, rest) := wordOf isDigit (c :: r)
      if c = '0' ∧ whole.length ≠ 1 then stopPast .invalidNumber r
      else match rest with
        | '.' :: s =>
          let (fraction, rest) := wordOf isDigit s
          match fraction, rest with
          | [], [] => stopPast .endInValue []
          | [], rest => stopPast .invalidNumber rest
          | fraction, rest => withExponent negative whole fraction rest
        | c :: s =>
          if c = 'e' ∨ c = 'E' then withExponent negative whole [] (c :: s)
          else integerOf negative whole (c :: s)
        | [] => integerOf negative whole []

/-! ### Values -/

/-- The next item of a list, after a comma, if there is one. -/
def nextItem (inner : Reader Reason Json) (s : List Char) :
    Except (Fault Reason) (Option (Json × List Char)) :=
  match skipSpaces s with
  | ',' :: r =>
    match skipSpaces r with
    | [] => stopPast .endInValue []
    | ']' :: r => stopPast .trailingComma (']' :: r)
    | s => (inner s).map some
  | _ => .ok none

/-- A list, after its opening bracket. -/
def readList (inner : Reader Reason Json) : Reader Reason Json := fun s =>
  match skipSpaces s with
  | [] => stopPast .endInList []
  | ']' :: r => .ok (.list [], r)
  | s => do
    let (first, s) ← inner s
    let (others, s) ← many (nextItem inner) s
    match skipSpaces s with
    | ']' :: r => return (.list (first :: others), r)
    | [] => stopPast .endInList []
    | s => stopPast .expectedItem s

/-- An entry of an object, after the opening quote of its key. -/
def readEntry (inner : Reader Reason Json) : Reader Reason (String × Json) := fun s => do
  let (key, s) ← readString s
  match skipSpaces s with
  | ':' :: s =>
    let (value, s) ← inner s
    return ((key, value), s)
  | [] => stopPast .endInObject []
  | s => stopPast .expectedColon s

/-- The next entry of an object, after a comma, if there is one. -/
def nextEntry (inner : Reader Reason Json) (s : List Char) :
    Except (Fault Reason) (Option ((String × Json) × List Char)) :=
  match skipSpaces s with
  | ',' :: r =>
    match skipSpaces r with
    | [] => stopPast .endInValue []
    | '"' :: s => (readEntry inner s).map some
    | '\x7d' :: r => stopPast .trailingComma ('\x7d' :: r)
    | s => stopPast .keyNotText s
  | _ => .ok none

/-- An object, after its opening brace. -/
def readObject (inner : Reader Reason Json) : Reader Reason Json := fun s =>
  match skipSpaces s with
  | [] => stopPast .endInObject []
  | '\x7d' :: r => .ok (.object [], r)
  | '"' :: s => do
    let (first, s) ← readEntry inner s
    let (others, s) ← many (nextEntry inner) s
    match skipSpaces s with
    | '\x7d' :: r => return (ofEntries (first :: others), r)
    | [] => stopPast .endInObject []
    | s => stopPast .expectedEntry s
  | s => stopPast .keyNotText s

/-- A value whose items and entries are read by `inner`; none of them may be
    nested if there is no `inner`. -/
def readValueWith (inner : Option (Reader Reason Json)) : Reader Reason Json := fun s =>
  match skipSpaces s with
  | [] => stopPast .endInValue []
  | 'n' :: s => readWord .null "ull".toList s
  | 't' :: s => readWord (.boolean true) "rue".toList s
  | 'f' :: s => readWord (.boolean false) "alse".toList s
  | '"' :: s => (readString s).map fun (t, r) => (.text t, r)
  | '-' :: s => readNumber true s
  | '[' :: s =>
    match inner with
    | none => stopPast .tooDeep ('[' :: s)
    | some inner => readList inner s
  | '\x7b' :: s =>
    match inner with
    | none => stopPast .tooDeep ('\x7b' :: s)
    | some inner => readObject inner s
  | c :: s => if isDigit c then readNumber false (c :: s) else stopPast .expectedValue (c :: s)

/-- A value nested at most `depth` levels deep. -/
def readValue : (depth : Nat) → Reader Reason Json
  | 0 => readValueWith none
  | depth + 1 => readValueWith (some (readValue depth))

/-- The greatest nesting of lists and objects. -/
def depthLimit : Nat := 127

/-! ### Texts -/

/-- Why and where a text is not JSON. -/
structure ReadError where
  reason : Reason
  line : Nat
  column : Nat
deriving DecidableEq

/-- The wording of an error, with its place. -/
def ReadError.message (e : ReadError) : String :=
  e.reason.message ++ " at line " ++ toString e.line ++ " column " ++ toString e.column

/-- The line and the column after `count` more bytes. -/
def placeAfter (line column : Nat) : (count : Nat) → List Char → Nat × Nat
  | 0, _ => (line, column)
  | count, [] => (line, column + count)
  | count, c :: r =>
    if c = '\n' then placeAfter (line + 1) 0 (count - 1) r
    else if count < c.utf8Size then (line, column + count)
    else placeAfter line (column + c.utf8Size) (count - c.utf8Size) r

/-- The place of a fault in the text `s`. -/
def ReadError.ofFault (s : List Char) (f : Fault Reason) : ReadError :=
  let (line, column) := placeAfter 1 0 (f.offset s) s
  ⟨f.reason, line, column⟩

/-- Reads a text that is one value, with blanks around it. -/
def ofText (text : String) : Except ReadError Json :=
  let s := text.toList
  match readValue depthLimit s with
  | .error f => .error (.ofFault s f)
  | .ok (j, r) =>
    match skipSpaces r with
    | [] => .ok j
    | r => .error (.ofFault s ⟨.trailingCharacters, r, 1⟩)

end Sift.Json
