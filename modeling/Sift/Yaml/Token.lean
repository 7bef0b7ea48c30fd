import Sift.Yaml.Scalar

/-!
# Tokens of YAML

A YAML text cut into tokens. Indentation gives tokens of its own, for the
beginnings and ends of block collections. A mapping in a block begins with its
first key, which is only known to be a key at the colon after it: so the places
of possible keys are remembered, and their tokens put in later.

* `Token`: the tokens;
* `Token.ofText?`: the tokens of a text.
-/

namespace Sift.Yaml

/-- The tokens. -/
inductive Token where
  | version (major minor : Nat)
  | handle (name : List Char) (uri : List UInt8)
  | documentStart
  | documentEnd
  | streamEnd
  | sequenceStart
  | mappingStart
  | blockEnd
  | flowSequenceStart
  | flowSequenceEnd
  | flowMappingStart
  | flowMappingEnd
  | blockEntry
  | flowEntry
  | key
  | value
  | reference (name : List Char)
  | anchor (name : List Char)
  | tag (handle : List Char) (suffix : List UInt8)
  | scalar (plain : Bool) (text : List Char)
deriving DecidableEq

/-- A place where a key may have begun. -/
structure PossibleKey where
  /-- Whether nothing but a key can stand there. -/
  required : Bool
  /-- The number of tokens before it. -/
  position : Nat
  index : Nat
  line : Nat
  column : Nat

/-- What has been cut so far. -/
structure Lexer where
  cursor : Cursor
  /-- The tokens so far, the last one first. -/
  tokens : List Token
  count : Nat
  /-- The number of flow collections around the cursor. -/
  flow : Nat
  /-- The column of the block collection around the cursor, -1 if there is
      none. -/
  indent : Int
  /-- The columns of the collections around that one. -/
  indents : List Int
  keyAllowed : Bool
  /-- The possible key of each flow level, the innermost first. -/
  keys : List (Option PossibleKey)

namespace Lexer

/-- Nothing cut yet. -/
def start (s : List Char) : Lexer where
  cursor := .ofText s
  tokens := []
  count := 0
  flow := 0
  indent := -1
  indents := []
  keyAllowed := true
  keys := [none]

/-- One more token. -/
def emit (t : Token) (s : Lexer) : Lexer := { s with tokens := t :: s.tokens, count := s.count + 1 }

/-- A token put after the first `position` tokens. -/
def emitAt (position : Nat) (t : Token) (s : Lexer) : Lexer :=
  let later := s.count - position
  { s with tokens := s.tokens.take later ++ t :: s.tokens.drop later, count := s.count + 1 }

/-- The cursor moved on. -/
def moved (c : Cursor) (s : Lexer) : Lexer := { s with cursor := c }

/-- The state in which a key may, or may not, begin. -/
def allowKey (allowed : Bool) (s : Lexer) : Lexer := { s with keyAllowed := allowed }

/-! ### Indentation -/

/-- The ends of the block collections that are indented more than `column`. -/
def unroll (column : Int) (s : Lexer) : Lexer :=
  if 0 < s.flow then s else go s.indent s.indents s
where
  go (indent : Int) : List Int → Lexer → Lexer
    | [], s => { s with indent := indent, indents := [] }
    | i :: is, s =>
      if column < indent then go i is (s.emit .blockEnd)
      else { s with indent := indent, indents := i :: is }

/-- The beginning of a block collection, if `column` is indented more than the
    one around; it goes after the first `position` tokens. -/
def roll (column : Nat) (position : Nat) (t : Token) (s : Lexer) : Lexer :=
  if s.flow = 0 ∧ s.indent < column then
    { s.emitAt position t with indent := column, indents := s.indent :: s.indents }
  else s

/-! ### Possible keys -/

/-- Whether a possible key can no longer be one: a key is on one line, and at
    most 1024 bytes before its colon. -/
def isStale (c : Cursor) (k : PossibleKey) : Bool := k.line < c.line || k.index + 1024 < c.index

/-- Forgets the possible keys that can no longer be one. -/
def dropStale (s : Lexer) : Option Lexer := do
  let keys ← s.keys.mapM fun key =>
    match key with
    | none => some none
    | some k => if isStale s.cursor k then if k.required then none else some none else some (some k)
  return { s with keys := keys }

/-- Forgets the possible key of this flow level. -/
def dropKey (s : Lexer) : Option Lexer :=
  match s.keys with
  | some k :: keys => if k.required then none else some { s with keys := none :: keys }
  | _ => some s

/-- Remembers that a key may begin here. -/
def saveKey (s : Lexer) : Option Lexer := do
  if !s.keyAllowed then return s
  let s ← s.dropKey
  let c := s.cursor
  -- at the column of a block mapping there can only be its next key
  let k : PossibleKey :=
    ⟨s.flow = 0 && s.indent = c.column, s.count, c.index, c.line, c.column⟩
  return { s with keys := some k :: s.keys.tail }

/-! ### Between tokens -/

/-- Past the blanks, comments and line breaks in front of a token. Tabs are
    blanks only where they cannot be taken for indentation. -/
def skipToToken : (rounds : Nat) → Lexer → Lexer
  | 0, s => s
  | rounds + 1, s =>
    let c := s.cursor
    -- a byte order mark may begin a line, and counts as a column
    let c := if c.column = 0 && c.has '\uFEFF' 0 then c.next else c
    let c := c.skipWhile fun x => x = ' ' || ((0 < s.flow || !s.keyAllowed) && x = '\t')
    let c := c.skipComment
    if c.atBreak then
      skipToToken rounds { s with cursor := c.nextLine, keyAllowed := s.keyAllowed || s.flow = 0 }
    else s.moved c

/-! ### Tags and names -/

/-- Octets that are escaped: `%` and two digits each. -/
def escapedOctets : (count : Nat) → Cursor → Option (List UInt8 × Cursor)
  | 0, c => some ([], c)
  | count + 1, c =>
    match c.rest with
    | '%' :: a :: b :: _ => do
      let octet := UInt8.ofNat ((← Text.hexValue? a) * 16 + (← Text.hexValue? b))
      let (octets, c) ← escapedOctets count (c.skip 3)
      return (octet :: octets, c)
    | _ => none

/-- The octets of an escaped character: the first one tells how many there are,
    and the others have the mark of followers. The number that they stand for
    is not looked at, so it need not be that of a character. -/
def escapedCharacter (c : Cursor) : Option (List UInt8 × Cursor) := do
  let (first, _) ← escapedOctets 1 c
  let octet := first.headD 0
  let count ←
    if octet < 0x80 then some 1
    else if octet / 0x20 = 6 then some 2
    else if octet / 0x10 = 14 then some 3
    else if octet / 0x08 = 30 then some 4
    else none
  let (octets, c) ← escapedOctets count c
  if octets.tail.all fun n => n / 0x40 == 2 then return (octets, c) else none

/-- The characters of the names of tags; `wide` adds those that can stand in
    them only where nothing else could be meant. -/
def isUriCharacter (wide : Bool) (x : Char) : Bool :=
  isNameCharacter x || ";/?:@&=+$.!~*'()".toList.contains x || (wide && ",[]".toList.contains x)

/-- The octets of the name of a tag. -/
def uri (wide : Bool) : (rounds : Nat) → Cursor → Option (List UInt8 × Cursor)
  | 0, c => some ([], c)
  | rounds + 1, c =>
    match c.rest with
    | [] => some ([], c)
    | x :: _ =>
      if x = '%' then do
        let (octets, c) ← escapedCharacter c
        let (more, c) ← uri wide rounds c
        return (octets ++ more, c)
      else if isUriCharacter wide x then do
        let (more, c) ← uri wide rounds c.next
        return (x.toUInt8 :: more, c)
      else some ([], c)

/-- The octets in front of the first zero, which ends a name. -/
def upToZero (octets : List UInt8) : List UInt8 := octets.takeWhile (· != 0)

/-- The handle of a tag: exclamation marks around a name, or one of them in
    front of it. -/
def tagHandle (c : Cursor) : Option (List Char × Cursor) :=
  if !c.has '!' 0 then none
  else
    let (name, c) := c.next.takeWhile isNameCharacter
    if c.has '!' 0 then some ('!' :: name ++ ['!'], c.next) else some ('!' :: name, c)

/-- A tag: its handle and the rest of its name. -/
def tag (c : Cursor) : Option (List Char × List UInt8 × Cursor) := do
  if c.has '<' 1 then
    let (name, c) ← uri true c.rest.length (c.skip 2)
    if name.isEmpty || !c.has '>' 0 then none
    return ([], upToZero name, c.next)
  let (handle, c) ← tagHandle c
  if 2 ≤ handle.length && handle.getLast? == some '!' then
    let (suffix, c) ← uri false c.rest.length c
    if suffix.isEmpty then none
    return (handle, upToZero suffix, c)
  let (more, c) ← uri false c.rest.length c
  let suffix := upToZero (handle.tail.map Char.toUInt8 ++ more)
  if suffix.isEmpty then return ([], ['!'.toUInt8], c)
  return (['!'], suffix, c)

/-! ### Directives -/

/-- A part of a version number. -/
def versionPart (c : Cursor) : Option (Nat × Cursor) :=
  let (digits, c) := c.takeWhile Text.isDigit
  if digits.isEmpty || 9 < digits.length then none else some (Text.valueOf digits, c)

/-- A directive, from its percent sign on. -/
def directive (c : Cursor) : Option (Token × Cursor) := do
  let (name, c) := c.next.takeWhile isNameCharacter
  if name.isEmpty || !c.isBlankAt 0 then none
  let c := c.skipWhile isBlank
  if name = "YAML".toList then
    let (major, c) ← versionPart c
    if !c.has '.' 0 then none
    let (minor, c) ← versionPart c.next
    return (.version major minor, ← c.finishLine?)
  else if name = "TAG".toList then
    let (handle, c) ← tagHandle c
    if handle ≠ ['!'] ∧ (handle.length < 2 ∨ handle.getLast? ≠ some '!') then none
    if !c.atBlank then none
    let (name, c) ← uri true c.rest.length (c.skipWhile isBlank)
    if name.isEmpty || !c.isBlankAt 0 then none
    return (.handle handle (upToZero name), ← c.finishLine?)
  else none

/-! ### Tokens one by one -/

/-- The marks between documents. -/
def documentMark (t : Token) (s : Lexer) : Option Lexer := do
  let s ← (s.unroll (-1)).dropKey
  return ((s.allowKey false).emit t).moved (s.cursor.skip 3)

/-- The beginning of a flow collection, which may be a key itself. -/
def flowStart (t : Token) (s : Lexer) : Option Lexer := do
  let s ← s.saveKey
  return (({ s with keys := none :: s.keys, flow := s.flow + 1 }.allowKey true).emit t).moved
    s.cursor.next

/-- The end of a flow collection. -/
def flowEnd (t : Token) (s : Lexer) : Option Lexer := do
  let s ← s.dropKey
  let s := if 0 < s.flow then { s with keys := s.keys.tail, flow := s.flow - 1 } else s
  return ((s.allowKey false).emit t).moved s.cursor.next

/-- A comma between the entries of a flow collection. -/
def flowEntry (s : Lexer) : Option Lexer := do
  let s ← s.dropKey
  return ((s.allowKey true).emit .flowEntry).moved s.cursor.next

/-- The dash in front of an item of a block sequence. -/
def blockEntry (s : Lexer) : Option Lexer := do
  if s.flow = 0 && !s.keyAllowed then none
  let s ← (s.roll s.cursor.column s.count .sequenceStart).dropKey
  return ((s.allowKey true).emit .blockEntry).moved s.cursor.next

/-- A question mark in front of a key. -/
def key (s : Lexer) : Option Lexer := do
  if s.flow = 0 && !s.keyAllowed then none
  let s ← (s.roll s.cursor.column s.count .mappingStart).dropKey
  return ((s.allowKey (s.flow = 0)).emit .key).moved s.cursor.next

/-- The colon in front of a value. What was a possible key until now is one. -/
def value (s : Lexer) : Option Lexer :=
  match s.keys with
  | some k :: keys =>
    -- the beginning of the mapping goes in front of the key
    let s := { s.emitAt k.position .key with keys := none :: keys }
    let s := (s.roll k.column k.position .mappingStart).allowKey false
    some ((s.emit .value).moved s.cursor.next)
  | _ =>
    if s.flow = 0 && !s.keyAllowed then none
    else
      let s := s.roll s.cursor.column s.count .mappingStart
      some (((s.allowKey (s.flow = 0)).emit .value).moved s.cursor.next)

/-- An anchor or an alias. -/
def name (t : List Char → Token) (s : Lexer) : Option Lexer := do
  let s ← s.saveKey
  let (name, c) := s.cursor.next.takeWhile isNameCharacter
  if name.isEmpty || !(c.isBlankAt 0 || c.hasOneOf "?:,]\x7d%@`".toList 0) then none
  return ((s.allowKey false).emit (t name)).moved c

/-- The tag of a node. -/
def tagged (s : Lexer) : Option Lexer := do
  let s ← s.saveKey
  let (handle, suffix, c) ← tag s.cursor
  if !(c.isBlankAt 0 || (0 < s.flow && c.has ',' 0)) then none
  return ((s.allowKey false).emit (.tag handle suffix)).moved c

/-- A text in a block of lines. -/
def block (literal : Bool) (s : Lexer) : Option Lexer := do
  let s ← s.dropKey
  let (text, c) ← Scalar.block literal s.indent s.cursor
  return ((s.allowKey true).emit (.scalar false text)).moved c

/-- A text between quotes. -/
def quoted (single : Bool) (s : Lexer) : Option Lexer := do
  let s ← s.saveKey
  let (text, c) ← Scalar.quoted single s.cursor
  return ((s.allowKey false).emit (.scalar false text)).moved c

/-- A text without quotes; after a line break in it, a key may begin. -/
def plain (s : Lexer) : Option Lexer := do
  let s ← s.saveKey
  let (text, broken, c) ← Scalar.plain (0 < s.flow) (s.indent + 1) s.cursor
  return ((s.allowKey broken).emit (.scalar true text)).moved c

/-- The characters that a plain text cannot begin with. -/
def indicators : List Char := "-?:,[]\x7b\x7d#&*!|>'\"%@`".toList

/-- Whether a plain text begins at the cursor. -/
def plainBegins (s : Lexer) (x : Char) : Bool :=
  let c := s.cursor
  (!c.isBlankAt 0 && !indicators.contains x) || (x = '-' && !c.rest[1]?.any isBlank) ||
    (s.flow = 0 && (x = '?' || x = ':') && !c.isBlankAt 1)

/-- The next token, or none at the end of the text. -/
def next (s : Lexer) : Option (Option Lexer) := do
  let s ← (s.skipToToken (s.cursor.rest.length + 1)).dropStale
  let s := s.unroll s.cursor.column
  let c := s.cursor
  match c.rest with
  | [] => return none
  | x :: _ =>
    let some s ← (
      if c.column = 0 && x = '%' then do
        let s ← (s.unroll (-1)).dropKey
        let (t, c) ← directive c
        return some (((s.allowKey false).emit t).moved c)
      else if c.atMark '-' then (s.documentMark .documentStart).map some
      else if c.atMark '.' then (s.documentMark .documentEnd).map some
      else if x = '[' then (s.flowStart .flowSequenceStart).map some
      else if x = '\x7b' then (s.flowStart .flowMappingStart).map some
      else if x = ']' then (s.flowEnd .flowSequenceEnd).map some
      else if x = '\x7d' then (s.flowEnd .flowMappingEnd).map some
      else if x = ',' then s.flowEntry.map some
      else if x = '-' && c.isBlankAt 1 then s.blockEntry.map some
      else if x = '?' && (0 < s.flow || c.isBlankAt 1) then s.key.map some
      else if x = ':' && (0 < s.flow || c.isBlankAt 1) then s.value.map some
      else if x = '*' then (s.name .reference).map some
      else if x = '&' then (s.name .anchor).map some
      else if x = '!' then s.tagged.map some
      else if x = '|' && s.flow = 0 then (s.block true).map some
      else if x = '>' && s.flow = 0 then (s.block false).map some
      else if x = '\'' then (s.quoted true).map some
      else if x = '"' then (s.quoted false).map some
      else if s.plainBegins x then s.plain.map some
      else none : Option (Option Lexer)) | none
    return some s

/-- The end of the text: all block collections end. -/
def finish (s : Lexer) : Option Lexer := do
  let s ← (s.skipToToken (s.cursor.rest.length + 1)).dropStale
  let s ← (s.unroll (-1)).dropKey
  return s.emit .streamEnd

/-- All tokens from here on. -/
def run : (rounds : Nat) → Lexer → Option Lexer
  | 0, s => s.finish
  | rounds + 1, s => do
    match ← s.next with
    | none => s.finish
    | some s => run rounds s

end Lexer

/-- The tokens of a text. -/
def Token.ofText? (s : List Char) : Option (List Token) :=
  if s.all isAllowed then (Lexer.run s.length (.start s)).map fun s => s.tokens.reverse
  else none

end Sift.Yaml
