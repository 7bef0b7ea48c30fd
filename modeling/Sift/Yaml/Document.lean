import Sift.Json.Basic
import Sift.Double.Spelling
import Sift.Yaml.Event

/-!
# YAML documents as JSON values

* `Yaml.ofPlain?`: what a plain scalar means: nothing, a truth value, a number
  or a text;
* `Yaml.toJson?`: the value of a text with at most one document.

Keys are the texts that are written for them. Collections may be nested 128
levels deep, and references may be followed a hundred times for each event of
the document.
-/

namespace Sift.Yaml

open Text (isDigit hexValue?)

/-! ### Plain scalars -/

/-- The plain scalars that mean nothing, but for the empty one. -/
def isNull (s : List Char) : Bool :=
  ["null", "Null", "NULL", "~"].any fun t => t.toList == s

/-- The truth value that a text is. -/
def boolean? (s : List Char) : Option Bool :=
  if ["true", "True", "TRUE"].any fun t => t.toList == s then some true
  else if ["false", "False", "FALSE"].any fun t => t.toList == s then some false
  else none

/-- The number of the digits of a base. -/
def digits? (base : Nat) (s : List Char) : Option Nat :=
  if s.isEmpty then none
  else s.foldlM (fun n c => do
    let d ← hexValue? c
    if d < base then some (base * n + d) else none) 0

/-- The base that a number in another base than ten announces, and its
    digits. -/
def based? : List Char → Option (Nat × List Char)
  | '0' :: 'x' :: s => some (16, s)
  | '0' :: 'o' :: s => some (8, s)
  | '0' :: 'b' :: s => some (2, s)
  | _ => none

/-- Whether a number begins with a zero that it does not need: then it is a
    text. -/
def hasLeadingZero (s : List Char) : Bool :=
  match (splitSign s).2 with
  | '0' :: c :: r => (c :: r).all isDigit
  | _ => false

/-- The integer that a text is, of any size. -/
def integer? (s : List Char) : Option Int :=
  let (negative, s') := splitSign s
  match based? s' with
  | some (base, s) => (digits? base s).map fun n => if negative then -(n : Int) else n
  | none =>
    if hasLeadingZero s then none
    else (digits? 10 s').map fun n => if negative then -(n : Int) else n

/-- The number that a text is, other than an integer. What is not finite means
    nothing. -/
def float? (s : List Char) : Option Json :=
  let unsigned := match s with
    | '+' :: r => r
    | s => s
  if [".inf", ".Inf", ".INF"].any fun t => t.toList == unsigned then some .null
  else if ["-.inf", "-.Inf", "-.INF", ".nan", ".NaN", ".NAN"].any fun t => t.toList == s then
    some .null
  else if s.head? == some '+' && [some '+', some '-'].contains unsigned.head? then none
  else do
    let d ← Double.ofText? unsigned
    if d.isFinite then some (.number (.double d)) else none

/-- How an integer is read: as it is within 64 bits, with or without a sign.
    What needs no more than 128 bits is refused, and anything greater is no
    integer. -/
inductive Width where
  | fits
  | refused
  | tooGreat

/-- The way an integer is read. -/
def widthOf (i : Int) : Width :=
  let within (bits : Nat) : Bool := -(Nat.pow 2 (bits - 1) : Int) ≤ i && i < Nat.pow 2 bits
  if within 64 then .fits else if within 128 then .refused else .tooGreat

/-- What a text is if it is not an integer: another number, or a text. -/
def ofNonInteger (s : List Char) : Json :=
  if hasLeadingZero s then .text (String.ofList s) else (float? s).getD (.text (String.ofList s))

/-- What a plain scalar means. -/
def ofPlain? (s : List Char) : Option Json :=
  if s.isEmpty || isNull s then some .null
  else match boolean? s with
    | some b => some (.boolean b)
    | none =>
      match integer? s with
      | none => some (ofNonInteger s)
      | some i =>
        match widthOf i with
        | .fits => some (.number (.integer i))
        | .refused => none
        | .tooGreat => some (ofNonInteger s)

/-! ### Tags -/

/-- The tags of the language itself. -/
def coreTag (name : String) : List UInt8 := Event.corePrefix ++ name.toList.map Char.toUInt8

/-- Whether a tag is local to the document: it begins with an exclamation
    mark. -/
def isLocal (tag : List UInt8) : Bool := tag.head? == some '!'.toUInt8

/-- Whether a value with this tag is refused: its tag is local, and the name of
    the tag is a text. -/
def isRefused (tag : List UInt8) : Bool :=
  isLocal tag && (String.fromUTF8? ⟨tag.toArray⟩).isSome

/-- What a scalar with a tag means. -/
def ofTagged? (tag : List UInt8) (plain : Bool) (s : List Char) : Option Json :=
  if isRefused tag then none
  else if isLocal tag && plain then ofPlain? s
  else if tag = coreTag "bool" then (boolean? s).map .boolean
  else if tag = coreTag "int" then
    (integer? s).bind fun i =>
      match widthOf i with
      | .fits => some (.number (.integer i))
      | _ => none
  else if tag = coreTag "float" then float? s
  else if tag = coreTag "null" then if isNull s then some .null else none
  else some (.text (String.ofList s))

/-! ### References -/

/-- The events of a document, each with the number of the node that it refers
    to, if it is a reference. -/
abbrev Events := List (Event × Nat)

/-- A value put under a key. -/
def assign {κ α : Type} [DecidableEq κ] (k : κ) (v : α) : List (κ × α) → List (κ × α)
  | [] => [(k, v)]
  | (k', v') :: rest => if k' = k then (k, v) :: rest else (k', v') :: assign k v rest

/-- The anchor of an event. -/
def anchorOf : Event → Option (List Char)
  | .scalar p _ _ | .sequenceStart p | .mappingStart p => p.anchor
  | _ => none

/-- Numbers the references of a document from some position on, and collects
    the positions of the nodes that the numbers are for. An anchor gets the
    number of the anchors known before it, so an anchor that is set again may
    take the number of another one. -/
def resolve : (position : Nat) → (anchors : List (List Char × Nat)) →
    (nodes : List (Nat × Nat)) → List Event → Option (Events × List (Nat × Nat))
  | _, _, nodes, [] => some ([], nodes)
  | position, anchors, nodes, .reference name :: es => do
    let (_, number) ← anchors.find? fun a => a.1 == name
    let (rest, nodes) ← resolve (position + 1) anchors nodes es
    return ((.reference name, number) :: rest, nodes)
  | position, anchors, nodes, e :: es => do
    let (rest, nodes) ← match anchorOf e with
      | none => resolve (position + 1) anchors nodes es
      | some name =>
        let number := anchors.length
        resolve (position + 1) (assign name number anchors) (assign number position nodes) es
    return ((e, 0) :: rest, nodes)

/-! ### Values -/

/-- Reads a node: the value, the events after it, and the number of references
    followed so far. -/
abbrev NodeReader (α : Type) := Events → Nat → Option (α × Events × Nat)

/-- What reading a document needs to know about all of it. -/
structure Whole where
  /-- The events from a numbered node on. -/
  from? : Nat → Option Events
  /-- The greatest number of references that are followed. -/
  limit : Nat

/-- Reads a node with `read`, or the node that a reference refers to. -/
def follow {α : Type} (w : Whole) (read : NodeReader α) : NodeReader α
  | (.reference _, number) :: rest, followed =>
    if w.limit < followed + 1 then none
    else do
      let events ← w.from? number
      let (x, _, followed) ← read events (followed + 1)
      return (x, rest, followed)
  | events, followed => read events followed

/-- The text of a key: a scalar, whatever its tag and its quotes. -/
def key : NodeReader String
  | (.scalar _ _ text, _) :: rest, followed => some (String.ofList text, rest, followed)
  | _, _ => none

/-- The items of a sequence up to its end, at most one for each event of
    `clock`. -/
def items (inner : NodeReader Json) : (clock : Events) → NodeReader (List Json)
  | _, (.sequenceEnd, _) :: rest, followed => some ([], rest, followed)
  | [], _, _ => none
  | _ :: clock, events, followed => do
    let (x, events, followed) ← inner events followed
    let (xs, events, followed) ← items inner clock events followed
    return (x :: xs, events, followed)

/-- The entries of a mapping up to its end, at most one for each event of
    `clock`. -/
def entries (w : Whole) (inner : NodeReader Json) :
    (clock : Events) → NodeReader (List (String × Json))
  | _, (.mappingEnd, _) :: rest, followed => some ([], rest, followed)
  | [], _, _ => none
  | _ :: clock, events, followed => do
    let (k, events, followed) ← follow w key events followed
    let (x, events, followed) ← inner events followed
    let (more, events, followed) ← entries w inner clock events followed
    return ((k, x) :: more, events, followed)

/-- Whether a collection may have these properties. -/
def isCommon (p : Properties) : Bool := p.tag.all fun tag => !isRefused tag

/-- A node that is no reference, whose items and values are read by `inner`;
    without that it must be a scalar. -/
def nodeWith (w : Whole) (inner : Option (NodeReader Json)) : NodeReader Json
  | (.scalar p plain text, _) :: rest, followed =>
    let value := match p.tag with
      | some tag => ofTagged? tag plain text
      | none => if plain then ofPlain? text else some (.text (String.ofList text))
    value.map fun j => (j, rest, followed)
  | (.sequenceStart p, _) :: rest, followed =>
    if !isCommon p then none
    else do
      let (xs, rest, followed) ← items (← inner) rest rest followed
      return (.list xs, rest, followed)
  | (.mappingStart p, _) :: rest, followed =>
    if !isCommon p then none
    else do
      let (xs, rest, followed) ← entries w (← inner) rest rest followed
      return (Json.ofEntries xs, rest, followed)
  | _, _ => none

/-- A node with collections nested at most `depth` levels deep. -/
def nodeAt (w : Whole) : (depth : Nat) → NodeReader Json
  | 0 => follow w (nodeWith w none)
  | depth + 1 => follow w (nodeWith w (some (nodeAt w depth)))

/-- The value of a document. -/
def valueOf? (events : List Event) : Option Json := do
  let (resolved, nodes) ← resolve 0 [] [] events
  let w : Whole :=
    { from? := fun number => (nodes.find? fun n => n.1 == number).map fun n => resolved.drop n.2
      limit := events.length * 100 }
  let (value, _, _) ← nodeAt w 128 resolved 0
  return value

/-- The value of a text with one document; a text without any has the value
    null. -/
def toJson? (text : String) : Option Json := do
  match ← Event.ofTokens? (← Token.ofText? text.toList) with
  | [] => return .null
  | [events] => valueOf? events
  | _ => none

end Sift.Yaml
