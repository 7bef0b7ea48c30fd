import Sift.Yaml.Token

/-!
# Events of YAML

The structure of a YAML document, laid out flat: scalars, references to
earlier nodes, and the beginnings and ends of collections.

* `Event`: the events;
* `Event.ofTokens?`: the events of each document of a text.

Every recursive call here reads a token, or is about one that was read just
before, so twice the number of tokens bounds the depth of the calls.
-/

namespace Sift.Yaml

/-- The anchor and the tag of a node. -/
structure Properties where
  anchor : Option (List Char)
  tag : Option (List UInt8)
deriving DecidableEq

/-- The events. -/
inductive Event where
  | scalar (properties : Properties) (plain : Bool) (text : List Char)
  | sequenceStart (properties : Properties)
  | sequenceEnd
  | mappingStart (properties : Properties)
  | mappingEnd
  | reference (name : List Char)
deriving DecidableEq

/-- The handles of tags and what they stand for. -/
abbrev Handles := List (List Char × List UInt8)

namespace Event

/-- A node that nothing was written for. -/
def nothing : Event := scalar ⟨none, none⟩ true []

/-- The properties of a node with neither an anchor nor a tag. -/
def unnamed : Properties := ⟨none, none⟩

/-- The full name of a tag. -/
def tagName (handles : Handles) (handle : List Char) (suffix : List UInt8) :
    Option (List UInt8) :=
  if handle.isEmpty then some suffix
  else (handles.find? fun h => h.1 == handle).map fun h => h.2 ++ suffix

/-- The anchor and the tag in front of a node, in either order. -/
def properties (handles : Handles) : List Token → Option (Properties × List Token)
  | .anchor name :: .tag handle suffix :: ts
  | .tag handle suffix :: .anchor name :: ts =>
    (tagName handles handle suffix).map fun tag => (⟨some name, some tag⟩, ts)
  | .anchor name :: ts => some (⟨some name, none⟩, ts)
  | .tag handle suffix :: ts =>
    (tagName handles handle suffix).map fun tag => (⟨none, some tag⟩, ts)
  | ts => some (unnamed, ts)

/-- Whether the next token is one of those in front of which nothing stands for
    a node. -/
def startsWith (enders : List Token) (ts : List Token) : Bool := ts.head?.any enders.contains

mutual

/-- The events of a node. In a block a node may be a block collection, and a
    sequence whose entries are not indented may begin after a key or a
    value. -/
def node (handles : Handles) (inBlock indentless : Bool) :
    (rounds : Nat) → List Token → Option (List Event × List Token)
  | 0, _ => none
  | rounds + 1, ts =>
    match ts with
    | .reference name :: ts => some ([reference name], ts)
    | ts => do
      let (p, ts) ← properties handles ts
      match ts with
      | .scalar plain text :: ts => return ([scalar p plain text], ts)
      | .flowSequenceStart :: ts =>
        let (es, ts) ← flowItems handles true rounds ts
        return (sequenceStart p :: es ++ [sequenceEnd], ts)
      | .flowMappingStart :: ts =>
        let (es, ts) ← flowEntries handles true rounds ts
        return (mappingStart p :: es ++ [mappingEnd], ts)
      | ts =>
        if indentless && startsWith [.blockEntry] ts then
          let (es, ts) ← indentlessItems handles rounds ts
          return (sequenceStart p :: es ++ [sequenceEnd], ts)
        else match ts with
          -- within a flow collection no block collection begins
          | .sequenceStart :: ts' =>
            if !inBlock then blank p ts
            else
              let (es, ts) ← blockItems handles rounds ts'
              return (sequenceStart p :: es ++ [sequenceEnd], ts)
          | .mappingStart :: ts' =>
            if !inBlock then blank p ts
            else
              let (es, ts) ← blockEntries handles rounds ts'
              return (mappingStart p :: es ++ [mappingEnd], ts)
          | ts => blank p ts
termination_by structural rounds => rounds

/-- A node of which only an anchor or a tag is written. -/
def blank (p : Properties) (ts : List Token) : Option (List Event × List Token) :=
  if p = unnamed then none else some ([scalar p true []], ts)

/-- A node, or nothing in front of one of the tokens. -/
def nodeUnless (handles : Handles) (inBlock indentless : Bool) (enders : List Token) :
    (rounds : Nat) → List Token → Option (List Event × List Token)
  | 0, _ => none
  | rounds + 1, ts =>
    if startsWith enders ts then some ([nothing], ts) else node handles inBlock indentless rounds ts
termination_by structural rounds => rounds

/-- The items of a block sequence, after its beginning. -/
def blockItems (handles : Handles) : (rounds : Nat) → List Token → Option (List Event × List Token)
  | 0, _ => none
  | rounds + 1, ts =>
    match ts with
    | .blockEntry :: ts => do
      let (es, ts) ← nodeUnless handles true false [.blockEntry, .blockEnd] rounds ts
      let (more, ts) ← blockItems handles rounds ts
      return (es ++ more, ts)
    | .blockEnd :: ts => some ([], ts)
    | _ => none
termination_by structural rounds => rounds

/-- The items of a block sequence that is not indented. -/
def indentlessItems (handles : Handles) :
    (rounds : Nat) → List Token → Option (List Event × List Token)
  | 0, _ => none
  | rounds + 1, ts =>
    match ts with
    | .blockEntry :: ts => do
      let (es, ts) ←
        nodeUnless handles true false [.blockEntry, .key, .value, .blockEnd] rounds ts
      let (more, ts) ← indentlessItems handles rounds ts
      return (es ++ more, ts)
    | ts => some ([], ts)
termination_by structural rounds => rounds

/-- The entries of a block mapping, after its beginning. -/
def blockEntries (handles : Handles) :
    (rounds : Nat) → List Token → Option (List Event × List Token)
  | 0, _ => none
  | rounds + 1, ts =>
    match ts with
    | .key :: ts => do
      let (ks, ts) ← nodeUnless handles true true [.key, .value, .blockEnd] rounds ts
      let (vs, ts) ← match ts with
        | .value :: ts => nodeUnless handles true true [.key, .value, .blockEnd] rounds ts
        | ts => some ([nothing], ts)
      let (more, ts) ← blockEntries handles rounds ts
      return (ks ++ vs ++ more, ts)
    | .blockEnd :: ts => some ([], ts)
    | _ => none
termination_by structural rounds => rounds

/-- The items of a flow sequence, up to its end; before all but the first there
    is a comma. An item may be a mapping of a single entry. -/
def flowItems (handles : Handles) (first : Bool) :
    (rounds : Nat) → List Token → Option (List Event × List Token)
  | 0, _ => none
  | rounds + 1, ts =>
    match ts with
    | .flowSequenceEnd :: ts => some ([], ts)
    | ts => do
      let ts ← match first, ts with
        | true, ts => some ts
        | false, .flowEntry :: ts => some ts
        | false, _ => none
      match ts with
      | .flowSequenceEnd :: ts => return ([], ts)
      | .key :: ts =>
        -- the token in front of which an empty key stands goes with it
        let (ks, ts) ←
          if startsWith [.value, .flowEntry, .flowSequenceEnd] ts then some ([nothing], ts.tail)
          else node handles false false rounds ts
        let (vs, ts) ← match ts with
          | .value :: ts =>
            nodeUnless handles false false [.flowEntry, .flowSequenceEnd] rounds ts
          | ts => some ([nothing], ts)
        let (more, ts) ← flowItems handles false rounds ts
        return (mappingStart unnamed :: ks ++ vs ++ mappingEnd :: more, ts)
      | ts =>
        let (es, ts) ← node handles false false rounds ts
        let (more, ts) ← flowItems handles false rounds ts
        return (es ++ more, ts)
termination_by structural rounds => rounds

/-- The entries of a flow mapping, up to its end; before all but the first
    there is a comma. An entry without a colon has no value. -/
def flowEntries (handles : Handles) (first : Bool) :
    (rounds : Nat) → List Token → Option (List Event × List Token)
  | 0, _ => none
  | rounds + 1, ts =>
    match ts with
    | .flowMappingEnd :: ts => some ([], ts)
    | ts => do
      let ts ← match first, ts with
        | true, ts => some ts
        | false, .flowEntry :: ts => some ts
        | false, _ => none
      match ts with
      | .flowMappingEnd :: ts => return ([], ts)
      | .key :: ts =>
        let (ks, ts) ←
          nodeUnless handles false false [.value, .flowEntry, .flowMappingEnd] rounds ts
        let (vs, ts) ← match ts with
          | .value :: ts =>
            nodeUnless handles false false [.flowEntry, .flowMappingEnd] rounds ts
          | ts => some ([nothing], ts)
        let (more, ts) ← flowEntries handles false rounds ts
        return (ks ++ vs ++ more, ts)
      | ts =>
        let (ks, ts) ← node handles false false rounds ts
        let (more, ts) ← flowEntries handles false rounds ts
        return (ks ++ nothing :: more, ts)
termination_by structural rounds => rounds

end

/-! ### Documents -/

/-- What the names of the tags of the language itself begin with. -/
def corePrefix : List UInt8 := "tag:yaml.org,2002:".toList.map Char.toUInt8

/-- The handles that every document has. -/
def standardHandles : Handles := [(['!'], ['!'.toUInt8]), ("!!".toList, corePrefix)]

/-- The directives in front of a document: at most one version, 1.1 or 1.2, and
    each handle once. -/
def directives (versioned : Bool) (handles : Handles) :
    List Token → Option (Handles × List Token)
  | .version major minor :: ts =>
    if versioned || major != 1 || !(minor == 1 || minor == 2) then none
    else directives true handles ts
  | .handle name uri :: ts =>
    if handles.any fun h => h.1 == name then none
    else directives versioned (handles ++ [(name, uri)]) ts
  | ts => some (handles ++ standardHandles, ts)

/-- The events of a document after its directives and its mark. -/
def content (handles : Handles) (ts : List Token) : Option (List Event × List Token) :=
  match ts with
  | .version _ _ :: _ | .handle _ _ :: _ | .documentStart :: _ | .documentEnd :: _
  | .streamEnd :: _ => some ([nothing], ts)
  | ts => node handles true false (2 * ts.length + 2) ts

/-- The documents of a text, after the first one. -/
def documents : (rounds : Nat) → List Token → Option (List (List Event))
  | 0, _ => none
  | rounds + 1, ts =>
    match ts.dropWhile (· == .documentEnd) with
    | [.streamEnd] => some []
    | ts => do
      let (handles, ts) ← directives false [] ts
      match ts with
      | .documentStart :: ts =>
        let (es, ts) ← content handles ts
        return es :: (← documents rounds ts)
      | _ => none

/-- The events of each document of a text. The first document need not have a
    mark in front of it. -/
def ofTokens? (ts : List Token) : Option (List (List Event)) :=
  match ts with
  | .version _ _ :: _ | .handle _ _ :: _ | .documentStart :: _ | .streamEnd :: _ =>
    documents (ts.length + 1) ts
  | ts => do
    let (es, ts) ← node standardHandles true false (2 * ts.length + 2) ts
    return es :: (← documents (ts.length + 1) ts)

end Event

end Sift.Yaml
