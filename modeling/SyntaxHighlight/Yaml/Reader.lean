import SyntaxHighlight.Data.Basic
import SyntaxHighlight.Yaml.Token

/-! Structured data out of YAML. -/
namespace SyntaxHighlight.Yaml

/-- Digits with a zero ahead of them are no number. -/
def isPadded (cs : List Char) : Bool :=
  match cs with
  | '0' :: rest => !rest.isEmpty && rest.all Unicode.isAsciiDigit
  | _ => false

/-- A sign, if there is one, and what follows it. -/
def signed (cs : List Char) : Bool × List Char :=
  match cs with
  | '-' :: rest => (true, rest)
  | '+' :: rest => (false, rest)
  | _ => (false, cs)

def isIn (p : Char → Bool) (cs : List Char) : Bool := !cs.isEmpty && cs.all p

/-- The number that a bare word spells, in base ten, sixteen, eight or two. -/
def integer? (cs : List Char) : Option Int :=
  let (negative, digits) := signed cs
  let n? : Option Nat := match digits with
    | '0' :: 'x' :: rest =>
      if isIn Unicode.isHexDigit rest then some (numeralValue 16 rest) else none
    | '0' :: 'o' :: rest =>
      if isIn (fun c ↦ '0' ≤ c && c ≤ '7') rest then some (numeralValue 8 rest) else none
    | '0' :: 'b' :: rest =>
      if isIn (fun c ↦ c == '0' || c == '1') rest then some (numeralValue 2 rest) else none
    | _ =>
      if isIn Unicode.isAsciiDigit digits && !isPadded digits then some (numeralValue 10 digits)
      else none
  n?.map fun n ↦ if negative then -(n : Int) else n

/-- Whether a bare word spells a number with a fraction or an exponent, or one without bound. -/
def isReal (cs : List Char) : Bool :=
  let (_, body) := signed cs
  let (whole, rest) := body.span Unicode.isAsciiDigit
  let (fraction, rest) := match rest with
    | '.' :: rest => rest.span Unicode.isAsciiDigit
    | _ => ([], rest)
  let exponent := match rest with
    | e :: rest => (e == 'e' || e == 'E') && isIn Unicode.isAsciiDigit (signed rest).2
    | [] => true
  [".inf", ".Inf", ".INF"].contains (String.ofList body) ||
    [".nan", ".NaN", ".NAN"].contains (String.ofList cs) ||
    !isPadded body && !(whole.isEmpty && fraction.isEmpty) && exponent

def isNull (s : String) : Bool := s.isEmpty || ["null", "Null", "NULL", "~"].contains s

def bool? (s : String) : Option Bool :=
  if ["true", "True", "TRUE"].contains s then some true
  else if ["false", "False", "FALSE"].contains s then some false
  else none

def bareScalar (s : String) : Data :=
  if isNull s then .word s .null
  else
    match bool? s, integer? s.toList with
    | some b, _ => .word s (.bool b)
    | none, some n => .word s (.integer n)
    | none, none => if isReal s.toList then .word s .real else .text s

/-- A scalar with its tag. The tags of the usual kinds of values decide what it means; others say
nothing. -/
def scalar (tag : Option String) (s : String) (bare : Bool) : Option Data :=
  match tag with
  | some "!!str" => some (.text s)
  | some "!!bool" => (bool? s).map fun b ↦ .word s (.bool b)
  | some "!!int" => (integer? s.toList).map fun n ↦ .word s (.integer n)
  | some "!!float" =>
    if isReal s.toList || (integer? s.toList).isSome then some (.word s .real) else none
  | some "!!null" => if isNull s then some (.word s .null) else none
  | _ => some (if bare then bareScalar s else .text s)

/-- Where nothing is written. -/
def nothing : Data := .word "" .null

/-- The nodes that have been given a name. -/
abbrev Anchors := List (String × Data)

/-- A reader of nodes: the tokens that follow the node, and the names given so far. -/
abbrev NodeReader := List Token → Anchors → Option (Data × List Token × Anchors)

/-- An anchor and a tag ahead of a node, in any order. -/
def properties : Nat → Option String → Option String → List Token →
    Option String × Option String × List Token
  | 0, anchor, tag, ts => (anchor, tag, ts)
  | fuel + 1, none, tag, .anchor name :: ts => properties fuel (some name) tag ts
  | fuel + 1, anchor, none, .tag text :: ts => properties fuel anchor (some text) ts
  | _, anchor, tag, ts => (anchor, tag, ts)

/-- A node, unless one of the given tokens follows at once. -/
def nodeUnless (stops : List Token) (node : NodeReader) : NodeReader := fun ts anchors ↦
  match ts with
  | t :: _ => if stops.contains t then some (nothing, ts, anchors) else node ts anchors
  | [] => none

/-- A value after its mark, or nothing. -/
def valueUnless (stops : List Token) (node : NodeReader) : NodeReader := fun ts anchors ↦
  match ts with
  | .value :: ts => nodeUnless stops node ts anchors
  | _ => some (nothing, ts, anchors)

/-- The entries of a block sequence, up to its end. -/
def blockItems (node : NodeReader) :
    Nat → List Token → Anchors → Option (List Data × List Token × Anchors)
  | 0, _, _ => none
  | fuel + 1, ts, anchors =>
    match ts with
    | .blockEnd :: ts => some ([], ts, anchors)
    | .blockEntry :: ts => do
      let (item, ts, anchors) ← nodeUnless [.blockEntry, .blockEnd] node ts anchors
      let (items, ts, anchors) ← blockItems node fuel ts anchors
      some (item :: items, ts, anchors)
    | _ => none

/-- The entries of a sequence that stands at the column of the mapping around it. -/
def indentlessItems (node : NodeReader) :
    Nat → List Token → Anchors → Option (List Data × List Token × Anchors)
  | 0, _, _ => none
  | fuel + 1, ts, anchors =>
    match ts with
    | .blockEntry :: ts => do
      let (item, ts, anchors) ← nodeUnless [.blockEntry, .key, .value, .blockEnd] node ts anchors
      let (items, ts, anchors) ← indentlessItems node fuel ts anchors
      some (item :: items, ts, anchors)
    | _ => some ([], ts, anchors)

/-- The entries of a block mapping, up to its end. -/
def blockEntries (node : NodeReader) :
    Nat → List Token → Anchors → Option (List (Data × Data) × List Token × Anchors)
  | 0, _, _ => none
  | fuel + 1, ts, anchors =>
    match ts with
    | .blockEnd :: ts => some ([], ts, anchors)
    | .key :: ts => do
      let (key, ts, anchors) ← nodeUnless [.key, .value, .blockEnd] node ts anchors
      let (value, ts, anchors) ← valueUnless [.key, .value, .blockEnd] node ts anchors
      let (entries, ts, anchors) ← blockEntries node fuel ts anchors
      some ((key, value) :: entries, ts, anchors)
    | _ => none

/-- Whether a comma or the end follows, and the tokens after the comma. -/
def afterComma (closing : Token) (first : Bool) (ts : List Token) : Option (List Token) :=
  match ts with
  | t :: rest =>
    if t = closing || first then some ts else if t = .flowEntry then some rest else none
  | [] => none

/-- The entries of a flow sequence. A key in it makes up a mapping of its own. -/
def flowItems (node : NodeReader) :
    Nat → Bool → List Token → Anchors → Option (List Data × List Token × Anchors)
  | 0, _, _, _ => none
  | fuel + 1, first, ts, anchors => do
    match ← afterComma .flowSequenceEnd first ts with
    | .flowSequenceEnd :: ts => some ([], ts, anchors)
    | .key :: ts => do
      let (key, ts, anchors) ← nodeUnless [.value, .flowEntry, .flowSequenceEnd] node ts anchors
      let (value, ts, anchors) ← valueUnless [.flowEntry, .flowSequenceEnd] node ts anchors
      let (items, ts, anchors) ← flowItems node fuel false ts anchors
      some (.map [(key, value)] :: items, ts, anchors)
    | ts => do
      let (item, ts, anchors) ← node ts anchors
      let (items, ts, anchors) ← flowItems node fuel false ts anchors
      some (item :: items, ts, anchors)

/-- The entries of a flow mapping. A node in it that is no key has no value. -/
def flowEntries (node : NodeReader) :
    Nat → Bool → List Token → Anchors → Option (List (Data × Data) × List Token × Anchors)
  | 0, _, _, _ => none
  | fuel + 1, first, ts, anchors => do
    match ← afterComma .flowMappingEnd first ts with
    | .flowMappingEnd :: ts => some ([], ts, anchors)
    | .key :: ts => do
      let (key, ts, anchors) ← nodeUnless [.value, .flowEntry, .flowMappingEnd] node ts anchors
      let (value, ts, anchors) ← valueUnless [.flowEntry, .flowMappingEnd] node ts anchors
      let (entries, ts, anchors) ← flowEntries node fuel false ts anchors
      some ((key, value) :: entries, ts, anchors)
    | ts => do
      let (key, ts, anchors) ← node ts anchors
      let (entries, ts, anchors) ← flowEntries node fuel false ts anchors
      some ((key, nothing) :: entries, ts, anchors)

/-- What a node consists of, after its properties. Collections stand one within another at most
`depth` deep. -/
def content (depth : Nat) (within : Bool → Bool → NodeReader) (inBlock indentless : Bool)
    (anchor tag : Option String) : NodeReader := fun ts anchors ↦
  let fuel := ts.length + 1
  let list (r : Option (List Data × List Token × Anchors)) :=
    if depth = 0 then none else r.map fun (items, ts, anchors) ↦ (Data.list items, ts, anchors)
  let map (r : Option (List (Data × Data) × List Token × Anchors)) :=
    if depth = 0 then none else r.map fun (entries, ts, anchors) ↦ (Data.map entries, ts, anchors)
  match ts with
  | .scalar s bare :: ts => (scalar tag s bare).map fun d ↦ (d, ts, anchors)
  | .flowSequence :: ts => list (flowItems (within false false) fuel true ts anchors)
  | .flowMapping :: ts => map (flowEntries (within false false) fuel true ts anchors)
  | .blockEntry :: _ =>
    if indentless then list (indentlessItems (within true false) fuel ts anchors)
    else if anchor.isSome || tag.isSome then some (nothing, ts, anchors)
    else none
  | .blockSequence :: rest =>
    if inBlock then list (blockItems (within true false) fuel rest anchors)
    else if anchor.isSome || tag.isSome then some (nothing, ts, anchors)
    else none
  | .blockMapping :: rest =>
    if inBlock then map (blockEntries (within true true) fuel rest anchors)
    else if anchor.isSome || tag.isSome then some (nothing, ts, anchors)
    else none
  | _ => if anchor.isSome || tag.isSome then some (nothing, ts, anchors) else none

/-- A node. In a block, collections may be written as blocks; right within a block mapping, a
sequence need not be indented. -/
def node : Nat → Bool → Bool → NodeReader
  | 0, _, _, _, _ => none
  | depth + 1, inBlock, indentless, ts, anchors =>
    match ts with
    | .reference name :: ts => (anchors.lookup name).map fun d ↦ (d, ts, anchors)
    | _ => do
      let (anchor, tag, ts) := properties 2 none none ts
      let (d, ts, anchors) ← content depth (node depth) inBlock indentless anchor tag ts anchors
      some (d, ts, (anchor.map fun name ↦ (name, d)).toList ++ anchors)

/-- Collections may stand one within another so deep. -/
def deepest : Nat := 128

/-- The data of a text that is one document. A text without a document is empty. -/
def read (text : String) : Option Data := do
  let ts := (← tokens? text.toList).toList
  let explicit := match ts with
    | .directive :: _ | .documentStart :: _ => true
    | _ => false
  let ts ←
    if explicit then
      match ts.dropWhile (· == .directive) with
      | .documentStart :: ts => some ts
      | _ => none
    else some ts
  let (d, ts) ←
    match ts with
    | [] | .directive :: _ | .documentStart :: _ => some (nothing, ts)
    | .documentEnd :: _ => if explicit then some (nothing, ts) else none
    | _ => (node (deepest + 1) true false ts []).map fun (d, ts, _) ↦ (d, ts)
  if ts.all (· == .documentEnd) then some d else none

end SyntaxHighlight.Yaml
