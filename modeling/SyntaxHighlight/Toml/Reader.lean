import SyntaxHighlight.Toml.Number
import SyntaxHighlight.Toml.Scalar
import SyntaxHighlight.Toml.Table

/-! Tables out of TOML. -/
namespace SyntaxHighlight.Toml

open Unicode

/-- A part of a key: a word, or a text in quotes. -/
def keyPart? (cs : List Char) : Option (String × List Char) :=
  match cs.span fun c ↦ isAsciiLetter c || isAsciiDigit c || c == '_' || c == '-' with
  | ([], _) => lineText? cs
  | (word, rest) => some (String.ofList word, rest)

/-- A key whose parts are joined by dots: all parts but the last, and the last. -/
def key? : Nat → List Char → Option (List String × String × List Char)
  | 0, _ => none
  | fuel + 1, cs => do
    let (part, rest) ← keyPart? (skipBlanks cs)
    match skipBlanks rest with
    | '.' :: rest =>
      let (path, name, rest) ← key? fuel rest
      pure (part :: path, name, rest)
    | rest => pure ([], part, rest)

abbrev ValueReader := List Char → Option (ConfigValue × List Char)

/-- A key, the mark after it and its value. -/
def keyValue? (value : ValueReader) (cs : List Char) :
    Option (List String × String × ConfigValue × List Char) := do
  let (path, name, rest) ← key? (cs.length + 1) cs
  match rest with
  | '=' :: rest =>
    let (v, rest) ← value (skipBlanks rest)
    pure (path, name, v, skipBlanks rest)
  | _ => none

/-- The items of a list, up to the closing bracket. They may stand on several lines, and a comma
may follow the last. -/
def items? (value : ValueReader) : Nat → List Char → Option (List ConfigValue × List Char)
  | 0, _ => none
  | fuel + 1, cs =>
    match skipLines (cs.length + 1) cs with
    | ']' :: rest => some ([], rest)
    | cs => do
      let (v, rest) ← value cs
      match skipLines (rest.length + 1) rest with
      | ',' :: rest =>
        let (items, rest) ← items? value fuel rest
        pure (v :: items, rest)
      | ']' :: rest => pure ([v], rest)
      | _ => none

/-- The entries of a table in braces, up to the closing one. They stand on one line. -/
def entries? (value : ValueReader) : Nat → Node → List Char → Option (Node × List Char)
  | 0, _, _ => none
  | fuel + 1, t, cs => do
    let (path, name, v, rest) ← keyValue? value cs
    let t ← t.insert path name v
    match rest with
    | ',' :: rest => entries? value fuel t rest
    | '\x7d' :: rest => pure (t, rest)
    | _ => none

/-- A value. Lists and tables may stand one within another at most `depth` deep. -/
def value? (depth : Nat) (cs : List Char) : Option (ConfigValue × List Char) :=
  match cs with
  | '\x22' :: _ | '\x27' :: _ => (text? cs).map fun (s, rest) ↦ (.text s, rest)
  | '[' :: rest =>
    match depth with
    | 0 => none
    | depth + 1 => (items? (value? depth) (rest.length + 1) rest).map fun (items, rest) ↦
      (.list items, rest)
  | '\x7b' :: rest =>
    match depth with
    | 0 => none
    | depth + 1 =>
      match skipBlanks rest with
      | '\x7d' :: rest => some (.table [], rest)
      | rest => (entries? (value? depth) (rest.length + 1) .empty rest).map fun (t, rest) ↦
        (t.toValue, rest)
  | _ => bareValue? cs

/-- Lists and tables may stand one within another so deep. -/
def deepest : Nat := 79

/-- What follows the end of a line that holds nothing more than a comment. -/
def lineEnd? (cs : List Char) : Option (List Char) :=
  match skipComment (skipBlanks cs) with
  | [] => some []
  | cs => lineBreak? cs

/-- A header between brackets: the tables around the one it opens, and its name. -/
def header? (closing cs : List Char) : Option (List String × String × List Char) := do
  let (path, name, rest) ← key? (cs.length + 1) cs
  if rest.take closing.length = closing then some (path, name, rest.drop closing.length) else none

/-- The lines of a text. Keys belong to the table at `current`. -/
def lines? : Nat → List String → Node → List Char → Option Node
  | 0, _, _, _ => none
  | fuel + 1, current, root, cs =>
    match skipLines (cs.length + 1) cs with
    | [] => some root
    | '[' :: '[' :: rest => do
      let (path, name, rest) ← header? [']', ']'] rest
      let root ← root.within false (Node.openNext name) path
      lines? fuel (path ++ [name]) root (← lineEnd? rest)
    | '[' :: rest => do
      let (path, name, rest) ← header? [']'] rest
      let root ← root.within false (Node.openTable name) path
      lines? fuel (path ++ [name]) root (← lineEnd? rest)
    | cs => do
      let (path, name, v, rest) ← keyValue? (value? deepest) cs
      let root ← root.within false (Node.insert path name v) current
      lines? fuel current root (← lineEnd? rest)

def read (text : String) : Option (List (String × ConfigValue)) := do
  let cs := match text.toList with
    | '\ufeff' :: rest => rest
    | cs => cs
  let root ← lines? (cs.length + 1) [] .empty cs
  match root.toValue with
  | .table entries => pure entries
  | _ => none

end SyntaxHighlight.Toml
