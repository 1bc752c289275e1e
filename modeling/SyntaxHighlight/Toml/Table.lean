import SyntaxHighlight.Config.Value

/-!
Tables while a TOML text is read. A table may be opened by a header, come into being because a
header names a table within it, or come into being because a key has dots in it. It may be added
to in that way only.
-/
namespace SyntaxHighlight.Toml

inductive Origin where
  /-- By a header, or by braces. -/
  | opened
  /-- By the header of a table within it. -/
  | implied
  /-- By a key with dots. -/
  | dotted
deriving DecidableEq, Repr

inductive Node where
  | value (v : ConfigValue)
  | table (origin : Origin) (entries : List (String × Node))
  /-- Tables under one header each, the last first. -/
  | tables (newest : Node) (earlier : List Node)
deriving Inhabited

namespace Node

def empty : Node := .table .opened []

def alter (name : String) (f : Option Node → Option Node) : Node → Option Node
  | .table origin entries => do
    let node ← f (entries.lookup name)
    if entries.any (·.1 = name) then
      pure (.table origin (entries.map fun e ↦ if e.1 = name then (name, node) else e))
    else pure (.table origin (entries ++ [(name, node)]))
  | _ => none

/-- Changes the table at the end of a path. Tables on the way come into being where they are
missing. Of several tables under one header, the path goes through the newest. A dotted key does
not reach into a table that has been opened. -/
def within (dotted : Bool) (f : Node → Option Node) : List String → Node → Option Node
  | [], node => f node
  | name :: path, node => node.alter name fun
    | none => within dotted f path (.table (if dotted then .dotted else .implied) [])
    | some (.table origin entries) =>
      if dotted && origin = .opened then none else within dotted f path (.table origin entries)
    | some (.tables newest earlier) =>
      (within dotted f path newest).map fun newest ↦ .tables newest earlier
    | some (.value _) => none

/-- Opens a table in the table around it. -/
def openTable (name : String) : Node → Option Node :=
  alter name fun
    | none => some empty
    | some (.table .implied entries) => some (.table .opened entries)
    | _ => none

/-- Opens one more of the tables under a name. -/
def openNext (name : String) : Node → Option Node :=
  alter name fun
    | none => some (.tables empty [])
    | some (.tables newest earlier) => some (.tables empty (newest :: earlier))
    | _ => none

/-- Enters a value under a name that is free. The table has come from dots exactly if the key has
dots. -/
def define (dotted : Bool) (name : String) (v : ConfigValue) : Node → Option Node
  | .table origin entries =>
    if (origin = .dotted) = dotted then
      (Node.table origin entries).alter name fun
        | none => some (.value v)
        | some _ => none
    else none
  | _ => none

/-- Enters a value under a key, in the table that the key starts from. -/
def insert (path : List String) (name : String) (v : ConfigValue) (t : Node) : Option Node :=
  within true (define (!path.isEmpty) name v) path t

mutual

def toValue : Node → ConfigValue
  | .value v => v
  | .table _ entries => .table (entryValues entries)
  | .tables newest earlier => .list ((newest.toValue :: values earlier).reverse)

def values : List Node → List ConfigValue
  | [] => []
  | node :: nodes => node.toValue :: values nodes

def entryValues : List (String × Node) → List (String × ConfigValue)
  | [] => []
  | (name, node) :: entries => (name, node.toValue) :: entryValues entries

end

end Node

end SyntaxHighlight.Toml
