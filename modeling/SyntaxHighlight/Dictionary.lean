/-! Values under names, each name once, in the order of the names. -/
namespace SyntaxHighlight

structure Dictionary (α : Type) where
  entries : List (String × α)
deriving DecidableEq, Repr

namespace Dictionary

variable {α β : Type}

instance : Inhabited (Dictionary α) := ⟨⟨[]⟩⟩

def empty : Dictionary α := ⟨[]⟩

def isEmpty (d : Dictionary α) : Bool := d.entries.isEmpty

def get? (d : Dictionary α) (name : String) : Option α := d.entries.lookup name

def names (d : Dictionary α) : List String := d.entries.map Prod.fst

/-- Puts a value under a name, in place of the one that is there. -/
def insert (d : Dictionary α) (name : String) (value : α) : Dictionary α :=
  let others := d.entries.filter (·.1 ≠ name)
  ⟨others.takeWhile (·.1 < name) ++ (name, value) :: others.dropWhile (·.1 < name)⟩

def erase (d : Dictionary α) (name : String) : Dictionary α :=
  ⟨d.entries.filter (·.1 ≠ name)⟩

def filter (p : α → Bool) (d : Dictionary α) : Dictionary α :=
  ⟨d.entries.filter fun e ↦ p e.2⟩

/-- Of several values for one name, the last counts. -/
def ofList (entries : List (String × α)) : Dictionary α :=
  entries.foldl (fun d e ↦ d.insert e.1 e.2) empty

end Dictionary

end SyntaxHighlight
