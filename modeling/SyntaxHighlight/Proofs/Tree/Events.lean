import SyntaxHighlight.Proofs.Tree.Content
import SyntaxHighlight.Proofs.Tree.Nesting

/-! What a walk over a tree under construction has met so far. More is only met after that. -/
namespace SyntaxHighlight

theorem Tree.walkAll_append (ts us : List Tree) :
    walkAll (ts ++ us) = walkAll ts ++ walkAll us := by
  induction ts with
  | nil => rfl
  | cons t ts ih => rw [List.cons_append, walkAll, walkAll, ih, List.append_assoc]

theorem Tree.walkAll_singleton (t : Tree) : walkAll [t] = t.walk := List.append_nil _

def OpenScope.events (scope : OpenScope) : List TreeEvent :=
  .opens (some scope.name) :: Tree.walkAll scope.children.reverse

namespace TreeBuilder

variable (b : TreeBuilder)

def events : List TreeEvent :=
  .opens none :: (Tree.walkAll b.attached.reverse ++ b.opened.reverse.flatMap OpenScope.events)

theorem events_attach (t : Tree) : (b.attach t).events = b.events ++ t.walk := by
  unfold attach
  split <;> simp [events, OpenScope.events, Tree.walkAll_append, Tree.walkAll_singleton, *]

theorem events_openScope (name : String) :
    (b.openScope name).events = b.events ++ [.opens (some name)] := by
  simp [openScope, events, OpenScope.events, Tree.walkAll]

theorem events_closeScope {scope : OpenScope} {outer : List OpenScope}
    (h : b.opened = scope :: outer) :
    b.closeScope.events = b.events ++ [.closes (some scope.name)] := by
  simp only [closeScope, h]
  rw [events_attach]
  simp [events, OpenScope.events, Tree.walk, h]

/-! None of the ways to go on takes anything back. -/

theorem prefix_attach (t : Tree) : b.events <+: (b.attach t).events := by
  rw [events_attach]
  exact List.prefix_append _ _

theorem prefix_openScope (name : String) : b.events <+: (b.openScope name).events := by
  rw [events_openScope]
  exact List.prefix_append _ _

theorem prefix_closeScope : b.events <+: b.closeScope.events := by
  cases h : b.opened with
  | nil => simp [closeScope, h]
  | cons scope outer =>
    rw [b.events_closeScope h]
    exact List.prefix_append _ _

theorem prefix_addText (s : String) : b.events <+: (b.addText s).events := by
  unfold addText
  split
  · exact List.prefix_rfl
  · exact b.prefix_attach _

theorem prefix_addScoped (name s : String) : b.events <+: (b.addScoped name s).events := by
  unfold addScoped
  split
  · exact List.prefix_rfl
  · exact ((b.prefix_openScope name).trans (prefix_addText _ s)).trans (prefix_closeScope _)

theorem prefix_embed (t : Tree) (language : Option String) :
    b.events <+: (b.embed t language).events := by
  cases language <;> exact b.prefix_attach _

theorem events_closeScopes {names : List String} (h : b.openNames = names) :
    (closeScopes names.length b).events =
      b.events ++ names.map fun name ↦ .closes (some name) := by
  induction names generalizing b with
  | nil => exact (List.append_nil _).symm
  | cons name names ih =>
    obtain ⟨scope, outer, hopened, rfl, -⟩ := List.map_eq_cons_iff.1 h
    have hclosed : b.closeScope.openNames = names := by
      rw [openNames_closeScope, h, List.tail_cons]
    rw [List.length_cons, closeScopes, ih _ hclosed, b.events_closeScope hopened,
      List.map_cons, List.append_assoc, List.singleton_append]

/-- A walk over the tree meets what it has met so far, and then the ends of the open scopes and of
the root. -/
theorem walk_toTree : b.toTree.walk =
    b.events ++ (b.openNames.map fun name ↦ .closes (some name)) ++ [.closes none] := by
  have hroot : b.toTree.walk = b.finalize.events ++ [.closes none] := by
    simp [toTree, root, events, Tree.walk, opened_finalize]
  have hclosed := b.events_closeScopes rfl
  rw [openNames, List.length_map] at hclosed
  rw [hroot, finalize, hclosed, openNames]

theorem prefix_toTree : b.events <+: b.toTree.walk := by
  rw [walk_toTree, List.append_assoc]
  exact List.prefix_append _ _

/-- A tree in which nothing but scopes has been opened starts with these. -/
theorem events_openScopes (names : List String) :
    (names.foldl openScope b).events = b.events ++ names.map fun name ↦ .opens (some name) := by
  induction names generalizing b with
  | nil => simp
  | cons name names ih => rw [List.foldl_cons, ih, events_openScope]; simp

end TreeBuilder

end SyntaxHighlight
