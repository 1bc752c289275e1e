import Mathlib.Data.List.Chain
import Mathlib.Data.List.Lex
import SyntaxHighlight.Tree.Basic

/-!
Places in trees. A path leads from the root to a node, child by child. Pre-order is the order of
paths, and the lengths of the paths in pre-order tell the paths.
-/
namespace SyntaxHighlight.Tree

def children : Tree → List Tree
  | .text _ => []
  | .scope _ children => children

/-- The node that a path leads to. A path has the number of a child for each step. -/
def nodeAt? : List Nat → Tree → Option Tree
  | [], t => some t
  | i :: path, t => t.children[i]?.bind (nodeAt? path)

mutual

/-- The paths of a tree in pre-order. -/
def paths : Tree → List (List Nat)
  | .text _ => [[]]
  | .scope _ children => [] :: pathsFrom 0 children

/-- The paths into trees that stand side by side, the first of them as child `n`. -/
def pathsFrom (n : Nat) : List Tree → List (List Nat)
  | [] => []
  | t :: ts => (paths t).map (n :: ·) ++ pathsFrom (n + 1) ts

end

/-- The paths of a tree in pre-order, but that of its root. -/
def pathsBelow (t : Tree) : List (List Nat) := pathsFrom 0 t.children

/-- Where a walk in pre-order may go next: to a first child, or to the next child of a node that
has been walked. -/
def Follows (path next : List Nat) : Prop :=
  next = path ++ [0] ∨ ∃ outer i inner, path = outer ++ i :: inner ∧ next = outer ++ [i + 1]

variable {path next next' : List Nat}

theorem Follows.cons (n : Nat) (h : Follows path next) : Follows (n :: path) (n :: next) := by
  obtain rfl | ⟨outer, i, inner, rfl, rfl⟩ := h
  · exact .inl rfl
  · exact .inr ⟨n :: outer, i, inner, rfl, rfl⟩

theorem Follows.lt (h : Follows path next) : path < next := by
  obtain rfl | ⟨outer, i, inner, rfl, rfl⟩ := h
  · have hdown : path ++ [] < path ++ [0] := List.append_left_lt (List.nil_lt_cons 0 [])
    rwa [List.append_nil] at hdown
  · exact List.append_left_lt (List.cons_lt_cons_iff.2 (.inl (Nat.lt_succ_self i)))

/-- How long the next path is tells which it is. -/
theorem Follows.unique (h : Follows path next) (h' : Follows path next')
    (hlen : next.length = next'.length) : next = next' := by
  obtain rfl | ⟨outer, i, inner, rfl, rfl⟩ := h <;>
    obtain rfl | ⟨outer', i', inner', heq, rfl⟩ := h'
  · rfl
  · simp [heq] at hlen
  · simp at hlen
  · obtain ⟨rfl, htail⟩ := List.append_inj heq (by simpa using hlen)
    rw [(List.cons.inj htail).1]

theorem eq_of_isChain {l l' : List (List Nat)} (h : (path :: l).IsChain Follows)
    (h' : (path :: l').IsChain Follows) (hlen : l.map List.length = l'.map List.length) :
    l = l' := by
  induction l generalizing path l' with
  | nil => exact (List.map_eq_nil_iff.1 hlen.symm).symm
  | cons next l ih =>
    cases l' with
    | nil => cases hlen
    | cons next' l' =>
      obtain ⟨hhead, htail⟩ := List.cons.inj hlen
      rw [List.isChain_cons_cons] at h h'
      -- Both go on from the same path, and so to the same one.
      cases h.1.unique h'.1 hhead
      rw [ih h.2 h'.2 htail]

theorem head_pathsFrom (n : Nat) (ts : List Tree) : ∀ path ∈ (pathsFrom n ts).head?, path = [n] := by
  cases ts with
  | nil => simp [pathsFrom]
  | cons t ts => cases t <;> simp [pathsFrom, paths]

mutual

theorem isChain_paths : ∀ t : Tree, (paths t).IsChain Follows
  | .text _ => .singleton _
  | .scope _ children => by
    rw [paths, List.isChain_cons]
    refine ⟨fun path hpath ↦ ?_, isChain_pathsFrom 0 children⟩
    rw [head_pathsFrom 0 children path hpath]
    exact .inl rfl

theorem isChain_pathsFrom : ∀ n : Nat, ∀ ts : List Tree, (pathsFrom n ts).IsChain Follows
  | _, [] => .nil
  | n, t :: ts => by
    rw [pathsFrom, List.isChain_append]
    refine ⟨List.isChain_map_of_isChain (n :: ·) (fun _ _ ↦ Follows.cons n) (isChain_paths t),
      isChain_pathsFrom (n + 1) ts, fun path hlast path' hhead ↦ ?_⟩
    obtain ⟨inner, -, rfl⟩ := List.mem_map.1 (List.mem_of_getLast? hlast)
    rw [head_pathsFrom (n + 1) ts path' hhead]
    exact .inr ⟨[], n, inner, rfl, rfl⟩

end

theorem paths_eq (t : Tree) : t.paths = [] :: t.pathsBelow := by
  cases t <;> rfl

theorem pairwise_pathsBelow (t : Tree) : t.pathsBelow.Pairwise (· < ·) :=
  List.isChain_iff_pairwise.1 ((isChain_pathsFrom 0 t.children).imp fun _ _ ↦ Follows.lt)

/-- In pre-order, how deep the nodes are tells where they are. -/
theorem pathsBelow_eq {t u : Tree}
    (h : t.pathsBelow.map List.length = u.pathsBelow.map List.length) :
    t.pathsBelow = u.pathsBelow :=
  eq_of_isChain (paths_eq t ▸ isChain_paths t) (paths_eq u ▸ isChain_paths u) h

theorem mem_pathsFrom {n : Nat} {ts : List Tree} : path ∈ pathsFrom n ts ↔
    ∃ i inner t, path = (n + i) :: inner ∧ ts[i]? = some t ∧ inner ∈ paths t := by
  induction ts generalizing n with
  | nil => simp [pathsFrom]
  | cons t ts ih =>
    rw [pathsFrom, List.mem_append, List.mem_map, ih]
    constructor
    · rintro (⟨inner, hinner, rfl⟩ | ⟨i, inner, u, rfl, hu, hinner⟩)
      · exact ⟨0, inner, t, rfl, rfl, hinner⟩
      · exact ⟨i + 1, inner, u, by rw [Nat.add_right_comm, Nat.add_assoc], hu, hinner⟩
    · rintro ⟨_ | i, inner, u, rfl, hu, hinner⟩
      · exact .inl ⟨inner, Option.some.inj hu ▸ hinner, rfl⟩
      · exact .inr ⟨i, inner, u, by rw [Nat.add_right_comm, Nat.add_assoc], hu, hinner⟩

theorem mem_paths {t : Tree} : path ∈ t.paths ↔ (t.nodeAt? path).isSome := by
  induction path generalizing t with
  | nil => simp [paths_eq, nodeAt?]
  | cons i path ih =>
    rw [paths_eq, List.mem_cons, pathsBelow, mem_pathsFrom, nodeAt?]
    constructor
    · rintro (hnil | ⟨j, inner, child, heq, hchild, hinner⟩)
      · cases hnil
      · obtain ⟨rfl, rfl⟩ := List.cons.inj heq
        rw [Nat.zero_add, hchild]
        exact ih.1 hinner
    · intro hsome
      obtain ⟨node, hnode⟩ := Option.isSome_iff_exists.1 hsome
      obtain ⟨child, hchild, hnode⟩ := Option.bind_eq_some_iff.1 hnode
      exact .inr ⟨i, path, child, by rw [Nat.zero_add], hchild,
        ih.2 (Option.isSome_of_eq_some hnode)⟩

theorem mem_pathsBelow {t : Tree} :
    path ∈ t.pathsBelow ↔ path ≠ [] ∧ (t.nodeAt? path).isSome := by
  rw [← mem_paths, paths_eq, List.mem_cons]
  constructor
  · intro hmem
    obtain ⟨i, inner, child, rfl, -⟩ := mem_pathsFrom.1 hmem
    exact ⟨List.cons_ne_nil _ _, .inr hmem⟩
  · rintro ⟨hne, hnil | hmem⟩
    · exact absurd hnil hne
    · exact hmem

theorem nodeAt?_append (t : Tree) (path inner : List Nat) :
    t.nodeAt? (path ++ inner) = (t.nodeAt? path).bind (nodeAt? inner) := by
  induction path generalizing t with
  | nil => rfl
  | cons i path ih =>
    rw [List.cons_append, nodeAt?, nodeAt?]
    cases t.children[i]? with
    | none => rfl
    | some child => exact ih child

theorem walk_subset_walkAll {t : Tree} {ts : List Tree} (h : t ∈ ts) : t.walk ⊆ walkAll ts := by
  induction ts with
  | nil => cases h
  | cons u ts ih =>
    rw [walkAll]
    obtain rfl | h := List.mem_cons.1 h
    · exact List.subset_append_left _ _
    · exact List.Subset.trans (ih h) (List.subset_append_right _ _)

/-- A walk over a tree walks over each node in it. -/
theorem walk_subset {t node : Tree} (h : t.nodeAt? path = some node) : node.walk ⊆ t.walk := by
  induction path generalizing t with
  | nil => cases h; exact List.Subset.refl _
  | cons i path ih =>
    obtain ⟨child, hchild, hnode⟩ := Option.bind_eq_some_iff.1 h
    refine List.Subset.trans (ih hnode) ?_
    cases t with
    | text s => cases hchild
    | scope name children =>
      have hwalk := walk_subset_walkAll (List.mem_of_getElem? hchild)
      exact fun event hevent ↦ List.mem_cons_of_mem _ (List.mem_append_left _ (hwalk hevent))

end SyntaxHighlight.Tree
