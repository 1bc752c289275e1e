import Mathlib.Data.List.Forall2
import Mathlib.Data.List.Infix
import Mathlib.Data.List.ModifyLast
import SyntaxHighlight.Proofs.Tree.Path
import SyntaxHighlight.Text.Fields
import SyntaxHighlight.Tree.Treeviz

/-!
Trees drawn with lines. Main statement: there is one line for each node, in pre-order, and the lines
tell the shape of the tree, since a line tells how deep its node is and how it is named.
-/
namespace SyntaxHighlight

namespace Text

theorem newline_notMem_hexDigits (n : Nat) : '\n' ∉ hexDigits n := by
  have hdigit : ∀ d < 16, d.digitChar ≠ '\n' := by decide
  rw [hexDigits]
  induction n using Nat.strongRecOn with
  | ind n ih =>
    rw [Nat.toDigits_eq_if (by decide)]
    split
    · rename_i hlt
      rw [List.mem_singleton]
      exact (hdigit n hlt).symm
    · rw [List.mem_append, List.mem_singleton, not_or]
      exact ⟨ih (n / 16) (by omega), (hdigit _ (Nat.mod_lt n (by decide))).symm⟩

theorem newline_notMem_quotedForm (c : Char) : '\n' ∉ quotedForm c := by
  unfold quotedForm
  split_ifs with hnul htab hreturn hnewline hquote hbackslash hshown
  · decide
  · decide
  · decide
  · decide
  · decide
  · decide
  · rw [List.mem_singleton]
    exact Ne.symm hnewline
  · simp [newline_notMem_hexDigits]

theorem newline_notMem_quotedChars (cs : List Char) : '\n' ∉ quotedChars cs := by
  simp [quotedChars, newline_notMem_quotedForm]

/-- A stretch without the separator is cut off whole. -/
theorem fields_append {separator : Char} {part : List Char} (h : separator ∉ part)
    (rest : List Char) :
    fields separator (part ++ separator :: rest) = part :: fields separator rest := by
  induction part with
  | nil => rw [List.nil_append, fields, if_pos rfl]
  | cons c part ih =>
    rw [List.mem_cons, not_or] at h
    rw [List.cons_append, fields, if_neg (Ne.symm h.1), ih h.2]

theorem fields_lines {separator : Char} {parts : List (List Char)}
    (h : ∀ part ∈ parts, separator ∉ part) :
    fields separator (parts.flatMap (· ++ [separator])) = parts ++ [[]] := by
  induction parts with
  | nil => rfl
  | cons part parts ih =>
    obtain ⟨hpart, hparts⟩ := List.forall_mem_cons.1 h
    rw [List.flatMap_cons, List.append_assoc, List.singleton_append, fields_append hpart,
      ih hparts, List.cons_append]

end Text

namespace Tree

/-- Whether a path leads to the last child of a node. -/
def isLast (t : Tree) (path : List Nat) : Bool :=
  (t.nodeAt? (path.modifyLast (· + 1))).isNone

/-- The name that a scope is shown with. None for text. -/
def shownName : Tree → Option String
  | .text _ => none
  | .scope name _ => some (name.getD "(anonymous)")

end Tree

namespace Treeviz

/-- What the lines of a node's children start with: a line down from the node, and from each node
around it but the root, unless it is a last child. -/
def marginBelow (t : Tree) (path : List Nat) : List Char :=
  path.inits.tail.flatMap fun outer ↦ if t.isLast outer then [' ', ' '] else ['│', ' ']

/-- A line that draws the node a path leads to. The length of the path is the depth of the node, and
the root is not drawn. -/
structure Draws (t : Tree) (path : List Nat) (line : List Char) : Prop where
  ne_nil : path ≠ []
  length_margin : (marginBelow t path.dropLast).length = 2 * (path.length - 1)
  line_eq : ∃ node, t.nodeAt? path = some node ∧
    line = marginBelow t path.dropLast ++ ((if t.isLast path then ['└', '─'] else ['├', '─']) ++
      ' ' :: (label node).toList)

variable {t : Tree} {path : List Nat}

theorem toList_guide (last : Bool) :
    (guide last).toList = if last then [' ', ' '] else ['│', ' '] := by
  cases last <;> decide

theorem toList_connector (last : Bool) :
    (connector last).toList = if last then ['└', '─'] else ['├', '─'] := by
  cases last <;> decide

theorem marginBelow_concat (t : Tree) (path : List Nat) (i : Nat) :
    marginBelow t (path ++ [i]) =
      marginBelow t path ++ (guide (t.isLast (path ++ [i]))).toList := by
  have hinits : (path ++ [i]).inits.tail = path.inits.tail ++ [path ++ [i]] := by
    cases path <;> simp [List.inits_append]
  rw [marginBelow, hinits, List.flatMap_append, ← marginBelow, List.flatMap_singleton,
    toList_guide]

theorem length_marginBelow (t : Tree) (path : List Nat) :
    (marginBelow t path).length = 2 * path.length := by
  induction path using List.reverseRecOn with
  | nil => rfl
  | append_singleton path i ih =>
    have hguide (last : Bool) : (guide last).toList.length = 2 := by cases last <;> decide
    rw [marginBelow_concat, List.length_append, ih, hguide, List.length_append]
    rfl

theorem isLast_concat {node child : Tree} {before after : List Tree}
    (hnode : t.nodeAt? path = some node) (hchildren : node.children = before ++ child :: after) :
    t.isLast (path ++ [before.length]) = after.isEmpty := by
  rw [Tree.isLast, List.modifyLast_concat, Tree.nodeAt?_append, hnode, Option.bind_some,
    Tree.nodeAt?, hchildren, List.getElem?_append_right (Nat.le_succ _)]
  cases after <;> simp [Tree.nodeAt?]

theorem nodeAt?_concat {node child : Tree} {before after : List Tree}
    (hnode : t.nodeAt? path = some node) (hchildren : node.children = before ++ child :: after) :
    t.nodeAt? (path ++ [before.length]) = some child := by
  rw [Tree.nodeAt?_append, hnode, Option.bind_some, Tree.nodeAt?, hchildren,
    List.getElem?_append_right (Nat.le_refl _), Nat.sub_self]
  rfl

theorem Draws.of_line {node : Tree} {i : Nat} {margin line : String}
    (hnode : t.nodeAt? (path ++ [i]) = some node) (hmargin : margin.toList = marginBelow t path)
    (hline : line = margin ++ connector (t.isLast (path ++ [i])) ++ " " ++ label node) :
    Draws t (path ++ [i]) line.toList where
  ne_nil := List.append_ne_nil_of_right_ne_nil _ (List.cons_ne_nil _ _)
  length_margin := by rw [length_marginBelow, List.length_dropLast]
  line_eq := ⟨node, hnode, by simp [hline, hmargin, toList_connector]⟩

-- The induction is on what is left to draw. `before` has the children that are drawn already: how
-- many they are is the last step of the next child's path.
mutual

theorem draws_nodeLines (t : Tree) : ∀ node : Tree, ∀ path i margin,
    t.nodeAt? (path ++ [i]) = some node → margin.toList = marginBelow t path →
    List.Forall₂ (fun inner line ↦ Draws t (path ++ i :: inner) line.toList) node.paths
      (nodeLines margin (t.isLast (path ++ [i])) node)
  | .text s, path, i, margin, hnode, hmargin => .cons (.of_line hnode hmargin rfl) .nil
  | .scope name children, path, i, margin, hnode, hmargin => by
    refine .cons (.of_line hnode hmargin rfl) ?_
    have hbelow : (margin ++ guide (t.isLast (path ++ [i]))).toList =
        marginBelow t (path ++ [i]) := by
      rw [String.toList_append, hmargin, marginBelow_concat]
    have hlines := draws_childLines t children (path ++ [i]) _ [] _ hnode rfl hbelow
    simpa using hlines

theorem draws_childLines (t : Tree) : ∀ after : List Tree, ∀ path node before margin,
    t.nodeAt? path = some node → node.children = before ++ after →
    margin.toList = marginBelow t path →
    List.Forall₂ (fun inner line ↦ Draws t (path ++ inner) line.toList)
      (Tree.pathsFrom before.length after) (childLines margin after)
  | [], _, _, _, _, _, _, _ => .nil
  | child :: after, path, node, before, margin, hnode, hchildren, hmargin => by
    rw [Tree.pathsFrom, childLines, ← isLast_concat hnode hchildren]
    refine List.rel_append ?_ ?_
    · rw [List.forall₂_map_left_iff]
      exact draws_nodeLines t child path _ margin (nodeAt?_concat hnode hchildren) hmargin
    · have hrest := draws_childLines t after path node (before ++ [child]) margin hnode
        (by rw [hchildren, List.append_assoc, List.singleton_append]) hmargin
      rwa [List.length_append] at hrest

end

theorem marginBelow_chars {c : Char} (h : c ∈ marginBelow t path) : c = ' ' ∨ c = '│' := by
  obtain ⟨outer, -, hc⟩ := List.mem_flatMap.1 h
  have hguide (last : Bool) :
      ∀ c ∈ (if last then [' ', ' '] else ['│', ' ']), c = ' ' ∨ c = '│' := by
    cases last <;> simp
  exact hguide _ c hc

/-- No scope has a name that takes more than one line. -/
def NamedInLine (t : Tree) : Prop := ∀ scope, .opens (some scope) ∈ t.walk → '\n' ∉ scope.toList

theorem newline_notMem_shortened {cs : List Char} (h : '\n' ∉ cs) : '\n' ∉ shortened cs := by
  rw [shortened]
  split
  · rw [List.mem_append, not_or]
    exact ⟨fun hc ↦ h (List.mem_of_mem_take hc), by decide⟩
  · exact h

theorem newline_notMem_label {node : Tree} (hnames : NamedInLine t)
    (hnode : t.nodeAt? path = some node) : '\n' ∉ (label node).toList := by
  cases node with
  | text s =>
    have hshown := newline_notMem_shortened (Text.newline_notMem_quotedChars s.toList)
    simp [label, hshown]
  | scope name children =>
    rw [label, String.toList_append, List.mem_append, not_or]
    refine ⟨by decide, ?_⟩
    cases name with
    | none => decide
    | some name =>
      have hopens : TreeEvent.opens (some name) ∈ (Tree.scope (some name) children).walk := by
        rw [Tree.walk]
        exact List.mem_cons_self
      exact hnames name (Tree.walk_subset hnode hopens)

theorem Draws.newline_notMem {line : List Char} (h : Draws t path line) (hnames : NamedInLine t) :
    '\n' ∉ line := by
  obtain ⟨node, hnode, rfl⟩ := h.line_eq
  have hmargin : '\n' ∉ marginBelow t path.dropLast := fun hc ↦
    absurd (marginBelow_chars hc) (by decide)
  have hlabel := newline_notMem_label hnames hnode
  cases t.isLast path <;> simp [hmargin, hlabel]

/-- The name in a label, if the label is that of a scope. -/
def nameIn? : List Char → Option String
  | '●' :: ' ' :: name => some (String.ofList name)
  | _ => none

theorem nameIn?_label (node : Tree) : nameIn? (label node).toList = node.shownName := by
  cases node with
  | text s => simp [label, nameIn?, Tree.shownName]
  | scope name children => simp [label, nameIn?, Tree.shownName]

/-- What a line tells of its node: how deep it is, and the name that it is shown with. -/
def read (line : List Char) : Nat × Option String :=
  let margin := line.takeWhile fun c ↦ c = ' ' ∨ c = '│'
  (margin.length / 2 + 1, nameIn? (line.drop (margin.length + 3)))

theorem read_append {margin : List Char} (h : ∀ c ∈ margin, c = ' ' ∨ c = '│') (last : Bool)
    (shown : List Char) :
    read (margin ++ ((if last then ['└', '─'] else ['├', '─']) ++ ' ' :: shown)) =
      (margin.length / 2 + 1, nameIn? shown) := by
  rw [read, List.takeWhile_append_of_pos fun c hc ↦ decide_eq_true (h c hc)]
  cases last <;> simp

theorem Draws.read_eq {line : List Char} (h : Draws t path line) :
    read line = (path.length, (t.nodeAt? path).bind Tree.shownName) := by
  obtain ⟨hne, hlen, node, hnode, rfl⟩ := h
  have hpos : 0 < path.length := List.length_pos_iff.2 hne
  have hdepth : 2 * (path.length - 1) / 2 + 1 = path.length := by omega
  rw [read_append (fun _ ↦ marginBelow_chars), hlen, hdepth, nameIn?_label, hnode,
    Option.bind_some]

theorem lines_eq (t : Tree) : lines t = "⧉ document" :: childLines "" t.children := by
  cases t <;> rfl

theorem draws_lines (t : Tree) :
    List.Forall₂ (Draws t) t.pathsBelow ((childLines "" t.children).map String.toList) := by
  rw [List.forall₂_map_right_iff]
  exact draws_childLines t t.children [] t [] "" rfl rfl rfl

/-- Cut at its line ends, a drawing comes apart into the lines it has been put together from. -/
theorem fields_render (hnames : NamedInLine t) : Text.fields '\n' (render t).toList =
    "⧉ document".toList :: ((childLines "" t.children).map String.toList ++ [[]]) := by
  have hchars : (render t).toList = ((lines t).map String.toList).flatMap (· ++ ['\n']) := by
    simp [render, List.flatMap_map]
  have hdrawn := (draws_lines t).flip.imp fun line path h ↦
    (⟨h.newline_notMem hnames, h⟩ : '\n' ∉ line ∧ Draws t path line)
  have hline : ∀ line ∈ (lines t).map String.toList, '\n' ∉ line := by
    rw [lines_eq, List.map_cons, List.forall_mem_cons]
    exact ⟨by decide, ((List.forall₂_and_left _ _).1 hdrawn).1⟩
  rw [hchars, Text.fields_lines hline, lines_eq, List.map_cons, List.cons_append]

theorem map_read (t : Tree) : ((childLines "" t.children).map String.toList).map read =
    t.pathsBelow.map fun path ↦ (path.length, (t.nodeAt? path).bind Tree.shownName) := by
  rw [← List.forall₂_eq_eq_eq, List.forall₂_map_left_iff, List.forall₂_map_right_iff]
  exact (draws_lines t).flip.imp fun _ _ h ↦ h.read_eq

/-- Trees that are drawn alike have the same nodes, texts and scopes in the same places. -/
theorem map_shownName_of_render_eq {u : Tree} (ht : NamedInLine t) (hu : NamedInLine u)
    (h : render t = render u) (hpath : path ≠ []) :
    (t.nodeAt? path).map Tree.shownName = (u.nodeAt? path).map Tree.shownName := by
  have hlines : Text.fields '\n' (render t).toList = Text.fields '\n' (render u).toList := by
    rw [h]
  rw [fields_render ht, fields_render hu] at hlines
  have hread := congrArg (List.map read) (List.append_cancel_right (List.cons.inj hlines).2)
  rw [map_read, map_read] at hread
  have hlen := congrArg (List.map Prod.fst) hread
  rw [List.map_map, List.map_map] at hlen
  have hpaths : t.pathsBelow = u.pathsBelow := Tree.pathsBelow_eq hlen
  have hsame : path ∈ t.pathsBelow ↔ path ∈ u.pathsBelow := by rw [hpaths]
  rw [Tree.mem_pathsBelow, Tree.mem_pathsBelow] at hsame
  rw [hpaths, List.map_inj_left] at hread
  cases hnode : t.nodeAt? path <;> cases hother : u.nodeAt? path
  case none.none => rfl
  case none.some => simp [hnode, hother, hpath] at hsame
  case some.none => simp [hnode, hother, hpath] at hsame
  case some.some node other =>
    have hshown := hread path (Tree.mem_pathsBelow.2 ⟨hpath, by rw [hother]; rfl⟩)
    rw [hnode, hother] at hshown
    exact congrArg some (Prod.ext_iff.1 hshown).2

/-- The drawing of a tree shows its nodes in pre-order, each on a line of its own below the line of
the document, as deep as its path is long and with a closing connector if it is a last child,
whatever texts it has. It tells where there is text, where there are scopes, and how these are
named. -/
theorem render_tells_shape (t u : Tree) (ht : NamedInLine t) (hu : NamedInLine u) :
    (∃ paths lines, paths.Pairwise (· < ·) ∧
        (∀ path, path ∈ paths ↔ path ≠ [] ∧ (t.nodeAt? path).isSome) ∧
        Text.fields '\n' (render t).toList = "⧉ document".toList :: (lines ++ [[]]) ∧
        List.Forall₂ (Draws t) paths lines) ∧
      (render t = render u → ∀ path ≠ [],
        (t.nodeAt? path).map Tree.shownName = (u.nodeAt? path).map Tree.shownName) :=
  ⟨⟨t.pathsBelow, _, t.pairwise_pathsBelow, fun _ ↦ Tree.mem_pathsBelow, fields_render ht,
    draws_lines t⟩, fun h _ hpath ↦ map_shownName_of_render_eq ht hu h hpath⟩

example : render (.scope none [.scope (some "string") [.text "\x22\n"], .text " now"]) =
    "⧉ document\n├─ ● string\n│ └─ ◦ \"\\\"\\n\"\n└─ ◦ \" now\"\n" := by
  decide +kernel

/-- Text that looks like lines, a scope that may have no name, and text that is too long to be
shown. -/
def sketch (name : Option String) (ending : String) : Tree :=
  .scope none [.text "a\n|- b", .scope name [.text ("0123456789012345678901234567890" ++ ending),
    .scope (some "k") []]]

theorem namedInLine_sketch {name : Option String} (h : ∀ scope ∈ name, '\n' ∉ scope.toList)
    (ending : String) : NamedInLine (sketch name ending) := by
  intro scope hscope
  simp only [sketch, Tree.walk, Tree.walkAll, List.nil_append, List.append_nil, List.cons_append,
    List.mem_cons, List.not_mem_nil, or_false, false_or, reduceCtorEq, TreeEvent.opens.injEq,
    Option.some.injEq] at hscope
  obtain hname | rfl := hscope
  · exact h scope hname.symm
  · decide

theorem sketch_tells_shape :
    NamedInLine (sketch none "x") ∧ NamedInLine (sketch (some "(anonymous)") "y") ∧
      render (sketch none "x") = render (sketch (some "(anonymous)") "y") ∧
      (∃ paths lines, paths.Pairwise (· < ·) ∧
        (∀ path, path ∈ paths ↔ path ≠ [] ∧ ((sketch none "x").nodeAt? path).isSome) ∧
        Text.fields '\n' (render (sketch none "x")).toList =
          "⧉ document".toList :: (lines ++ [[]]) ∧
        List.Forall₂ (Draws (sketch none "x")) paths lines) ∧
      ∀ path ≠ [], ((sketch none "x").nodeAt? path).map Tree.shownName =
        ((sketch (some "(anonymous)") "y").nodeAt? path).map Tree.shownName := by
  have ht : NamedInLine (sketch none "x") := namedInLine_sketch (by simp) _
  have hu : NamedInLine (sketch (some "(anonymous)") "y") := namedInLine_sketch (by decide) _
  have h : render (sketch none "x") = render (sketch (some "(anonymous)") "y") := by
    decide +kernel
  have hdrawn := render_tells_shape _ _ ht hu
  exact ⟨ht, hu, h, hdrawn.1, hdrawn.2 h⟩

end Treeviz

end SyntaxHighlight
