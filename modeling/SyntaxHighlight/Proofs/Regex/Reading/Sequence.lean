import SyntaxHighlight.Proofs.Outcome
import SyntaxHighlight.Regex.Parser

/-! What the reader of sequences may come upon, and what it then reads. -/
namespace SyntaxHighlight.Regex

/-- Characters that start something else than themselves, or end a sequence. -/
def isSyntax (c : Char) : Bool :=
  ['\x28', '\x29', '\x7c', '[', '\\', '.', '^', '$'].contains c

def dotSet (o : Options) : CharSet := if o.dotAll then .property .any else .compl (.singleton '\n')

/-- A first piece of a sequence that has no groups within it, and the state after it. -/
inductive Atom (o : Options) (s : Source) : Node → Source → Prop
  | callout {rest after : List Char} {node : Node} : s.rest = '\x28' :: rest →
      opening o rest = .ok (.done node, after) → Atom o s node { s with rest := after }
  | bracketed {rest after : List Char} {b : Bracketed} : s.rest = '[' :: rest →
      classBody (2 * rest.length + 2) rest = .ok (b, after) →
      Atom o s (classNode o b) { s with rest := after }
  | escape {rest after : List Char} {node : Node} : s.rest = '\\' :: rest →
      escapeNode o s rest = .ok (node, after) →
      Atom o s node { s.noting rest with rest := after }
  | dot {rest : List Char} : s.rest = '.' :: rest →
      Atom o s (.set (dotSet o)) { s with rest := rest }
  | lineStart {rest : List Char} : s.rest = '^' :: rest →
      Atom o s (.anchor .lineStart) { s with rest := rest }
  | lineEnd {rest : List Char} : s.rest = '$' :: rest →
      Atom o s (.anchor .lineEnd) { s with rest := rest }
  | char {c : Char} {rest : List Char} : s.rest = c :: rest → isSyntax c = false →
      quantifier? (c :: rest) = .ok none → Atom o s (charNode o c) { s with rest := rest }

def Ends : List Char → Prop
  | [] => True
  | c :: _ => c = '\x7c' ∨ c = '\x29'

/-- What a sequence is, by what it starts with. -/
inductive Sequence (fuel : Nat) (o : Options) (s : Source) : Node → Source → Prop
  | stop : Ends s.rest → Sequence fuel o s .empty s
  | options {inner : Options} {rest after : List Char} {node : Node} {t : Source} :
      s.rest = '\x28' :: rest → opening o rest = .ok (.options inner, after) →
      alternatives fuel inner { s with rest := after } = .ok (node, t) →
      Sequence fuel o s node t
  | group {e : Enclosure} {inner : Options} {rest after : List Char} {body node : Node}
      {mid closed t : Source} :
      s.rest = '\x28' :: rest → opening o rest = .ok (.group e inner, after) →
      alternatives fuel inner { s with rest := after } = .ok (body, mid) →
      mid.closed = .ok closed → next fuel o (e.node body) closed = .ok (node, t) →
      Sequence fuel o s node t
  | capture {name : Option String} {rest after : List Char} {body node : Node}
      {mid closed t : Source} :
      s.rest = '\x28' :: rest → opening o rest = .ok (.capture name, after) →
      alternatives fuel o ({ s with rest := after }.numbered name) = .ok (body, mid) →
      mid.closed = .ok closed → next fuel o (.group (s.groups + 1) body) closed = .ok (node, t) →
      Sequence fuel o s node t
  | atom {first node : Node} {after t : Source} : Atom o s first after →
      next fuel o first after = .ok (node, t) → Sequence fuel o s node t

section Steps

variable {fuel : Nat} {o : Options} {s t : Source} {node : Node}

theorem branch_eq_ok : branch (fuel + 1) o s = .ok (node, t) ↔ ∃ rest,
    skipIgnored o.extended s.rest.length s.rest = .ok rest ∧
      Sequence fuel o { s with rest := rest } node t := by
  rw [branch, bind_eq_ok]
  refine exists_congr fun rest ↦ and_congr_right fun _ ↦ ⟨fun h ↦ ?_, fun h ↦ ?_⟩
  · dsimp only at h
    split at h
    · cases h
      exact .stop trivial
    · cases h
      exact .stop (.inl rfl)
    · cases h
      exact .stop (.inr rfl)
    · obtain ⟨⟨what, after⟩, hopening, h⟩ := bind_eq_ok.1 h
      dsimp only at h
      split at h
      · exact .options rfl hopening h
      · exact .atom (.callout rfl hopening) h
      · obtain ⟨⟨body, mid⟩, hbody, h⟩ := bind_eq_ok.1 h
        obtain ⟨closed, hclosed, h⟩ := bind_eq_ok.1 h
        exact .group rfl hopening hbody hclosed h
      · obtain ⟨⟨body, mid⟩, hbody, h⟩ := bind_eq_ok.1 h
        obtain ⟨closed, hclosed, h⟩ := bind_eq_ok.1 h
        exact .capture rfl hopening hbody hclosed h
    · obtain ⟨⟨b, after⟩, hb, h⟩ := bind_eq_ok.1 h
      exact .atom (.bracketed rfl hb) h
    · obtain ⟨⟨first, after⟩, hfirst, h⟩ := bind_eq_ok.1 h
      exact .atom (.escape rfl hfirst) h
    · exact .atom (.dot rfl) h
    · exact .atom (.lineStart rfl) h
    · exact .atom (.lineEnd rfl) h
    · obtain ⟨found, hfound, h⟩ := bind_eq_ok.1 h
      cases found with
      | some => cases h
      | none =>
        refine .atom (.char rfl ?_ hfound) h
        simp_all [isSyntax]
  · cases h with
    | stop hends =>
      cases rest with
      | nil => rfl
      | cons c rest => obtain rfl | rfl := hends <;> rfl
    | options hrest hopening h =>
      obtain rfl := hrest
      exact bind_eq_ok.2 ⟨_, hopening, h⟩
    | group hrest hopening hbody hclosed h =>
      obtain rfl := hrest
      exact bind_eq_ok.2 ⟨_, hopening, bind_eq_ok.2 ⟨_, hbody, bind_eq_ok.2 ⟨_, hclosed, h⟩⟩⟩
    | capture hrest hopening hbody hclosed h =>
      obtain rfl := hrest
      exact bind_eq_ok.2 ⟨_, hopening, bind_eq_ok.2 ⟨_, hbody, bind_eq_ok.2 ⟨_, hclosed, h⟩⟩⟩
    | atom hfirst h =>
      cases hfirst with
      | callout hrest hopening =>
        obtain rfl := hrest
        exact bind_eq_ok.2 ⟨_, hopening, h⟩
      | bracketed hrest hb =>
        obtain rfl := hrest
        exact bind_eq_ok.2 ⟨_, hb, h⟩
      | escape hrest hfirst =>
        obtain rfl := hrest
        exact bind_eq_ok.2 ⟨_, hfirst, h⟩
      | dot hrest | lineStart hrest | lineEnd hrest =>
        obtain rfl := hrest
        exact h
      | @char c rest hrest hc hquantifier =>
        obtain rfl := hrest
        dsimp only
        split
        case h_10 =>
          rename_i heq
          cases heq
          exact bind_eq_ok.2 ⟨_, hquantifier, h⟩
        all_goals
          rename_i heq
          cases heq
        all_goals cases hc

theorem alternatives_eq_ok : alternatives (fuel + 1) o s = .ok (node, t) ↔ ∃ first mid,
    branch fuel o s = .ok (first, mid) ∧
      ((mid.rest.head? ≠ some '\x7c' ∧ node = first ∧ t = mid) ∨
        ∃ rest other, mid.rest = '\x7c' :: rest ∧ node = .alt first other ∧
          alternatives fuel o { mid with rest := rest } = .ok (other, t)) := by
  rw [alternatives, bind_eq_ok, Prod.exists]
  refine exists_congr fun first ↦ exists_congr fun mid ↦ and_congr_right fun _ ↦ ?_
  dsimp only
  split
  · rename_i rest hrest
    rw [hrest, bind_eq_ok, Prod.exists]
    refine ⟨fun ⟨other, t', h, ht⟩ ↦ ?_, fun h ↦ ?_⟩
    · cases ht
      exact .inr ⟨rest, other, rfl, rfl, h⟩
    · obtain ⟨hne, -⟩ | ⟨_, other, heq, rfl, h⟩ := h
      · exact absurd rfl hne
      · cases heq
        exact ⟨other, t, h, rfl⟩
  · rename_i hbar
    refine ⟨fun h ↦ ?_, fun h ↦ ?_⟩
    · cases h
      refine .inl ⟨fun hhead ↦ ?_, rfl, rfl⟩
      obtain ⟨rest, hrest⟩ := List.head?_eq_some_iff.1 hhead
      exact hbar rest hrest
    · obtain ⟨-, rfl, rfl⟩ | ⟨rest, _, hrest, -⟩ := h
      · rfl
      · exact absurd hrest (hbar rest)

theorem next_eq_ok {first : Node} : next (fuel + 1) o first s = .ok (node, t) ↔
    ∃ repeated rest others,
      quantified o.extended s.rest.length first s.rest = .ok (repeated, rest) ∧
      branch fuel o { s with rest := rest } = .ok (others, t) ∧ node = repeated.cat others := by
  rw [next, bind_eq_ok, Prod.exists]
  refine exists_congr fun repeated ↦ exists_congr fun rest ↦ ?_
  rw [bind_eq_ok, Prod.exists]
  refine ⟨fun ⟨hrepeated, others, t', h, heq⟩ ↦ ?_, fun ⟨others, hrepeated, h, heq⟩ ↦ ?_⟩
  · cases heq
    exact ⟨others, hrepeated, h, rfl⟩
  · exact ⟨hrepeated, others, t, h, by rw [heq]; rfl⟩

end Steps

end SyntaxHighlight.Regex
