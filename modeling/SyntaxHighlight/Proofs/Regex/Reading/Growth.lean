import SyntaxHighlight.Proofs.Regex.Reading.Reference
import SyntaxHighlight.Proofs.Regex.Reading.Sequence
import SyntaxHighlight.Proofs.Regex.Subterms

/-! While a source is read, less of it is left, and more groups and numbers are known. -/
namespace SyntaxHighlight.Regex

/-- Names stand for groups that have been opened. -/
def Source.NamesKnown (s : Source) : Prop := ∀ entry ∈ s.names, 0 < entry.2 ∧ entry.2 ≤ s.groups

/-- Something may have been read between two states. -/
structure Grown (s t : Source) : Prop where
  length : t.rest.length ≤ s.rest.length
  groups : s.groups ≤ t.groups
  log : ∃ log, t.numbers = s.numbers ++ log ∧ ∀ m ∈ log, m.left < s.rest.length
  names : s.NamesKnown → t.NamesKnown

/-- No group in the tree has a number beyond `count`. -/
def UpTo (count : Nat) (node : Node) : Prop :=
  node.subterms.any (Node.isGroupBeyond count) = false

section Pieces

variable {fuel : Nat} {o : Options} {s t : Source} {node : Node} {cs rest : List Char}

theorem length_le_of_append {piece : List Char} (h : cs = piece ++ rest) :
    rest.length ≤ cs.length := by
  rw [h, List.length_append]
  exact Nat.le_add_left _ _

theorem UpTo.mono {count count' : Nat} (h : UpTo count node) (hle : count ≤ count') :
    UpTo count' node := by
  rw [UpTo, List.any_eq_false] at h ⊢
  intro x hx hbeyond
  refine h x hx ?_
  cases x with
  | group n body => exact decide_eq_true (Nat.lt_of_le_of_lt hle (of_decide_eq_true hbeyond))
  | _ => cases hbeyond

theorem escapedLetter?_upTo (count : Nat) {c : Char} (h : escapedLetter? c = some node) :
    UpTo count node := by
  rw [escapedLetter?] at h
  split at h
  · cases h
    rfl
  · rw [escapedPlace?.eq_def] at h
    split at h <;> cases h <;> rfl

theorem delimitedNode?_grows (count : Nat)
    (h : delimitedNode? o s cs = .ok (some (node, rest))) :
    rest.length ≤ cs.length ∧ UpTo count node := by
  rw [delimitedNode?.eq_def] at h
  split at h
  case h_3 => cases h
  all_goals
    obtain ⟨found, hfound, h⟩ := bind_eq_ok.1 h
    cases found with
    | none => cases h
    | some found =>
      obtain ⟨_, -, h⟩ := bind_eq_ok.1 h
      cases h
      obtain ⟨c, name, close, -, rfl, -⟩ := delimitedReference?_takes hfound
      refine ⟨?_, rfl⟩
      simp only [List.length_cons, List.length_append]
      omega

theorem numberedNode?_grows (count : Nat) (h : numberedNode? o s cs = some (node, rest)) :
    rest.length ≤ cs.length ∧ UpTo count node := by
  rw [numberedNode?.eq_def] at h
  split at h
  · cases h
  · rename_i hnumber
    obtain ⟨digits, hcs, -⟩ := escapedNumber?_eq_some hnumber
    split at h
    · cases h
      exact ⟨length_le_of_append hcs, rfl⟩
    · split at h
      · cases h
        exact ⟨Nat.le_succ _, any_charNode (isGroupBeyond_of_isCommon count) o _⟩
      · cases h
        exact ⟨Nat.le_succ _, any_charNode (isGroupBeyond_of_isCommon count) o _⟩
      · cases h

theorem escapeNode_grows (count : Nat) (h : escapeNode o s cs = .ok (node, rest)) :
    rest.length ≤ cs.length ∧ UpTo count node := by
  rw [escapeNode.eq_def] at h
  split at h
  · cases h
  · rename_i c cs
    split at h
    · rename_i hletter
      cases h
      exact ⟨Nat.le_succ _, escapedLetter?_upTo count hletter⟩
    · obtain ⟨found, hdelimited, h⟩ := bind_eq_ok.1 h
      split at h
      · cases h
        exact delimitedNode?_grows count hdelimited
      · obtain ⟨found, hproperty, h⟩ := bind_eq_ok.1 h
        split at h
        · cases h
          obtain ⟨piece, hcs, -⟩ := escapedProperty?_takes hproperty
          exact ⟨length_le_of_append hcs, rfl⟩
        · split at h
          · rename_i hnumbered
            cases h
            exact numberedNode?_grows count hnumbered
          · obtain ⟨⟨d, last⟩, hliteral, h⟩ := bind_eq_ok.1 h
            cases h
            obtain ⟨piece, rfl, -⟩ := escapedLiteral_takes hliteral
            refine ⟨?_, any_charNode (isGroupBeyond_of_isCommon count) o _⟩
            simp only [List.length_cons, List.length_append]
            omega

theorem noting_numbers (s : Source) (cs : List Char) : ∃ log,
    (s.noting cs).numbers = s.numbers ++ log ∧ ∀ m ∈ log, m.left = cs.length := by
  rw [Source.noting]
  split
  · exact ⟨_, rfl, fun m hm ↦ by rw [List.mem_singleton.1 hm]⟩
  · exact ⟨[], (List.append_nil _).symm, nofun⟩

theorem noting_groups (s : Source) (cs : List Char) : (s.noting cs).groups = s.groups := by
  rw [Source.noting]
  split <;> rfl

theorem Source.NamesKnown.numbered (h : s.NamesKnown) (name : Option String) :
    (s.numbered name).NamesKnown := by
  intro entry hentry
  obtain hentry | hentry := List.mem_append.1 hentry
  · exact ⟨(h entry hentry).1, Nat.le_succ_of_le (h entry hentry).2⟩
  · obtain ⟨_, -, rfl⟩ := List.mem_map.1 hentry
    exact ⟨Nat.succ_pos _, Nat.le_refl _⟩

theorem noting_namesKnown (cs : List Char) (h : s.NamesKnown) : (s.noting cs).NamesKnown := by
  rw [Source.noting]
  split <;> exact h

theorem Atom.grown (h : Atom o s node t) : Grown s t ∧ UpTo t.groups node := by
  have hplain {rest : List Char} (hlength : rest.length ≤ s.rest.length) :
      Grown s { s with rest := rest } :=
    ⟨hlength, Nat.le_refl _, ⟨[], (List.append_nil _).symm, nofun⟩, id⟩
  cases h with
  | callout hrest hopening =>
    obtain ⟨piece, rfl, hread⟩ := opening_takes True hopening
    obtain ⟨what, -, hlike⟩ := hread o _ (.refl o) fun _ ↦ rfl
    cases hlike
    refine ⟨hplain ?_, rfl⟩
    rw [hrest, List.length_cons, List.length_append]
    omega
  | @bracketed rest after b hrest hb =>
    obtain ⟨piece, rfl, -⟩ := classBody_takes hb
    refine ⟨hplain ?_, any_classNode (isGroupBeyond_of_isCommon _) o b⟩
    rw [hrest, List.length_cons, List.length_append]
    omega
  | @escape rest after node hrest hnode =>
    obtain ⟨hle, htree⟩ := escapeNode_grows (s.noting rest).groups hnode
    obtain ⟨log, hlog, hleft⟩ := noting_numbers s rest
    have hlength : s.rest.length = rest.length + 1 := by rw [hrest, List.length_cons]
    refine ⟨⟨by rw [hlength]; exact Nat.le_succ_of_le hle, ?_, ⟨log, hlog, fun m hm ↦ ?_⟩, ?_⟩,
      htree⟩
    · rw [noting_groups]
    · rw [hleft m hm, hlength]
      exact Nat.lt_succ_self _
    · exact noting_namesKnown rest
  | dot hrest | lineStart hrest | lineEnd hrest => exact ⟨hplain (by simp [hrest]), rfl⟩
  | char hrest =>
    exact ⟨hplain (by simp [hrest]), any_charNode (isGroupBeyond_of_isCommon _) o _⟩

theorem skipIgnored_length (h : skipIgnored o.extended cs.length cs = .ok rest)
    (hrest : rest ≠ []) :
    rest.length ≤ cs.length := by
  obtain ⟨piece, hcs, -⟩ := skipIgnored_takes (Nat.le_refl _) h hrest
  exact length_le_of_append hcs

theorem quantified_grows (count : Nat) {first : Node}
    (h : quantified o.extended cs.length first cs = .ok (node, rest)) (hrest : rest ≠ []) :
    rest.length ≤ cs.length ∧ (UpTo count first → UpTo count node) := by
  let R (a b : Node) : Prop := b = a ∧ (UpTo count first → UpTo count a)
  have happly {a b : Node} (q : Quantifier) (hab : R a b) : R (q.apply a) (q.apply b) :=
    ⟨by rw [hab.1], fun h ↦ (any_apply (isGroupBeyond_of_isCommon count) q).trans (hab.2 h)⟩
  obtain ⟨piece, rfl, hread⟩ := quantified_takes (R := R) (fun hab h ↦ hab.1 ▸ h) happly
    (Nat.le_refl _) h hrest
  obtain ⟨other, -, -, hnode⟩ := hread rest _ first (.refl rest) (Nat.le_refl _) ⟨rfl, id⟩
  exact ⟨length_le_of_append rfl, hnode⟩

theorem closed_length (h : s.closed = .ok t) : t.rest.length + 1 = s.rest.length ∧
    t.groups = s.groups ∧ t.numbers = s.numbers ∧ t.names = s.names := by
  rw [Source.closed] at h
  split at h
  · rename_i hrest
    cases h
    exact ⟨by rw [hrest, List.length_cons], rfl, rfl, rfl⟩
  · cases h

end Pieces

namespace Grown

variable {s mid t : Source}

theorem trans (h : Grown s mid) (h' : Grown mid t) : Grown s t := by
  obtain ⟨log, hlog, hleft⟩ := h.log
  obtain ⟨log', hlog', hleft'⟩ := h'.log
  refine ⟨Nat.le_trans h'.length h.length, Nat.le_trans h.groups h'.groups,
    ⟨log ++ log', ?_, fun m hm ↦ ?_⟩, fun hs ↦ h'.names (h.names hs)⟩
  · rw [hlog', hlog, List.append_assoc]
  · obtain hm | hm := List.mem_append.1 hm
    · exact hleft m hm
    · exact Nat.lt_of_lt_of_le (hleft' m hm) h.length

/-- What less was left of than before. -/
theorem of_shorter {rest : List Char} (h : Grown { s with rest := rest } t)
    (hle : rest.length ≤ s.rest.length) : Grown s t := by
  obtain ⟨log, hlog, hleft⟩ := h.log
  exact ⟨Nat.le_trans h.length hle, h.groups,
    ⟨log, hlog, fun m hm ↦ Nat.lt_of_lt_of_le (hleft m hm) hle⟩, h.names⟩

theorem closed {closed : Source} (h : Grown s mid) (hclosed : mid.closed = .ok closed) :
    Grown s closed := by
  obtain ⟨hlength, hgroups, hnumbers, hnames⟩ := closed_length hclosed
  refine ⟨?_, by rw [hgroups]; exact h.groups, by rw [hnumbers]; exact h.log, fun hs ↦ ?_⟩
  · have := h.length
    omega
  · rw [Source.NamesKnown, hgroups, hnames]
    exact h.names hs

theorem ne_nil (h : Grown s t) (hrest : t.rest ≠ []) : s.rest ≠ [] := by
  intro hnil
  have := h.length
  rw [hnil] at this
  exact hrest (List.eq_nil_of_length_eq_zero (Nat.le_zero.1 this))

end Grown

section Induction

theorem opening_length {o : Options} {cs rest : List Char} {what : Opening}
    (h : opening o cs = .ok (what, rest)) : rest.length ≤ cs.length := by
  obtain ⟨piece, hcs, -⟩ := opening_takes True h
  exact length_le_of_append hcs

/-- Reading goes on, and the tree's groups are among those read so far, as long as something is
left in the end. -/
def Grows (read : Source → Except PatternError (Node × Source)) : Prop :=
  ∀ {s node t}, read s = .ok (node, t) → t.rest ≠ [] → Grown s t ∧ UpTo t.groups node

/-- The same of the rest of a sequence, whose first part is in the tree. -/
def GrowsAfter (first : Node) (read : Source → Except PatternError (Node × Source)) : Prop :=
  ∀ {s node t}, read s = .ok (node, t) → t.rest ≠ [] →
    Grown s t ∧ (UpTo s.groups first → UpTo t.groups node)

theorem Sequence.grown {fuel : Nat} {o : Options} {s t : Source} {node : Node}
    (h : Sequence fuel o s node t) (halternatives : ∀ o, Grows (alternatives fuel o))
    (hnext : ∀ o first, GrowsAfter first (next fuel o first)) (hrest : t.rest ≠ []) :
    Grown s t ∧ UpTo t.groups node := by
  have hopened {rest after : List Char} {what : Opening} (hs : s.rest = '\x28' :: rest)
      (hopening : opening o rest = .ok (what, after)) : after.length ≤ s.rest.length := by
    rw [hs]
    exact Nat.le_succ_of_le (opening_length hopening)
  have hleft {mid closed : Source} (hclosed : mid.closed = .ok closed) : mid.rest ≠ [] := by
    obtain ⟨hlength, -⟩ := closed_length hclosed
    exact List.ne_nil_of_length_pos (hlength ▸ Nat.succ_pos _)
  cases h with
  | stop => exact ⟨⟨Nat.le_refl _, Nat.le_refl _, ⟨[], (List.append_nil _).symm, nofun⟩, id⟩, rfl⟩
  | options hs hopening h =>
    obtain ⟨hgrown, htree⟩ := halternatives _ h hrest
    exact ⟨hgrown.of_shorter (hopened hs hopening), htree⟩
  | @group e _ _ _ body _ mid closed _ hs hopening hbody hclosed h =>
    obtain ⟨hinner, htree⟩ := halternatives _ hbody (hleft hclosed)
    obtain ⟨hgrown, hnode⟩ := hnext _ _ h hrest
    refine ⟨((hinner.of_shorter (hopened hs hopening)).closed hclosed).trans hgrown, hnode ?_⟩
    rw [(closed_length hclosed).2.1]
    cases e <;> simpa [Enclosure.node, UpTo, Node.subterms, Node.isGroupBeyond] using htree
  | @capture name _ after body _ mid closed _ hs hopening hbody hclosed h =>
    obtain ⟨hinner, htree⟩ := halternatives _ hbody (hleft hclosed)
    obtain ⟨hgrown, hnode⟩ := hnext _ _ h hrest
    have hle : s.groups + 1 ≤ mid.groups := hinner.groups
    have hbody : Grown { s with rest := after } mid :=
      ⟨hinner.length, Nat.le_of_succ_le hle, hinner.log, fun hs ↦ hinner.names (hs.numbered name)⟩
    refine ⟨((hbody.of_shorter (hopened hs hopening)).closed hclosed).trans hgrown, hnode ?_⟩
    rw [(closed_length hclosed).2.1]
    rw [UpTo] at htree ⊢
    rw [Node.subterms, List.any_cons, htree, Bool.or_false]
    exact decide_eq_false (Nat.not_lt.2 hle)
  | atom hfirst h =>
    obtain ⟨hgrown, htree⟩ := hfirst.grown
    obtain ⟨hgrown', hnode⟩ := hnext _ _ h hrest
    exact ⟨hgrown.trans hgrown', hnode htree⟩

theorem reading_grows (fuel : Nat) : (∀ o, Grows (alternatives fuel o)) ∧
    (∀ o, Grows (branch fuel o)) ∧ ∀ o first, GrowsAfter first (next fuel o first) := by
  induction fuel with
  | zero => exact ⟨nofun, nofun, nofun⟩
  | succ fuel ih =>
    obtain ⟨ihAlternatives, ihBranch, ihNext⟩ := ih
    refine ⟨fun o s node t h hrest ↦ ?_, fun o s node t h hrest ↦ ?_,
      fun o first s node t h hrest ↦ ?_⟩
    · obtain ⟨first, mid, hbranch, h⟩ := alternatives_eq_ok.1 h
      obtain ⟨-, rfl, rfl⟩ | ⟨rest, other, hmid, rfl, hother⟩ := h
      · exact ihBranch o hbranch hrest
      · obtain ⟨hgrown', hother⟩ := ihAlternatives o hother hrest
        have hgrown' : Grown mid t := hgrown'.of_shorter (by simp [hmid])
        obtain ⟨hgrown, hfirst⟩ := ihBranch o hbranch (by simp [hmid])
        refine ⟨hgrown.trans hgrown', ?_⟩
        have hfirst := hfirst.mono hgrown'.groups
        rw [UpTo] at hfirst hother ⊢
        simp only [Node.subterms, List.any_cons, List.any_append, hfirst, hother]
        rfl
    · obtain ⟨rest, hskip, h⟩ := branch_eq_ok.1 h
      obtain ⟨hgrown, htree⟩ := h.grown ihAlternatives ihNext hrest
      exact ⟨hgrown.of_shorter (skipIgnored_length hskip (hgrown.ne_nil hrest)), htree⟩
    · obtain ⟨repeated, rest, others, hrepeated, hbranch, rfl⟩ := next_eq_ok.1 h
      obtain ⟨hgrown, hothers⟩ := ihBranch o hbranch hrest
      obtain ⟨hle, htree⟩ := quantified_grows s.groups hrepeated (hgrown.ne_nil hrest)
      refine ⟨hgrown.of_shorter hle, fun hfirst ↦ ?_⟩
      have hfirst := (htree hfirst).mono hgrown.groups
      rw [UpTo] at hfirst hothers ⊢
      rw [any_cat (isGroupBeyond_of_isCommon _), hfirst, hothers]
      rfl

end Induction

end SyntaxHighlight.Regex
