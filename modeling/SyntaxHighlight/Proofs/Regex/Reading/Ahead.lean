import SyntaxHighlight.Proofs.Regex.Concatenation
import SyntaxHighlight.Proofs.Regex.Reading.Whole

/-! A whole source that a group follows, as one more piece of its sequence. -/
namespace SyntaxHighlight.Regex

section Within

variable {strict : Prop} {offset : Nat} {R : Node → Node → Prop} {tail : List Char}
  {all : List Numbered} {o o' : Options} {s s' t t' : Source} {node : Node}

theorem Ends.of_head?_eq {cs cs' : List Char} (h : Ends cs) (hhead : cs'.head? = cs.head?) :
    Ends cs' := by
  cases cs with
  | nil =>
    rw [List.head?_eq_none_iff.1 hhead]
    trivial
  | cons c cs =>
    obtain ⟨more, rfl⟩ := List.head?_eq_some_iff.1 hhead
    exact h

/-- Whatever the second text has for the end of the first, all before is read in the same way. -/
theorem reading_within (hR : Likeness strict offset R) (htail : Stops tail)
    (hmovable : ∀ m ∈ all, m.IsMovable offset) (fuel : Nat) :
    ∀ fuel', fuel ≤ fuel' →
    (∀ {o o'}, o.Like strict o' →
      MirroredWithin R offset tail all (alternatives fuel o) (alternatives fuel' o')) ∧
    (∀ {o o'}, o.Like strict o' →
      MirroredWithin R offset tail all (branch fuel o) (branch fuel' o')) ∧
    ∀ {o o' first first'}, o.Like strict o' → R first first' →
      MirroredWithin R offset tail all (next fuel o first) (next fuel' o' first') := by
  induction fuel with
  | zero => exact fun _ _ ↦ ⟨fun _ ↦ nofun, fun _ ↦ nofun, fun _ _ ↦ nofun⟩
  | succ fuel ih =>
    intro fuel' hfuel
    obtain ⟨fuel', rfl⟩ : ∃ k, fuel' = k + 1 := ⟨fuel' - 1, by omega⟩
    obtain ⟨ihAlternatives, ihBranch, ihNext⟩ := ih fuel' (by omega)
    obtain ⟨hgrows, hgrowsBranch, hgrowsNext⟩ := reading_grows fuel
    refine ⟨fun {o o'} ho s s' node t h hrest hfits hs ↦ ?_,
      fun {o o'} ho s s' node t h hrest hfits hs ↦ ?_,
      fun {o o' first first'} ho hfirst s s' node t h hrest hfits hs ↦ ?_⟩
    · obtain ⟨first, mid, hbranch, h⟩ := alternatives_eq_ok.1 h
      obtain ⟨hbar, rfl, rfl⟩ | ⟨rest, other, hmid, rfl, hother⟩ := h
      · obtain ⟨first', mid', hbranch', hlike, ht⟩ := ihBranch ho hbranch hrest hfits hs
        have hbar' : mid'.rest.head? ≠ some '\x7c' := by rwa [ht.text.head?_eq hrest]
        exact ⟨first', mid', alternatives_eq_ok.2 ⟨first', mid', hbranch',
          .inl ⟨hbar', rfl, rfl⟩⟩, hlike, ht⟩
      · have hfits' := hfits.of_grown (hgrows _ hother hfits.rest).1
        have hfitsMid : Fits all mid := hfits'.of_grown
          ⟨by simp [hmid], Nat.le_refl _, ⟨[], (List.append_nil _).symm, nofun⟩, id⟩
        obtain ⟨first', mid', hbranch', hlike, hm⟩ :=
          ihBranch ho hbranch (by simp [hmid]) hfitsMid hs
        obtain ⟨rest', hmid', hm'⟩ := hm.past_bar hmid hfits'.rest
        obtain ⟨other', t', hother', hlike', ht⟩ := ihAlternatives ho hother hrest hfits hm'
        exact ⟨_, t', alternatives_eq_ok.2 ⟨first', mid', hbranch',
          .inr ⟨rest', other', hmid', rfl, hother'⟩⟩, hR.alt hlike hlike', ht⟩
    · obtain ⟨rest, hskip, hsequence⟩ := branch_eq_ok.1 h
      have hfits' := hfits.of_grown (hsequence.grown hgrows hgrowsNext hfits.rest).1
      obtain ⟨rest', hskip', hs'⟩ := hs.skipped htail ho hskip hfits'
      obtain ⟨node', t', hsequence', hnode, ht⟩ :=
        hsequence.carried (Q := fun node' t' ↦ R node node' ∧ Mirrors offset tail all t t')
          hR htail hmovable ihAlternatives
          (fun hends hnode ht ↦ by
            subst hnode ht
            exact ⟨_, _, .stop (hends.of_head?_eq (hs'.text.head?_eq hrest)), hR.empty, hs'⟩)
          (fun _ _ hinner h hs' ↦ ihAlternatives hinner h hrest hfits hs')
          (fun hlike h hs' ↦ ihNext ho hlike h hrest hfits hs') hfits ho hs'
      exact ⟨node', t', branch_eq_ok.2 ⟨rest', hskip', hsequence'⟩, hnode, ht⟩
    · obtain ⟨repeated, rest, others, hquantified, hbranch, rfl⟩ := next_eq_ok.1 h
      have hfits' := hfits.of_grown (hgrowsBranch _ hbranch hfits.rest).1
      obtain ⟨repeated', rest', hquantified', hrepeated, hs'⟩ :=
        hs.quantified hR htail ho hquantified hfits' hfirst
      obtain ⟨others', t', hbranch', hothers, ht⟩ := ihBranch ho hbranch hrest hfits hs'
      exact ⟨_, t', next_eq_ok.2 ⟨repeated', rest', others', hquantified', hbranch', rfl⟩,
        hR.cat hrepeated hothers, ht⟩

end Within

section Ahead

variable {strict : Prop} {offset spare : Nat} {R : Node → Node → Prop} {tail : List Char}
  {all : List Numbered} {o o' : Options} {node : Node} {s s' t : Source} {cs : List Char}
  {P : Node → Source → Prop}

/-- What is read of the pieces that follow, behind all that has been read before. -/
def ReadsOn (offset spare : Nat) (o' : Options) (tail : List Char) (t : Source)
    (P : Node → Source → Prop) : Prop :=
  ∀ {t' fuel}, Behind offset t t' → spare ≤ fuel →
    ∃ others u, branch fuel o' { t' with rest := tail } = .ok (others, u) ∧ P others u

theorem skipIgnored_opens (extended : Bool) (fuel : Nat) (hopens : Opens tail)
    (htail : Stops tail) : skipIgnored extended fuel tail = .ok tail := by
  obtain ⟨more, rfl⟩ := hopens
  refine skipIgnored_self fuel (fun rest heq ↦ ?_) (by simp [isExtendedBlank])
  cases heq
  revert htail
  simp [Stops]

/-- The pieces of the first text are read, and then the others. -/
theorem branch_ahead (hR : Likeness strict offset R) (hmovable : ∀ m ∈ all, m.IsMovable offset)
    (hopens : Opens tail) (htail : Stops tail) (ho : o.Like strict o')
    (hothers : ReadsOn offset spare o' tail t P) (hrest : t.rest = ['\x29']) (hfits : Fits all t)
    (fuel : Nat) : ∀ fuel', fuel + spare ≤ fuel' →
    (∀ {s s' node}, branch fuel o s = .ok (node, t) → Mirrors offset tail all s s' →
      ∃ node' u, branch fuel' o' s' = .ok (node', u) ∧
        ∃ body others, R node body ∧ node' = body.cat others ∧ P others u) ∧
    ∀ {first first' s s' node}, R first first' → next fuel o first s = .ok (node, t) →
      Mirrors offset tail all s s' →
      ∃ node' u, next fuel' o' first' s' = .ok (node', u) ∧
        ∃ body others, R node body ∧ node' = body.cat others ∧ P others u := by
  induction fuel with
  | zero => exact fun _ _ ↦ ⟨nofun, fun _ ↦ nofun⟩
  | succ fuel ih =>
    intro fuel' hfuel
    obtain ⟨fuel', rfl⟩ : ∃ k, fuel' = k + 1 := ⟨fuel' - 1, by omega⟩
    obtain ⟨ihBranch, ihNext⟩ := ih fuel' (by omega)
    obtain ⟨hgrows, hgrowsBranch, hgrowsNext⟩ := reading_grows fuel
    refine ⟨fun {s s' node} h hs ↦ ?_, fun {first first' s s' node} hfirst h hs ↦ ?_⟩
    · obtain ⟨rest, hskip, hsequence⟩ := branch_eq_ok.1 h
      have hfits' := hfits.of_grown (hsequence.grown hgrows hgrowsNext hfits.rest).1
      obtain ⟨rest', hskip', hs'⟩ := hs.skipped htail ho hskip hfits'
      obtain ⟨hwithin, -⟩ := reading_within hR htail hmovable fuel fuel' (by omega)
      obtain ⟨node', u, hsequence', hfound⟩ := hsequence.carried
        (Q := fun node' u ↦ ∃ body others, R node body ∧ node' = body.cat others ∧ P others u)
        hR htail hmovable hwithin
        (fun _ hnode ht ↦ by
          -- At the end of the first text, the second goes on with the group that follows.
          subst hnode
          have htext := hs'.text
          rw [← ht, hrest] at htext
          obtain rfl := htext.eq_tail
          have hbehind : Behind offset t { s' with rest := rest' } := ht ▸ hs'.behind
          obtain ⟨others, u, hread, hP⟩ := hothers hbehind (show spare ≤ fuel' + 1 by omega)
          obtain ⟨_, hstay, hsequence'⟩ := branch_eq_ok.1 hread
          cases (skipIgnored_opens _ _ hopens htail).symm.trans hstay
          exact ⟨others, u, hsequence', .empty, others, hR.empty, rfl, hP⟩)
        (fun hs hopening _ _ _ ↦
          absurd ⟨[], _, _, _, _, hs, hopening⟩ (hs'.calm (.inr hopens)))
        (fun hlike h hs' ↦ ihNext hlike h hs') hfits ho hs'
      exact ⟨node', u, branch_eq_ok.2 ⟨rest', hskip', hsequence'⟩, hfound⟩
    · obtain ⟨repeated, rest, others, hquantified, hbranch, rfl⟩ := next_eq_ok.1 h
      have hfits' := hfits.of_grown (hgrowsBranch _ hbranch hfits.rest).1
      obtain ⟨repeated', rest', hquantified', hrepeated, hs'⟩ :=
        hs.quantified hR htail ho hquantified hfits' hfirst
      obtain ⟨_, u, hbranch', body, more, hbody, rfl, hP⟩ := ihBranch hbranch hs'
      exact ⟨_, u, next_eq_ok.2 ⟨repeated', rest', _, hquantified', hbranch', rfl⟩,
        repeated'.cat body, more, hR.cat hrepeated hbody, (Node.cat_assoc ..).symm, hP⟩

/-- A source that is read as a whole, with no bar but within groups. -/
def Unbarred (o : Options) (cs : List Char) : Prop :=
  ∃ node s, branch (3 * cs.length + 2) o { rest := cs ++ ['\x29'] } = .ok (node, s) ∧
    s.rest = ['\x29']

/-- A source without bars is read whole before a group that follows, unless it sets options. -/
theorem Closed.ahead (h : Closed o cs node s) (hbarless : Unbarred o cs)
    (hR : Likeness strict offset R) (hmovable : ∀ m ∈ s.numbers, m.IsMovable offset)
    (hopens : Opens tail) (htail : Stops tail) (ho : o.Like strict o')
    (hcalm : ¬ SetsOptions (cs ++ ['\x29'])) (hbehind : Behind offset { rest := cs ++ ['\x29'] } s')
    (htext : Renumbered offset tail (s.numbers.map Numbered.mark) (cs ++ ['\x29']) s'.rest)
    (hothers : ReadsOn offset spare o' tail s P) {fuel : Nat}
    (hfuel : 3 * cs.length + 2 + spare ≤ fuel) :
    ∃ body others u, branch fuel o' s' = .ok (body.cat others, u) ∧ R node body ∧ P others u := by
  obtain ⟨first, mid, hbranch, hmid⟩ := hbarless
  obtain ⟨first', mid', hbranch', hreads⟩ := alternatives_eq_ok.1 h.reads
  cases hbranch.symm.trans hbranch'
  obtain ⟨-, rfl, rfl⟩ | ⟨rest, other, hbar, -⟩ := hreads
  · have hfits : Fits s.numbers s :=
      ⟨List.prefix_refl _, by simp, by rw [h.rest]; exact List.cons_ne_nil _ _⟩
    obtain ⟨_, u, hread, body, others, hbody, rfl, hP⟩ :=
      (branch_ahead hR hmovable hopens htail ho hothers h.rest hfits _ _ hfuel).1 hbranch
        ⟨hbehind, htext, fun _ ↦ hcalm⟩
    exact ⟨body, others, u, hread, hbody, hP⟩
  · rw [hmid] at hbar
    cases hbar

/-- Behind other groups, a source in a group that looks ahead is read as that group. -/
theorem Closed.lookedAhead (h : Closed o cs node s) (ho : o.extended = false)
    (hnames : s'.NamesKnown) (hmovable : ∀ m ∈ s.numbers, m.IsMovable s'.groups)
    {cs' more : List Char} (htext : Renumbered s'.groups ('\x29' :: more)
      (s.numbers.map Numbered.mark) (cs ++ ['\x29']) cs')
    (hrest : s'.rest = '\x28' :: '?' :: '=' :: cs') (hmore : Ends more) {fuel : Nat}
    (hfuel : 3 * cs.length + 3 ≤ fuel) :
    ∃ body u, branch (fuel + 1) o s' = .ok (.look .ahead false body, u) ∧
      Raised s'.groups node body ∧ u.rest = more ∧ u.groups = s'.groups + s.groups := by
  have hknown : Source.NamesKnown { s' with rest := cs' } := hnames
  have hbehind : Behind s'.groups { rest := cs ++ ['\x29'] } { s' with rest := cs' } :=
    .start rfl hknown _
  have hon : ¬ GoesOn ('\x29' :: more) := by
    rintro ⟨_, _, hbar⟩
    cases hbar
  obtain ⟨body, mid, hbody, hraised, hmid, hend | ⟨hbar, -⟩⟩ :=
    h.elsewhere (likeness_raised _) (.close more : Finish (Raised s'.groups) 0 _) hon hmovable
      (.refl o) hbehind htext hfuel
  · have hclosed : mid.closed = .ok { mid with rest := more } := by
      rw [Source.closed, hend]
      rfl
    obtain ⟨k, rfl⟩ : ∃ k, fuel = k + 2 := ⟨fuel - 2, by omega⟩
    have hskip : skipIgnored o.extended s'.rest.length s'.rest = .ok s'.rest := by
      rw [ho, hrest]
      exact skipIgnored_self _ (fun _ heq ↦ by simp at heq) rfl
    refine ⟨body, { mid with rest := more }, branch_eq_ok.2 ⟨s'.rest, hskip, ?_⟩, hraised, rfl, ?_⟩
    · exact .group hrest rfl hbody hclosed (next_ends ho hmore)
    · rw [hmid.groups, Nat.add_comm]
  · cases hbar

end Ahead

end SyntaxHighlight.Regex
