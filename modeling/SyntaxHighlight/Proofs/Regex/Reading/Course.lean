import SyntaxHighlight.Proofs.Regex.Reading.Skimming

/-!
A look at a source finds the parentheses that the reader finds, as long as there are no comments and
no options in it: it goes from wherever the reader starts to wherever it stops.
-/
namespace SyntaxHighlight.Regex

open Unicode

/-- The look at a place that the reader has come to, `depth` groups within another and with `ahead`
more groups before. -/
def Source.looked (s : Source) (depth ahead : Nat) (strays : Bool) : Skim :=
  { depth, groups := ahead + s.groups, strays }

/-- The look gets from one state of reading to another, whatever ends the sequence there. -/
def Traces (depth ahead : Nat) (before after : Bool) (s t : Source) : Prop :=
  ∀ more, Ends more → skim (s.looked depth ahead before) .plain (s.rest ++ more) =
    skim (t.looked depth ahead after) .plain (t.rest ++ more)

/-- Whether a node is one of the first `count` groups. -/
def Node.isGroupWithin (count : Nat) : Node → Bool
  | .group n _ => decide (0 < n) && decide (n ≤ count)
  | _ => false

/-- None of the first `count` groups is in the tree. -/
def Beyond (count : Nat) (node : Node) : Prop :=
  node.subterms.any (Node.isGroupWithin count) = false

section Pieces

variable {depth ahead count : Nat} {before after later : Bool} {o : Options} {s mid t : Source}
  {node : Node} {q : Skim} {c : Char} {cs rest : List Char}

theorem isGroupWithin_of_isCommon (count : Nat) (node : Node) (h : node.isCommon) :
    node.isGroupWithin count = false := by
  cases node <;> first | rfl | cases h

theorem Beyond.mono {count' : Nat} (h : Beyond count node) (hle : count' ≤ count) :
    Beyond count' node := by
  rw [Beyond, List.any_eq_false] at h ⊢
  intro x hx hwithin
  refine h x hx ?_
  cases x with
  | group n body =>
    simp only [Node.isGroupWithin, Bool.and_eq_true, decide_eq_true_eq] at hwithin ⊢
    exact ⟨hwithin.1, Nat.le_trans hwithin.2 hle⟩
  | _ => cases hwithin

theorem beyond_of_upTo (h : UpTo 0 node) : Beyond count node := by
  rw [UpTo, List.any_eq_false] at h
  rw [Beyond, List.any_eq_false]
  intro x hx hwithin
  refine h x hx ?_
  cases x with
  | group n body =>
    simp only [Node.isGroupWithin, Bool.and_eq_true] at hwithin
    exact hwithin.1
  | _ => cases hwithin

theorem Traces.refl (s : Source) : Traces depth ahead before before s s := fun _ _ ↦ rfl

theorem Traces.trans (h : Traces depth ahead before after s mid)
    (h' : Traces depth ahead after later mid t) : Traces depth ahead before later s t :=
  fun more hmore ↦ (h more hmore).trans (h' more hmore)

theorem Traces.not_inline (h : Traces depth ahead before after s t)
    (hs : skim (s.looked depth ahead before) .plain s.rest ≠ .inline) :
    skim (t.looked depth ahead after) .plain t.rest ≠ .inline := by
  have hsame := h [] trivial
  rw [List.append_nil, List.append_nil] at hsame
  rwa [← hsame]

theorem Passes.not_inline (h : Passes .plain cs rest) (hcs : skim q .plain cs ≠ .inline) :
    skim q .plain rest ≠ .inline := by
  have hsame := h q []
  rw [List.append_nil, List.append_nil] at hsame
  rwa [← hsame]

theorem Passes.traces (h : Passes .plain s.rest rest) :
    Traces depth ahead before before s { s with rest := rest } := fun more _ ↦ h _ more

theorem skim_outside (hq : q.brackets = 0) (hc : c ≠ '\\' ∧ c ≠ '[' ∧ c ≠ '\x28' ∧ c ≠ '\x29')
    (cs : List Char) : skim q .plain (c :: cs) = skim q .plain cs := by
  obtain ⟨hslash, hbracket, hopens, hcloses⟩ := hc
  have hend : q.ends? .plain c cs = none :=
    ends?_eq_none.2 fun _ _ ↦ ⟨fun h ↦ absurd h hcloses, fun h ↦ absurd h hopens⟩
  have hstep : q.outside c cs = (q, .plain) := by
    rw [Skim.outside] <;> assumption
  rw [skim_cons hend, Skim.step, Skim.start, if_pos hq, hstep]

theorem setsInline_eq_false (hq : q.brackets = 0)
    (h : skim q .plain ('\x28' :: cs) ≠ .inline) : setsInline cs = false := by
  by_contra hsets
  have hend : q.ends? .plain '\x28' cs = some .inline := by
    rw [Skim.ends?, if_pos ⟨rfl, hq⟩, if_neg fun h ↦ absurd h.1 (by decide),
      if_pos ⟨rfl, Bool.eq_true_of_not_eq_false hsets⟩]
  rw [skim, hend] at h
  exact h rfl

theorem skim_bracket (hq : q.brackets = 0) (cs : List Char) :
    skim q .plain ('[' :: cs) = skim { q with brackets := 1 } (.first false) cs := by
  have hend : q.ends? .plain '[' cs = none :=
    ends?_eq_none.2 fun _ _ ↦ ⟨fun hc ↦ absurd hc (by decide), fun hc ↦ absurd hc (by decide)⟩
  rw [skim_cons hend, Skim.step, Skim.start, if_pos hq]
  rfl

theorem skim_backslash (hq : q.brackets = 0) (cs : List Char) : skim q .plain ('\\' :: cs) =
    skim { q with strays := q.strays || strays cs } .escape cs := by
  rw [skim_cons ends?_slash, Skim.step, Skim.start, if_pos hq]
  rfl

theorem Atom.traces (h : Atom o s node t)
    (hs : skim (s.looked depth ahead before) .plain s.rest ≠ .inline) :
    Traces depth ahead before (before || node.strays) s t ∧ t.groups = s.groups ∧ UpTo 0 node := by
  have hquiet (htraces : Traces depth ahead before before s t) (hnode : node.strays = false) :
      Traces depth ahead before (before || node.strays) s t := by
    rwa [hnode, Bool.or_false]
  have hchar {c : Char} {rest : List Char} (hrest : s.rest = c :: rest)
      (hc : c ≠ '\\' ∧ c ≠ '[' ∧ c ≠ '\x28' ∧ c ≠ '\x29') :
      Traces depth ahead before before s { s with rest := rest } := by
    intro more _
    rw [hrest]
    exact skim_outside rfl hc (rest ++ more)
  cases h with
  | @callout rest after node hrest hopening =>
    rw [hrest] at hs
    generalize hwhat : Opening.done node = what at hopening
    cases opening_passes (setsInline_eq_false rfl hs) hopening with
    | group | capture => cases hwhat
    | done hpasses =>
      cases hwhat
      refine ⟨hquiet (fun more _ ↦ ?_) rfl, rfl, rfl⟩
      rw [hrest]
      exact hpasses _ more rfl
  | @bracketed rest after b hrest hb =>
    refine ⟨hquiet (fun more _ ↦ ?_) (any_classNode isStray_of_isCommon o b), rfl,
      any_classNode (isGroupBeyond_of_isCommon 0) o b⟩
    rw [hrest, List.cons_append, skim_bracket rfl, (class_leaves _).2 hb _ more Nat.one_ne_zero]
    rfl
  | @escape rest after node hrest hnode =>
    obtain ⟨hpasses, hstrays⟩ := escapeNode_passes hnode
    refine ⟨fun more hmore ↦ ?_, noting_groups s rest, (escapeNode_grows 0 hnode).2⟩
    have hlooked : Source.looked { s.noting rest with rest := after } depth ahead
        (before || node.strays) =
        { s.looked depth ahead before with strays := before || node.strays } := by
      rw [Source.looked, noting_groups]
      rfl
    rw [hrest, List.cons_append, skim_backslash rfl, hstrays more hmore, hlooked]
    exact hpasses _ more
  | dot hrest => exact ⟨hquiet (hchar hrest (by decide)) rfl, rfl, rfl⟩
  | lineStart hrest | lineEnd hrest => exact ⟨hquiet (hchar hrest (by decide)) rfl, rfl, rfl⟩
  | @char c rest hrest hsyntax =>
    have hc : c ≠ '\\' ∧ c ≠ '[' ∧ c ≠ '\x28' ∧ c ≠ '\x29' := by
      refine ⟨?_, ?_, ?_, ?_⟩ <;> rintro rfl <;> cases hsyntax
    exact ⟨hquiet (hchar hrest hc) (charNode_strays o c), rfl,
      any_charNode (isGroupBeyond_of_isCommon 0) o c⟩

theorem skipIgnored_calm {fuel : Nat} (hq : q.brackets = 0) (h : skim q .plain cs ≠ .inline) :
    skipIgnored false fuel cs = .ok cs := by
  refine skipIgnored_self fuel ?_ ?_
  · rintro more rfl
    cases setsInline_eq_false hq h
  · cases cs <;> rfl

theorem quantified_traces {fuel : Nat} {repeated : Node} (hq : q.brackets = 0)
    (hcs : skim q .plain cs ≠ .inline) (h : quantified false fuel node cs = .ok (repeated, rest)) :
    Passes .plain cs rest ∧ ∀ {p : Node → Bool}, (∀ x : Node, x.isCommon → p x = false) →
      repeated.subterms.any p = node.subterms.any p := by
  induction fuel generalizing node cs with
  | zero =>
    cases h
    exact ⟨.refl _, fun _ ↦ rfl⟩
  | succ fuel ih =>
    rw [quantified] at h
    obtain ⟨mid, hskip, h⟩ := bind_eq_ok.1 h
    cases (skipIgnored_calm hq hcs).symm.trans hskip
    obtain ⟨found, hfound, h⟩ := bind_eq_ok.1 h
    cases found with
    | none =>
      cases h
      exact ⟨.refl _, fun _ ↦ rfl⟩
    | some found =>
      obtain ⟨quantifier, last⟩ := found
      dsimp only at h
      split at h
      · have hpasses := quantifier?_passes hfound
        obtain ⟨hpasses', hany⟩ := ih (hpasses.not_inline hcs) h
        exact ⟨hpasses.trans hpasses', fun hp ↦ (hany hp).trans (any_apply hp quantifier)⟩
      · cases h

theorem closed_traces {closed : Source} (h : s.closed = .ok closed) :
    closed.groups = s.groups ∧ ∀ more, Ends more →
      skim (s.looked (depth + 1) ahead before) .plain (s.rest ++ more) =
        skim (closed.looked depth ahead before) .plain (closed.rest ++ more) := by
  rw [Source.closed] at h
  split at h
  · rename_i rest hrest
    cases h
    refine ⟨rfl, fun more _ ↦ ?_⟩
    rw [hrest]
    exact skim_closes rfl (Nat.succ_ne_zero depth) _
  · cases h

end Pieces

section Run

variable {depth ahead : Nat} {before : Bool} {o : Options} {s t : Source} {node : Node}

/-- The look follows the reader, and the groups that are read are new. -/
def Traced (read : Source → Except PatternError (Node × Source)) : Prop :=
  ∀ {s node t depth ahead before}, read s = .ok (node, t) →
    skim (s.looked depth ahead before) .plain s.rest ≠ .inline →
    Traces depth ahead before (before || node.strays) s t ∧ s.groups ≤ t.groups ∧
      Beyond s.groups node

/-- The same of the rest of a sequence, whose first part is in the tree. -/
def TracedAfter (first : Node) (read : Source → Except PatternError (Node × Source)) : Prop :=
  ∀ {s node t depth ahead before}, read s = .ok (node, t) →
    skim (s.looked depth ahead (before || first.strays)) .plain s.rest ≠ .inline →
    Traces depth ahead (before || first.strays) (before || node.strays) s t ∧
      s.groups ≤ t.groups ∧ ∀ {count}, count ≤ s.groups → Beyond count first → Beyond count node

theorem strays_enclosed (e : Enclosure) (body : Node) : (e.node body).strays = body.strays := by
  cases e <;> rfl

theorem beyond_enclosed {count : Nat} {body : Node} (e : Enclosure) (h : Beyond count body) :
    Beyond count (e.node body) := by
  cases e <;> simpa [Enclosure.node, Beyond, Node.subterms, Node.isGroupWithin] using h

theorem beyond_group {count n : Nat} {body : Node} (hn : count < n) (h : Beyond count body) :
    Beyond count (.group n body) := by
  refine any_group_eq_false ?_ h
  rw [Node.isGroupWithin, decide_eq_false (Nat.not_le_of_lt hn), Bool.and_false]

/-- The look follows the reader through a group, from its parenthesis to what comes after it. -/
theorem enclosed_traces {fuel : Nat} {opened mid closed : Source} {body : Node}
    (ho : o.extended = false)
    (halternatives : ∀ o : Options, o.extended = false → Traced (alternatives fuel o))
    (hopens : ∀ more, skim (s.looked depth ahead before) .plain (s.rest ++ more) =
      skim (opened.looked (depth + 1) ahead before) .plain (opened.rest ++ more))
    (hbody : alternatives fuel o opened = .ok (body, mid)) (hclosed : mid.closed = .ok closed)
    (hs : skim (s.looked depth ahead before) .plain s.rest ≠ .inline) :
    skim (opened.looked (depth + 1) ahead before) .plain opened.rest ≠ .inline ∧
      Traces depth ahead before (before || body.strays) s closed ∧
      opened.groups ≤ closed.groups ∧ Beyond opened.groups body := by
  have hopened : skim (opened.looked (depth + 1) ahead before) .plain opened.rest ≠ .inline := by
    have hsame := hopens []
    rw [List.append_nil, List.append_nil] at hsame
    rwa [← hsame]
  obtain ⟨htraces, hgrows, hbeyond⟩ := halternatives o ho hbody hopened
  obtain ⟨hgroups, hcloses⟩ := closed_traces hclosed
  refine ⟨hopened, fun more hmore ↦ ?_, hgroups ▸ hgrows, hbeyond⟩
  exact (hopens more).trans ((htraces more hmore).trans (hcloses more hmore))

theorem Sequence.rest_traced {fuel : Nat} {closed : Source} {count : Nat} {first : Node}
    (hnext : TracedAfter first (next fuel o first)) (h : next fuel o first closed = .ok (node, t))
    (hthrough : Traces depth ahead before (before || first.strays) s closed)
    (hgrows : s.groups ≤ closed.groups) (hcount : count ≤ s.groups) (hfirst : Beyond count first)
    (hs : skim (s.looked depth ahead before) .plain s.rest ≠ .inline) :
    Traces depth ahead before (before || node.strays) s t ∧ s.groups ≤ t.groups ∧
      Beyond count node := by
  obtain ⟨htraces, hle, hbeyond⟩ := hnext h (hthrough.not_inline hs)
  exact ⟨hthrough.trans htraces, Nat.le_trans hgrows hle,
    hbeyond (Nat.le_trans hcount hgrows) hfirst⟩

theorem Sequence.traced {fuel : Nat} (ho : o.extended = false)
    (halternatives : ∀ o : Options, o.extended = false → Traced (alternatives fuel o))
    (hnext : ∀ (o : Options) first, o.extended = false → TracedAfter first (next fuel o first))
    (h : Sequence fuel o s node t)
    (hs : skim (s.looked depth ahead before) .plain s.rest ≠ .inline) :
    Traces depth ahead before (before || node.strays) s t ∧ s.groups ≤ t.groups ∧
      Beyond s.groups node := by
  have hopening {rest : List Char} (hrest : s.rest = '\x28' :: rest) : setsInline rest = false := by
    rw [hrest] at hs
    exact setsInline_eq_false rfl hs
  cases h with
  | stop =>
    refine ⟨?_, Nat.le_refl _, rfl⟩
    rw [show Node.empty.strays = false from rfl, Bool.or_false]
    exact .refl s
  | @options inner rest after _ _ hrest hopened h =>
    generalize hwhat : Opening.options inner = what at hopened
    cases opening_passes (hopening hrest) hopened <;> cases hwhat
  | @group e inner rest after body _ mid closed _ hrest hopened hbody hclosed h =>
    generalize hwhat : Opening.group e inner = what at hopened
    cases opening_passes (hopening hrest) hopened with
    | capture | done => cases hwhat
    | group _ henters =>
      cases hwhat
      obtain ⟨-, hthrough, hgrows, hbeyond⟩ := enclosed_traces ho halternatives (fun more ↦ by
        rw [hrest]
        exact henters _ more rfl) hbody hclosed hs
      rw [← strays_enclosed e body] at hthrough
      exact rest_traced (hnext o _ ho) h hthrough hgrows (Nat.le_refl _)
        (beyond_enclosed e hbeyond) hs
  | @capture name rest after body _ mid closed _ hrest hopened hbody hclosed h =>
    generalize hwhat : Opening.capture name = what at hopened
    cases opening_passes (hopening hrest) hopened with
    | group | done => cases hwhat
    | capture _ henters =>
      cases hwhat
      obtain ⟨-, hthrough, hgrows, hbeyond⟩ := enclosed_traces ho halternatives (fun more ↦ by
        rw [hrest]
        exact henters _ more rfl) hbody hclosed hs
      exact rest_traced (hnext o _ ho) h hthrough (Nat.le_of_succ_le hgrows) (Nat.le_refl _)
        (beyond_group (Nat.lt_succ_self _) (hbeyond.mono (Nat.le_succ _))) hs
  | atom hfirst h =>
    obtain ⟨hthrough, hgroups, htree⟩ := hfirst.traces hs
    exact rest_traced (hnext o _ ho) h hthrough (Nat.le_of_eq hgroups.symm) (Nat.le_refl _)
      (beyond_of_upTo htree) hs

theorem reading_traced (fuel : Nat) :
    (∀ o : Options, o.extended = false → Traced (alternatives fuel o)) ∧
    (∀ o : Options, o.extended = false → Traced (branch fuel o)) ∧
    ∀ (o : Options) first, o.extended = false → TracedAfter first (next fuel o first) := by
  induction fuel with
  | zero => exact ⟨fun _ _ ↦ nofun, fun _ _ ↦ nofun, fun _ _ _ ↦ nofun⟩
  | succ fuel ih =>
    obtain ⟨ihAlternatives, ihBranch, ihNext⟩ := ih
    refine ⟨fun o ho s node t depth ahead before h hs ↦ ?_,
      fun o ho s node t depth ahead before h hs ↦ ?_,
      fun o first ho s node t depth ahead before h hs ↦ ?_⟩
    · obtain ⟨first, mid, hbranch, h⟩ := alternatives_eq_ok.1 h
      obtain ⟨htraces, hle, hbeyond⟩ := ihBranch o ho hbranch hs
      obtain ⟨-, rfl, rfl⟩ | ⟨rest, other, hmid, rfl, hother⟩ := h
      · exact ⟨htraces, hle, hbeyond⟩
      · have hbar : Traces depth ahead (before || first.strays) (before || first.strays) mid
            { mid with rest := rest } := fun more _ ↦ by
          rw [hmid]
          exact skim_outside rfl (by decide) (rest ++ more)
        have hthrough := htraces.trans hbar
        obtain ⟨htraces', hle', hbeyond'⟩ := ihAlternatives o ho hother (hthrough.not_inline hs)
        have hstrays : (Node.alt first other).strays = (first.strays || other.strays) := by
          rw [Node.strays, Node.subterms, List.any_cons, List.any_append]
          rfl
        refine ⟨?_, Nat.le_trans hle hle', any_alt_eq_false rfl hbeyond (hbeyond'.mono hle)⟩
        rw [hstrays, ← Bool.or_assoc]
        exact hthrough.trans htraces'
    · obtain ⟨rest, hskip, hsequence⟩ := branch_eq_ok.1 h
      rw [ho] at hskip
      cases (skipIgnored_calm rfl hs).symm.trans hskip
      exact hsequence.traced ho ihAlternatives ihNext hs
    · obtain ⟨repeated, rest, others, hrepeated, hbranch, rfl⟩ := next_eq_ok.1 h
      rw [ho] at hrepeated
      obtain ⟨hpasses, hany⟩ := quantified_traces rfl hs hrepeated
      have hquantified : Traces depth ahead (before || first.strays) (before || first.strays) s
          { s with rest := rest } := hpasses.traces
      obtain ⟨htraces, hle, hbeyond⟩ := ihBranch o ho hbranch (hquantified.not_inline hs)
      have hstrays : (repeated.cat others).strays = (first.strays || others.strays) :=
        (any_cat isStray_of_isCommon).trans (congrArg (· || _) (hany isStray_of_isCommon))
      refine ⟨?_, hle, fun {count} hcount hfirst ↦ ?_⟩
      · rw [hstrays, ← Bool.or_assoc]
        exact hquantified.trans htraces
      · refine (any_cat (isGroupWithin_of_isCommon count)).trans ?_
        rw [hany (isGroupWithin_of_isCommon count), Bool.or_eq_false_iff]
        exact ⟨hfirst, hbeyond.mono hcount⟩

end Run

end SyntaxHighlight.Regex
