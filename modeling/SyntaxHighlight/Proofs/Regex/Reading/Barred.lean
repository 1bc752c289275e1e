import SyntaxHighlight.Proofs.Regex.Reading.Course
import SyntaxHighlight.Proofs.Regex.Reading.Whole

/-!
A source without comments and options is read the same with a bar behind it, after which comes an
empty alternative. Whether case matters makes no difference to the groups.
-/
namespace SyntaxHighlight.Regex

open Unicode

/-- Two states of reading, the second with a bar behind all that is left. -/
structure Barred (s s' : Source) : Prop where
  rest : s'.rest = s.rest ++ ['\x7c']
  groups : s'.groups = s.groups
  names : s'.names = s.names

section Pieces

variable {o o' : Options} {s s' t : Source} {node : Node} {cs rest : List Char} {c : Char}

theorem stops_bar : Stops ['\x7c'] := .inr (.inl rfl)

theorem agree_bar (cs : List Char) : Agree cs (cs ++ ['\x7c']) := by
  have hstop : Agree [] ['\x7c'] := .stop trivial stops_bar
  have hagree := hstop.append cs
  rwa [List.append_nil] at hagree

theorem Barred.at_rest (h : Barred s s') (rest : List Char) :
    Barred { s with rest := rest } { s' with rest := rest ++ ['\x7c'] } :=
  ⟨rfl, h.groups, h.names⟩

theorem Barred.rest_eq (h : Barred s s') (hrest : s.rest = cs) : s'.rest = cs ++ ['\x7c'] :=
  hrest ▸ h.rest

theorem Barred.numbered (h : Barred s s') (name : Option String) :
    Barred (s.numbered name) (s'.numbered name) := by
  refine ⟨h.rest, congrArg (· + 1) h.groups, ?_⟩
  rw [Source.numbered, Source.numbered, h.names, h.groups]

theorem Barred.noting (h : Barred s s') (cs cs' : List Char) :
    Barred (s.noting cs) (s'.noting cs') := by
  have hsame (s : Source) (cs : List Char) : (s.noting cs).rest = s.rest ∧
      (s.noting cs).groups = s.groups ∧ (s.noting cs).names = s.names := by
    rw [Source.noting]
    split <;> exact ⟨rfl, rfl, rfl⟩
  obtain ⟨hrest, hgroups, hnames⟩ := hsame s cs
  obtain ⟨hrest', hgroups', hnames'⟩ := hsame s' cs'
  refine ⟨?_, ?_, ?_⟩
  · rw [hrest, hrest', h.rest]
  · rw [hgroups, hgroups', h.groups]
  · rw [hnames, hnames', h.names]

theorem resolve_barred (h : Barred s s') (distance : Int) :
    s'.resolve distance = s.resolve distance := by
  rw [Source.resolve, Source.resolve, h.groups]

theorem referred_barred (h : Barred s s') (target : Reference) :
    s'.referred target = s.referred target := by
  cases target with
  | absolute n => rfl
  | relative distance => rw [Source.referred, Source.referred, resolve_barred h]
  | name name => rw [Source.referred, Source.referred, Source.numbersOf, Source.numbersOf, h.names]

theorem called_barred (h : Barred s s') (target : Reference) :
    s'.called target = s.called target := by
  cases target with
  | relative distance => rw [Source.called, Source.called, resolve_barred h]
  | absolute n | name name => rfl

theorem outlined_backref (groups : List Nat) (ignoreCase ignoreCase' : Bool) :
    Outlined (.backref groups ignoreCase) (.backref groups ignoreCase') := by
  refine ⟨id, by simp, fun hp ↦ ?_⟩
  simp only [Node.subterms, List.any_cons, List.any_nil,
    hp.backref groups ignoreCase ignoreCase']

theorem outlined_char (o o' : Options) (c : Char) :
    Outlined (charNode o c) (charNode o' c) :=
  .of_plain (by rw [charNode]; split <;> rfl) (by rw [charNode]; split <;> simp)
    (fun hp ↦ any_charNode hp.common _ c) fun hp ↦ any_charNode hp.common _ c

theorem delimitedNode?_barred (hs : Barred s s')
    (h : delimitedNode? o s cs = .ok (some (node, rest))) :
    ∃ node', delimitedNode? o' s' (cs ++ ['\x7c']) = .ok (some (node', rest ++ ['\x7c'])) ∧
      Outlined node node' := by
  have hread {cs : List Char} {target : Reference} {last : List Char}
      (hfound : delimitedReference? cs = .ok (some (target, last))) :
      delimitedReference? (cs ++ ['\x7c']) = .ok (some (target, last ++ ['\x7c'])) := by
    obtain ⟨c, name, close, -, rfl, -, hread⟩ := delimitedReference?_takes hfound
    simpa using hread (last ++ ['\x7c'])
  rw [delimitedNode?.eq_def] at h
  split at h
  · obtain ⟨_ | ⟨target, last⟩, hfound, h⟩ := bind_eq_ok.1 h
    · cases h
    · obtain ⟨groups, hgroups, h⟩ := bind_eq_ok.1 h
      cases h
      rw [← referred_barred hs] at hgroups
      exact ⟨_, bind_eq_ok.2 ⟨_, hread hfound, bind_eq_ok.2 ⟨_, hgroups, rfl⟩⟩,
        outlined_backref groups _ _⟩
  · obtain ⟨_ | ⟨target, last⟩, hfound, h⟩ := bind_eq_ok.1 h
    · cases h
    · obtain ⟨callee, hcallee, h⟩ := bind_eq_ok.1 h
      cases h
      rw [← called_barred hs] at hcallee
      exact ⟨_, bind_eq_ok.2 ⟨_, hread hfound, bind_eq_ok.2 ⟨_, hcallee, rfl⟩⟩, .refl _⟩
  · cases h

theorem escapedNumber?_barred {n : Nat} (h : escapedNumber? cs = some (n, rest)) :
    escapedNumber? (cs ++ ['\x7c']) = some (n, rest ++ ['\x7c']) := by
  obtain ⟨digits, rfl, hall, hzero, hrest, rfl⟩ := escapedNumber?_eq_some h
  rw [List.append_assoc]
  refine escapedNumber?_digits hall hzero ?_
  exact (agree_bar rest).head_any_eq_false isAsciiDigit_not_stops hrest

theorem numberedNode?_barred (hs : Barred s s') (h : numberedNode? o s cs = some (node, rest)) :
    ∃ node', numberedNode? o' s' (cs ++ ['\x7c']) = some (node', rest ++ ['\x7c']) ∧
      Outlined node node' := by
  rw [numberedNode?.eq_def] at h
  split at h
  · cases h
  · rename_i n last hnumber
    rw [numberedNode?.eq_def, escapedNumber?_barred hnumber, hs.groups]
    dsimp only
    split at h
    · rename_i hgroup
      cases h
      exact ⟨_, if_pos hgroup, outlined_backref [n] _ _⟩
    · rename_i hgroup
      rw [if_neg hgroup]
      split at h
      · cases h
        exact ⟨_, rfl, outlined_char o o' '8'⟩
      · cases h
        exact ⟨_, rfl, outlined_char o o' '9'⟩
      · cases h

theorem numberedNode?_barred_none (hs : Barred s s') (h : numberedNode? o s (c :: cs) = none) :
    numberedNode? o' s' (c :: (cs ++ ['\x7c'])) = none := by
  rw [numberedNode?.eq_def] at h
  split at h
  · rename_i hnumber
    exact numberedNode?_none hnumber _
  · rename_i n last hnumber
    rw [numberedNode?.eq_def, ← List.cons_append, escapedNumber?_barred hnumber, hs.groups]
    split at h
    · cases h
    · rename_i hgroup
      dsimp only
      rw [if_neg hgroup]
      split at h
      · cases h
      · cases h
      · rename_i height hnine
        split
        · rename_i heq
          cases heq
          exact absurd rfl (height cs)
        · rename_i heq
          cases heq
          exact absurd rfl (hnine cs)
        · rfl

theorem escapeNode_barred (hs : Barred s s') (h : escapeNode o s cs = .ok (node, rest)) :
    ∃ node', escapeNode o' s' (cs ++ ['\x7c']) = .ok (node', rest ++ ['\x7c']) ∧
      Outlined node node' := by
  obtain ⟨c, cs, rfl, hescaped⟩ := escapeNode_eq_ok.1 h
  rw [List.cons_append]
  cases hescaped with
  | letter hletter => exact ⟨_, escapeNode_eq_ok.2 ⟨_, _, rfl, .letter hletter⟩, .refl _⟩
  | delimited hletter hdelimited =>
    obtain ⟨node', hdelimited', hnode⟩ := delimitedNode?_barred hs hdelimited
    exact ⟨node', escapeNode_eq_ok.2 ⟨_, _, rfl, .delimited hletter hdelimited'⟩, hnode⟩
  | property hletter hdelimited hproperty =>
    obtain ⟨piece, rfl, hread⟩ := (escapedProperty?_takes hproperty).of_cons
    have hproperty' := hread _ (agree_bar rest)
    rw [← List.append_assoc] at hproperty'
    exact ⟨_, escapeNode_eq_ok.2 ⟨_, _, rfl, .property hletter
      (delimitedNode?_none (agree_bar _) o' s' hdelimited) hproperty'⟩, .refl _⟩
  | numbered hletter hdelimited hproperty hnumbered =>
    obtain ⟨node', hnumbered', hnode⟩ := numberedNode?_barred hs hnumbered
    exact ⟨node', escapeNode_eq_ok.2 ⟨_, _, rfl, .numbered hletter
      (delimitedNode?_none (agree_bar _) o' s' hdelimited)
      (escapedProperty?_none hproperty (agree_bar _)) hnumbered'⟩, hnode⟩
  | @literal d _ hletter hdelimited hproperty hnumbered hliteral =>
    obtain ⟨piece, rfl, hread⟩ := escapedLiteral_takes hliteral
    have hliteral' := hread _ (agree_bar rest)
    rw [← List.append_assoc] at hliteral'
    exact ⟨_, escapeNode_eq_ok.2 ⟨_, _, rfl, .literal hletter
      (delimitedNode?_none (agree_bar _) o' s' hdelimited)
      (escapedProperty?_none hproperty (agree_bar _))
      (numberedNode?_barred_none hs hnumbered) hliteral'⟩, outlined_char o o' d⟩

theorem Atom.barred (h : Atom o s node t) (ho : o.Like False o') (hs : Barred s s') :
    ∃ node' t', Atom o' s' node' t' ∧ Outlined node node' ∧ Barred t t' := by
  cases h with
  | @callout rest after _ hrest hopening =>
    obtain ⟨piece, rfl, hread⟩ := opening_takes False hopening
    obtain ⟨what, hopening', hlike⟩ := hread o' (after ++ ['\x7c']) ho nofun
    cases hlike
    rw [← List.append_assoc] at hopening'
    exact ⟨_, _, .callout (hs.rest_eq hrest) hopening', .refl _, hs.at_rest after⟩
  | @bracketed rest after b hrest hb =>
    obtain ⟨piece, rfl, hread⟩ := classBody_takes hb
    have hb' := hread _ (agree_bar after)
    rw [← List.append_assoc] at hb'
    exact ⟨_, _, .bracketed (hs.rest_eq hrest) hb', likeness_outlined.bracketed b ho,
      hs.at_rest after⟩
  | @escape rest after node hrest hnode =>
    obtain ⟨node', hnode', hlike⟩ := escapeNode_barred hs hnode
    exact ⟨node', _, .escape (hs.rest_eq hrest) hnode', hlike, (hs.noting _ _).at_rest after⟩
  | dot hrest =>
    refine ⟨_, _, .dot (hs.rest_eq hrest), ?_, hs.at_rest _⟩
    rw [dotSet, dotSet, ho.dotAll]
    exact .refl _
  | lineStart hrest =>
    exact ⟨_, _, .lineStart (hs.rest_eq hrest), .refl _, hs.at_rest _⟩
  | lineEnd hrest =>
    exact ⟨_, _, .lineEnd (hs.rest_eq hrest), .refl _, hs.at_rest _⟩
  | @char c rest hrest hc hquantifier =>
    exact ⟨_, _, .char (hs.rest_eq hrest) hc (quantifier?_none (agree_bar _) hquantifier),
      outlined_char o o' c, hs.at_rest rest⟩

/-- Nor is anything ignored with a bar behind. -/
theorem skipIgnored_barred {q : Skim} (hq : q.brackets = 0) (h : skim q .plain cs ≠ .inline)
    (fuel : Nat) : skipIgnored false fuel (cs ++ ['\x7c']) = .ok (cs ++ ['\x7c']) := by
  refine skipIgnored_self fuel (fun more hcomment ↦ ?_) ?_
  · obtain ⟨-, hbar⟩ | ⟨cs, rfl, hcs⟩ := List.append_eq_cons_iff.1 hcomment
    · cases hbar
    obtain ⟨-, hbar⟩ | ⟨rest, rfl, hrest⟩ := List.append_eq_cons_iff.1 hcs.symm
    · cases hbar
    obtain ⟨-, hbar⟩ | ⟨more, rfl, -⟩ := List.append_eq_cons_iff.1 hrest.symm
    · cases hbar
    · cases setsInline_eq_false hq h
  · cases cs <;> rfl

theorem quantified_barred {fuel fuel' : Nat} {q : Skim} {repeated other : Node} (hq : q.brackets = 0)
    (hcs : skim q .plain cs ≠ .inline) (hfuel : cs.length ≤ fuel)
    (hfuel' : cs.length + 1 ≤ fuel') (h : quantified false fuel node cs = .ok (repeated, rest))
    (hother : Outlined node other) :
    ∃ repeated', quantified false fuel' other (cs ++ ['\x7c']) = .ok (repeated', rest ++ ['\x7c']) ∧
      Outlined repeated repeated' := by
  induction fuel generalizing node other cs fuel' with
  | zero =>
    obtain rfl := List.eq_nil_of_length_eq_zero (Nat.le_zero.1 hfuel)
    cases h
    obtain ⟨k, rfl⟩ : ∃ k, fuel' = k + 1 := ⟨fuel' - 1, by omega⟩
    exact ⟨other, bind_eq_ok.2 ⟨_, skipIgnored_barred hq hcs _,
      bind_eq_ok.2 ⟨none, quantifier?_stops stops_bar, rfl⟩⟩, hother⟩
  | succ fuel ih =>
    obtain ⟨k, rfl⟩ : ∃ k, fuel' = k + 1 := ⟨fuel' - 1, by omega⟩
    rw [quantified] at h
    obtain ⟨mid, hskip, h⟩ := bind_eq_ok.1 h
    cases (skipIgnored_calm hq hcs).symm.trans hskip
    obtain ⟨found, hfound, hread⟩ := bind_eq_ok.1 h
    rw [quantified]
    cases found with
    | none =>
      cases hread
      exact ⟨other, bind_eq_ok.2 ⟨_, skipIgnored_barred hq hcs _,
        bind_eq_ok.2 ⟨none, quantifier?_none (agree_bar _) hfound, rfl⟩⟩, hother⟩
    | some found =>
      obtain ⟨quantifier, last⟩ := found
      dsimp only at hread
      split at hread
      · rename_i hrepeatable
        have hlast := (quantifier?_passes hfound).not_inline hcs
        obtain ⟨c, piece, rfl, htakes⟩ := quantifier?_takes hfound
        have hfound' := htakes _ (agree_bar last)
        rw [← List.append_assoc] at hfound'
        simp only [List.length_append, List.length_cons] at hfuel hfuel'
        have hk : last.length + 1 ≤ k := by omega
        obtain ⟨repeated', hrepeated', hlike⟩ :=
          ih hlast (by omega) hk hread
            (likeness_outlined.repeated quantifier hother)
        refine ⟨repeated', bind_eq_ok.2 ⟨_, skipIgnored_barred hq hcs _,
          bind_eq_ok.2 ⟨_, hfound', ?_⟩⟩, hlike⟩
        dsimp only
        rw [if_pos (hother.isRepeatable hrepeatable)]
        exact hrepeated'
      · cases hread

end Pieces

/-- What is read without the bar is read with it, up to the bar. -/
def ReadsBarred (read read' : Source → Except PatternError (Node × Source)) : Prop :=
  ∀ {s s' node t depth ahead before}, read s = .ok (node, t) →
    skim (s.looked depth ahead before) .plain s.rest ≠ .inline → Barred s s' →
    ∃ node' t', read' s' = .ok (node', t') ∧ Outlined node node' ∧ Barred t t'

/-- The same up to the bar or, if nothing else is left to read, past it. -/
def ReadsOverBar (read read' : Source → Except PatternError (Node × Source)) : Prop :=
  ∀ {s s' node t depth ahead before}, read s = .ok (node, t) →
    skim (s.looked depth ahead before) .plain s.rest ≠ .inline → Barred s s' →
    ∃ node' t', read' s' = .ok (node', t') ∧ Outlined node node' ∧
      (t.rest ≠ [] ∧ Barred t t' ∨ t.rest = [] ∧ t'.rest = [] ∧ t'.groups = t.groups)

section Run

variable {depth ahead : Nat} {before : Bool} {o o' : Options} {s s' t : Source} {node : Node}

theorem Barred.closed {mid mid' closed : Source} (h : Barred mid mid')
    (hclosed : mid.closed = .ok closed) :
    ∃ closed', mid'.closed = .ok closed' ∧ Barred closed closed' := by
  rw [Source.closed] at hclosed
  split at hclosed
  · rename_i rest hrest
    cases hclosed
    refine ⟨{ mid' with rest := rest ++ ['\x7c'] }, ?_, h.at_rest rest⟩
    rw [Source.closed, h.rest_eq hrest]
    rfl
  · cases hclosed

/-- A group is closed before the bar. -/
theorem ReadsOverBar.enclosed {read read' : Source → Except PatternError (Node × Source)}
    (h : ReadsOverBar read read') {body : Node} {mid closed : Source} (hread : read s = .ok (body, mid))
    (hs : skim (s.looked depth ahead before) .plain s.rest ≠ .inline) (hbarred : Barred s s')
    (hclosed : mid.closed = .ok closed) :
    ∃ body' mid' closed', read' s' = .ok (body', mid') ∧ Outlined body body' ∧
      mid'.closed = .ok closed' ∧ Barred closed closed' := by
  obtain ⟨body', mid', hread', hlike, ⟨-, hmid⟩ | ⟨hrest, -⟩⟩ := h hread hs hbarred
  · obtain ⟨closed', hclosed', hbarred'⟩ := hmid.closed hclosed
    exact ⟨body', mid', closed', hread', hlike, hclosed', hbarred'⟩
  · rw [Source.closed, hrest] at hclosed
    cases hclosed

theorem Sequence.barred {fuel fuel' : Nat} (ho : o.extended = false) (hlike : o.Like False o')
    (halternatives : ∀ o o' : Options, o.extended = false → o.Like False o' →
      ReadsOverBar (alternatives fuel o) (alternatives fuel' o'))
    (hnext : ∀ (o o' : Options) first first', o.extended = false → o.Like False o' →
      Outlined first first' → ReadsBarred (next fuel o first) (next fuel' o' first'))
    (h : Sequence fuel o s node t)
    (hs : skim (s.looked depth ahead before) .plain s.rest ≠ .inline) (hbarred : Barred s s') :
    ∃ node' t', Sequence fuel' o' s' node' t' ∧ Outlined node node' ∧ Barred t t' := by
  obtain ⟨htraced, -, -⟩ := reading_traced fuel
  have hopening {rest : List Char} (hrest : s.rest = '\x28' :: rest) : setsInline rest = false := by
    rw [hrest] at hs
    exact setsInline_eq_false rfl hs
  cases h with
  | stop hends =>
    refine ⟨_, _, .stop ?_, .refl _, hbarred⟩
    rw [hbarred.rest]
    cases hrest : s.rest with
    | nil => exact .inl rfl
    | cons c rest =>
      rw [hrest] at hends
      exact hends
  | @options inner rest after _ _ hrest hopened h =>
    generalize hwhat : Opening.options inner = what at hopened
    cases opening_passes (hopening hrest) hopened <;> cases hwhat
  | @group e inner rest after body _ mid closed _ hrest hopened hbody hclosed h =>
    obtain ⟨piece, rfl, hread⟩ := opening_takes False hopened
    obtain ⟨what', hopened', hwhat'⟩ := hread o' (after ++ ['\x7c']) hlike nofun
    rw [← List.append_assoc] at hopened'
    generalize hwhat : Opening.group e inner = what at hopened hwhat'
    cases opening_passes (hopening hrest) hopened with
    | capture | done => cases hwhat
    | group _ henters =>
      cases hwhat
      cases hwhat' with
      | group _ hlike' =>
        obtain ⟨hopens, hthrough, -⟩ := enclosed_traces ho htraced (fun more ↦ by
          rw [hrest]
          exact henters _ more rfl) hbody hclosed hs
        obtain ⟨body', mid', closed', hbody', hbodies, hclosed', hbarred'⟩ :=
          ReadsOverBar.enclosed (halternatives _ _ ho hlike') hbody hopens (hbarred.at_rest after)
            hclosed
        obtain ⟨node', t', h', hnodes, ht⟩ := hnext _ _ _ _ ho hlike (hbodies.enclosed e) h
          (hthrough.not_inline hs) hbarred'
        exact ⟨node', t', .group (hbarred.rest_eq hrest) hopened' hbody' hclosed' h', hnodes, ht⟩
  | @capture name rest after body _ mid closed _ hrest hopened hbody hclosed h =>
    obtain ⟨piece, hpiece, hread⟩ := opening_takes False hopened
    generalize hwhat : Opening.capture name = what at hopened
    cases opening_passes (hopening hrest) hopened with
    | group | done => cases hwhat
    | capture _ henters =>
      cases hwhat
      obtain ⟨hopens, hthrough, -⟩ := enclosed_traces ho htraced (fun more ↦ by
        rw [hrest]
        exact henters _ more rfl) hbody hclosed hs
      -- A name or none is told by the next character, which is the same before the bar.
      have hne : after ≠ [] := by
        have hmid : mid.rest ≠ [] := by
          intro hend
          rw [Source.closed, hend] at hclosed
          cases hclosed
        have hlength := ((reading_grows fuel).1 _ hbody hmid).1.length
        have hpos := List.length_pos_iff.2 hmid
        exact List.length_pos_iff.1 (Nat.lt_of_lt_of_le hpos hlength)
      obtain ⟨what', hopened', hwhat'⟩ := hread o' (after ++ ['\x7c']) hlike fun _ ↦ by
        rw [List.head?_append, Option.or_of_isSome (List.isSome_head?.2 hne)]
      rw [← List.append_assoc, ← hpiece] at hopened'
      cases hwhat' with
      | capture =>
        obtain ⟨body', mid', closed', hbody', hbodies, hclosed', hbarred'⟩ :=
          ReadsOverBar.enclosed (halternatives _ _ ho hlike) hbody hopens
            ((hbarred.at_rest after).numbered name) hclosed
        have hgroups : Outlined (.group (s.groups + 1) body) (.group (s'.groups + 1) body') := by
          rw [hbarred.groups]
          exact hbodies.group _
        obtain ⟨node', t', h', hnodes, ht⟩ := hnext _ _ _ _ ho hlike hgroups h
          (hthrough.not_inline hs) hbarred'
        exact ⟨node', t', .capture (hbarred.rest_eq hrest) hopened' hbody' hclosed' h', hnodes, ht⟩
  | atom hfirst h =>
    obtain ⟨first', mid', hfirst', hfirsts, hbarred'⟩ := hfirst.barred hlike hbarred
    obtain ⟨hthrough, -, -⟩ := hfirst.traces hs
    obtain ⟨node', t', h', hnodes, ht⟩ :=
      hnext _ _ _ _ ho hlike hfirsts h (hthrough.not_inline hs) hbarred'
    exact ⟨node', t', .atom hfirst' h', hnodes, ht⟩

/-- The reader goes over a text with a bar behind as it does over the text. -/
theorem reading_barred (fuel : Nat) : ∀ fuel', fuel + 2 ≤ fuel' →
    (∀ o o' : Options, o.extended = false → o.Like False o' →
      ReadsOverBar (alternatives fuel o) (alternatives fuel' o')) ∧
    (∀ o o' : Options, o.extended = false → o.Like False o' →
      ReadsBarred (branch fuel o) (branch fuel' o')) ∧
    ∀ (o o' : Options) first first', o.extended = false → o.Like False o' →
      Outlined first first' → ReadsBarred (next fuel o first) (next fuel' o' first') := by
  induction fuel with
  | zero => exact fun _ _ ↦ ⟨fun _ _ _ _ ↦ nofun, fun _ _ _ _ ↦ nofun, fun _ _ _ _ _ _ _ ↦ nofun⟩
  | succ fuel ih =>
    intro fuel' hfuel
    obtain ⟨fuel', rfl⟩ : ∃ k, fuel' = k + 1 := ⟨fuel' - 1, by omega⟩
    obtain ⟨ihAlternatives, ihBranch, ihNext⟩ := ih fuel' (by omega)
    obtain ⟨-, htraced, -⟩ := reading_traced fuel
    refine ⟨fun o o' ho hlike s s' node t depth ahead before h hs hbarred ↦ ?_,
      fun o o' ho hlike s s' node t depth ahead before h hs hbarred ↦ ?_,
      fun o o' first first' ho hlike hfirst s s' node t depth ahead before h hs hbarred ↦ ?_⟩
    · obtain ⟨first, mid, hbranch, h⟩ := alternatives_eq_ok.1 h
      obtain ⟨first', mid', hbranch', hfirst, hmid'⟩ := ihBranch o o' ho hlike hbranch hs hbarred
      obtain ⟨hbar, rfl, rfl⟩ | ⟨rest, other, hmid, rfl, hother⟩ := h
      -- The last alternative. At the end of the text, the second one has an empty alternative more.
      · have hends : mid'.rest.head? = (t.rest ++ ['\x7c']).head? := congrArg _ hmid'.rest
        cases hrest : t.rest with
        | nil =>
          obtain ⟨k, rfl⟩ : ∃ k, fuel' = k + 2 := ⟨fuel' - 2, by omega⟩
          exact ⟨_, _, alternatives_eq_ok.2 ⟨first', mid', hbranch',
            .inr ⟨[], .empty, hmid'.rest_eq hrest, rfl, alternatives_nil k o' mid'⟩⟩, hfirst.bar,
            .inr ⟨rfl, rfl, hmid'.groups⟩⟩
        | cons c rest =>
          rw [hrest] at hbar hends
          exact ⟨first', mid', alternatives_eq_ok.2 ⟨first', mid', hbranch',
            .inl ⟨hends ▸ hbar, rfl, rfl⟩⟩, hfirst, .inl ⟨nofun, hmid'⟩⟩
      · obtain ⟨hthrough, -⟩ := htraced o ho hbranch hs
        have hrest := hthrough.not_inline hs
        rw [hmid, skim_outside rfl (by decide)] at hrest
        obtain ⟨other', t', hother', hlike', ht⟩ :=
          ihAlternatives o o' ho hlike hother hrest (hmid'.at_rest rest)
        exact ⟨_, t', alternatives_eq_ok.2 ⟨first', mid', hbranch',
          .inr ⟨_, other', hmid'.rest_eq hmid, rfl, hother'⟩⟩, hfirst.alt hlike', ht⟩
    · obtain ⟨rest, hskip, hsequence⟩ := branch_eq_ok.1 h
      rw [ho] at hskip
      cases (skipIgnored_calm rfl hs).symm.trans hskip
      obtain ⟨node', t', hsequence', hnodes, ht⟩ :=
        hsequence.barred ho hlike ihAlternatives ihNext hs (hbarred.at_rest s.rest)
      refine ⟨node', t', branch_eq_ok.2 ⟨_, ?_, hsequence'⟩, hnodes, ht⟩
      rw [hlike.extended, ho, hbarred.rest]
      exact skipIgnored_barred rfl hs _
    · obtain ⟨repeated, rest, others, hrepeated, hbranch, rfl⟩ := next_eq_ok.1 h
      rw [ho] at hrepeated
      obtain ⟨hpasses, -⟩ := quantified_traces rfl hs hrepeated
      have hlength : s.rest.length + 1 ≤ s'.rest.length := by
        rw [hbarred.rest, List.length_append]
        exact Nat.le_refl _
      obtain ⟨repeated', hrepeated', hquantified⟩ :=
        quantified_barred rfl hs (Nat.le_refl _) hlength hrepeated hfirst
      obtain ⟨others', t', hbranch', hothers, ht⟩ :=
        ihBranch o o' ho hlike hbranch (hpasses.not_inline hs) (hbarred.at_rest rest)
      refine ⟨_, t', next_eq_ok.2 ⟨repeated', _, others', ?_, hbranch', rfl⟩,
        likeness_outlined.cat hquantified hothers, ht⟩
      rw [hlike.extended, ho, hbarred.rest]
      rw [hbarred.rest] at hrepeated'
      exact hrepeated'

end Run

end SyntaxHighlight.Regex
