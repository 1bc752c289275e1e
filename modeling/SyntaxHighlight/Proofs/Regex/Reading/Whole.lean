import SyntaxHighlight.Proofs.Pattern.Reference
import SyntaxHighlight.Proofs.Regex.Reading.Likeness

/-! A whole source, by itself and behind other groups in a group of its own. -/
namespace SyntaxHighlight.Regex

open Unicode

section Checks

variable {root : Node} {s : Source} {callable : List (GroupRef × Node)}

theorem calls_eq_nil (h : root.subterms.any Node.isCall = false) : root.calls = [] := by
  rw [Node.calls, List.filterMap_eq_nil_iff]
  intro node hnode
  have hcall := List.any_eq_false.1 h node hnode
  cases node with
  | call => exact absurd rfl hcall
  | _ => rfl

/-- What has been checked of a tree that is compiled. -/
structure Checked (root : Node) (groups : Nat) : Prop where
  references : root.subterms.any (Node.refersBeyond groups) = false
  negations : root.subterms.any Node.capturesInNegation = false

theorem checked_of_callableGroups (h : callableGroups root s = .ok callable) :
    Checked root s.groups := by
  unfold callableGroups at h
  dsimp only at h
  split at h
  · cases h
  · rename_i hreferences
    obtain ⟨callable', -, h⟩ := bind_eq_ok.1 h
    split at h
    · cases h
    · split at h
      · cases h
      · rename_i hnegations
        exact ⟨Bool.eq_false_of_not_eq_true hreferences, Bool.eq_false_of_not_eq_true hnegations⟩

theorem callableGroups_eq_nil (h : Checked root s.groups)
    (hcalls : root.subterms.any Node.isCall = false) : callableGroups root s = .ok [] := by
  rw [callableGroups, h.references, calls_eq_nil hcalls, h.negations]
  rfl

theorem compile_eq_ok {source : String} {flags : Flags} {e : Expr} :
    compile source flags = .ok e ↔ ∃ root s callable,
      parseTree { ignoreCase := flags.ignoreCase } source.toList = .ok (root, s) ∧
        callableGroups root s = .ok callable ∧ e = ⟨source, root, s.groups, callable⟩ := by
  unfold compile
  refine ⟨fun h ↦ ?_, ?_⟩
  · obtain ⟨⟨root, s⟩, hparse, h⟩ := bind_eq_ok.1 h
    obtain ⟨callable, hcallable, h⟩ := bind_eq_ok.1 h
    cases h
    exact ⟨root, s, callable, hparse, hcallable, rfl⟩
  · rintro ⟨root, s, callable, hparse, hcallable, rfl⟩
    exact bind_eq_ok.2 ⟨_, hparse, bind_eq_ok.2 ⟨_, hcallable, rfl⟩⟩

theorem compile_source {source : String} {flags : Flags} {e : Expr}
    (h : compile source flags = .ok e) : e.source = source := by
  obtain ⟨root, s, callable, -, -, rfl⟩ := compile_eq_ok.1 h
  rfl

theorem parseTree_of_alternatives {o : Options} {cs : List Char}
    (h : alternatives (3 * cs.length + 3) o { rest := cs } = .ok (root, s)) (hrest : s.rest = []) :
    parseTree o cs = .ok (root, s) := by
  rw [parseTree, h]
  simp only [bind, Except.bind, hrest]
  rfl

theorem parseTree_eq_ok {o : Options} {cs : List Char} : parseTree o cs = .ok (root, s) ↔
    alternatives (3 * cs.length + 3) o { rest := cs } = .ok (root, s) ∧ s.rest = [] := by
  refine ⟨fun h ↦ ?_, fun h ↦ parseTree_of_alternatives h.1 h.2⟩
  obtain ⟨⟨root', s'⟩, hread, h⟩ := bind_eq_ok.1 h
  dsimp only at h
  split at h
  · rename_i hrest
    cases h
    exact ⟨hread, hrest⟩
  · cases h

end Checks

/-- A source that is read as a whole if a parenthesis follows it. -/
structure Closed (o : Options) (cs : List Char) (node : Node) (s : Source) : Prop where
  reads : alternatives (3 * cs.length + 3) o { rest := cs ++ ['\x29'] } = .ok (node, s)
  rest : s.rest = ['\x29']

section Whole

variable {strict : Prop} {offset spare : Nat} {R : Node → Node → Prop} {tail cs cs' : List Char}
  {o o' : Options} {node : Node} {s s' t : Source}

theorem alternatives_head? {fuel : Nat} (h : alternatives fuel o s = .ok (node, t)) :
    t.rest.head? ≠ some '\x7c' := by
  induction fuel generalizing s node with
  | zero => cases h
  | succ fuel ih =>
    obtain ⟨first, mid, -, h⟩ := alternatives_eq_ok.1 h
    obtain ⟨hbar, -, rfl⟩ | ⟨rest, other, -, -, h⟩ := h
    · exact hbar
    · exact ih h

theorem Renumbered.eq_tail {marks : List (Nat × Nat)}
    (h : Renumbered offset tail marks ['\x29'] cs') : cs' = tail := by
  cases h with
  | done => rfl
  | plain _ h => cases h

theorem Closed.elsewhere (h : Closed o cs node s) (hR : Likeness strict offset R)
    (hfinish : Finish R spare tail) (hend : ¬ GoesOn tail)
    (hmovable : ∀ m ∈ s.numbers, m.IsMovable offset) (ho : o.Like strict o')
    (hbehind : Behind offset { rest := cs ++ ['\x29'] } s')
    (htext : Renumbered offset tail (s.numbers.map Numbered.mark) (cs ++ ['\x29']) s'.rest)
    {fuel : Nat} (hfuel : 3 * cs.length + 3 + spare ≤ fuel) :
    ∃ node' t, alternatives fuel o' s' = .ok (node', t) ∧ R node node' ∧ Behind offset s t ∧
      (t.rest = tail ∨ tail = ['\x7c'] ∧ t.rest = []) := by
  have hfits : Fits s.numbers s :=
    ⟨List.prefix_refl _, by simp, by rw [h.rest]; exact List.cons_ne_nil _ _⟩
  have hmirrors : Mirrors offset tail s.numbers { rest := cs ++ ['\x29'] } s' :=
    ⟨hbehind, htext, fun hon ↦ absurd hon (not_or.2 ⟨hend, hfinish.not_opens⟩)⟩
  obtain ⟨node', t, hreads, hlike, hm | ⟨hbehind, -, htail, hrest⟩⟩ | hended :=
    (reading_mirrored hR hfinish hmovable _ _ hfuel).1 ho h.reads hfits hmirrors
  · have htext := hm.text
    rw [h.rest] at htext
    exact ⟨node', t, hreads, hlike, hm.behind, .inl htext.eq_tail⟩
  · exact ⟨node', t, hreads, hlike, hbehind, .inr ⟨htail, hrest⟩⟩
  · exact absurd hended.2 hend

theorem quantifier?_isSome {c : Char} (hc : c = '?' ∨ c = '*') (more : List Char) :
    ∃ found, quantifier? (c :: more) = .ok (some found) := by
  obtain rfl | rfl := hc <;> exact ⟨_, rfl⟩

theorem Sequence.head?_ne {fuel : Nat} (h : Sequence fuel o s node t) {c : Char}
    (hc : s.rest.head? = some c) : ¬ (c = '?' ∨ c = '*') := by
  intro hsign
  have hsyntax (d : Char) (hd : d = c) (hds : isSyntax d) : False := by
    subst hd
    obtain rfl | rfl := hsign <;> cases hds
  obtain ⟨more, hrest⟩ := List.head?_eq_some_iff.1 hc
  have hstart {d : Char} {rest : List Char} (hs : s.rest = d :: rest) : d = c := by
    rw [hrest] at hs
    exact (List.cons.inj hs).1.symm
  cases h with
  | stop hends =>
    rw [hrest] at hends
    obtain rfl | rfl := hends <;> exact hsyntax _ rfl rfl
  | options hs | group hs | capture hs => exact hsyntax _ (hstart hs) rfl
  | atom hfirst =>
    cases hfirst with
    | callout hs | bracketed hs | escape hs | dot hs | lineStart hs | lineEnd hs =>
      exact hsyntax _ (hstart hs) rfl
    | char hs _ hnone =>
      obtain rfl := hstart hs
      obtain ⟨found, hfound⟩ := quantifier?_isSome hsign _
      cases hnone.symm.trans hfound

theorem Closed.head?_ne (h : Closed o cs node s) (ho : o.extended = false) {c : Char}
    (hc : (cs ++ ['\x29']).head? = some c) : ¬ (c = '?' ∨ c = '*') := by
  intro hsign
  obtain ⟨more, hmore⟩ := List.head?_eq_some_iff.1 hc
  obtain ⟨first, mid, hbranch, -⟩ := alternatives_eq_ok.1 h.reads
  obtain ⟨rest, hskip, hsequence⟩ := branch_eq_ok.1 hbranch
  have hstays : skipIgnored o.extended (cs ++ ['\x29']).length (cs ++ ['\x29']) =
      .ok (cs ++ ['\x29']) := by
    rw [hmore, ho]
    obtain rfl | rfl := hsign <;> rfl
  cases hstays.symm.trans hskip
  exact hsequence.head?_ne hc hsign

theorem skipIgnored_ends (fuel : Nat) (h : Ends cs) : skipIgnored false fuel cs = .ok cs := by
  refine skipIgnored_self fuel ?_ ?_
  · rintro more rfl
    obtain h | h := h <;> cases h
  · cases cs <;> rfl

theorem Ends.stops (h : Ends cs) : Stops cs := by
  cases cs with
  | nil => trivial
  | cons c cs => exact h.elim (fun h ↦ .inr (.inl h)) .inl

theorem next_ends {fuel : Nat} {first : Node} (ho : o.extended = false) (h : Ends s.rest) :
    next (fuel + 2) o first s = .ok (first, s) := by
  have hquantified : quantified o.extended s.rest.length first s.rest = .ok (first, s.rest) := by
    rw [ho]
    cases hrest : s.rest with
    | nil => rfl
    | cons c more =>
      rw [hrest] at h
      exact bind_eq_ok.2 ⟨_, skipIgnored_ends _ h,
        bind_eq_ok.2 ⟨none, quantifier?_stops h.stops, rfl⟩⟩
  have hbranch : branch (fuel + 1) o { s with rest := s.rest } = .ok (.empty, s) :=
    branch_eq_ok.2 ⟨s.rest, ho ▸ skipIgnored_ends _ h, .stop h⟩
  refine next_eq_ok.2 ⟨first, s.rest, .empty, hquantified, hbranch, ?_⟩
  cases first <;> rfl

/-- A text is read from its start behind all groups that there are. -/
theorem Behind.start (hs : s'.groups = offset) (hnames : s'.NamesKnown) (cs : List Char) :
    Behind offset { rest := cs } s' :=
  ⟨hs.trans (Nat.zero_add _).symm, ⟨s'.names, (List.append_nil _).symm, hs ▸ hnames⟩, nofun⟩

theorem Behind.at_start (cs cs' : List Char) : Behind 0 { rest := cs } { rest := cs' } :=
  ⟨rfl, ⟨[], rfl, nofun⟩, nofun⟩

theorem Behind.namesKnown {offset : Nat} {s' : Source} (h : Behind offset s s')
    (hs : s.NamesKnown) : s'.NamesKnown := by
  obtain ⟨ahead, hnames, hahead⟩ := h.names
  intro entry hentry
  rw [h.groups]
  rw [hnames] at hentry
  obtain hentry | hentry := List.mem_append.1 hentry
  · have := hahead entry hentry
    omega
  · obtain ⟨own, hown, rfl⟩ := List.mem_map.1 hentry
    have := hs own hown
    dsimp only
    omega

theorem Closed.namesKnown (h : Closed o cs node s) : s.NamesKnown := by
  have hne : s.rest ≠ [] := by
    rw [h.rest]
    exact List.cons_ne_nil _ _
  exact ((reading_grows _).1 _ h.reads hne).1.names nofun

/-- Behind other groups, a source in a group of its own is read as that group. -/
theorem Closed.grouped (h : Closed o cs node s) (ho : o.extended = false) {s' : Source}
    (hmovable : ∀ m ∈ s.numbers, m.IsMovable (s'.groups + 1)) (hnames : s'.NamesKnown)
    {more : List Char} (htext : Renumbered (s'.groups + 1) ('\x29' :: more)
      (s.numbers.map Numbered.mark) (cs ++ ['\x29']) cs') (hrest : s'.rest = '\x28' :: cs')
    (hmore : Ends more) {fuel : Nat} (hfuel : 3 * cs.length + 3 ≤ fuel) :
    ∃ body t, branch (fuel + 1) o s' = .ok (.group (s'.groups + 1) body, t) ∧
      Raised (s'.groups + 1) node body ∧ t.rest = more ∧ t.groups = s'.groups + 1 + s.groups ∧
      t.NamesKnown := by
  obtain ⟨c, rest, rfl, hc⟩ : ∃ c rest, cs' = c :: rest ∧ ¬ (c = '?' ∨ c = '*') := by
    cases cs with
    | nil =>
      obtain rfl := htext.eq_tail
      exact ⟨_, _, rfl, by decide⟩
    | cons d cs =>
      have hhead := htext.head?_eq (by simp)
      obtain ⟨rest, rfl⟩ := List.head?_eq_some_iff.1 hhead
      exact ⟨d, rest, rfl, h.head?_ne ho rfl⟩
  rw [not_or] at hc
  have hknown : Source.NamesKnown { s' with rest := c :: rest } := hnames
  have hbehind : Behind (s'.groups + 1) { rest := cs ++ ['\x29'] }
      ({ s' with rest := c :: rest }.numbered none) :=
    .start rfl (hknown.numbered none) _
  obtain ⟨body, mid, hbody, hraised, hmid, hend | ⟨hbar, -⟩⟩ :=
    h.elsewhere (likeness_raised _) (.close more : Finish (Raised (s'.groups + 1)) 0 _)
      (fun ⟨_, _, hon⟩ ↦ nomatch hon) hmovable (.refl o) hbehind htext hfuel
  · have hclosed : mid.closed = .ok { mid with rest := more } := by
      rw [Source.closed, hend]
      rfl
    have hgroups : mid.groups = s'.groups + 1 + s.groups := by
      rw [hmid.groups, Nat.add_comm]
    obtain ⟨k, rfl⟩ : ∃ k, fuel = k + 2 := ⟨fuel - 2, by omega⟩
    have hskip : skipIgnored o.extended s'.rest.length s'.rest = .ok s'.rest := by
      rw [ho, hrest]
      refine skipIgnored_self _ (fun more heq ↦ ?_) rfl
      cases heq
      exact hc.1 rfl
    refine ⟨body, { mid with rest := more }, branch_eq_ok.2 ⟨s'.rest, hskip, ?_⟩, hraised, rfl,
      hgroups, hmid.namesKnown h.namesKnown⟩
    exact .capture hrest (opening_capture hc.1 hc.2) hbody hclosed (next_ends ho hmore)
  · cases hbar

end Whole

end SyntaxHighlight.Regex
