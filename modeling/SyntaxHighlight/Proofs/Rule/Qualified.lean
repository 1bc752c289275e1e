import SyntaxHighlight.Proofs.Regex.Outcomes
import SyntaxHighlight.Proofs.Regex.Reading.Ahead
import SyntaxHighlight.Proofs.Rule.Alternation

/-!
A source that looks ahead to another one. It matches where the first source can end at a place at
which the other one matches, and takes what the first one takes.
-/
namespace SyntaxHighlight.Rule

open Regex Pattern

/-- A source that looks ahead to another one. -/
def qualified (q b : String) : String := concat [q, lookahead b]

/-- Expressions whose sources mean the same where the second one, `b`, is looked ahead to behind the
first one, `q`. No bar of `q`, and no option that it sets, may reach `b`, which must not refer to
groups of `q`: by number it always would, by name it may. -/
structure Qualifies (flags : Flags) (q b : Expr) : Prop where
  qualifier : Separable flags 0 q.source q
  unbarred : Unbarred { ignoreCase := flags.ignoreCase } q.source.toList
  calm : ¬ SetsOptions (q.source.toList ++ ['\x29'])
  begin : Separable flags q.groupCount b.source b
  numbers : q.groupCount = 0 ∨ references (tokens b.source.toList) = []
  names : q.groupCount = 0 ∨ ∀ e body, Regex.compile (qualified q.source b.source) flags = .ok e →
    e.root = q.root.cat (.look .ahead false body) → body.refersAbove q.groupCount

section Reading

variable {flags : Flags} {q b : Expr}

/-- A group that looks ahead to what a source matches. -/
def aheadText (source : String) : List Char :=
  '\x28' :: '?' :: '=' :: (source.toList ++ ['\x29'])

theorem toList_qualified (q b : String) :
    (qualified q b).toList = q.toList ++ aheadText b := by
  simp [qualified, concat, lookahead, String.join, aheadText]

theorem stops_aheadText (source : String) : Stops (aheadText source) :=
  .inr (.inr (.inr ⟨rfl, by simp⟩))

/-- Behind the groups of the first source, the second one is read as its tree, raised by them. -/
theorem Qualifies.readsOn (h : Qualifies flags q b) {s : Source} (hs : s.groups = q.groupCount)
    (hnames : s.NamesKnown) : ReadsOn 0 (3 * b.source.toList.length + 4)
      { ignoreCase := flags.ignoreCase } (aheadText b.source) s fun others u ↦
        ∃ body, others = .look .ahead false body ∧ Raised q.groupCount b.root body ∧
          u.rest = [] ∧ u.groups = q.groupCount + b.groupCount := by
  intro t fuel hbehind hfuel
  obtain ⟨read, hclosed, hgroups, hnumbers, hmovable⟩ := h.begin.reading
  have hmoved := h.numbers
  have hcount : t.groups = q.groupCount := by rw [hbehind.groups, hs, Nat.add_zero]
  rw [← hcount] at hmovable hmoved ⊢
  have hknown : Source.NamesKnown { t with rest := aheadText b.source } :=
    hbehind.namesKnown hnames
  have htext : Renumbered t.groups ['\x29'] (read.numbers.map Numbered.mark)
      (b.source.toList ++ ['\x29']) (b.source.toList ++ ['\x29']) := by
    rw [hnumbers]
    exact renumbered_unmoved ['\x29'] hmoved
  obtain ⟨k, rfl⟩ : ∃ k, fuel = k + 1 := ⟨fuel - 1, by omega⟩
  obtain ⟨body, u, hbranch, hraised, hrest, hgroups'⟩ :=
    hclosed.lookedAhead rfl hknown hmovable htext rfl trivial
      (show 3 * b.source.toList.length + 3 ≤ k by omega)
  rw [hgroups] at hgroups'
  exact ⟨_, u, hbranch, body, rfl, hraised, hrest, hgroups'⟩

/-- The two sources are read as the trees of the expressions, one looked ahead to behind the
other. -/
theorem Qualifies.reads (h : Qualifies flags q b) {cs : List Char}
    (hcs : cs = q.source.toList ++ aheadText b.source) :
    ∃ body t, alternatives (3 * cs.length + 3) { ignoreCase := flags.ignoreCase } { rest := cs } =
        .ok (q.root.cat (.look .ahead false body), t) ∧
      Raised 0 q.root q.root ∧ Raised q.groupCount b.root body ∧ t.rest = [] ∧
      t.groups = q.groupCount + b.groupCount := by
  obtain ⟨read, hclosed, hgroups, hnumbers, hmovable⟩ := h.qualifier.reading
  have htext : Renumbered 0 (aheadText b.source) (read.numbers.map Numbered.mark)
      (q.source.toList ++ ['\x29']) cs := by
    rw [hnumbers, hcs]
    exact renumbered_unmoved _ (.inl rfl)
  have hlength : 3 * q.source.toList.length + 2 + (3 * b.source.toList.length + 4) ≤
      3 * cs.length + 2 := by
    rw [hcs]
    simp [aheadText]
    omega
  obtain ⟨first, _, u, hbranch, hraised, body, rfl, hraised', hrest, hcount⟩ :=
    hclosed.ahead h.unbarred (likeness_raised 0) hmovable ⟨_, rfl⟩ (stops_aheadText _) (.refl _)
      h.calm (.at_start _ _) htext (h.readsOn hgroups hclosed.namesKnown) hlength
  obtain ⟨-, hcalls⟩ := Raised.checked hraised (Nat.le_refl _) h.qualifier.checked h.qualifier.calls
  obtain rfl := hraised.eq_of_zero hcalls
  refine ⟨body, u, alternatives_eq_ok.2 ⟨_, u, hbranch, .inl ⟨?_, rfl, rfl⟩⟩, hraised, hraised',
    hrest, hcount⟩
  rw [hrest]
  exact nofun

theorem checked_cat {a b : Node} {groups : Nat}
    (ha : Checked a groups ∧ a.subterms.any Node.isCall = false)
    (hb : Checked b groups ∧ b.subterms.any Node.isCall = false) :
    Checked (a.cat b) groups ∧ (a.cat b).subterms.any Node.isCall = false := by
  obtain ⟨⟨hreferences, hnegations⟩, hcalls⟩ := ha
  obtain ⟨⟨hreferences', hnegations'⟩, hcalls'⟩ := hb
  refine ⟨⟨?_, ?_⟩, ?_⟩
  · rw [any_cat (isSparse_refersBeyond groups).common, hreferences, hreferences', Bool.or_false]
  · rw [any_cat isSparse_capturesInNegation.common, hnegations, hnegations', Bool.or_false]
  · rw [any_cat isSparse_isCall.common, hcalls, hcalls', Bool.or_false]

theorem Qualifies.compile (h : Qualifies flags q b) : ∃ e body,
    Regex.compile (qualified q.source b.source) flags = .ok e ∧
      e.root = q.root.cat (.look .ahead false body) ∧ Raised 0 q.root q.root ∧
      Raised q.groupCount b.root body := by
  obtain ⟨body, t, hreads, hself, hraised, hrest, hcount⟩ := h.reads (toList_qualified _ _)
  have hq : Checked q.root t.groups ∧ q.root.subterms.any Node.isCall = false :=
    Raised.checked hself (by omega) h.qualifier.checked h.qualifier.calls
  have hb : Checked body t.groups ∧ body.subterms.any Node.isCall = false :=
    Raised.checked hraised (by omega) h.begin.checked h.begin.calls
  have hlook : Checked (.look .ahead false body) t.groups ∧
      (Node.look .ahead false body).subterms.any Node.isCall = false := by
    obtain ⟨⟨hreferences, hnegations⟩, hcalls⟩ := hb
    exact ⟨⟨hreferences, hnegations⟩, hcalls⟩
  obtain ⟨hchecked, hcalls⟩ := checked_cat hq hlook
  exact ⟨⟨qualified q.source b.source, q.root.cat (.look .ahead false body), t.groups, []⟩, body,
    compile_eq_ok.2 ⟨_, t, [], parseTree_of_alternatives hreads hrest,
      callableGroups_eq_nil hchecked hcalls, rfl⟩, rfl, hself, hraised⟩

end Reading

section Match

variable {flags : Flags} {q b e : Expr} {body : Node} {start : Nat} {text : Text} {searchStart : Nat}

/-- An outcome of a match is no earlier than its start, and has nothing but groups of its own. -/
structure OutcomeOf (q : Expr) (start : Nat) (t : State) : Prop where
  least : start ≤ t.pos
  kept : t.kept = none
  numbered : ∀ event ∈ t.events, 0 < event.group ∧ event.group ≤ q.groupCount

theorem rel_outcome (hplain : q.root.isPlain q.groupCount) (hself : Raised 0 q.root q.root)
    {k k' : State → Option State} {Q : State → State → Prop}
    (hk : ∀ t, OutcomeOf q start t → Option.Rel Q (k t) (k' t)) (callee : GroupRef → Matcher) :
    Option.Rel Q (q.outcome? text searchStart start k)
      (run ⟨text, searchStart⟩ callee q.root { pos := start } k') := by
  have halongside : Alongside 0 q.groupCount [] start { pos := start } { pos := start } :=
    ⟨rfl, Nat.le_refl _, rfl, rfl, rfl, nofun⟩
  have hbase : OnlyEntered 0 [] := nofun
  refine hself.follows hplain hbase.onlyUpTo (.inl hbase) ⟨text, searchStart⟩ _ callee halongside
    fun t t' ht ↦ ?_
  obtain rfl := ht.eq_of_zero
  exact hk t' ⟨ht.least, ht.kept, ht.numbered⟩

/-- A state from which an expression matches. -/
def matchingAt (b : Expr) (text : Text) (searchStart : Nat) (t : State) : Option State :=
  if (b.matchAt? text searchStart t.pos).isSome then some t else none

/-- A match from `start` on that comes to the place at which `t` is, and no further. -/
structure ComesTo (start : Nat) (t u : State) : Prop where
  least : start ≤ t.pos
  pos : u.pos = t.pos
  kept : u.kept = none

theorem ComesTo.head?_spans {t u : State} (h : ComesTo start t u) (e : Expr) :
    (e.spans start u).head? = some (some (start, t.pos)) := by
  rw [Expr.spans, h.kept, h.pos, List.head?_cons]
  simp [h.least]

theorem rel_lookedAhead (hplain : b.root.isPlain b.groupCount)
    (hraised : Raised q.groupCount b.root body)
    (habove : q.groupCount = 0 ∨ body.refersAbove q.groupCount) (callee : GroupRef → Matcher) {t : State}
    (ht : OutcomeOf q start t) : Option.Rel (ComesTo start) (matchingAt b text searchStart t)
      (run ⟨text, searchStart⟩ callee (.look .ahead false body) t some) := by
  have hbefore : OnlyUpTo q.groupCount t.events := fun event he ↦ (ht.numbered event he).2
  have hahead : OnlyEntered q.groupCount t.events ∨ body.refersAbove q.groupCount :=
    habove.imp_left fun hzero event he ↦ by
      have := ht.numbered event he
      omega
  have hbody := rel_behind hplain hraised ht.kept hbefore hahead text searchStart callee
  rw [run, matchingAt, Expr.matchAt?]
  generalize b.finalState? text searchStart t.pos = x,
    run ⟨text, searchStart⟩ callee body t some = x' at hbody
  cases hbody with
  | none => exact .none
  | some hu => exact .some ⟨ht.least, rfl, hu.kept'⟩

/-- What is found is the first outcome of the qualifier from which the other expression matches. -/
theorem Qualifies.rel_finalState? (h : Qualifies flags q b) (hself : Raised 0 q.root q.root)
    (hraised : Raised q.groupCount b.root body)
    (hroot : e.root = q.root.cat (.look .ahead false body))
    (habove : q.groupCount = 0 ∨ body.refersAbove q.groupCount) (text : Text)
    (searchStart start : Nat) :
    Option.Rel (ComesTo start) (q.outcome? text searchStart start (matchingAt b text searchStart))
      (e.finalState? text searchStart start) := by
  rw [Expr.finalState?, hroot, run_cat rfl]
  exact rel_outcome h.qualifier.isPlain hself
    (fun t ht ↦ rel_lookedAhead h.begin.isPlain hraised habove _ ht) _

theorem matchingAt_eq_some {t u : State} : matchingAt b text searchStart t = some u ↔
    (b.matchAt? text searchStart t.pos).isSome ∧ t = u := by
  rw [matchingAt, Option.ite_none_right_eq_some, Option.some.injEq]

theorem isSome_outcome?_matchingAt :
    (q.outcome? text searchStart start (matchingAt b text searchStart)).isSome ↔ ∃ stop,
      q.canEnd text searchStart start stop ∧ (b.matchAt? text searchStart stop).isSome := by
  obtain ⟨outcomes, hfound, hends⟩ := q.exists_outcomes text searchStart start
  rw [hfound, List.findSome?_isSome_iff]
  simp only [hends, matchingAt]
  constructor
  · rintro ⟨t, ht, hsome⟩
    split at hsome
    · rename_i hmatch
      exact ⟨t.pos, ⟨t, ht, rfl⟩, hmatch⟩
    · cases hsome
  · rintro ⟨_, ⟨t, ht, rfl⟩, hmatch⟩
    exact ⟨t, ht, by rw [if_pos hmatch]; rfl⟩

theorem outcome?_matchingAt {t : State}
    (h : q.outcome? text searchStart start (matchingAt b text searchStart) = some t) :
    q.canEnd text searchStart start t.pos ∧ (b.matchAt? text searchStart t.pos).isSome := by
  obtain ⟨outcomes, hfound, hends⟩ := q.exists_outcomes text searchStart start
  rw [hfound] at h
  obtain ⟨t', ht, hfirst⟩ := List.exists_of_findSome?_eq_some h
  obtain ⟨hmatch, rfl⟩ := matchingAt_eq_some.1 hfirst
  exact ⟨(hends _).2 ⟨t', ht, rfl⟩, hmatch⟩

/-- The source matches where the qualifier can end at a place at which the other expression
matches, and takes what is before that place. -/
theorem Qualifies.matches (h : Qualifies flags q b) : ∃ e,
    Regex.compile (qualified q.source b.source) flags = .ok e ∧ ∀ text searchStart start,
      ((e.matchAt? text searchStart start).isSome ↔ ∃ stop,
        q.canEnd text searchStart start stop ∧ (b.matchAt? text searchStart stop).isSome) ∧
      ∀ spans, e.matchAt? text searchStart start = some spans → ∃ stop,
        spans.head? = some (some (start, stop)) ∧ q.canEnd text searchStart start stop ∧
          (b.matchAt? text searchStart stop).isSome := by
  obtain ⟨e, body, hcompile, hroot, hself, hraised⟩ := h.compile
  refine ⟨e, hcompile, fun text searchStart start ↦ ?_⟩
  have habove : q.groupCount = 0 ∨ body.refersAbove q.groupCount :=
    h.names.imp_right fun hnames ↦ hnames e body hcompile hroot
  have hrel := h.rel_finalState? hself hraised hroot habove text searchStart start
  rw [← isSome_outcome?_matchingAt, Expr.matchAt?]
  generalize houtcome : q.outcome? text searchStart start (matchingAt b text searchStart) = x,
    e.finalState? text searchStart start = x' at hrel
  cases hrel with
  | none =>
    refine ⟨by simp, fun spans hspans ↦ ?_⟩
    cases hspans
  | @some t u hu =>
    refine ⟨by simp, fun spans hspans ↦ ?_⟩
    cases hspans
    exact ⟨t.pos, hu.head?_spans e, outcome?_matchingAt houtcome⟩

end Match

end SyntaxHighlight.Rule
