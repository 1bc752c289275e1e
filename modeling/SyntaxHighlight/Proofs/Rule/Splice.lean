import SyntaxHighlight.Proofs.Regex.Reading.Followed
import SyntaxHighlight.Proofs.Rule.Alternation

/-! Sources one after another with bars between them, and no groups around them. The first of them
that matches decides, and its groups are found behind those of the sources before it. -/
namespace SyntaxHighlight.Rule

open Regex Pattern

def groupsOf (es : List Expr) : Nat := (es.map Expr.groupCount).sum

def spliceOf (es : List Expr) : String := "|".intercalate (es.map Expr.source)

/-- Trees of expressions as alternatives one after another, with `ahead` groups ahead of them. -/
inductive Spliced : Nat → List Expr → Node → Prop
  | last {ahead : Nat} {e : Expr} {body : Node} : e.root.isPlain e.groupCount →
      Raised ahead e.root body → Spliced ahead [e] body
  | more {ahead : Nat} {e : Expr} {es : List Expr} {body others node : Node} :
      e.root.isPlain e.groupCount → Raised ahead e.root body →
      Spliced (ahead + e.groupCount) es others → OrElse others body node →
      Spliced ahead (e :: es) node

/-- Expressions whose sources mean the same one after another, the first with `ahead` groups ahead
of it. References are not moved, so they must stand where no groups are ahead. Only the last source
may set options for all that is left. -/
inductive Spliceable (flags : Flags) : Nat → List Expr → Prop
  | last {ahead : Nat} {e : Expr} : Separable flags ahead e.source e →
      ahead = 0 ∨ references (tokens e.source.toList) = [] → e.source ≠ "" →
      Spliceable flags ahead [e]
  | more {ahead : Nat} {e : Expr} {es : List Expr} : Separable flags ahead e.source e →
      ahead = 0 ∨ references (tokens e.source.toList) = [] →
      ¬ SetsOptions (e.source.toList ++ ['\x29']) →
      Spliceable flags (ahead + e.groupCount) es → Spliceable flags ahead (e :: es)

section Reading

variable {flags : Flags} {ahead : Nat} {e : Expr} {es : List Expr} {node : Node}

theorem spliceOf_cons (e : Expr) (hne : es ≠ []) :
    (spliceOf (e :: es)).toList = e.source.toList ++ '\x7c' :: (spliceOf es).toList := by
  cases es with
  | nil => exact absurd rfl hne
  | cons next es => simp [spliceOf, String.intercalate_cons_cons]

theorem spliceOf_eq_empty {es : List Expr} (hes : ∀ a ∈ es, a.source ≠ "") :
    spliceOf es = "" ↔ es = [] := by
  cases es with
  | nil => exact ⟨fun _ ↦ rfl, fun _ ↦ rfl⟩
  | cons a es =>
    refine ⟨fun h ↦ ?_, nofun⟩
    have hempty := congrArg String.toList h
    by_cases hnil : es = []
    · subst hnil
      simp [spliceOf, hes a List.mem_cons_self] at hempty
    · simp [spliceOf_cons a hnil] at hempty

namespace Spliceable

theorem ne_nil (h : Spliceable flags ahead es) : es ≠ [] := by
  cases h <;> exact List.cons_ne_nil _ _

theorem spliceOf_ne_nil (h : Spliceable flags ahead es) : (spliceOf es).toList ≠ [] := by
  cases h with
  | last _ _ hne => simpa [spliceOf] using hne
  | more _ _ _ hothers =>
    rw [spliceOf_cons _ hothers.ne_nil]
    simp

theorem reads (h : Spliceable flags ahead es) {s : Source} (hs : s.groups = ahead)
    (hnames : s.NamesKnown) (hrest : s.rest = (spliceOf es).toList)
    {fuel : Nat} (hfuel : 3 * s.rest.length + 3 ≤ fuel) :
    ∃ node t, alternatives fuel { ignoreCase := flags.ignoreCase } s = .ok (node, t) ∧
      Spliced ahead es node ∧ t.rest = [] ∧ t.groups = ahead + groupsOf es := by
  induction h generalizing s fuel with
  | @last ahead e hsource hmarks =>
    have hrest : s.rest = e.source.toList := by simpa [spliceOf] using hrest
    obtain ⟨read, hclosed, hgroups, hnumbers, hmovable⟩ := hsource.reading
    have htext : Renumbered ahead [] (read.numbers.map Numbered.mark)
        (e.source.toList ++ ['\x29']) s.rest := by
      rw [hnumbers, hrest]
      simpa using renumbered_unmoved [] hmarks
    obtain ⟨body, t, hreads, hraised, hbehind, hend | ⟨htail, -⟩⟩ :=
      hclosed.elsewhere (likeness_raised ahead) (.nothing : Finish (Raised ahead) 0 [])
        (fun ⟨_, _, hon⟩ ↦ nomatch hon) hmovable (.refl _) (.start hs hnames _) htext
        (hrest ▸ hfuel : 3 * e.source.toList.length + 3 + 0 ≤ fuel)
    · refine ⟨body, t, hreads, .last hsource.isPlain hraised, hend, ?_⟩
      rw [hbehind.groups, hgroups, Nat.add_comm]
      simp [groupsOf]
    · cases htail
  | @more ahead e es hsource hmarks hcalm hothers ih =>
    rw [spliceOf_cons e hothers.ne_nil] at hrest
    obtain ⟨c, more, htail⟩ := List.exists_cons_of_ne_nil hothers.spliceOf_ne_nil
    obtain ⟨read, hclosed, hgroups, hnumbers, hmovable⟩ := hsource.reading
    have htext : Renumbered ahead ('\x7c' :: c :: more) (read.numbers.map Numbered.mark)
        (e.source.toList ++ ['\x29']) s.rest := by
      rw [hnumbers, hrest, ← htail]
      exact renumbered_unmoved _ hmarks
    have hlength : s.rest.length = e.source.toList.length + ((spliceOf es).toList.length + 1) := by
      rw [hrest, List.length_append, List.length_cons]
    have hread : ReadsOthers ahead (3 * (spliceOf es).toList.length + 3)
        { ignoreCase := flags.ignoreCase } (c :: more) read fun others u ↦
          Spliced (ahead + e.groupCount) es others ∧ u.rest = [] ∧
            u.groups = ahead + e.groupCount + groupsOf es := by
      intro t fuel hbehind hfuel
      have hcount : t.groups = ahead + e.groupCount := by
        rw [hbehind.groups, hgroups, Nat.add_comm]
      have hnames : t.NamesKnown := hbehind.namesKnown hclosed.namesKnown
      exact ih (s := { t with rest := c :: more }) hcount hnames htail.symm (htail ▸ hfuel)
    obtain ⟨body, others, node, u, hreads, hraised, hor, hspliced, hend, hcount⟩ :=
      hclosed.followed (likeness_raised ahead) hmovable (.refl _) hcalm (.start hs hnames _) htext
        hread (show 3 * e.source.toList.length + 3 + (3 * (spliceOf es).toList.length + 3) ≤ fuel by
          omega)
    refine ⟨node, u, hreads, .more hsource.isPlain hraised hspliced hor, hend, ?_⟩
    rw [hcount, groupsOf, groupsOf, List.map_cons, List.sum_cons, Nat.add_assoc]

theorem separable (h : Spliceable flags ahead es) :
    ∀ e ∈ es, ∃ offset, Separable flags offset e.source e := by
  induction h with
  | last hsource =>
    intro e he
    obtain rfl := List.mem_singleton.1 he
    exact ⟨_, hsource⟩
  | more hsource _ _ _ ih =>
    intro e he
    obtain rfl | he := List.mem_cons.1 he
    · exact ⟨_, hsource⟩
    · exact ih e he

end Spliceable

theorem any_orElse_eq_false {p : Node → Bool} (hp : ∀ a b, p (.alt a b) = false)
    {a a' others : Node} (h : OrElse others a a') (ha : a.subterms.any p = false)
    (hothers : others.subterms.any p = false) : a'.subterms.any p = false := by
  induction h with
  | last a => exact any_alt_eq_false (hp _ _) ha hothers
  | more a _ ih =>
    simp only [Node.subterms, List.any_cons, List.any_append, Bool.or_eq_false_iff] at ha
    exact any_alt_eq_false (hp _ _) ha.2.1 (ih ha.2.2)

theorem groupsOf_cons (e : Expr) (es : List Expr) :
    groupsOf (e :: es) = e.groupCount + groupsOf es := by
  rw [groupsOf, List.map_cons, List.sum_cons, groupsOf]

theorem Spliced.checked (h : Spliced ahead es node)
    (hes : ∀ e ∈ es, Checked e.root e.groupCount ∧ e.root.subterms.any Node.isCall = false)
    {groups : Nat} (hle : ahead + groupsOf es ≤ groups) :
    Checked node groups ∧ node.subterms.any Node.isCall = false := by
  induction h with
  | @last ahead e body _ hraised =>
    rw [groupsOf_cons] at hle
    obtain ⟨hchecked, hcalls⟩ := hes e List.mem_cons_self
    exact Raised.checked hraised (show e.groupCount + ahead ≤ groups by omega) hchecked hcalls
  | @more ahead e es body others node _ hraised _ hor ih =>
    rw [groupsOf_cons] at hle
    obtain ⟨hchecked, hcalls⟩ := hes e List.mem_cons_self
    obtain ⟨hchecked, hcalls⟩ :=
      Raised.checked hraised (show e.groupCount + ahead ≤ groups by omega) hchecked hcalls
    obtain ⟨hchecked', hcalls'⟩ := ih (fun e he ↦ hes e (List.mem_cons_of_mem _ he)) (by omega)
    exact ⟨⟨any_orElse_eq_false (fun _ _ ↦ rfl) hor hchecked.references hchecked'.references,
      any_orElse_eq_false (fun _ _ ↦ rfl) hor hchecked.negations hchecked'.negations⟩,
      any_orElse_eq_false (fun _ _ ↦ rfl) hor hcalls hcalls'⟩

/-- The sources compile together to alternatives one after another. -/
theorem Spliceable.compile (h : Spliceable flags 0 es) : ∃ a,
    Regex.compile (spliceOf es) flags = .ok a ∧ Spliced 0 es a.root ∧
      a.groupCount = groupsOf es := by
  obtain ⟨node, t, hreads, hspliced, hrest, hcount⟩ :=
    h.reads (s := { rest := (spliceOf es).toList }) rfl nofun rfl (Nat.le_refl _)
  have hes (e : Expr) (he : e ∈ es) :
      Checked e.root e.groupCount ∧ e.root.subterms.any Node.isCall = false := by
    obtain ⟨_, hsource⟩ := h.separable e he
    exact ⟨hsource.checked, hsource.calls⟩
  obtain ⟨hchecked, hcalls⟩ := hspliced.checked hes (Nat.le_of_eq hcount.symm)
  rw [Nat.zero_add] at hcount
  exact ⟨⟨spliceOf es, node, t.groups, []⟩,
    compile_eq_ok.2 ⟨node, t, [], parseTree_of_alternatives hreads hrest,
      callableGroups_eq_nil hchecked hcalls, rfl⟩, hspliced, hcount⟩

end Reading

section Match

variable {ahead searchStart start : Nat} {a own : Expr} {es inner outer : List Expr} {node : Node}
  {text : Text} {t u : State}

/-- Behind the groups ahead, an expression matches as by itself. -/
theorem rel_raised {e : Expr} {body : Node} (hplain : e.root.isPlain e.groupCount)
    (h : Raised ahead e.root body) (text : Text) (searchStart start : Nat)
    (callee : GroupRef → Matcher) :
    Option.Rel (Alongside ahead e.groupCount [] start) (e.finalState? text searchStart start)
      (run ⟨text, searchStart⟩ callee body { pos := start } some) :=
  rel_behind hplain h (s := { pos := start }) rfl nofun (.inl nofun) text searchStart callee

/-- The first expression that matches decides. -/
theorem Spliced.run_first (h : Spliced ahead (inner ++ own :: outer) node)
    (hinner : ∀ e ∈ inner, e.finalState? text searchStart start = none)
    (hown : own.finalState? text searchStart start = some t) (callee : GroupRef → Matcher) :
    ∃ u, run ⟨text, searchStart⟩ callee node { pos := start } some = some u ∧
      Alongside (ahead + groupsOf inner) own.groupCount [] start t u := by
  induction inner generalizing ahead node with
  | nil =>
    have hbody {body : Node} (hplain : own.root.isPlain own.groupCount)
        (hraised : Raised ahead own.root body) : ∃ u,
        run ⟨text, searchStart⟩ callee body { pos := start } some = some u ∧
          Alongside (ahead + groupsOf []) own.groupCount [] start t u := by
      have hrel := rel_raised hplain hraised text searchStart start callee
      rw [hown] at hrel
      generalize run ⟨text, searchStart⟩ callee body { pos := start } some = y at hrel
      cases hrel with
      | some h => exact ⟨_, rfl, h⟩
    cases h with
    | last hplain hraised => exact hbody hplain hraised
    | more hplain hraised _ hor =>
      obtain ⟨u, hu, halongside⟩ := hbody hplain hraised
      exact ⟨u, by rw [hor.run_eq, hu], halongside⟩
  | cons e inner ih =>
    rw [List.cons_append] at h
    generalize hes : inner ++ own :: outer = es at h
    cases h with
    | last => exact absurd hes (by simp)
    | more hplain hraised hothers hor =>
      have hrel := rel_raised hplain hraised text searchStart start callee
      rw [hinner e List.mem_cons_self] at hrel
      obtain ⟨u, hu, halongside⟩ :=
        ih (hes ▸ hothers) fun e he ↦ hinner e (List.mem_cons_of_mem _ he)
      refine ⟨u, ?_, ?_⟩
      · rw [hor.run_eq]
        generalize run ⟨text, searchStart⟩ callee _ { pos := start } some = y at hrel
        cases hrel
        exact hu
      · rw [groupsOf_cons, ← Nat.add_assoc]
        exact halongside

theorem Spliced.run_eq_none (h : Spliced ahead es node)
    (hes : ∀ e ∈ es, e.finalState? text searchStart start = none) (callee : GroupRef → Matcher) :
    run ⟨text, searchStart⟩ callee node { pos := start } some = none := by
  have hbody {e : Expr} {ahead : Nat} {body : Node} (hplain : e.root.isPlain e.groupCount)
      (hraised : Raised ahead e.root body) (he : e.finalState? text searchStart start = none) :
      run ⟨text, searchStart⟩ callee body { pos := start } some = none := by
    have hrel := rel_raised hplain hraised text searchStart start callee
    rw [he] at hrel
    generalize run ⟨text, searchStart⟩ callee body { pos := start } some = y at hrel
    cases hrel
    rfl
  induction h with
  | last hplain hraised => exact hbody hplain hraised (hes _ List.mem_cons_self)
  | more hplain hraised _ hor ih =>
    rw [hor.run_eq, hbody hplain hraised (hes _ List.mem_cons_self)]
    exact ih fun e he ↦ hes e (List.mem_cons_of_mem _ he)

theorem Spliced.exists_first (h : Spliced 0 es a.root) {found : List (Option Span)}
    (hfound : a.matchAt? text searchStart start = some found) :
    ∃ inner own outer spans, es = inner ++ own :: outer ∧
      own.matchAt? text searchStart start = some spans ∧
      ∀ e ∈ inner, e.matchAt? text searchStart start = none := by
  cases hfirst : es.find? fun e ↦ (e.matchAt? text searchStart start).isSome with
  | none =>
    have hnone (e : Expr) (he : e ∈ es) : e.finalState? text searchStart start = none := by
      simpa [Expr.matchAt?] using List.find?_eq_none.1 hfirst e he
    rw [Expr.matchAt?, Expr.finalState?, h.run_eq_none hnone] at hfound
    cases hfound
  | some own =>
    obtain ⟨hown, inner, outer, hes, hinner⟩ := List.find?_eq_some_iff_append.1 hfirst
    obtain ⟨spans, hspans⟩ := Option.isSome_iff_exists.1 hown
    exact ⟨inner, own, outer, spans, hes, hspans, fun e he ↦ by simpa using hinner e he⟩

/-- The groups of the first expression that matches are found behind those of the expressions before
it, and no other group takes part. -/
theorem Spliced.matchAt?_first (h : Spliced 0 (inner ++ own :: outer) a.root)
    (hcount : a.groupCount = groupsOf (inner ++ own :: outer))
    (hinner : ∀ e ∈ inner, e.matchAt? text searchStart start = none)
    {spans : List (Option Span)} (hown : own.matchAt? text searchStart start = some spans) :
    ∃ found, a.matchAt? text searchStart start = some found ∧
      (∀ n > 0, found[n + groupsOf inner]?.join = spans[n]?.join) ∧
      ∀ n > 0, n ≤ groupsOf inner → found[n]?.join = none := by
  obtain ⟨t, ht, rfl⟩ := Option.map_eq_some_iff.1 hown
  obtain ⟨u, hu, halongside⟩ := h.run_first (fun e he ↦ Option.map_eq_none_iff.1 (hinner e he)) ht
    (runCall ⟨text, searchStart⟩ a.callable (a.callDepth text))
  rw [Nat.zero_add] at halongside
  have hle : groupsOf inner + own.groupCount ≤ a.groupCount := by
    rw [hcount]
    simp only [groupsOf, List.map_append, List.sum_append, List.map_cons, List.sum_cons]
    omega
  refine ⟨a.spans start u, congrArg (Option.map (a.spans start)) hu, fun n hn ↦ ?_,
    fun n hn hle ↦ ?_⟩
  · rw [Expr.getElem?_spans_join _ _ _ (by omega), Expr.getElem?_spans_join _ _ _ hn]
    by_cases hown : n ≤ own.groupCount
    · rw [if_pos hown, if_pos (by omega), halongside.group_raise (fun _ h ↦ nomatch h) hn]
    · rw [if_neg hown, halongside.group_eq_none (fun _ h ↦ nomatch h) (.inr (by omega)), ite_self]
  · rw [Expr.getElem?_spans_join _ _ _ hn,
      halongside.group_eq_none (fun _ h ↦ nomatch h) (.inl hle), ite_self]

end Match

end SyntaxHighlight.Rule
