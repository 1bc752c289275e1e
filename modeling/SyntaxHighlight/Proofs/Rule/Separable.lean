import SyntaxHighlight.Proofs.Regex.Reading.Whole
import SyntaxHighlight.Proofs.Rule.Race

/-! Sources that may stand beside each other, each in a group of its own. -/
namespace SyntaxHighlight.Rule

open Regex Pattern Unicode

/-- What it takes for a source to mean the same behind `offset` groups as by itself: it is read as a
whole where a parenthesis follows it, the references that a look at the text finds are those that it
has, and each of them is still one when it is moved up. -/
structure Separable (flags : Flags) (offset : Nat) (source : String) (e : Expr) : Prop where
  compiles : Regex.compile source flags = .ok e
  calls : e.root.subterms.any Node.isCall = false
  keeps : .keep ∉ e.root.subterms
  whole : ∃ node s, Closed { ignoreCase := flags.ignoreCase } source.toList node s ∧
    s.numbers.map Numbered.mark = references (tokens source.toList) ∧
    ∀ m ∈ s.numbers, m.IsMovable offset

namespace Separable

variable {flags : Flags} {offset : Nat} {source : String} {e : Expr}

theorem isMovable_zero {offset : Nat} {m : Numbered} (h : m.IsMovable offset) : m.IsMovable 0 :=
  ⟨h.1, h.1⟩

theorem reading (h : Separable flags offset source e) : ∃ s,
    Closed { ignoreCase := flags.ignoreCase } source.toList e.root s ∧ s.groups = e.groupCount ∧
      s.numbers.map Numbered.mark = references (tokens source.toList) ∧
      ∀ m ∈ s.numbers, m.IsMovable offset := by
  obtain ⟨node, s, hclosed, hmarks, hmovable⟩ := h.whole
  have htext : Renumbered 0 [] (s.numbers.map Numbered.mark) (source.toList ++ ['\x29'])
      source.toList := by
    rw [hmarks]
    simpa using renumbered_unmoved [] (.inl rfl)
  obtain ⟨node', t, hreads, hraised, hbehind, hrest | ⟨htail, -⟩⟩ :=
    hclosed.elsewhere (likeness_raised 0) (.nothing : Finish (Raised 0) 0 [])
      (fun ⟨_, _, hon⟩ ↦ nomatch hon) (fun m hm ↦ isMovable_zero (hmovable m hm)) (.refl _)
      (.at_start _ _) htext (Nat.le_refl _)
  · obtain ⟨root, t', callable, hparse, -, he⟩ := compile_eq_ok.1 h.compiles
    cases (parseTree_of_alternatives hreads hrest).symm.trans hparse
    cases he
    have hcalls := h.calls
    obtain rfl := hraised.eq_of_zero hcalls
    exact ⟨s, hclosed, hbehind.groups.symm, hmarks, hmovable⟩
  · cases htail

theorem isPlain (h : Separable flags offset source e) : e.root.isPlain e.groupCount := by
  obtain ⟨s, hclosed, hgroups, -⟩ := h.reading
  have hrest : s.rest ≠ [] := by
    rw [hclosed.rest]
    exact List.cons_ne_nil _ _
  obtain ⟨-, htree⟩ := (reading_grows _).1 _ hclosed.reads hrest
  exact isPlain_of_subterms (hgroups ▸ htree) h.calls h.keeps

theorem checked (h : Separable flags offset source e) : Checked e.root e.groupCount := by
  obtain ⟨root, s, callable, -, hcallable, rfl⟩ := compile_eq_ok.1 h.compiles
  exact checked_of_callableGroups hcallable

/-- An empty alternative at the end leaves the number of groups as it is, and so does case. -/
theorem countGroups (h : Separable flags offset source e) :
    Pattern.countGroups source = .ok e.groupCount := by
  obtain ⟨s, hclosed, hgroups, hmarks, hmovable⟩ := h.reading
  have hbar : (source ++ "|").toList = source.toList ++ ['|'] := by simp
  have htext : Renumbered 0 ['|'] (s.numbers.map Numbered.mark) (source.toList ++ [')'])
      (source ++ "|").toList := by
    rw [hmarks, hbar]
    exact renumbered_unmoved ['|'] (.inl rfl)
  have hlength : 3 * source.toList.length + 3 + 2 ≤ 3 * (source ++ "|").toList.length + 3 := by
    rw [hbar, List.length_append, List.length_singleton]
    omega
  have hlike : Options.Like False { ignoreCase := flags.ignoreCase } {} := ⟨rfl, rfl, nofun⟩
  obtain ⟨node, t, hreads, houtlined, hbehind, hrest⟩ :=
    hclosed.elsewhere likeness_outlined
      (.bar (Nat.le_refl 2) Outlined.bar : Finish Outlined 2 ['\x7c'])
      (fun ⟨_, _, hon⟩ ↦ nomatch hon) (fun m hm ↦ isMovable_zero (hmovable m hm))
      hlike (.at_start _ _) htext hlength
  have hend : t.rest = [] := by
    obtain hrest | ⟨-, hrest⟩ := hrest
    · exact absurd (by rw [hrest]; rfl) (alternatives_head? hreads)
    · exact hrest
  have hgroups : t.groups = e.groupCount := hbehind.groups.trans hgroups
  have hchecked : Checked node t.groups := by
    rw [hgroups]
    exact ⟨(houtlined.any (isSparse_refersBeyond _)).trans h.checked.references,
      (houtlined.any isSparse_capturesInNegation).trans h.checked.negations⟩
  have hcalls := (houtlined.any isSparse_isCall).trans h.calls
  have hcompile : Regex.compile (source ++ "|") = .ok ⟨source ++ "|", node, t.groups, []⟩ :=
    compile_eq_ok.2 ⟨node, t, [], parseTree_of_alternatives hreads hend,
      callableGroups_eq_nil hchecked hcalls, rfl⟩
  rw [Pattern.countGroups, Pattern.compile, hcompile, ← hgroups]
  rfl

/-- In its group among others, the source is read as by itself. -/
theorem grouped {s : Source} (h : Separable flags (s.groups + 1) source e) (hnames : s.NamesKnown)
    {more : List Char} (hmore : Ends more)
    (hrest : s.rest = '\x28' ::
      ((tokens source.toList).flatMap (Token.shifted (s.groups + 1)) ++ '\x29' :: more))
    {fuel : Nat} (hfuel : 3 * s.rest.length ≤ fuel + 3 * more.length + 3) :
    ∃ body t, branch (fuel + 1) { ignoreCase := flags.ignoreCase } s =
        .ok (.group (s.groups + 1) body, t) ∧ Raised (s.groups + 1) e.root body ∧
      t.rest = more ∧ t.groups = s.groups + 1 + e.groupCount ∧ t.NamesKnown := by
  obtain ⟨read, hclosed, hgroups, hmarks, hmovable⟩ := h.reading
  have hle (m : Nat × Nat) (hm : m ∈ references (tokens source.toList)) : m.2 ≤ greatest64 := by
    rw [← hmarks] at hm
    obtain ⟨number, hnumber, rfl⟩ := List.mem_map.1 hm
    have hgreatest := ((Bool.and_eq_true _ _).mp (hmovable number hnumber).1).1
    exact Nat.le_trans (of_decide_eq_true hgreatest) (by decide)
  have htext := renumbered_shifted (s.groups + 1) ('\x29' :: more) hle
  have hlength := htext.length_le
  rw [← hmarks] at htext
  rw [← hgroups]
  refine hclosed.grouped rfl hmovable hnames htext hrest hmore ?_
  rw [hrest] at hfuel
  simp only [List.length_cons, List.length_append, List.length_nil] at hlength hfuel
  omega

end Separable

/-- Sources side by side, the first with `ahead` groups ahead of its own group. A look at the text
finds `counted` of them, which must be all if the source has references. -/
inductive SideBySide (flags : Flags) : Nat → Nat → List String → List Expr → Prop
  | nil {ahead counted : Nat} : SideBySide flags ahead counted [] []
  | cons {ahead counted : Nat} {source : String} {sources : List String} {e : Expr}
      {es : List Expr} : Separable flags (ahead + 1) source e →
      counted = ahead ∨ references (tokens source.toList) = [] →
      SideBySide flags (ahead + 1 + e.groupCount)
        (counted + 1 + openings (tokens source.toList)) sources es →
      SideBySide flags ahead counted (source :: sources) (e :: es)

namespace SideBySide

variable {flags : Flags} {ahead counted : Nat} {source : String} {sources : List String}
  {es : List Expr}

theorem toList_wrapped (counted : Nat) (source next : String) (sources : List String) :
    ("|".intercalate (wrapped counted (source :: next :: sources))).toList =
      '\x28' :: ((tokens source.toList).flatMap (Token.shifted (counted + 1)) ++ '\x29' :: '\x7c' ::
        ("|".intercalate
          (wrapped (counted + 1 + openings (tokens source.toList)) (next :: sources))).toList) := by
  rw [wrapped, wrapped, String.intercalate_cons_cons]
  simp

theorem reads (h : SideBySide flags ahead counted sources es) (hne : sources ≠ []) {s : Source}
    (hs : s.groups = ahead) (hnames : s.NamesKnown)
    (hrest : s.rest = ("|".intercalate (wrapped counted sources)).toList) {fuel : Nat}
    (hfuel : 3 * s.rest.length + 3 ≤ fuel) :
    ∃ node t, alternatives fuel { ignoreCase := flags.ignoreCase } s = .ok (node, t) ∧
      Joined ahead es node ∧ t.rest = [] ∧ t.groups = ahead + slots es := by
  induction h generalizing s fuel with
  | nil => exact absurd rfl hne
  | @cons ahead counted source sources e es hsource hcounted hothers ih =>
    subst hs
    obtain ⟨k, rfl⟩ : ∃ k, fuel = k + 2 := ⟨fuel - 2, by omega⟩
    have hshifted : (tokens source.toList).flatMap (Token.shifted (counted + 1)) =
        (tokens source.toList).flatMap (Token.shifted (s.groups + 1)) := by
      obtain rfl | hnone := hcounted
      · rfl
      · exact flatMap_shifted hnone _ _
    cases hothers with
    | nil =>
      have htext : s.rest = '\x28' ::
          ((tokens source.toList).flatMap (Token.shifted (s.groups + 1)) ++ ['\x29']) := by
        rw [hrest, ← hshifted]
        simp [wrapped]
      have hend : Ends [] := trivial
      obtain ⟨body, t, hbranch, hraised, ht, hcount, -⟩ :=
        hsource.grouped hnames hend htext (show 3 * s.rest.length ≤ k + 3 * 0 + 3 by omega)
      refine ⟨_, t, alternatives_eq_ok.2 ⟨_, t, hbranch, .inl ⟨?_, rfl, rfl⟩⟩,
        .last hsource.isPlain hraised, ht, ?_⟩
      · rw [ht]
        exact nofun
      · rw [hcount, slots]
        simp
        omega
    | @cons _ _ next sources e' es hnext hcounted' hothers =>
      rw [toList_wrapped, hshifted] at hrest
      have hbar (more : List Char) : Ends ('\x7c' :: more) := .inl rfl
      obtain ⟨body, t, hbranch, hraised, ht, hcount, hknown⟩ :=
        hsource.grouped hnames (hbar _) hrest (show 3 * s.rest.length ≤ k + _ + 3 by omega)
      -- The state behind the bar, from which the others are read.
      let later : Source := { t with rest := ("|".intercalate
        (wrapped (counted + 1 + openings (tokens source.toList)) (next :: sources))).toList }
      have hlength : 3 * later.rest.length + 3 ≤ k + 1 := by
        rw [hrest] at hfuel
        simp only [List.length_cons, List.length_append] at hfuel
        simp only [later]
        omega
      obtain ⟨others, u, hreads, hjoined, hu, htotal⟩ :=
        ih (List.cons_ne_nil _ _) (s := later) hcount hknown rfl hlength
      refine ⟨_, u, alternatives_eq_ok.2 ⟨_, t, hbranch, .inr ⟨_, others, ht, rfl, hreads⟩⟩,
        .more hsource.isPlain hraised hjoined, hu, ?_⟩
      rw [htotal]
      simp only [slots, List.map_cons, List.sum_cons]
      omega

end SideBySide

end SyntaxHighlight.Rule
