import SyntaxHighlight.Proofs.Grammar.Nesting
import SyntaxHighlight.Proofs.Grammar.Placement
import SyntaxHighlight.Proofs.Grammar.WellFormed
import SyntaxHighlight.Proofs.Rule.Splice

/-!
The mode in which another one is compiled, and what the terminators of the two have to do with each
other. The end of a mode that ends with its parent is written before that of its parent, with a bar
between them and nothing around either.
-/
namespace SyntaxHighlight

open Regex Rule

theorem Rule.Spliced.isSome_matchAt? {es : List Expr} {a : Expr} (h : Spliced 0 es a.root)
    (text : Text) (searchStart start : Nat) :
    (a.matchAt? text searchStart start).isSome =
      es.any fun e ↦ (e.matchAt? text searchStart start).isSome := by
  by_cases hany : (es.any fun e ↦ (e.matchAt? text searchStart start).isSome) = true
  · rw [hany]
    have hfind : (es.find? fun e ↦ (e.matchAt? text searchStart start).isSome).isSome :=
      List.find?_isSome.2 (List.any_eq_true.1 hany)
    obtain ⟨own, hfirst⟩ := Option.isSome_iff_exists.1 hfind
    obtain ⟨hown, inner, outer, rfl, hinner⟩ := List.find?_eq_some_iff_append.1 hfirst
    simp only [Expr.matchAt?, Option.isSome_map] at hown hinner ⊢
    obtain ⟨t, ht⟩ := Option.isSome_iff_exists.1 hown
    obtain ⟨u, hu, -⟩ := h.run_first (fun e he ↦ by simpa using hinner e he) ht
      (runCall ⟨text, searchStart⟩ a.callable (a.callDepth text))
    exact Option.isSome_iff_exists.2 ⟨u, hu⟩
  · have hnone : ∀ e ∈ es, e.finalState? text searchStart start = none := by
      simpa [Expr.matchAt?] using hany
    rw [Bool.eq_false_of_not_eq_true hany, Expr.matchAt?, Expr.finalState?, h.run_eq_none hnone]
    rfl

variable {g : Grammar} {scoring : KeywordScoring} {cg : CompiledGrammar} {n k l i p : Nat}
  {c d : Call}

theorem Call.Precedes.number_lt (h : c.Precedes g scoring d) : c.number < d.number := by
  obtain ⟨o, -, hle⟩ := h
  have hsize := hle.size
  rw [c.opened_size] at hsize
  exact hsize

theorem Within.eq_of_number (hc : Within g scoring n g.firstCall k c)
    (hd : Within g scoring n g.firstCall l d) (h : c.number = d.number) : c = d := by
  obtain heq | hbefore | hbefore := hc.compare hd
  · exact heq
  · exact absurd h (Nat.ne_of_lt hbefore.number_lt)
  · exact absurd h (Nat.ne_of_gt hbefore.number_lt)

/-- The innermost of the modes around a call is what an earlier call makes. -/
theorem Within.exists_parent (h : Within g scoring n g.firstCall l c) (haround : c.around ≠ []) :
    ∃ k d o, Within g scoring n g.firstCall (k + 1) d ∧ d.opening g scoring = .ok o ∧
      c.around = d.within o ∧ d.number < c.number := by
  induction h with
  | refl => exact absurd rfl haround
  | @step fuel c e hc hlead ih =>
    have hbefore : c.number < e.number := Call.Precedes.number_lt hlead.le
    obtain ⟨o, ho, hwithin⟩ | ⟨hbeside, -⟩ := hlead.around
    · exact ⟨fuel, c, o, hc, ho, hwithin, hbefore⟩
    · rw [hbeside] at haround ⊢
      obtain ⟨k, d, o, hd, ho, hwithin, hlt⟩ := ih haround
      exact ⟨k, d, o, hd, ho, hwithin, hlt.trans hbefore⟩

theorem CompiledMode.MadeBy.ending_source {m : CompiledMode} {o : Opening} {begins : Array String}
    (h : m.MadeBy g c o begins) : m.ending.map Expr.source = (terminatorsOf o.p c.around).1 := by
  have hending := h.ending
  generalize (terminatorsOf o.p c.around).1 = own, m.ending = ending at hending
  cases own with
  | none =>
    cases hending
    rfl
  | some own =>
    obtain ⟨e, he, rfl⟩ := map_eq_ok.1 hending
    exact congrArg some (Pattern.source_of_compile he)

namespace Grammar

theorem compile_madeBy (h : g.compile scoring = .ok cg) (hi : i < cg.modes.size) :
    ∃ l c o, Within g scoring g.levels g.firstCall (l + 1) c ∧ c.opening g scoring = .ok o ∧
      c.number = i ∧ (cg.mode i).MadeBy g c o (cg.modes.map CompiledMode.begin) := by
  obtain ⟨a, ha, rfl⟩ := compile_eq_ok h
  have hi : i < a.modes.size := hi
  have hslot : a.slots[i]? = some (some a.modes[i]) := by
    rw [arena_slots ha, Array.getElem?_map, Array.getElem?_eq_getElem hi]
    rfl
  obtain ⟨-, l, c, o, hc, ho, hnumber, hmade⟩ := (arena_sound ha).modes i _ hslot
  rw [arena_begins ha] at hmade
  refine ⟨l, c, o, hc, ho, hnumber, ?_⟩
  simpa [CompiledGrammar.mode, Array.getElem?_eq_getElem hi] using hmade

variable (g scoring)

/-- A mode is compiled in another one, the innermost of those around it. -/
def CompiledIn (i p : Nat) : Prop :=
  ∃ l c e outer, Within g scoring g.levels g.firstCall (l + 1) c ∧ c.number = i ∧
    c.around = e :: outer ∧ e.id = p

variable {g scoring}

theorem CompiledIn.unique {q : Nat} (hp : g.CompiledIn scoring i p)
    (hq : g.CompiledIn scoring i q) : p = q := by
  obtain ⟨k, c, e, outer, hc, hi, haround, rfl⟩ := hp
  obtain ⟨l, d, e', outer', hd, hi', haround', rfl⟩ := hq
  obtain rfl := hc.eq_of_number hd (hi.trans hi'.symm)
  cases haround.symm.trans haround'
  rfl

theorem existsUnique_compiledIn (h : g.compile scoring = .ok cg) (hi : i < cg.modes.size)
    (hroot : i ≠ CompiledGrammar.rootId) : ∃! p, g.CompiledIn scoring i p := by
  obtain ⟨l, c, o, hc, -, rfl, -⟩ := compile_madeBy h hi
  obtain rfl | ⟨haround, -⟩ := hc.first_or
  · exact absurd rfl hroot
  · obtain ⟨e, outer, haround⟩ := List.exists_cons_of_ne_nil haround
    have hin : g.CompiledIn scoring c.number e.id := ⟨l, c, e, outer, hc, rfl, haround, rfl⟩
    exact ⟨e.id, hin, fun _ hq ↦ hq.unique hin⟩

theorem CompiledIn.lt (hin : g.CompiledIn scoring i p) : p < i := by
  obtain ⟨l, c, e, outer, hc, rfl, haround, rfl⟩ := hin
  obtain ⟨k, d, o, -, -, hwithin, hbefore⟩ := hc.exists_parent (haround ▸ List.cons_ne_nil e outer)
  rw [haround] at hwithin
  rw [(List.cons.inj hwithin).1]
  exact hbefore

/-- A mode that ends with its parent ends with its own end, if it has one, and with what ends the
mode in which it is compiled. -/
theorem CompiledIn.terminator_eq (hin : g.CompiledIn scoring i p)
    (h : g.compile scoring = .ok cg) (hends : (cg.mode i).endsWithParent = true) :
    (cg.mode i).terminator =
      endedBy ((cg.mode i).ending.map Expr.source) (cg.mode p).terminator := by
  have hbefore := hin.lt
  obtain ⟨l, c, e, outer, hc, hi, haround, rfl⟩ := hin
  have hlt : i < cg.modes.size := by
    refine Nat.lt_of_not_le fun hle ↦ ?_
    rw [CompiledGrammar.mode, Array.getElem?_eq_none hle] at hends
    cases hends
  obtain ⟨k, d, o, hd, -, hnumber, hmade⟩ := compile_madeBy h hlt
  obtain rfl := hd.eq_of_number hc (hnumber.trans hi.symm)
  obtain ⟨k', parent, o', hparent, ho', hwithin, -⟩ :=
    hd.exists_parent (haround ▸ List.cons_ne_nil e outer)
  rw [haround] at hwithin
  obtain rfl := (List.cons.inj hwithin).1
  -- What has made the mode around is the call that it was opened by, as that has its number.
  obtain ⟨m, c', o'', hc', ho'', hnumber', houter⟩ := compile_madeBy h (hbefore.trans hlt)
  obtain rfl := hc'.eq_of_number hparent hnumber'
  cases ho'.symm.trans ho''
  have hterminator : terminatorOf d.around = (cg.mode c'.number).terminator := by
    rw [haround, houter.terminator]
    rfl
  rw [hmade.endsWithParent] at hends
  rw [hmade.terminator, hmade.ending_source, ← hterminator]
  simp only [terminatorsOf, hends, if_true]
  rfl

/-- A mode that ends with its parent, where something ends that, is searched for its own end and for
what ends its parent, one after the other in one text. This finds what either of them finds by
itself, unless the own end sets options for the rest of the text, or has groups ahead of numbered
references of the other one. -/
theorem spliced_terminator (h : g.compile scoring = .ok cg) (hin : g.CompiledIn scoring i p)
    (hends : (cg.mode i).endsWithParent = true) {own : Expr}
    (hown : (cg.mode i).ending = some own) (hne : (cg.mode p).terminator ≠ "") :
    (cg.mode i).terminator = own.source ++ "|" ++ (cg.mode p).terminator ∧
      ∀ outer, Regex.compile (cg.mode p).terminator g.flags = .ok outer →
        Spliceable g.flags 0 [own, outer] →
          ∃ spliced, Regex.compile (cg.mode i).terminator g.flags = .ok spliced ∧
            ∀ text searchStart start, (spliced.matchAt? text searchStart start).isSome =
              ((own.matchAt? text searchStart start).isSome ||
                (outer.matchAt? text searchStart start).isSome) := by
  have hterminator : (cg.mode i).terminator = own.source ++ "|" ++ (cg.mode p).terminator := by
    rw [hin.terminator_eq h hends, hown]
    simp [endedBy, hne, Pattern.concat, String.join]
  refine ⟨hterminator, fun outer houter hspliceable ↦ ?_⟩
  obtain ⟨spliced, hcompile, hspliced, -⟩ := hspliceable.compile
  have hsame : outer.source = (cg.mode p).terminator := compile_source houter
  have hsource : spliceOf [own, outer] = (cg.mode i).terminator := by
    rw [hterminator, ← hsame, ← String.toList_inj, spliceOf_cons own (List.cons_ne_nil outer [])]
    simp [spliceOf]
  refine ⟨spliced, hsource ▸ hcompile, fun text searchStart start ↦ ?_⟩
  rw [hspliced.isSome_matchAt?, List.any_cons, List.any_cons, List.any_nil, Bool.or_false]

/-- Brackets that end with what is around them, which ends with a letter written twice. -/
def twins : Grammar where
  contains := [.inline
    { begin := some (.source "<"), ending := some (.source "(b)\\1")
      contains := [.inline
        { begin := some (.source "\\["), ending := some (.source "\\]"), endsWithParent := true }] }]

theorem twins_sources : (ownExpr "\\]").source = "\\]" ∧ (ownExpr "\\]").groupCount = 0 ∧
    (ownExpr "(b)\\1").source = "(b)\\1" := by
  cbv

theorem twins_letters : Separable {} 0 "(b)\\1" (ownExpr "(b)\\1") :=
  separable_of_values [⟨2, 1, 1⟩] (by cbv) (by cbv) (by cbv)
    (by simp [Numbered.IsMovable, isGroupNumber, greatestNumber])

theorem twins_spliceable : Spliceable {} 0 [ownExpr "\\]", ownExpr "(b)\\1"] := by
  have hbracket : Separable {} 0 "\\]" (ownExpr "\\]") :=
    separable_of_values [] (by cbv) (by cbv) (by cbv) (List.forall_mem_nil _)
  have hletters := twins_letters
  obtain ⟨hbracketSource, hgroupless, hlettersSource⟩ := twins_sources
  generalize ownExpr "\\]" = bracket at *
  generalize ownExpr "(b)\\1" = letters at *
  refine .more (hbracketSource ▸ hbracket) (.inl rfl) ?_ ?_
  · rw [hbracketSource]
    exact not_setsOptions (by decide)
  · rw [Nat.zero_add, hgroupless]
    refine .last (hlettersSource ▸ hletters) (.inl rfl) ?_
    rw [hlettersSource]
    decide

theorem twins_modes : (twins.compile default).toOption.map (fun cg ↦
    (cg.modes.size, (cg.mode 0).terminator, (cg.mode 1).terminator, (cg.mode 2).ending,
      (cg.mode 2).endsWithParent, (cg.mode 2).terminator)) =
    some (3, "", "(b)\\1", some (ownExpr "\\]"), true, "\\]|(b)\\1") := by
  cbv

theorem twins_matches :
    let both (start : Nat) := ((ownExpr "\\]").matchAt? (.ofString "[bb]") 0 start).isSome ||
      ((ownExpr "(b)\\1").matchAt? (.ofString "[bb]") 0 start).isSome
    both 1 = true ∧ both 2 = false ∧ both 3 = true := by
  cbv

/-- In the brackets both ends are found, and no other text is. -/
theorem twins_end : ∃ cg spliced, twins.compile default = .ok cg ∧ twins.CompiledIn default 2 1 ∧
    Regex.compile (cg.mode 2).terminator {} = .ok spliced ∧
    (spliced.matchAt? (.ofString "[bb]") 0 1).isSome = true ∧
    (spliced.matchAt? (.ofString "[bb]") 0 2).isSome = false ∧
    (spliced.matchAt? (.ofString "[bb]") 0 3).isSome = true := by
  obtain ⟨cg, hcg, hvalues⟩ := eq_ok_of_map twins_modes
  simp only [Prod.mk.injEq] at hvalues
  obtain ⟨hsize, hroot, houter, hown, hends, hinner⟩ := hvalues
  have hletters := twins_letters.compiles
  have hsource := twins_sources.1
  have hspliceable := twins_spliceable
  obtain ⟨hfirst, hsecond, hthird⟩ := twins_matches
  generalize ownExpr "\\]" = bracket at *
  generalize ownExpr "(b)\\1" = letters at *
  obtain ⟨p, hin, -⟩ := existsUnique_compiledIn (i := 2) hcg (by omega) (by decide)
  -- What it ends with tells that it is not compiled in the outermost mode.
  obtain rfl : p = 1 := by
    have hlt := hin.lt
    refine (by omega : p = 0 ∨ p = 1).resolve_left fun hzero ↦ ?_
    have hterminator := hin.terminator_eq hcg hends
    simp [hzero, hroot, hinner, hown, hsource, endedBy] at hterminator
  obtain ⟨-, hfound⟩ := spliced_terminator hcg hin hends hown (by simp [houter])
  obtain ⟨spliced, hspliced, hmatches⟩ := hfound letters (houter ▸ hletters) hspliceable
  exact ⟨cg, spliced, hcg, hin, hspliced, (hmatches _ _ _).trans hfirst,
    (hmatches _ _ _).trans hsecond, (hmatches _ _ _).trans hthird⟩

end Grammar

end SyntaxHighlight
