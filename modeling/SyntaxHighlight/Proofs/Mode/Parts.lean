import SyntaxHighlight.Mode.Prepared
import SyntaxHighlight.Proofs.Pattern.Flattened
import SyntaxHighlight.Proofs.Rule.Alternation
import SyntaxHighlight.Proofs.Scan.Written

/-! The groups of the parts of a sequence: which they are, and that each match is made up of them. -/
namespace SyntaxHighlight.Mode

open Pattern Regex Rule

section Covering

variable {s : State} {e : Expr}

/-- What covers a stretch in the end is reported to do so. -/
theorem tiles_of_covers {groups : List (Nat × Option String)} {start stop : Nat} (place : Nat)
    (h : Covers s (groups.map Prod.fst) start stop)
    (hgroups : ∀ n ∈ groups.map Prod.fst, 0 < n ∧ n ≤ e.groupCount) :
    Tiles (e.spans place s) groups start stop := by
  induction groups generalizing start with
  | nil => exact h
  | cons part groups ih =>
    obtain ⟨n, scope⟩ := part
    obtain ⟨middle, hgroup, hle, hrest⟩ := h
    obtain ⟨⟨hpos, hcount⟩, hothers⟩ := List.forall_mem_cons.1 hgroups
    refine ⟨middle, ?_, hle, ih hrest hothers⟩
    rw [Expr.getElem?_spans_join e place s hpos, if_pos hcount]
    exact hgroup

end Covering

section Sequences

variable {parts : List String} {es : List Expr} {e : Expr} {flags : Flags}

/-- Groups are counted part by part. -/
theorem partGroups_eq_ok (hparts : List.Forall₂ IsPart parts es) (names : List (Nat × String))
    (ahead part : Nat) : ∃ groups, partGroups names (ahead + 1) part parts = .ok groups ∧
      groups.map Prod.fst = numbersInTurn ahead (es.map Expr.groupCount) ∧
      groups.map Prod.snd = (List.range' part parts.length).map fun i ↦ names.lookup i := by
  induction hparts generalizing ahead part with
  | nil => exact ⟨[], rfl, rfl, rfl⟩
  | @cons source e parts es hpart _ ih =>
    obtain ⟨groups, hgroups, hnumbers, hscopes⟩ := ih (ahead + 1 + e.groupCount) (part + 1)
    refine ⟨(ahead + 1, names.lookup part) :: groups, ?_, congrArg (_ :: ·) hnumbers,
      congrArg (_ :: ·) hscopes⟩
    rw [partGroups]
    refine bind_eq_ok.2 ⟨_, hpart.countGroups, bind_eq_ok.2 ⟨groups, ?_, rfl⟩⟩
    rw [← hgroups, Nat.add_right_comm (ahead + 1)]

theorem compile_flattenSequence (hparts : List.Forall₂ IsPart parts es)
    (h : Regex.compile (flattenSequence parts) flags = .ok e) :
    ReadInTurn { ignoreCase := flags.ignoreCase } { rest := (flattenSequence parts).toList }
        (wrapped 0 parts) (numbersInTurn 0 (es.map Expr.groupCount)) e.root ∧
      InTurn 0 (es.map Expr.groupCount) e.root ∧ e.callable = [] ∧
      e.groupCount = (es.map fun e ↦ e.groupCount + 1).sum := by
  obtain ⟨root, t, callable, hparse, hcallable, rfl⟩ := compile_eq_ok.1 h
  obtain ⟨hread, -⟩ := parseTree_eq_ok.1 hparse
  obtain ⟨first, mid, hbranch, hread⟩ := alternatives_eq_ok.1 hread
  obtain ⟨hrest, hgroups, hreads, hinTurn⟩ := reads_inTurn hparts rfl rfl hbranch
  obtain ⟨-, rfl, rfl⟩ | ⟨_, _, hbar, -⟩ := hread
  · refine ⟨hreads, hinTurn, ?_, hgroups.trans (Nat.zero_add _)⟩
    have hnone := callableGroups_eq_nil (checked_of_callableGroups hcallable)
      (calls_of_strays hinTurn.strays_eq_false)
    exact Except.ok.inj (hcallable.symm.trans hnone)
  · rw [hrest] at hbar
    cases hbar

/-- The groups of a sequence's parts are those that its pattern has for them, and in every match they
take part, lie next to each other, and are all that there is. -/
theorem partGroups_tiles (hparts : List.Forall₂ IsPart parts es)
    (h : Regex.compile (flattenSequence parts) flags = .ok e) (names : List (Nat × String)) :
    ∃ groups, partGroups names 1 1 parts = .ok groups ∧
      groups.map Prod.snd = (List.range' 1 parts.length).map (fun i ↦ names.lookup i) ∧
      ReadInTurn { ignoreCase := flags.ignoreCase } { rest := (flattenSequence parts).toList }
        (wrapped 0 parts) (groups.map Prod.fst) e.root ∧
      e.groupCount = (es.map fun e ↦ e.groupCount + 1).sum ∧
      ∀ text searchStart start spans, start ≤ text.size →
        e.matchAt? text searchStart start = some spans →
        ∃ stop, spans.head? = some (some (start, stop)) ∧ Tiles spans groups start stop ∧
          partsText text spans groups = text.slice start stop := by
  obtain ⟨groups, hgroups, hnumbers, hscopes⟩ := partGroups_eq_ok hparts names 0 1
  obtain ⟨hreads, hinTurn, hcallable, hcount⟩ := compile_flattenSequence hparts h
  refine ⟨groups, hgroups, hscopes, hnumbers ▸ hreads, hcount, ?_⟩
  intro text searchStart start spans hstart hmatch
  obtain ⟨s, hfinal, rfl⟩ := Option.map_eq_some_iff.1 hmatch
  have hnone : ∀ entry ∈ e.callable, entry.2.keepsTo false true := by
    rw [hcallable]
    exact List.forall_mem_nil _
  have hcalls := goesOnward_runCall ⟨text, searchStart⟩ hnone (e.callDepth text)
  obtain ⟨t, ht, hspares, -, hcovers⟩ :=
    hinTurn.run_covers hcalls (tries_runCall _ _ _) hstart hfinal
  cases ht
  have hbounds (n : Nat) (hn : n ∈ groups.map Prod.fst) : 0 < n ∧ n ≤ e.groupCount := by
    rw [hnumbers] at hn
    have hmem := mem_numbersInTurn hn
    rw [List.map_map] at hmem
    rw [hcount]
    exact ⟨hmem.1, Nat.le_trans hmem.2 (Nat.le_of_eq (Nat.zero_add _))⟩
  rw [← hnumbers] at hcovers
  have htiles := tiles_of_covers start hcovers hbounds
  refine ⟨s.pos, ?_, htiles, htiles.partsText_eq text⟩
  rw [Expr.spans, List.head?_cons, hspares.kept, Option.getD_none, Nat.min_eq_left htiles.le]

/-- A source is a part if reading it gives the right values. -/
theorem isPart_of_values {source : String}
    (hexpr : (Regex.compile source {}).toOption.map (fun e ↦
      (e.root.subterms.any Node.isCall, decide (.keep ∈ e.root.subterms))) = some (false, false))
    (hinline : skim {} .plain source.toList ≠ .inline) : IsPart source (ownExpr source) := by
  obtain ⟨e, he, hvalues⟩ := eq_ok_of_map hexpr
  obtain ⟨hcalls, hkeeps⟩ := Prod.mk.inj hvalues
  have hown : ownExpr source = e := by
    rw [ownExpr, he]
    rfl
  rw [hown]
  exact ⟨⟨{}, he⟩, hcalls, of_decide_eq_false hkeeps, hinline⟩

end Sequences

/-- A letter twice, and a semicolon that a sign may come before. -/
def doubledThenEnd : List String := ["([ab])\\1", "(?<n>[(=])?;"]

theorem doubledThenEnd_tiles :
    partGroups [(2, "operator")] 1 1 doubledThenEnd = .ok [(1, none), (3, some "operator")] ∧
      Tiles [some (0, 3), some (0, 2), some (0, 1), some (2, 3), none]
        [(1, none), (3, some "operator")] 0 3 := by
  have hletters : IsPart "([ab])\\1" (ownExpr "([ab])\\1") :=
    isPart_of_values (by cbv) (by decide)
  have hend : IsPart "(?<n>[(=])?;" (ownExpr "(?<n>[(=])?;") :=
    isPart_of_values (by cbv) (by decide)
  have hcompile : Regex.compile (flattenSequence doubledThenEnd) {} =
      .ok (ownExpr (flattenSequence doubledThenEnd)) := by cbv
  have hgroups : partGroups [(2, "operator")] 1 1 doubledThenEnd =
      .ok [(1, none), (3, some "operator")] := by cbv
  obtain ⟨groups, hfound, -, -, -, hmatches⟩ :=
    partGroups_tiles (.cons hletters (.cons hend .nil)) hcompile [(2, "operator")]
  cases hgroups.symm.trans hfound
  obtain ⟨stop, hhead, htiles, -⟩ := hmatches (.ofString "aa;") 0 0
    [some (0, 3), some (0, 2), some (0, 1), some (2, 3), none] (by decide) (by cbv)
  cases hhead
  exact ⟨hgroups, htiles⟩

end SyntaxHighlight.Mode
