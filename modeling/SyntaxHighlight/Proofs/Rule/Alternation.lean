import SyntaxHighlight.Proofs.Regex.Search
import SyntaxHighlight.Proofs.Rule.Separable

/-! One search with all sources side by side finds what the race of separate searches finds. -/
namespace SyntaxHighlight.Rule

open Regex Pattern

section Tree

variable {offset ahead : Nat} {a a' node : Node} {es : List Expr}

theorem Raised.isCall_eq_false (h : Raised offset a a') (ha : a.isCall = false) :
    a'.isCall = false := by
  cases h <;> first | rfl | cases ha

theorem Raised.hasGroup_eq_false (h : Raised offset a a') (ha : a.hasGroup = false) :
    a'.hasGroup = false := by
  refine h.any_eq_false (fun h hp ↦ ?_) ha
  cases h <;> first | rfl | cases hp

theorem Raised.capturesInNegation_eq_false (h : Raised offset a a')
    (ha : a.capturesInNegation = false) : a'.capturesInNegation = false := by
  cases h with
  | look direction negated h =>
    cases direction <;> cases negated <;> first | rfl | exact Raised.hasGroup_eq_false h ha
  | _ => rfl

theorem Raised.refersBeyond_eq_false {count groups : Nat} (hle : count + offset ≤ groups)
    (h : Raised offset a a') (ha : a.refersBeyond count = false) :
    a'.refersBeyond groups = false := by
  cases h with
  | backref _ _ hahead =>
    rw [Node.refersBeyond, List.any_eq_false] at ha ⊢
    intro n hn
    obtain hn | hn := List.mem_append.1 hn
    · obtain ⟨m, hm, rfl⟩ := List.mem_map.1 hn
      have := ha m hm
      simp only [decide_eq_true_eq] at this ⊢
      omega
    · have := hahead n hn
      simp only [decide_eq_true_eq]
      omega
  | _ => rfl

theorem Raised.checked {count groups : Nat} (h : Raised offset a a') (hle : count + offset ≤ groups)
    (ha : Checked a count) (hcalls : a.subterms.any Node.isCall = false) :
    Checked a' groups ∧ a'.subterms.any Node.isCall = false :=
  ⟨⟨h.any_eq_false (Raised.refersBeyond_eq_false hle) ha.references,
    h.any_eq_false Raised.capturesInNegation_eq_false ha.negations⟩,
    h.any_eq_false Raised.isCall_eq_false hcalls⟩

theorem Joined.checked (h : Joined ahead es node)
    (hes : ∀ e ∈ es, Checked e.root e.groupCount ∧ e.root.subterms.any Node.isCall = false)
    {groups : Nat} (hle : ahead + slots es ≤ groups) :
    Checked node groups ∧ node.subterms.any Node.isCall = false := by
  have hgroup {e : Expr} {ahead : Nat} {body : Node} (he : Checked e.root e.groupCount ∧
      e.root.subterms.any Node.isCall = false) (hraised : Raised (ahead + 1) e.root body)
      (hle : e.groupCount + (ahead + 1) ≤ groups) : Checked (.group (ahead + 1) body) groups ∧
        (Node.group (ahead + 1) body).subterms.any Node.isCall = false := by
    obtain ⟨hchecked, hcalls⟩ := Raised.checked hraised hle he.1 he.2
    exact ⟨⟨any_group_eq_false rfl hchecked.references, any_group_eq_false rfl hchecked.negations⟩,
      any_group_eq_false rfl hcalls⟩
  induction h with
  | last _ hraised =>
    refine hgroup (hes _ List.mem_cons_self) hraised ?_
    simp only [slots, List.map_cons, List.map_nil, List.sum_cons, List.sum_nil] at hle
    omega
  | more _ hraised _ ih =>
    simp only [slots, List.map_cons, List.sum_cons] at hle
    obtain ⟨hfirst, hcalls⟩ := hgroup (hes _ List.mem_cons_self) hraised (by omega)
    obtain ⟨hothers, hcalls'⟩ := ih (fun e he ↦ hes e (List.mem_cons_of_mem _ he))
      (by simp only [slots]; omega)
    exact ⟨⟨any_alt_eq_false rfl hfirst.references hothers.references,
      any_alt_eq_false rfl hfirst.negations hothers.negations⟩,
      any_alt_eq_false rfl hcalls hcalls'⟩

end Tree

namespace SideBySide

variable {flags : Flags} {ahead counted : Nat} {sources : List String} {es : List Expr}

theorem checked (h : SideBySide flags ahead counted sources es) : ∀ e ∈ es,
    Checked e.root e.groupCount ∧ e.root.subterms.any Node.isCall = false := by
  induction h with
  | nil => exact nofun
  | cons hsource _ _ ih =>
    intro e he
    obtain rfl | he := List.mem_cons.1 he
    · exact ⟨hsource.checked, hsource.calls⟩
    · exact ih e he

theorem wrappersFrom (h : SideBySide flags ahead counted sources es) :
    Alternation.wrappersFrom (ahead + 1) sources = .ok (wrappersOf ahead es) := by
  induction h with
  | nil => rfl
  | cons hsource _ _ ih =>
    exact bind_eq_ok.2 ⟨_, hsource.countGroups, bind_eq_ok.2 ⟨_, ih, rfl⟩⟩

theorem ofSources (h : SideBySide flags 0 0 sources es) (hne : sources ≠ []) : ∃ a,
    Alternation.ofSources sources flags = .ok ⟨some a, wrappersOf 0 es⟩ ∧ Joined 0 es a.root ∧
      a.groupCount = 0 + slots es := by
  let joined := rewriteReferences sources "|"
  obtain ⟨node, t, hreads, hjoined, hrest, hcount⟩ :=
    h.reads hne (s := { rest := joined.toList }) rfl nofun rfl (Nat.le_refl _)
  obtain ⟨hchecked, hcalls⟩ := hjoined.checked h.checked (Nat.le_of_eq hcount.symm)
  have hcompile : Regex.compile joined flags = .ok ⟨joined, node, t.groups, []⟩ :=
    compile_eq_ok.2 ⟨node, t, [], parseTree_of_alternatives hreads hrest,
      callableGroups_eq_nil hchecked hcalls, rfl⟩
  refine ⟨⟨joined, node, t.groups, []⟩, ?_, hjoined, hcount⟩
  have hnonempty : sources.isEmpty = false := by simpa using hne
  rw [Alternation.ofSources, hnonempty]
  refine bind_eq_ok.2 ⟨_, h.wrappersFrom, bind_eq_ok.2 ⟨_, ?_, rfl⟩⟩
  rw [Pattern.compile, hcompile]

end SideBySide

section Search

variable {find : Expr → Option (List (Option Span))}
  {ahead least position searchStart start n : Nat}
  {a e : Expr} {es : List Expr} {node : Node} {text : Text} {spans : List (Option Span)} {hit : Hit}

/-- A search starts to match at a place from `least` on. -/
def FoundFrom (least : Nat) (spans : List (Option Span)) : Prop :=
  ∃ start stop, least ≤ start ∧ spans.head?.join = some (start, stop)

theorem FoundFrom.ownHit (h : FoundFrom least spans) (position later : Nat) :
    ∃ hit, ownHit position later spans = some hit ∧ least ≤ hit.index := by
  obtain ⟨start, stop, hstart, hhead⟩ := h
  exact ⟨_, by rw [Rule.ownHit, hhead]; rfl, hstart⟩

/-- The winner does not start before all that have been found. -/
theorem le_index_winnerOf (hfind : ∀ e ∈ es, ∀ spans, find e = some spans → FoundFrom least spans)
    (h : winnerOf find position es = some hit) : least ≤ hit.index := by
  induction es generalizing position hit with
  | nil => cases h
  | cons e es ih =>
    have hothers {position : Nat} {hit : Hit} (h : winnerOf find position es = some hit) :
        least ≤ hit.index := ih (fun e he ↦ hfind e (List.mem_cons_of_mem _ he)) h
    rw [winnerOf] at h
    cases hfound : find e with
    | none =>
      rw [hfound] at h
      exact hothers h
    | some spans =>
      obtain ⟨own, hown, hle⟩ :=
        (hfind e List.mem_cons_self spans hfound).ownHit position (slots es)
      rw [hfound, Option.bind_some, hown] at h
      cases hlater : winnerOf find (position + 1) es with
      | none =>
        rw [hlater] at h
        cases h
        exact hle
      | some other =>
        rw [hlater, earlier] at h
        split at h
        · cases h
          exact hothers hlater
        · cases h
          exact hle

theorem winnerOf_eq_none (h : ∀ e ∈ es, find e = none) : winnerOf find position es = none := by
  induction es generalizing position with
  | nil => rfl
  | cons e es ih =>
    rw [winnerOf, h e List.mem_cons_self, ih fun e he ↦ h e (List.mem_cons_of_mem _ he)]
    rfl

theorem winnerOf_congr {find' : Expr → Option (List (Option Span))}
    (h : ∀ e ∈ es, find e = find' e) : winnerOf find position es = winnerOf find' position es := by
  induction es generalizing position with
  | nil => rfl
  | cons e es ih =>
    rw [winnerOf, winnerOf, h e List.mem_cons_self, ih fun e he ↦ h e (List.mem_cons_of_mem _ he)]

/-- Expressions that report a match from where it starts. -/
def ReportStarts (text : Text) (searchStart : Nat) (es : List Expr) : Prop :=
  ∀ e ∈ es, ∀ start spans, e.matchAt? text searchStart start = some spans →
    ∃ stop, spans.head?.join = some (start, stop)

theorem Joined.reportStarts (h : Joined ahead es node) (text : Text) (searchStart : Nat) :
    ReportStarts text searchStart es := by
  have hwrapped {e : Expr} {ahead : Nat} {body : Node} (hplain : e.root.isPlain e.groupCount)
      (hraised : Raised (ahead + 1) e.root body) {start : Nat} {spans : List (Option Span)}
      (hmatch : e.matchAt? text searchStart start = some spans) :
      ∃ stop, spans.head?.join = some (start, stop) := by
    have hrel := rel_wrapped hplain hraised text searchStart start fun _ _ _ ↦ none
    obtain ⟨t, ht, rfl⟩ := Option.map_eq_some_iff.1 hmatch
    rw [ht] at hrel
    generalize run ⟨text, searchStart⟩ _ (.group (ahead + 1) body) { pos := start } some = y at hrel
    cases hrel with
    | some h => exact ⟨t.pos, by rw [spans_eq h]; rfl⟩
  induction h with
  | last hplain hraised =>
    intro e he start spans hmatch
    obtain rfl := List.mem_singleton.1 he
    exact hwrapped hplain hraised hmatch
  | more hplain hraised _ ih =>
    intro e he start spans hmatch
    obtain rfl | he := List.mem_cons.1 he
    · exact hwrapped hplain hraised hmatch
    · exact ih e he start spans hmatch

namespace ReportStarts

theorem tail (h : ReportStarts text searchStart (e :: es)) : ReportStarts text searchStart es :=
  fun e he ↦ h e (List.mem_cons_of_mem _ he)

theorem foundFrom (h : ReportStarts text searchStart es) (he : e ∈ es)
    (hsearch : e.searchFrom text searchStart n start = some spans) : FoundFrom start spans := by
  obtain ⟨place, hplace, -, hmatch, -⟩ := Expr.searchFrom_eq_some hsearch
  obtain ⟨stop, hhead⟩ := h e he place spans hmatch
  exact ⟨place, stop, hplace, hhead⟩

theorem index_firstAt (h : ReportStarts text searchStart es)
    (hfirst : firstAt text searchStart start position es = some hit) : hit.index = start := by
  induction es generalizing position with
  | nil => cases hfirst
  | cons e es ih =>
    rw [firstAt] at hfirst
    split at hfirst
    · rename_i spans hmatch
      obtain ⟨stop, hhead⟩ := h e List.mem_cons_self start spans hmatch
      rw [ownHit, hhead] at hfirst
      cases hfirst
      rfl
    · exact ih h.tail hfirst

theorem firstAt_eq_none (h : ReportStarts text searchStart es)
    (hfirst : firstAt text searchStart start position es = none) :
    ∀ e ∈ es, e.matchAt? text searchStart start = none := by
  induction es generalizing position with
  | nil => exact nofun
  | cons e es ih =>
    rw [firstAt] at hfirst
    split at hfirst
    · rename_i spans hmatch
      obtain ⟨stop, hhead⟩ := h e List.mem_cons_self start spans hmatch
      rw [ownHit, hhead] at hfirst
      cases hfirst
    · rename_i hnone
      intro e' he
      obtain rfl | he := List.mem_cons.1 he
      · exact hnone
      · exact ih h.tail hfirst e' he

/-- Those that match where the search starts win, and the first of them. -/
theorem winnerOf_eq_firstAt (h : ReportStarts text searchStart es)
    (hfirst : firstAt text searchStart start position es = some hit) :
    winnerOf (·.searchFrom text searchStart (n + 1) start) position es = some hit := by
  induction es generalizing position with
  | nil => cases hfirst
  | cons e es ih =>
    have hindex := h.index_firstAt hfirst
    rw [winnerOf, Expr.searchFrom]
    rw [firstAt] at hfirst
    cases hmatch : e.matchAt? text searchStart start with
    | some spans =>
      rw [hmatch] at hfirst
      simp only [Option.bind_some] at hfirst ⊢
      rw [hfirst]
      cases hlater : winnerOf (·.searchFrom text searchStart (n + 1) start) (position + 1) es with
      | none => rfl
      | some other =>
        have hle := le_index_winnerOf (fun e he spans ↦ h.tail.foundFrom he) hlater
        rw [earlier, if_neg (by omega)]
    | none =>
      rw [hmatch] at hfirst
      rw [ih h.tail hfirst]
      cases hsearch : e.searchFrom text searchStart n (start + 1) with
      | none => rfl
      | some spans =>
        obtain ⟨own, hown, hle⟩ :=
          (h.foundFrom List.mem_cons_self hsearch).ownHit position (slots es)
        simp only [Option.bind_some]
        rw [hown, earlier, if_pos (by omega)]

end ReportStarts

/-- From any place on, the tree finds the winner among the expressions. -/
theorem Joined.winner?_searchFrom (h : Joined 0 es a.root) (hcount : a.groupCount = 0 + slots es) :
    (a.searchFrom text searchStart n start).bind
        (Alternation.winner? · 0 (wrappersOf 0 es)) =
      winnerOf (·.searchFrom text searchStart n start) 0 es := by
  have hstarts := h.reportStarts text searchStart
  induction n generalizing start with
  | zero => exact (winnerOf_eq_none fun _ _ ↦ rfl).symm
  | succ n ih =>
    obtain ⟨hnone, hsome⟩ := winner_joined h hcount text searchStart start
      (runCall ⟨text, searchStart⟩ a.callable (a.callDepth text)) 0
    rw [Expr.searchFrom, Expr.matchAt?]
    cases hfinal : a.finalState? text searchStart start with
    | none =>
      have hfirst := hstarts.firstAt_eq_none (hnone hfinal)
      have hlater : winnerOf (·.searchFrom text searchStart (n + 1) start) 0 es =
          winnerOf (·.searchFrom text searchStart n (start + 1)) 0 es :=
        winnerOf_congr fun e he ↦ Expr.searchFrom_of_none (hfirst e he)
      rw [hlater]
      exact ih
    | some u =>
      obtain ⟨hfirst, hwinner, -⟩ := hsome u hfinal
      obtain ⟨hit, hhit⟩ := Option.isSome_iff_exists.1 hfirst
      rw [hstarts.winnerOf_eq_firstAt hhit, ← hhit]
      exact hwinner

theorem Joined.search?_eq_race (h : Joined 0 es a.root) (hcount : a.groupCount = 0 + slots es)
    (text : Text) (start : Nat) :
    (Alternation.mk (some a) (wrappersOf 0 es)).search? text start = race text start es :=
  h.winner?_searchFrom hcount

end Search

theorem SideBySide.compiles {flags : Flags} {ahead counted : Nat} {sources : List String}
    {es : List Expr} (h : SideBySide flags ahead counted sources es) :
    List.Forall₂ (fun source e ↦ Regex.compile source flags = .ok e) sources es := by
  induction h with
  | nil => exact .nil
  | cons hsource _ _ ih => exact .cons hsource.compiles ih

/-- Of several sources, one search finds what the race of their own searches finds: the match that
starts first, and of several that do the one of the first source, with the groups that the source
has by itself. This holds as long as each source with references comes after sources whose groups
are all found by a look at the text; names are not. -/
theorem search_eq_race {flags : Flags} {sources : List String} {es : List Expr}
    (h : SideBySide flags 0 0 sources es) (hne : sources ≠ []) :
    List.Forall₂ (fun source e ↦ Regex.compile source flags = .ok e) sources es ∧
      ∃ a, Alternation.ofSources sources flags = .ok a ∧
        ∀ text start, a.search? text start = race text start es := by
  obtain ⟨a, ha, hjoined, hcount⟩ := h.ofSources hne
  exact ⟨h.compiles, _, ha, hjoined.search?_eq_race hcount⟩

def ownExpr (source : String) : Expr := (Regex.compile source {}).toOption.getD default

theorem separable_of_values {source : String} {offset : Nat} (numbers : List Numbered)
    (hexpr : (Regex.compile source {}).toOption.map (fun e ↦
      (e.root.subterms.any Node.isCall, decide (.keep ∈ e.root.subterms))) = some (false, false))
    (hread : (alternatives (3 * source.toList.length + 3) {}
      { rest := source.toList ++ ['\x29'] }).toOption.map (fun found ↦
        (found.2.rest, found.2.numbers)) = some (['\x29'], numbers))
    (hmarks : numbers.map Numbered.mark = references (tokens source.toList))
    (hmovable : ∀ m ∈ numbers, m.IsMovable offset) :
    Separable {} offset source (ownExpr source) := by
  obtain ⟨e, he, hvalues⟩ := eq_ok_of_map hexpr
  obtain ⟨⟨node, s⟩, hreads, hleft⟩ := eq_ok_of_map hread
  obtain ⟨hcalls, hkeeps⟩ := Prod.mk.inj hvalues
  obtain ⟨hrest, rfl⟩ := Prod.mk.inj hleft
  have hown : ownExpr source = e := by
    rw [ownExpr, he]
    rfl
  rw [hown]
  exact ⟨he, hcalls, of_decide_eq_false hkeeps, node, s, ⟨hreads, hrest⟩, hmarks, hmovable⟩

/-- A digit twice, a letter under a name, and alternatives. -/
def digitsAndLetters : List String := ["([[:digit:]&&[^3]])\\1", "(?<n>b)(?:c)", "d|(e)"]

theorem digitsAndLetters_race :
    ∃ a, Alternation.ofSources digitsAndLetters {} = .ok a ∧
      a.search? (.ofString "xbc11") 0 = some ⟨1, 1, [some (1, 3), some (1, 2), none, none]⟩ := by
  have hdigits : Separable {} 1 "([[:digit:]&&[^3]])\\1" (ownExpr "([[:digit:]&&[^3]])\\1") :=
    separable_of_values [⟨2, 1, 1⟩] (by cbv) (by cbv) (by cbv)
      (by simp [Numbered.IsMovable, isGroupNumber, greatestNumber])
  have hname (offset : Nat) : Separable {} offset "(?<n>b)(?:c)" (ownExpr "(?<n>b)(?:c)") :=
    separable_of_values [] (by cbv) (by cbv) (by cbv) (List.forall_mem_nil _)
  have hletters (offset : Nat) : Separable {} offset "d|(e)" (ownExpr "d|(e)") :=
    separable_of_values [] (by cbv) (by cbv) (by cbv) (List.forall_mem_nil _)
  have hside : SideBySide {} 0 0 digitsAndLetters (digitsAndLetters.map ownExpr) :=
    .cons hdigits (.inl rfl)
      (.cons (hname _) (.inr (by cbv)) (.cons (hletters _) (.inr (by cbv)) .nil))
  obtain ⟨-, a, ha, hsearch⟩ := search_eq_race hside (by decide)
  refine ⟨a, ha, ?_⟩
  rw [hsearch]
  cbv

/-- A name ahead is not counted, so the reference after it goes to the wrong group. -/
example :
    ((Alternation.ofSources ["(?<a>x)y", "(z)\\1"] {}).toOption.map fun a ↦
      a.search? (.ofString "zz") 0) = some none ∧
    race (.ofString "zz") 0 [ownExpr "(?<a>x)y", ownExpr "(z)\\1"] =
      some ⟨1, 0, [some (0, 2), some (0, 1)]⟩ := by
  constructor <;> cbv

end SyntaxHighlight.Rule
