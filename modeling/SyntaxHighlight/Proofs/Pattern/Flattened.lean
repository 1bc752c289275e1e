import SyntaxHighlight.Proofs.Pattern.Part
import SyntaxHighlight.Proofs.Regex.InTurn

/-!
A sequence as one source. It is read as a group for each part, one after another, and the groups have
the numbers that come of counting groups part by part.
-/
namespace SyntaxHighlight.Regex

section Stopping

variable {cs : List Char} {fuel : Nat} {o : Options} {s t : Source} {node : Node}

theorem skipIgnored_stops (h : Stops cs) (fuel : Nat) : skipIgnored false fuel cs = .ok cs := by
  refine skipIgnored_self fuel (fun more heq ↦ ?_) (by cases cs <;> rfl)
  subst heq
  revert h
  simp [Stops]

theorem quantified_stops (h : Stops cs) (fuel : Nat) :
    quantified false fuel node cs = .ok (node, cs) := by
  cases fuel with
  | zero => rfl
  | succ fuel =>
    exact bind_eq_ok.2 ⟨cs, skipIgnored_stops h _, bind_eq_ok.2 ⟨none, quantifier?_stops h, rfl⟩⟩

theorem Sequence.of_nil (h : Sequence fuel o s node t) (hrest : s.rest = []) :
    node = .empty ∧ t = s := by
  have hne {c : Char} {cs : List Char} (hcs : s.rest = c :: cs) : False := by
    rw [hrest] at hcs
    cases hcs
  cases h with
  | stop => exact ⟨rfl, rfl⟩
  | options hcs | group hcs | capture hcs => exact (hne hcs).elim
  | atom hfirst =>
    cases hfirst with
    | callout hcs | bracketed hcs | escape hcs | dot hcs | lineStart hcs | lineEnd hcs
    | char hcs => exact (hne hcs).elim

/-- What is read where a group with a number opens. -/
theorem Sequence.of_capture {name : Option String} {rest after : List Char}
    (h : Sequence fuel o s node t) (hrest : s.rest = '\x28' :: rest)
    (hopening : opening o rest = .ok (.capture name, after)) :
    ∃ body mid closed, alternatives fuel o ({ s with rest := after }.numbered name) =
        .ok (body, mid) ∧ mid.closed = .ok closed ∧
      next fuel o (.group (s.groups + 1) body) closed = .ok (node, t) := by
  have hcons {c : Char} {cs : List Char} (hcs : s.rest = c :: cs) : c = '\x28' ∧ cs = rest := by
    rw [hrest] at hcs
    exact ⟨(List.cons.inj hcs).1.symm, (List.cons.inj hcs).2.symm⟩
  have hsame {what : Opening} {cs more : List Char} (hcs : s.rest = '\x28' :: cs)
      (hwhat : opening o cs = .ok (what, more)) : what = .capture name ∧ more = after := by
    obtain ⟨-, rfl⟩ := hcons hcs
    cases hwhat.symm.trans hopening
    exact ⟨rfl, rfl⟩
  cases h with
  | stop hends =>
    rw [hrest] at hends
    obtain hends | hends := hends <;> cases hends
  | options hcs hwhat => cases (hsame hcs hwhat).1
  | group hcs hwhat => cases (hsame hcs hwhat).1
  | capture hcs hwhat hbody hclosed h =>
    obtain ⟨heq, rfl⟩ := hsame hcs hwhat
    cases heq
    exact ⟨_, _, _, hbody, hclosed, h⟩
  | atom hfirst =>
    cases hfirst with
    | callout hcs hwhat => cases (hsame hcs hwhat).1
    | bracketed hcs | escape hcs | dot hcs | lineStart hcs | lineEnd hcs => cases (hcons hcs).1
    | char hcs hsyntax =>
      obtain ⟨rfl, -⟩ := hcons hcs
      cases hsyntax

end Stopping

end SyntaxHighlight.Regex

namespace SyntaxHighlight.Pattern

open Regex Unicode

/-- The sources of groups, as the reader comes upon them one after another: each group ends with its
source, and has the next number. -/
inductive ReadInTurn (o : Options) : Source → List String → List Nat → Node → Prop
  | nil {s : Source} : s.rest = [] → ReadInTurn o s [] [] .empty
  | cons {s mid : Source} {text rest : List Char} {sources : List String} {numbers : List Nat}
      {body others : Node} (fuel : Nat) : s.rest = '\x28' :: (text ++ '\x29' :: rest) →
      alternatives fuel o ({ s with rest := text ++ '\x29' :: rest }.numbered none) =
        .ok (body, mid) →
      mid.rest = '\x29' :: rest → ReadInTurn o { mid with rest := rest } sources numbers others →
      ReadInTurn o s (("(" ++ String.ofList text ++ ")") :: sources) ((s.groups + 1) :: numbers)
        ((Node.group (s.groups + 1) body).cat others)

section Flattened

variable {o : Options} {s t : Source} {node : Node} {source : String} {e : Expr}
  {parts : List String} {es : List Expr} {before fuel : Nat}

theorem toList_flattened (before : Nat) (source : String) (sources : List String) :
    ("".intercalate (wrapped before (source :: sources))).toList =
      '\x28' :: ((tokens source.toList).flatMap (Token.shifted (before + 1)) ++ '\x29' ::
        ("".intercalate (wrapped (before + 1 + openings (tokens source.toList)) sources)).toList) := by
  rw [wrapped]
  cases sources with
  | nil => simp [wrapped]
  | cons next sources =>
    rw [wrapped, String.intercalate_cons_cons]
    simp

theorem respelled_shifted (before : Nat) (source : String) (more : List Char) :
    Respelled more (source.toList ++ '\x29' :: more)
      ((tokens source.toList).flatMap (Token.shifted (before + 1)) ++ '\x29' :: more) :=
  respelled_tokensFrom (Nat.succ_pos before) (Nat.le_refl _)

theorem IsPart.opening_shifted (h : IsPart source e) (before : Nat) (o : Options)
    (more : List Char) :
    let text := (tokens source.toList).flatMap (Token.shifted (before + 1)) ++ '\x29' :: more
    opening o text = .ok (.capture none, text) ∧ ¬ ['?', '#'] <+: text := by
  dsimp only
  have hhead := (respelled_shifted before source more).head?_eq
  generalize (tokens source.toList).flatMap (Token.shifted (before + 1)) ++ '\x29' :: more = text
    at hhead
  have hsign {c : Char} (hc : text.head? = some c) : ¬ (c = '?' ∨ c = '*') := by
    rw [hhead, List.head?_append] at hc
    cases hsource : source.toList.head? with
    | none =>
      rw [hsource] at hc
      cases hc
      decide
    | some d =>
      rw [hsource] at hc
      cases hc
      exact h.head?_ne hsource
  cases text with
  | nil => simp at hhead
  | cons c text =>
    have hc := not_or.1 (hsign rfl)
    refine ⟨opening_capture hc.1 hc.2, fun hprefix ↦ ?_⟩
    obtain ⟨rest, hrest⟩ := hprefix
    exact hc.1 (List.cons.inj hrest).1.symm

theorem stops_flattened (h : List.Forall₂ IsPart parts es) (before : Nat) :
    Stops ("".intercalate (wrapped before parts)).toList := by
  cases h with
  | nil => simp [wrapped, Stops]
  | cons hpart =>
    rw [toList_flattened]
    exact .inr (.inr (.inr ⟨rfl, (hpart.opening_shifted before {} _).2⟩))

/-- The reader leaves the group of a part where the part ends. -/
theorem IsPart.reads_whole (h : IsPart source e) (ho : o.extended = false) {text more : List Char}
    (htext : Respelled more (source.toList ++ '\x29' :: more) text) {opened mid closed : Source}
    {body : Node} (hrest : opened.rest = text)
    (hbody : alternatives fuel o opened = .ok (body, mid)) (hclosed : mid.closed = .ok closed) :
    mid.rest = '\x29' :: more ∧ closed = { mid with rest := more } ∧
      mid.groups = opened.groups + e.groupCount ∧ body.strays = false ∧
      Beyond opened.groups body := by
  have hlook : skim (opened.looked 0 0 false) .plain opened.rest =
      .closed more (e.groupCount + opened.groups) false := by
    rw [hrest, Source.looked, Nat.zero_add]
    exact htext.skim_closed (h.skim_closed opened.groups more)
  have hcalm : skim (opened.looked 0 0 false) .plain opened.rest ≠ .inline := by
    rw [hlook]
    simp
  obtain ⟨htraces, -, hbeyond⟩ := (reading_traced fuel).1 o ho hbody hcalm
  have hends := htraces [] trivial
  rw [List.append_nil, List.append_nil, hlook] at hends
  rw [Source.closed] at hclosed
  split at hclosed
  · rename_i rest hmid
    cases hclosed
    rw [hmid, skim_ends rfl rfl] at hends
    obtain ⟨rfl, hgroups, hstrays⟩ := Skimmed.closed.inj hends
    refine ⟨hmid, rfl, ?_, hstrays.symm, hbeyond⟩
    rw [Source.looked, Nat.zero_add] at hgroups
    exact hgroups.symm.trans (Nat.add_comm _ _)
  · cases hclosed

theorem reads_inTurn (hparts : List.Forall₂ IsPart parts es) (ho : o.extended = false)
    (hrest : s.rest = ("".intercalate (wrapped before parts)).toList)
    (h : branch fuel o s = .ok (node, t)) :
    t.rest = [] ∧ t.groups = s.groups + (es.map fun e ↦ e.groupCount + 1).sum ∧
      ReadInTurn o s (wrapped before parts) (numbersInTurn s.groups (es.map Expr.groupCount)) node ∧
      InTurn s.groups (es.map Expr.groupCount) node := by
  induction hparts generalizing before s node fuel with
  | nil =>
    have hnil : s.rest = [] := by simpa [wrapped] using hrest
    cases fuel with
    | zero => cases h
    | succ fuel =>
      obtain ⟨rest, hskip, hsequence⟩ := branch_eq_ok.1 h
      rw [hnil] at hskip
      cases hskip
      obtain ⟨rfl, rfl⟩ := hsequence.of_nil rfl
      exact ⟨rfl, rfl, .nil hnil, .nil _⟩
  | @cons source e parts es hpart hparts ih =>
    rw [toList_flattened] at hrest
    generalize hmore : ("".intercalate (wrapped (before + 1 + openings (tokens source.toList))
      parts)).toList = more at hrest
    obtain ⟨hopening, hcomment⟩ := hpart.opening_shifted before o more
    cases fuel with
    | zero => cases h
    | succ fuel =>
      obtain ⟨rest, hskip, hsequence⟩ := branch_eq_ok.1 h
      have hstops : Stops s.rest := by
        rw [hrest]
        exact .inr (.inr (.inr ⟨rfl, hcomment⟩))
      rw [ho] at hskip
      cases (skipIgnored_stops hstops _).symm.trans hskip
      obtain ⟨body, mid, closed, hbody, hclosed, hnext⟩ := hsequence.of_capture hrest hopening
      obtain ⟨hmid, rfl, hgroups, hstrays, hbeyond⟩ :=
        hpart.reads_whole ho (respelled_shifted before source more) rfl hbody hclosed
      cases fuel with
      | zero => cases hbody
      | succ fuel =>
        obtain ⟨repeated, rest, others, hrepeated, hbranch, rfl⟩ := next_eq_ok.1 hnext
        have hstops' : Stops more := hmore ▸ stops_flattened hparts _
        rw [ho] at hrepeated
        cases (quantified_stops hstops' _).symm.trans hrepeated
        -- The other parts are read from where the group of this one has been closed.
        obtain ⟨ht, hcount, hreads, hinTurn⟩ := ih (s := { mid with rest := more }) hmore.symm hbranch
        have hbehind : mid.groups = s.groups + 1 + e.groupCount := hgroups
        refine ⟨ht, ?_, ?_, ?_⟩
        · rw [hcount, List.map_cons, List.sum_cons]
          dsimp only
          omega
        · rw [wrapped]
          refine .cons _ hrest hbody hmid ?_
          rw [← hbehind]
          exact hreads
        · refine .cons hstrays hbeyond ?_
          rw [← hbehind]
          exact hinTurn

end Flattened

end SyntaxHighlight.Pattern
