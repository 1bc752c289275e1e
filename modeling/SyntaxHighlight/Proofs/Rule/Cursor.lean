import SyntaxHighlight.Proofs.Rule.Narrowed

/-!
The search for rules as the cursor moves. If the alternation of every tail of the rules is as good
as a race of them, no match is passed over: with all rules in play the first match is found, and
with some left out it is one of the others where the search starts, or else the first of all matches
after that.
-/
namespace SyntaxHighlight.Rule

open Regex

variable {flags : Flags} {rules : List Rule} {sources : List String} {es : List Expr} {text : Text}
  {start k : Nat}

/-- Where an expression finds its first match, and with which groups, in a search by itself. -/
def FindsAt (e : Expr) (text : Text) (start index : Nat) (groups : List (Option Span)) : Prop :=
  ∃ spans stop, e.captures? text start = some spans ∧ spans.head?.join = some (index, stop) ∧
    ∀ n : Nat, groups[n]?.join = spans[n]?.join

/-- The first of all matches from a place on, and of those that start together the one of the first
rule. -/
structure Leftmost (text : Text) (start : Nat) (es : List Expr) (rule index : Nat)
    (groups : List (Option Span)) : Prop where
  le : start ≤ index
  own : ∃ e, es[rule]? = some e ∧ FindsAt e text start index groups
  first (j : Nat) (e : Expr) (span : Span) : es[j]? = some e → e.find? text start = some span →
    index ≤ span.1 ∧ (span.1 = index → rule ≤ j)

/-- What a search has found is the winner of a race. -/
def WonBy (text : Text) (start : Nat) (es : List Expr) : Option Hit → Prop
  | none => ∀ e ∈ es, e.find? text start = none
  | some hit => Leftmost text start es hit.position hit.index hit.groups

/-- Every tail of some rules has an alternation, and that behaves as a race of the rules. -/
structure Races (flags : Flags) (rules : List Rule) (es : List Expr) : Prop where
  compiles : List.Forall₂ (fun rule e ↦ Regex.compile rule.source flags = .ok e) rules es
  tails (k : Nat) : ∃ a, tailAlternation rules flags k = .ok a ∧
    ∀ text start, WonBy text start (es.drop k) (a.search? text start)

section Race

variable {find : Expr → Option (List (Option Span))} {position : Nat} {hit : Hit}

theorem earlier_eq_none {a b : Option Hit} : earlier a b = none ↔ a = none ∧ b = none := by
  cases a <;> cases b <;> simp only [earlier, reduceCtorEq, and_self, and_false, false_and]
  split <;> simp

/-- The earlier one of two does not start after either, and it is the first if both start there. -/
theorem earlier_eq_some {a b : Option Hit} (h : earlier a b = some hit) :
    (a = some hit ∨ b = some hit) ∧ (∀ own ∈ a, hit = own ∨ hit.index < own.index) ∧
      ∀ other ∈ b, hit.index ≤ other.index := by
  match a, b with
  | none, _ =>
    refine ⟨.inr h, nofun, fun _ hother ↦ ?_⟩
    cases h.symm.trans hother
    exact Nat.le_refl _
  | some own, none => exact ⟨.inl h, fun _ hown ↦ .inl (Option.some.inj (h.symm.trans hown)), nofun⟩
  | some own, some other =>
    rw [earlier] at h
    simp only [Option.mem_some, forall_eq']
    split at h
    · cases h
      exact ⟨.inr rfl, .inr ‹_›, Nat.le_refl _⟩
    · cases h
      exact ⟨.inl rfl, .inl rfl, Nat.le_of_not_lt ‹_›⟩

theorem winnerOf_none (h : winnerOf find position es = none) {e : Expr} (he : e ∈ es) :
    (find e).bind (·.head?.join) = none := by
  induction es generalizing position with
  | nil => cases he
  | cons e' es ih =>
    rw [winnerOf, earlier_eq_none] at h
    obtain rfl | he := List.mem_cons.1 he
    · cases hfind : find e with
      | none => rfl
      | some spans => simpa [hfind, ownHit] using h.1
    · exact ih h.2 he

theorem winnerOf_first (h : winnerOf find position es = some hit) {j : Nat} {e : Expr}
    {spans : List (Option Span)} {span : Span} (he : es[j]? = some e) (hfind : find e = some spans)
    (hspan : spans.head?.join = some span) :
    hit.index ≤ span.1 ∧ (span.1 = hit.index → hit.position ≤ position + j) := by
  induction es generalizing position hit j with
  | nil => cases he
  | cons e' es ih =>
    rw [winnerOf] at h
    obtain ⟨hwinner, hown, hother⟩ := earlier_eq_some h
    cases j with
    | zero =>
      cases he
      rw [hfind, Option.bind_some, ownHit, hspan, Option.map_some] at hown
      obtain rfl | hlt := hown _ rfl
      · exact ⟨Nat.le_refl _, fun _ ↦ Nat.le_refl _⟩
      · exact ⟨Nat.le_of_lt hlt, fun heq ↦ absurd heq (Nat.ne_of_gt hlt)⟩
    | succ j =>
      cases hlater : winnerOf find (position + 1) es with
      | none =>
        have hnone := winnerOf_none hlater (List.mem_of_getElem? he)
        rw [hfind, Option.bind_some, hspan] at hnone
        cases hnone
      | some other =>
        obtain ⟨hle, hposition⟩ := ih hlater he
        have hindex := hother other hlater
        refine ⟨Nat.le_trans hindex hle, fun heq ↦ ?_⟩
        obtain hfirst | hfirst := hwinner
        · obtain ⟨_, -, hhit⟩ := Option.bind_eq_some_iff.1 hfirst
          obtain ⟨_, -, rfl⟩ := Option.map_eq_some_iff.1 hhit
          exact Nat.le_add_right _ _
        · obtain rfl := Option.some.inj (hlater.symm.trans hfirst)
          have hle' := hposition heq
          omega

theorem join_append_none (spans : List (Option Span)) (later n : Nat) :
    (spans ++ List.replicate later none)[n]?.join = spans[n]?.join := by
  by_cases hn : n < spans.length
  · rw [List.getElem?_append_left hn]
  · rw [List.getElem?_append_right (by omega), List.getElem?_eq_none (l := spans) (by omega),
      List.getElem?_replicate]
    split <;> rfl

/-- Expressions that report a match from where it starts win a race as it should be won. -/
theorem ReportStarts.wonBy_race (h : ReportStarts text start es) :
    WonBy text start es (race text start es) := by
  cases hrace : race text start es with
  | none => exact fun e he ↦ winnerOf_none hrace he
  | some hit =>
    obtain ⟨i, e, spans, later, hposition, he, hfind, hhit⟩ := winnerOf_eq_some hrace
    obtain ⟨index, stop, hle, hhead⟩ := h.foundFrom (List.mem_of_getElem? he) hfind
    rw [ownHit, hhead, Option.map_some, Option.some.injEq] at hhit
    rw [Nat.zero_add] at hposition hhit
    subst hhit
    refine ⟨hle, ⟨e, he, spans, stop, hfind, hhead, join_append_none spans later⟩,
      fun j e' span he' hfind' ↦ ?_⟩
    obtain ⟨spans', hspans', hspan'⟩ := Option.bind_eq_some_iff.1 hfind'
    have hfirst := winnerOf_first hrace he' hspans' hspan'
    rwa [Nat.zero_add] at hfirst

end Race

theorem SideBySideFrom.races (h : SideBySideFrom flags 0 rules es) : Races flags rules es := by
  refine ⟨?_, fun k ↦ ?_⟩
  · have hcompiles := (h 0 (Nat.le_refl 0)).compiles
    rwa [List.drop_zero, List.drop_zero, List.forall₂_map_left_iff] at hcompiles
  · have hside := h k (Nat.zero_le k)
    by_cases hne : (rules.drop k).map Rule.source = []
    · rw [hne] at hside
      rw [tailAlternation, hne]
      generalize es.drop k = rest at hside
      cases hside
      exact ⟨_, rfl, fun _ _ ↦ List.forall_mem_nil _⟩
    · obtain ⟨a, ha, hjoined, hcount⟩ := hside.ofSources hne
      refine ⟨_, ha, fun text start ↦ ?_⟩
      rw [hjoined.search?_eq_race hcount]
      exact (hside.reportStarts text start).wonBy_race

/-- A match is one of a rule, and the rules in play after it are those behind that rule, or all of
them again. -/
structure Reports (rules : List Rule) (m : Match) (following : Nat) : Prop where
  kind : ∃ rule, rules[m.rule]? = some rule ∧ m.kind = rule.kind
  following : following = if m.rule + 1 = rules.countP isBegin then 0 else m.rule + 1

theorem Reports.rule_lt {m : Match} {following : Nat} (h : Reports rules m following) :
    m.rule < rules.length := by
  obtain ⟨_, hrule, -⟩ := h.kind
  exact (List.getElem?_eq_some_iff.1 hrule).1

theorem Reports.following_le {m : Match} {following : Nat} (h : Reports rules m following) :
    following ≤ rules.length := by
  have hlt := h.rule_lt
  rw [h.following]
  split <;> omega

theorem Reports.following_eq_zero {m : Match} {following : Nat} (h : Reports rules m following)
    (hfirst : BeginsFirst rules) : following = 0 ↔ IsLastBegin rules m.rule := by
  rw [← hfirst.succ_eq_count h.rule_lt, h.following, ite_eq_left_iff]
  exact ⟨fun hne ↦ by_contra fun hcount ↦ Nat.succ_ne_zero _ (hne hcount), fun h hne ↦ absurd h hne⟩

/-- What may be found with all rules in play. -/
def FromAll (rules : List Rule) (es : List Expr) (text : Text) (start : Nat) :
    Option (Match × Nat) → Prop
  | none => ∀ e ∈ es, e.find? text start = none
  | some (m, following) =>
    Leftmost text start es m.rule m.index m.groups ∧ Reports rules m following

/-- None of the rules from number `first` to before number `last` has its first match where the
search starts. -/
def NoneStarts (text : Text) (start : Nat) (es : List Expr) (first last : Nat) : Prop :=
  ∀ j e stop, first ≤ j → j < last → es[j]? = some e → e.find? text start ≠ some (start, stop)

/-- What may be found with the rules from number `k` on: the first of them that matches where the
search starts, or if there is none what all rules find after that. -/
def FromTail (rules : List Rule) (es : List Expr) (k : Nat) (text : Text) (start : Nat)
    (found : Option (Match × Nat)) : Prop :=
  (∃ m following e, found = some (m, following) ∧ Reports rules m following ∧ m.index = start ∧
      k ≤ m.rule ∧ es[m.rule]? = some e ∧ FindsAt e text start start m.groups ∧
      NoneStarts text start es k m.rule) ∨
    NoneStarts text start es k es.length ∧
      if start < text.size then FromAll rules es text (start + 1) found else found = none

theorem Races.exists_ofRules (h : Races flags rules es) :
    ∃ r, Resumable.ofRules rules flags = .ok r := by
  obtain ⟨a, ha, -⟩ := h.tails 0
  exact Resumable.exists_ofRules ha

namespace Resumable

variable {r : Resumable} {m : Match} {following : Nat}

theorem searchTail_wonBy (hr : ofRules rules flags = .ok r) (h : Races flags rules es) (k : Nat)
    (text : Text) (start : Nat) :
    ∃ hit, r.searchTail k text start = .ok hit ∧ WonBy text start (es.drop k) hit := by
  rw [searchTail_ofRules hr]
  split
  · obtain ⟨a, ha, hwon⟩ := h.tails k
    exact ⟨_, by rw [ha]; rfl, hwon text start⟩
  · refine ⟨none, rfl, ?_⟩
    have hlength := h.compiles.length_eq
    rw [List.drop_eq_nil_iff.2 (by omega)]
    exact nofun

theorem next_reports (hr : ofRules rules flags = .ok r) (h : Races flags rules es)
    (hm : r.next k text start = .ok (some (m, following))) : Reports rules m following := by
  obtain ⟨k, start', hit, -, hsearch, rfl, hfollowing⟩ := next_eq_some hm
  obtain ⟨_, hsearch', hwon⟩ := searchTail_wonBy hr h k text start'
  cases hsearch.symm.trans hsearch'
  obtain ⟨e, he, -⟩ := hwon.own
  rw [List.getElem?_drop] at he
  have hrules := (ofRules_eq_ok hr).1
  have hlt : k + hit.position < rules.length :=
    h.compiles.length_eq ▸ (List.getElem?_eq_some_iff.1 he).1
  refine ⟨⟨rules[k + hit.position], List.getElem?_eq_getElem hlt, ?_⟩, ?_⟩
  · simp [hrules, List.getElem?_eq_getElem hlt]
  · rw [hfollowing, beginCount, hrules]
    rfl

theorem next_zero (hr : ofRules rules flags = .ok r) (h : Races flags rules es) (text : Text)
    (start : Nat) :
    ∃ found, r.next 0 text start = .ok found ∧ FromAll rules es text start found := by
  obtain ⟨hit, hsearch, hwon⟩ := searchTail_wonBy hr h 0 text start
  rw [List.drop_zero] at hwon
  cases hit with
  | none => exact ⟨none, bind_eq_ok.2 ⟨_, hsearch, rfl⟩, hwon⟩
  | some hit =>
    have hnext : ∃ m following, r.next 0 text start = .ok (some (m, following)) ∧
        m.rule = 0 + hit.position ∧ m.index = hit.index ∧ m.groups = hit.groups :=
      ⟨_, _, bind_eq_ok.2 ⟨_, hsearch, rfl⟩, rfl, rfl, rfl⟩
    obtain ⟨m, following, hnext, hrule, hindex, hgroups⟩ := hnext
    refine ⟨_, hnext, ?_, next_reports hr h hnext⟩
    rw [hrule, hindex, hgroups, Nat.zero_add]
    exact hwon

/-- A match that is not where the search starts is none of a rule that would match there. -/
theorem noneStarts_of_wonBy {hit : Option Hit} (hwon : WonBy text start (es.drop k) hit)
    (hindex : hit.map Hit.index ≠ some start) : NoneStarts text start es k es.length := by
  intro j e stop hj _ he hfind
  have he' : (es.drop k)[j - k]? = some e := by rwa [List.getElem?_drop, Nat.add_sub_cancel' hj]
  cases hit with
  | none =>
    rw [hwon e (List.mem_of_getElem? he')] at hfind
    cases hfind
  | some hit =>
    have hfirst := (hwon.first (j - k) e _ he' hfind).1
    exact hindex (congrArg some (Nat.le_antisymm hfirst hwon.le))

theorem next_tail (hr : ofRules rules flags = .ok r) (h : Races flags rules es) (hk : k ≠ 0)
    (text : Text) (start : Nat) :
    ∃ found, r.next k text start = .ok found ∧ FromTail rules es k text start found := by
  obtain ⟨hit, hsearch, hwon⟩ := searchTail_wonBy hr h k text start
  by_cases hstarts : hit.map Hit.index = some start
  · obtain ⟨hit, rfl, hindex⟩ := Option.map_eq_some_iff.1 hstarts
    have hnext := next_of_index hsearch hindex
    refine ⟨_, hnext, .inl ?_⟩
    obtain ⟨e, he, hfinds⟩ := hwon.own
    rw [List.getElem?_drop] at he
    rw [hindex] at hfinds
    refine ⟨_, _, e, rfl, next_reports hr h hnext, rfl, Nat.le_add_right _ _, he, hfinds, ?_⟩
    intro j e' stop hj hlt he' hfind
    have he'' : (es.drop k)[j - k]? = some e' := by
      rwa [List.getElem?_drop, Nat.add_sub_cancel' hj]
    have hle := (hwon.first (j - k) e' _ he'' hfind).2 hindex.symm
    dsimp only at hlt
    omega
  · have hnext := next_of_index_ne hk hsearch hstarts
    have hnone := noneStarts_of_wonBy hwon hstarts
    by_cases hsize : start < text.size
    · obtain ⟨found, hfound, hall⟩ := next_zero hr h text (start + 1)
      rw [if_pos hsize, hfound] at hnext
      exact ⟨found, hnext, .inr ⟨hnone, by rwa [if_pos hsize]⟩⟩
    · rw [if_neg hsize] at hnext
      exact ⟨none, hnext, .inr ⟨hnone, by rw [if_neg hsize]⟩⟩

theorem le_rule_of_index (hr : ofRules rules flags = .ok r) (h : Races flags rules es)
    (hm : r.next k text start = .ok (some (m, following))) (hindex : m.index = start) :
    k ≤ m.rule := by
  by_cases hk : k = 0
  · omega
  · obtain ⟨found, hfound, htail⟩ := next_tail hr h hk text start
    cases hm.symm.trans hfound
    obtain ⟨m', _, _, heq, -, -, hle, -⟩ | ⟨-, hall⟩ := htail
    · cases heq
      exact hle
    · split at hall
      · have hlater := hall.1.le
        omega
      · cases hall

/-- Searches from one place, each resumed after the one before it, that all have a match there. -/
inductive Stays (r : Resumable) (text : Text) (start : Nat) : Nat → List Match → Prop
  | last {k following : Nat} {m : Match} : r.next k text start = .ok (some (m, following)) →
      m.index = start → Stays r text start k [m]
  | more {k following : Nat} {m : Match} {ms : List Match} :
      r.next k text start = .ok (some (m, following)) → m.index = start → following ≠ 0 →
      Stays r text start following ms → Stays r text start k (m :: ms)

theorem Stays.increases (hr : ofRules rules flags = .ok r) (h : Races flags rules es)
    {ms : List Match} (hms : Stays r text start k ms) :
    (∀ m ∈ ms, k ≤ m.rule) ∧ ms.Pairwise fun m m' ↦ m.rule < m'.rule := by
  induction hms with
  | last hm hindex =>
    exact ⟨List.forall_mem_singleton.2 (le_rule_of_index hr h hm hindex),
      List.pairwise_singleton _ _⟩
  | more hm hindex hne _ ih =>
    obtain ⟨hle, hincreases⟩ := ih
    have hrule := le_rule_of_index hr h hm hindex
    have hfollowing := (next_reports hr h hm).following
    split at hfollowing
    · exact absurd hfollowing hne
    · refine ⟨List.forall_mem_cons.2 ⟨hrule, fun m' hm' ↦ ?_⟩,
        List.pairwise_cons.2 ⟨fun m' hm' ↦ ?_, hincreases⟩⟩
      · have hlater := hle m' hm'
        omega
      · have hlater := hle m' hm'
        omega

/-- No match is passed over, whichever rules are in play. With all of them the first match is found;
with some left out, the first of the others that matches where the search starts, or else the first
match of all after that. The match is one of a rule, behind which the next search goes on, or with
all rules after as many as begin a mode. So searches that stay at a place come to later and later
rules. -/
theorem next_passes_none_over (hr : ofRules rules flags = .ok r) (h : Races flags rules es)
    (text : Text) (start : Nat) :
    (∃ found, r.next 0 text start = .ok found ∧ FromAll rules es text start found) ∧
    (∀ k ≠ 0, ∃ found, r.next k text start = .ok found ∧ FromTail rules es k text start found) ∧
    (∀ k m following, r.next k text start = .ok (some (m, following)) →
      Reports rules m following ∧ following ≤ rules.length ∧
        (BeginsFirst rules → (following = 0 ↔ IsLastBegin rules m.rule))) ∧
    ∀ k ms, Stays r text start k ms → ms.Pairwise fun m m' ↦ m.rule < m'.rule := by
  refine ⟨next_zero hr h text start, fun k hk ↦ next_tail hr h hk text start,
    fun k m following hm ↦ ?_, fun k ms hms ↦ (hms.increases hr h).2⟩
  have hreports := next_reports hr h hm
  exact ⟨hreports, hreports.following_le, hreports.following_eq_zero⟩

/-- Rules that find letters: two that begin a mode and one that ends it. -/
def letters : List Rule := [⟨"ab", .begins 1⟩, ⟨"a", .begins 2⟩, ⟨"b", .ends⟩]

theorem letters_passes_none_over : ∃ r es, ofRules letters {} = .ok r ∧ Races {} letters es ∧
    ∃ found, r.next 1 (.ofString "ab") 0 = .ok found ∧
      FromTail letters es 1 (.ofString "ab") 0 found := by
  have hletter (offset : Nat) : Separable {} offset "a" (ownExpr "a") ∧
      Separable {} offset "b" (ownExpr "b") ∧ Separable {} offset "ab" (ownExpr "ab") :=
    ⟨separable_of_values [] (by cbv) (by cbv) (by cbv) (List.forall_mem_nil _),
      separable_of_values [] (by cbv) (by cbv) (by cbv) (List.forall_mem_nil _),
      separable_of_values [] (by cbv) (by cbv) (by cbv) (List.forall_mem_nil _)⟩
  have hside : SideBySideFrom {} 0 letters [ownExpr "ab", ownExpr "a", ownExpr "b"] := by
    intro k _
    rcases k with _ | _ | _ | k
    · exact .cons (hletter 1).2.2 (.inl rfl) (.cons (hletter _).1 (.inr (by cbv))
        (.cons (hletter _).2.1 (.inr (by cbv)) .nil))
    · exact .cons (hletter 1).1 (.inl rfl) (.cons (hletter _).2.1 (.inr (by cbv)) .nil)
    · exact .cons (hletter 1).2.1 (.inl rfl) .nil
    · simp only [letters, List.drop_succ_cons, List.drop_nil]
      exact .nil
  obtain ⟨r, hr⟩ := hside.races.exists_ofRules
  exact ⟨r, _, hr, hside.races,
    (next_passes_none_over hr hside.races (.ofString "ab") 0).2.1 1 Nat.one_ne_zero⟩

/-- With an end ahead of the only rule that begins a mode, all rules are in play after the end. -/
theorem end_ahead_of_begin :
    ∃ r es m, ofRules [⟨"a", .ends⟩, ⟨"b", .begins 1⟩] {} = .ok r ∧
      Races {} [⟨"a", .ends⟩, ⟨"b", .begins 1⟩] es ∧
      r.next 0 (.ofString "a") 0 = .ok (some (m, 0)) ∧ m.rule = 0 ∧
      ¬ IsLastBegin [⟨"a", .ends⟩, ⟨"b", .begins 1⟩] m.rule := by
  have hletter (offset : Nat) : Separable {} offset "a" (ownExpr "a") ∧
      Separable {} offset "b" (ownExpr "b") :=
    ⟨separable_of_values [] (by cbv) (by cbv) (by cbv) (List.forall_mem_nil _),
      separable_of_values [] (by cbv) (by cbv) (by cbv) (List.forall_mem_nil _)⟩
  have hside : SideBySideFrom {} 0 [⟨"a", .ends⟩, ⟨"b", .begins 1⟩]
      [ownExpr "a", ownExpr "b"] := by
    intro k _
    rcases k with _ | _ | k
    · exact .cons (hletter 1).1 (.inl rfl) (.cons (hletter _).2 (.inr (by cbv)) .nil)
    · exact .cons (hletter 1).2 (.inl rfl) .nil
    · simp only [List.drop_succ_cons, List.drop_nil]
      exact .nil
  obtain ⟨r, hr⟩ := hside.races.exists_ofRules
  have hrace : race (.ofString "a") 0 [ownExpr "a", ownExpr "b"] =
      some ⟨0, 0, [some (0, 1), none]⟩ := by
    cbv
  have hsearch : r.searchTail 0 (.ofString "a") 0 =
      .ok (race (.ofString "a") 0 [ownExpr "a", ownExpr "b"]) :=
    searchTail_eq_race hr (hside 0 (Nat.le_refl 0))
  rw [hrace] at hsearch
  have hnext := next_of_index hsearch rfl
  rw [beginCount, (ofRules_eq_ok hr).1] at hnext
  refine ⟨r, _, _, hr, hside.races, hnext, rfl, fun hlast ↦ ?_⟩
  obtain ⟨⟨rule, hrule, hbegin⟩, -⟩ := hlast
  cases hrule
  cases hbegin

end Resumable

end SyntaxHighlight.Rule
