import Mathlib
import SyntaxHighlight.Proofs.Dictionary
import SyntaxHighlight.Proofs.Scan.Ledger
import SyntaxHighlight.Proofs.Scan.Reach

/-! What the relevance of a scan is made up of. -/
namespace SyntaxHighlight

namespace Posting

def closedRelevance (g : CompiledGrammar) : Posting → Nat
  | .closed mode => (g.mode mode).worth
  | _ => 0

/-- The result of an embedded text counts if the mode that embeds it does. -/
def embeddedRelevance : Posting → Nat
  | .embedded weight relevance => if 0 < weight then relevance else 0
  | _ => 0

def hit? : Posting → Option (String × Nat)
  | .hit word relevance => some (word, relevance)
  | _ => none

end Posting

/-- The words that a ledger has hits of, in order, with what each of them is worth. -/
def hitsOf (ps : List Posting) : List (String × Nat) := ps.filterMap Posting.hit?

@[simp] theorem hitsOf_opened (mode : Nat) (ps : List Posting) :
    hitsOf (.opened mode :: ps) = hitsOf ps := rfl

@[simp] theorem hitsOf_closed (mode : Nat) (ps : List Posting) :
    hitsOf (.closed mode :: ps) = hitsOf ps := rfl

@[simp] theorem hitsOf_hit (word : String) (relevance : Nat) (ps : List Posting) :
    hitsOf (.hit word relevance :: ps) = (word, relevance) :: hitsOf ps := rfl

@[simp] theorem hitsOf_embedded (weight relevance : Nat) (ps : List Posting) :
    hitsOf (.embedded weight relevance :: ps) = hitsOf ps := rfl

/-- The relevance of hits, given the words that have been hit before. Of the hits of one word only so
many count. -/
def hitRelevance (cap : Nat) : List String → List (String × Nat) → Nat
  | _, [] => 0
  | earlier, (word, relevance) :: hits =>
    (if earlier.count word + 1 ≤ cap then relevance else 0) +
      hitRelevance cap (word :: earlier) hits

section

variable {cap : Nat}

theorem hitRelevance_congr {earlier earlier' : List String} {hits : List (String × Nat)}
    (h : ∀ hit ∈ hits, earlier.count hit.1 = earlier'.count hit.1) :
    hitRelevance cap earlier hits = hitRelevance cap earlier' hits := by
  induction hits generalizing earlier earlier' with
  | nil => rfl
  | cons hit hits ih =>
    obtain ⟨word, relevance⟩ := hit
    have hword : earlier.count word = earlier'.count word := h _ List.mem_cons_self
    rw [hitRelevance, hitRelevance, hword]
    congr 1
    apply ih
    intro hit hhit
    rw [List.count_cons, List.count_cons, h hit (List.mem_cons_of_mem _ hhit)]

theorem hitRelevance_split (word : String) (earlier : List String) (hits : List (String × Nat)) :
    hitRelevance cap earlier hits =
      hitRelevance cap earlier (hits.filter (·.1 = word)) +
        hitRelevance cap earlier (hits.filter (·.1 ≠ word)) := by
  induction hits generalizing earlier with
  | nil => rfl
  | cons hit hits ih =>
    obtain ⟨other, relevance⟩ := hit
    have hforget (p : String × Nat → Bool) (hp : ∀ hit, p hit = true → hit.1 ≠ other) :
        hitRelevance cap (other :: earlier) (hits.filter p) =
          hitRelevance cap earlier (hits.filter p) := by
      apply hitRelevance_congr
      intro hit hhit
      have hne := hp hit (List.mem_filter.1 hhit).2
      rw [List.count_cons_of_ne hne.symm]
    rw [hitRelevance, ih]
    by_cases hother : other = word
    · have hrest := hforget (fun hit ↦ hit.1 ≠ word) (by simp [hother])
      rw [List.filter_cons_of_pos (by simpa using hother),
        List.filter_cons_of_neg (by simpa using hother), hitRelevance, hrest]
      omega
    · have hrest := hforget (fun hit ↦ hit.1 = word) (by
        intro hit hhit
        simp only [decide_eq_true_eq] at hhit
        exact hhit ▸ Ne.symm hother)
      rw [List.filter_cons_of_neg (by simpa using hother),
        List.filter_cons_of_pos (by simpa using hother), hitRelevance, hrest]
      omega

theorem hitRelevance_const {word : String} {relevance : Nat} {earlier : List String}
    {hits : List (String × Nat)} (h : ∀ hit ∈ hits, hit = (word, relevance)) :
    hitRelevance cap earlier hits =
      relevance * (min (earlier.count word + hits.length) cap - min (earlier.count word) cap) := by
  induction hits generalizing earlier with
  | nil => simp [hitRelevance]
  | cons hit hits ih =>
    cases h hit List.mem_cons_self
    rw [hitRelevance, ih fun hit hhit ↦ h hit (List.mem_cons_of_mem _ hhit), List.count_cons_self,
      List.length_cons]
    by_cases hcap : earlier.count word + 1 ≤ cap
    · rw [if_pos hcap, Nat.add_comm relevance, ← Nat.mul_succ]
      congr 1
      omega
    · rw [if_neg hcap, Nat.zero_add]
      congr 1
      omega

end

namespace Books

variable {e : ScanSetting} {a b : Account} {ps : List Posting}

theorem relevance_eq {earlier : List String} (h : Books e a ps b)
    (hearlier : ∀ word, (a.hits.get? word).getD 0 = earlier.count word) :
    b.relevance = a.relevance + (ps.map (Posting.closedRelevance e.grammar)).sum +
      hitRelevance e.options.maxKeywordHits earlier (hitsOf ps) +
      (ps.map Posting.embeddedRelevance).sum := by
  induction h generalizing earlier with
  | done => simp [hitsOf, hitRelevance]
  | opened _ ih =>
    rw [ih hearlier]
    simp [Posting.closedRelevance, Posting.embeddedRelevance]
  | closed _ ih =>
    rw [ih hearlier]
    simp [Posting.closedRelevance, Posting.embeddedRelevance]
    omega
  | @hit a b ps word relevance count hcount _ ih =>
    have hnow : count = earlier.count word + 1 := by
      rw [hcount, hearlier word]
    have hlater (other : String) :
        ((a.hits.insert word count).get? other).getD 0 = (word :: earlier).count other := by
      by_cases hother : other = word
      · rw [hother, Dictionary.get?_insert, Option.getD_some, List.count_cons_self, hnow]
      · rw [Dictionary.get?_insert_of_ne _ hother, hearlier other,
          List.count_cons_of_ne (Ne.symm hother)]
    rw [ih hlater]
    simp only [hitsOf_hit, hitRelevance, List.map_cons, List.sum_cons, Posting.closedRelevance,
      Posting.embeddedRelevance, ← hnow]
    split <;> omega
  | embedded _ ih =>
    rw [ih hearlier]
    simp only [hitsOf_embedded, List.map_cons, List.sum_cons, Posting.closedRelevance,
      Posting.embeddedRelevance]
    split <;> omega

/-- A mode that is open at the start or opens later closes or stays open. -/
theorem count_stack (h : Books e a ps b) (mode : Nat) :
    a.stack.count mode + ps.count (.opened mode) =
      ps.count (.closed mode) + b.stack.count mode := by
  induction h with
  | done => simp
  | @opened a b ps other _ ih =>
    simp only [List.count_cons, beq_iff_eq, Posting.opened.injEq, reduceCtorEq, if_false] at ih ⊢
    omega
  | @closed stack hits relevance other b ps _ ih =>
    simp only [List.count_cons, beq_iff_eq, Posting.closed.injEq, reduceCtorEq, if_false] at ih ⊢
    omega
  | hit _ _ ih => simpa [List.count_cons] using ih
  | embedded _ ih => simpa [List.count_cons] using ih

end Books

namespace ScanSetting

variable {e : ScanSetting} {c : Option Continuation} {output : ScanOutput}

/-- The relevance of a scan is what the modes that it closed are worth, all that is not skipped and
embeds nothing, together with the hits of keywords that count and the embedded texts that do. The
modes in the ledger are those that were open at the start and not at the end, or were opened on the
way. A word that is always worth the same counts so much for each hit, up to the cap. -/
theorem relevance_eq_ledger (he : e.grammar.emitTokens = none) (h : e.run c = .ok output) :
    output.relevance = ((e.ledger c).map (Posting.closedRelevance e.grammar)).sum +
        hitRelevance e.options.maxKeywordHits [] (hitsOf (e.ledger c)) +
        ((e.ledger c).map Posting.embeddedRelevance).sum ∧
      (∀ mode, ((e.startStack c).map Frame.mode).count mode + (e.ledger c).count (.opened mode) =
        (e.ledger c).count (.closed mode) +
          (output.continuation.stack.map Frame.mode).count mode) ∧
      ∀ word relevance, (∀ hit ∈ hitsOf (e.ledger c), hit.1 = word → hit.2 = relevance) →
        hitRelevance e.options.maxKeywordHits [] (hitsOf (e.ledger c)) =
          relevance * min ((hitsOf (e.ledger c)).filter (·.1 = word)).length
              e.options.maxKeywordHits +
            hitRelevance e.options.maxKeywordHits []
              ((hitsOf (e.ledger c)).filter (·.1 ≠ word)) := by
  obtain ⟨hits, hbooks⟩ := books_run he h
  refine ⟨?_, hbooks.count_stack, fun word relevance hword ↦ ?_⟩
  · have hunhit (word : String) :
        ((Dictionary.empty (α := Nat)).get? word).getD 0 = [].count word := rfl
    have hrelevance := hbooks.relevance_eq hunhit
    rw [Nat.zero_add] at hrelevance
    exact hrelevance
  · have hconst : ∀ hit ∈ (hitsOf (e.ledger c)).filter (·.1 = word), hit = (word, relevance) := by
      intro hit hhit
      obtain ⟨hmem, hfirst⟩ := List.mem_filter.1 hhit
      have hfirst := of_decide_eq_true hfirst
      exact Prod.ext hfirst (hword hit hmem hfirst)
    rw [hitRelevance_split word, hitRelevance_const hconst]
    simp

/-- A grammar with a word that is worth two, and a mode in parentheses. -/
def calls : Grammar where
  name := "calls"
  keywords := some (.scoped ⟨[("$pattern", .text "do"), ("verb", .items ["do|2"])]⟩)
  contains := [.inline { begin := some (.source "\\("), ending := some (.source "\\)") }]

example : (calls.alone "do()(").ledger none =
    [.hit "do" 2, .opened 1, .closed 1, .opened 1] := by
  cbv

theorem calls_relevance : ∃ output, (calls.alone "do()(").run none = .ok output ∧
    output.relevance =
      (((calls.alone "do()(").ledger none).map
          (Posting.closedRelevance (calls.alone "do()(").grammar)).sum +
        hitRelevance 7 [] (hitsOf ((calls.alone "do()(").ledger none)) +
        (((calls.alone "do()(").ledger none).map Posting.embeddedRelevance).sum ∧
    output.relevance = 3 := by
  have hemit : (calls.alone "do()(").grammar.emitTokens = none := by
    cbv
  have hrun : ((calls.alone "do()(").run none).toOption.map ScanOutput.relevance = some 3 := by
    cbv
  obtain ⟨output, houtput, hrelevance⟩ := eq_ok_of_map hrun
  exact ⟨output, houtput, (relevance_eq_ledger hemit houtput).1, hrelevance⟩

end ScanSetting

end SyntaxHighlight
