import SyntaxHighlight.Proofs.Grammar.Placement

/-! What ends the modes of a compiled grammar: the ends of their own, and what ends the modes in
which they were placed. -/
namespace SyntaxHighlight

open Regex

theorem source?_ne_empty {boundary : Option Boundary} {source : String}
    (h : Boundary.source? boundary = some source) : source ≠ "" := by
  unfold Boundary.source? at h
  split at h
  · split at h
    · cases h
    · rename_i hne
      cases h
      simpa using hne
  · cases h

namespace Compilation

variable {g : Grammar} {scoring : KeywordScoring} {fuel : Nat} {t : Template}
  {around : List Enclosing} {a a' : Arena} (c : Compilation g scoring fuel t around a a')

theorem ending_ne_empty {own : Expr} (hown : c.mode.ending = some own) : own.source ≠ "" := by
  have hsource : (terminatorsOf c.p around).1 = some own.source := by
    rw [← c.ending_source, show c.ending = some own from hown]
    rfl
  simp only [terminatorsOf] at hsource
  cases hend : c.p.endSource? with
  | some source =>
    rw [hend] at hsource
    cases hsource
    exact source?_ne_empty hend
  | none =>
    simp only [hend, Option.orElse_eq_orElse, Option.orElse_eq_or, Option.none_or] at hsource
    split at hsource
    · cases hsource
    · rw [← Option.some.inj hsource]
      decide

theorem terminator_eq_own (hends : c.mode.endsWithParent = false) :
    c.mode.terminator = endedBy (c.mode.ending.map Expr.source) "" := by
  rw [c.terminator_eq, hends]
  rfl

end Compilation

namespace Grammar

variable {g : Grammar} {scoring : KeywordScoring} {cg : CompiledGrammar}

theorem compile_ending_ne_empty (h : g.compile scoring = .ok cg) (i : Nat) {own : Expr}
    (hown : (cg.mode i).ending = some own) : own.source ≠ "" :=
  compile_all h (Q := fun m ↦ ∀ own, m.ending = some own → own.source ≠ "") nofun
    (fun c _ ↦ c.ending_ne_empty) i own hown

theorem compile_terminator_own (h : g.compile scoring = .ok cg) (i : Nat)
    (hends : (cg.mode i).endsWithParent = false) :
    (cg.mode i).terminator = endedBy ((cg.mode i).ending.map Expr.source) "" :=
  compile_all h (Q := fun m ↦ m.endsWithParent = false →
    m.terminator = endedBy (m.ending.map Expr.source) "") (fun _ ↦ rfl)
    (fun c ↦ c.terminator_eq_own) i hends

theorem compile_root_endsWithParent (hleaves : ∀ e ∈ g.extensions, e.Leaves Mode.endsWithParent)
    (h : g.compile scoring = .ok cg) :
    cg.root.endsWithParent = false := by
  obtain ⟨fuel, a, k, hk⟩ := compile_root h
  rw [hk]
  refine Bool.eq_false_of_not_eq_true fun hends ↦ ?_
  have hdepends : k.p.mode.dependsOnParent = true := by
    rw [Mode.dependsOnParent_eq, show k.p.mode.endsWithParent = true from hends, Bool.true_or]
  have hroot := Mode.prepare_dependsOnParent hleaves k.prepare_eq hdepends
  rw [Template.root, Mode.dependsOnParent_eq] at hroot
  cases hroot

end Grammar

namespace CompiledGrammar

variable {cg : CompiledGrammar} {crowded : List (Nat × Nat)} {first next k : Nat}

theorem OnChain.after (hnext : (cg.mode first).starts = some next)
    (hcrowded : (first, next) ∉ crowded) (h : cg.OnChain crowded next k) :
    cg.OnChain crowded first k := by
  induction h with
  | here => exact .next .here hnext hcrowded
  | next _ hnext hcrowded ih => exact .next ih hnext hcrowded

/-- Neither a mode nor any that comes after it ends with its parent. -/
def EndsAlone (cg : CompiledGrammar) (i : Nat) : Prop :=
  ∀ k, cg.OnChain [] i k → (cg.mode k).endsWithParent = false

end CompiledGrammar

/-- No copy for another place has to do for a mode, what a mode is placed in makes no difference to
it if it names itself, and whether a mode ends with its parent is not changed. -/
def Grammar.PlacesEach (g : Grammar) (scoring : KeywordScoring) (cg : CompiledGrammar) : Prop :=
  (∀ e ∈ g.extensions, e.Leaves Mode.endsWithParent) ∧
    ∃ a, g.arena scoring = .ok a ∧ a.crowded = [] ∧ ∀ i ∈ a.selves, cg.EndsAlone i

namespace Ledger

variable {x : Ledger} {cg : CompiledGrammar} {terminator : String} {i k : Nat}

/-- A mode may be open where something ends: it was placed there, or that makes no difference. -/
def Fits (x : Ledger) (cg : CompiledGrammar) (terminator : String) (i : Nat) : Prop :=
  x.Under (some terminator) i ∨ cg.EndsAlone i

section Keeping

variable (hs : ∀ i, x.Keeps i (cg.mode i)) (hcrowded : x.arena.crowded = [])
include hs hcrowded

theorem Fits.next (h : x.Fits cg terminator i) (hnext : (cg.mode i).starts = some k) :
    x.Fits cg terminator k := by
  obtain hunder | halone := h
  · exact .inl (hunder.onChain hs (hcrowded ▸ .next .here hnext List.not_mem_nil))
  · exact .inr fun l hl ↦ halone l (hl.after hnext List.not_mem_nil)

theorem fits_of_contains (hselves : ∀ i ∈ x.arena.selves, cg.EndsAlone i)
    (hk : k ∈ (cg.mode i).contains) : x.Fits cg (cg.mode i).terminator k := by
  obtain (hin | hunder) | ⟨rfl, hself⟩ := (hs i).contains k hk
  · rw [hcrowded] at hin
    cases hin
  · exact .inl hunder
  · exact .inr (hselves _ hself)

end Keeping

end Ledger

end SyntaxHighlight
