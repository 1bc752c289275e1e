import SyntaxHighlight.Proofs.Regex.Reading.Class
import SyntaxHighlight.Regex.Parser

/-! Comments, quantifiers, names and openings are read off the front of a text. -/
namespace SyntaxHighlight.Regex

open Unicode

section Comments

variable {cs rest : List Char}

theorem afterComment_takes (h : afterComment cs = some rest) :
    ∃ piece, cs = piece ++ rest ∧ ∀ rest', afterComment (piece ++ rest') = some rest' := by
  fun_induction afterComment cs with
  | case1 => cases h
  | case2 rest =>
    cases h
    exact ⟨['\x29'], rfl, fun rest' ↦ rfl⟩
  | case3 c rest ih =>
    obtain ⟨piece, rfl, hread⟩ := ih h
    exact ⟨'\\' :: c :: piece, rfl, hread⟩
  | case4 c cs hclose hslash ih =>
    have hc : c ≠ '\\' := by
      rintro rfl
      cases cs with
      | nil => cases h
      | cons d cs => exact hslash d cs rfl rfl
    obtain ⟨piece, rfl, hread⟩ := ih h
    refine ⟨c :: piece, rfl, fun rest' ↦ ?_⟩
    rw [List.cons_append, afterComment]
    · exact hread rest'
    · exact hclose
    · exact fun _ _ heq _ ↦ hc heq

theorem skipIgnored_self {extended : Bool} (fuel : Nat)
    (hcomment : ∀ more, cs ≠ '\x28' :: '?' :: '#' :: more)
    (hnext : cs.head?.any (fun c ↦ extended && (c == '#' || isExtendedBlank c)) = false) :
    skipIgnored extended fuel cs = .ok cs := by
  rw [skipIgnored.eq_def]
  split
  · rfl
  · split
    · exact absurd rfl (hcomment _)
    · split
      · rename_i hextended
        rw [hextended] at hnext
        cases hnext
      · rfl
    · split
      · rename_i hskip
        obtain ⟨rfl, hblank⟩ := (Bool.and_eq_true _ _).mp hskip
        have hnext : (_ == '#' || isExtendedBlank _) = false := hnext
        rw [hblank, Bool.or_true] at hnext
        cases hnext
      · rfl
    · rfl

theorem isExtendedBlank_not_stops (extended : Bool) (c : Char)
    (h : (extended && (c == '#' || isExtendedBlank c)) = true) : ¬Stops [c] := by
  rintro (rfl | rfl | rfl | ⟨rfl, -⟩) <;> simp [isExtendedBlank] at h

theorem skipIgnored_stay {extended : Bool} (fuel : Nat)
    (hcomment : ∀ more, cs ≠ '\x28' :: '?' :: '#' :: more)
    (hnext : cs.head?.any (fun c ↦ extended && (c == '#' || isExtendedBlank c)) = false)
    (hagree : Agree cs rest) : skipIgnored extended fuel rest = .ok rest := by
  refine skipIgnored_self fuel ?_
    (hagree.head_any_eq_false (isExtendedBlank_not_stops extended) hnext)
  rintro more rfl
  generalize hcs : '\x28' :: '?' :: '#' :: more = started at hagree
  cases hagree with
  | stop _ hstop =>
    subst hcs
    obtain h | h | h | ⟨-, h⟩ := hstop
    · cases h
    · cases h
    · cases h
    · exact h ⟨more, rfl⟩
  | cons c hagree =>
    cases hcs
    have hrest : Agree (['?', '#'] ++ more) _ := hagree.symm
    obtain ⟨more', rfl, -⟩ := hrest.of_append (by simp [Stops])
    exact hcomment _ rfl

/-- Blanks and comments are skipped whatever follows, but for a comment that all the rest is part
of. -/
theorem skipIgnored_takes {extended : Bool} {fuel : Nat} (hfuel : cs.length ≤ fuel)
    (h : skipIgnored extended fuel cs = .ok rest) (hrest : rest ≠ []) :
    ∃ piece, cs = piece ++ rest ∧ ∀ rest' fuel', Agree rest rest' →
      (piece ++ rest').length ≤ fuel' →
        skipIgnored extended fuel' (piece ++ rest') = .ok rest' := by
  induction fuel generalizing cs with
  | zero =>
    obtain rfl := List.eq_nil_of_length_eq_zero (Nat.le_zero.1 hfuel)
    cases h
    exact absurd rfl hrest
  | succ fuel ih =>
    -- The piece is empty where nothing is ignored. Otherwise what is ignored next comes ahead of
    -- the piece that is left to the induction.
    have hstay (hcs : cs = rest) (hcomment : ∀ more, cs ≠ '\x28' :: '?' :: '#' :: more)
        (hnext : cs.head?.any (fun c ↦ extended && (c == '#' || isExtendedBlank c)) = false) :
        ∃ piece, cs = piece ++ rest ∧ ∀ rest' fuel', Agree rest rest' →
          (piece ++ rest').length ≤ fuel' →
          skipIgnored extended fuel' (piece ++ rest') = .ok rest' := by
      subst hcs
      exact ⟨[], rfl, fun rest' fuel' hagree _ ↦
        skipIgnored_stay fuel' hcomment hnext hagree⟩
    rw [skipIgnored.eq_def] at h
    dsimp only at h
    split at h
    · split at h
      · rename_i hafter
        obtain ⟨comment, rfl, hcomment⟩ := afterComment_takes hafter
        simp only [List.length_cons, List.length_append] at hfuel
        obtain ⟨piece, rfl, hread⟩ := ih (by omega) h
        refine ⟨'\x28' :: '?' :: '#' :: (comment ++ piece), by simp,
          fun rest' fuel' hagree hle ↦ ?_⟩
        simp only [List.cons_append, List.append_assoc, List.length_cons,
          List.length_append] at hle ⊢
        obtain ⟨k, rfl⟩ := Nat.exists_eq_add_one.2 (Nat.lt_of_lt_of_le (Nat.succ_pos _) hle)
        rw [skipIgnored, hcomment]
        exact hread rest' k hagree (by rw [List.length_append]; omega)
      · cases h
    · split at h
      · rename_i line hextended
        obtain ⟨text, tail, hspan⟩ : ∃ text tail, line.span (· != '\n') = (text, tail) :=
          ⟨_, _, rfl⟩
        obtain ⟨rfl, -, htail, hline⟩ := span_takes hspan
        have hdrop {tail : List Char} (htail : tail.head?.any (· != '\n') = false) :
            (text ++ tail).dropWhile (· != '\n') = tail := by
          have := hline tail htail
          rw [List.span_eq_takeWhile_dropWhile] at this
          exact congrArg Prod.snd this
        rw [hdrop htail] at h
        cases tail with
        | nil =>
          rw [List.drop_nil, skipIgnored_self fuel (by simp) rfl] at h
          cases h
          exact absurd rfl hrest
        | cons d tail =>
          rw [List.drop_one, List.tail_cons] at h
          simp only [List.length_cons, List.length_append] at hfuel
          obtain ⟨piece, rfl, hread⟩ := ih (by omega) h
          refine ⟨'#' :: (text ++ d :: piece), by simp, fun rest' fuel' hagree hle ↦ ?_⟩
          simp only [List.cons_append, List.append_assoc, List.length_cons,
            List.length_append] at hle ⊢
          obtain ⟨k, rfl⟩ := Nat.exists_eq_add_one.2 (Nat.lt_of_lt_of_le (Nat.succ_pos _) hle)
          have hdrop : (text ++ d :: (piece ++ rest')).dropWhile (· != '\n') =
              d :: (piece ++ rest') := hdrop htail
          rw [skipIgnored, if_pos hextended, hdrop, List.drop_one, List.tail_cons]
          exact hread rest' k hagree (by rw [List.length_append]; omega)
      · rename_i hextended
        cases h
        refine hstay rfl (by simp) ?_
        simp [hextended]
    · rename_i c cs hcomment hline
      split at h
      · rename_i hskip
        obtain ⟨hextended, hblank⟩ := (Bool.and_eq_true _ _).mp hskip
        simp only [List.length_cons] at hfuel
        obtain ⟨piece, rfl, hread⟩ := ih (by omega) h
        refine ⟨c :: piece, rfl, fun rest' fuel' hagree hle ↦ ?_⟩
        simp only [List.cons_append, List.length_cons] at hle ⊢
        obtain ⟨k, rfl⟩ := Nat.exists_eq_add_one.2 (Nat.lt_of_lt_of_le (Nat.succ_pos _) hle)
        rw [skipIgnored, if_pos hskip]
        · exact hread rest' k hagree (by omega)
        · rintro _ rfl _
          cases hblank
        · exact hline
      · rename_i hskip
        cases h
        refine hstay rfl (fun more heq ↦ ?_) ?_
        · cases heq
          exact hcomment _ rfl rfl
        · have hne : (c == '#') = false := beq_false_of_ne hline
          simpa [hne] using hskip
    · cases h
      exact absurd rfl hrest

end Comments

section Quantifiers

variable {α : Type} {cs cs' rest : List Char}

/-- The same is found in two texts that agree, and they still agree after it. -/
inductive FoundIn (cs cs' : List Char) :
    Option (α × List Char) → Option (α × List Char) → Prop
  | nothing : FoundIn cs cs' none none
  | taken (a : α) (piece : List Char) {rest rest' : List Char} : cs = piece ++ rest →
      cs' = piece ++ rest' → Agree rest rest' → FoundIn cs cs' (some (a, rest)) (some (a, rest'))

theorem FoundIn.prepend {found found' : Option (α × List Char)} (h : FoundIn cs cs' found found')
    (piece : List Char) : FoundIn (piece ++ cs) (piece ++ cs') found found' := by
  cases h with
  | nothing => exact .nothing
  | taken a tail hcs hcs' hrest =>
    exact .taken a (piece ++ tail) (by rw [hcs, List.append_assoc])
      (by rw [hcs', List.append_assoc]) hrest

theorem FoundIn.takes (read : List Char → Except PatternError (Option (α × List Char))) {a : α}
    (hread : ∀ {cs cs' found}, Agree cs cs' → read cs = .ok found →
      ∃ found', read cs' = .ok found' ∧ FoundIn cs cs' found found')
    (h : read cs = .ok (some (a, rest))) : Takes read (fun rest ↦ some (a, rest)) cs rest := by
  obtain ⟨_, _, hfound⟩ := hread (.refl cs) h
  cases hfound with
  | taken _ piece hcs =>
    refine ⟨piece, hcs, fun rest' hrest ↦ ?_⟩
    obtain ⟨_, hread', hfound⟩ := hread (hcs ▸ hrest.append piece) h
    cases hfound with
    | taken _ piece' hcs' hrest' =>
      obtain rfl := List.append_cancel_right (hcs.symm.trans hcs')
      rw [hread', List.append_cancel_left hrest']

theorem boundedBetween_stops {low high : Option Nat} (h : Stops cs) :
    boundedBetween low high cs = none := by
  cases cs with
  | nil => rfl
  | cons c cs => obtain rfl | rfl | rfl | ⟨rfl, -⟩ := h <;> rfl

theorem boundedBetween_foundIn (low high : Option Nat) (h : Agree cs cs') :
    FoundIn cs cs' (boundedBetween low high cs) (boundedBetween low high cs') := by
  cases h with
  | stop h h' =>
    rw [boundedBetween_stops h, boundedBetween_stops h']
    exact .nothing
  | @cons c cs cs' h =>
    by_cases hc : c = '\x7d'
    · subst hc
      cases high with
      | none =>
        cases low with
        | none => exact .nothing
        | some n => exact .taken _ ['\x7d'] rfl rfl h
      | some m =>
        simp only [boundedBetween]
        split
        · exact .taken _ ['\x7d'] rfl rfl h
        · exact .taken _ ['\x7d'] rfl rfl h
    · have hnone (cs : List Char) : boundedBetween low high (c :: cs) = none := by
        rw [boundedBetween]
        exact fun _ heq ↦ hc (List.cons.inj heq).1
      rw [hnone, hnone]
      exact .nothing

theorem decimal?_foundIn (h : Agree cs cs') : ∃ n digits rest rest', decimal? cs = (n, rest) ∧
    decimal? cs' = (n, rest') ∧ cs = digits ++ rest ∧ cs' = digits ++ rest' ∧ Agree rest rest' := by
  obtain ⟨n, rest, hn⟩ : ∃ n rest, decimal? cs = (n, rest) := ⟨_, _, rfl⟩
  obtain ⟨digits, rfl, hall, hread⟩ := decimal?_takes hn
  obtain ⟨rest', rfl, hrest⟩ := h.of_append fun c hc ↦ isAsciiDigit_not_stops c (hall c hc)
  exact ⟨n, digits, rest, rest', hn, hread rest' hrest, rfl, rfl, hrest⟩

theorem intervalAfter_stops {low : Option Nat} (h : Stops cs) :
    intervalAfter low cs = .ok none := by
  cases cs with
  | nil => rfl
  | cons c cs => obtain rfl | rfl | rfl | ⟨rfl, -⟩ := h <;> rfl

theorem intervalAfter_foundIn {low : Option Nat} {found : Option ((Quantifier × Bool) × List Char)}
    (hagree : Agree cs cs') (h : intervalAfter low cs = .ok found) :
    ∃ found', intervalAfter low cs' = .ok found' ∧ FoundIn cs cs' found found' := by
  cases hagree with
  | stop hstop hstop' =>
    rw [intervalAfter_stops hstop] at h
    cases h
    exact ⟨none, intervalAfter_stops hstop', .nothing⟩
  | @cons c cs cs' hagree =>
    by_cases hc : c = '\x7d'
    · subst hc
      cases low with
      | none =>
        cases h
        exact ⟨none, rfl, .nothing⟩
      | some n =>
        cases h
        exact ⟨_, rfl, .taken _ ['\x7d'] rfl rfl hagree⟩
    · by_cases hcomma : c = ','
      · subst hcomma
        obtain ⟨high, digits, rest, rest', hhigh, hhigh', rfl, rfl, hrest⟩ :=
          decimal?_foundIn hagree
        rw [intervalAfter, hhigh] at h
        rw [intervalAfter, hhigh']
        dsimp only at h ⊢
        split at h
        · cases h
        · rename_i hle
          cases h
          rw [if_neg hle]
          exact ⟨_, rfl, (boundedBetween_foundIn low high hrest).prepend (',' :: digits)⟩
      · have hnone (cs : List Char) : intervalAfter low (c :: cs) = .ok none := by
          rw [intervalAfter]
          · rfl
          · exact fun _ heq ↦ hc (List.cons.inj heq).1
          · exact fun _ heq ↦ hcomma (List.cons.inj heq).1
        rw [hnone] at h
        cases h
        exact ⟨none, hnone _, .nothing⟩

theorem interval?_foundIn {found : Option ((Quantifier × Bool) × List Char)}
    (hagree : Agree cs cs') (h : interval? cs = .ok found) :
    ∃ found', interval? cs' = .ok found' ∧ FoundIn cs cs' found found' := by
  obtain ⟨low, digits, rest, rest', hlow, hlow', rfl, rfl, hrest⟩ := decimal?_foundIn hagree
  rw [interval?, hlow] at h
  rw [interval?, hlow']
  dsimp only at h ⊢
  split at h
  · cases h
  · rename_i hle
    rw [if_neg hle]
    obtain ⟨found', hfound', hfound⟩ := intervalAfter_foundIn hrest h
    exact ⟨found', hfound', hfound.prepend digits⟩

theorem reluctant_foundIn (q : Quantifier) (hagree : Agree cs cs') :
    FoundIn cs cs' (some (reluctant q cs)) (some (reluctant q cs')) := by
  have hstay {cs cs' : List Char} (hagree : Agree cs cs')
      (hcs : cs.head?.any (· == '?') = false) :
      FoundIn cs cs' (some (reluctant q cs)) (some (reluctant q cs')) := by
    have hq {cs : List Char} (h : cs.head?.any (· == '?') = false) : reluctant q cs = (q, cs) := by
      rw [reluctant]
      rintro rest rfl
      cases h
    rw [hq hcs, hq (hagree.head_any_eq_false (by
      intro c hc
      rw [eq_of_beq hc]
      decide) hcs)]
    exact .taken q [] rfl rfl hagree
  cases hagree with
  | stop h h' =>
    refine hstay (.stop h h') ?_
    cases cs with
    | nil => rfl
    | cons c cs => obtain rfl | rfl | rfl | ⟨rfl, -⟩ := h <;> rfl
  | @cons c cs cs' hagree =>
    by_cases hc : c = '?'
    · subst hc
      exact .taken _ ['?'] rfl rfl hagree
    · exact hstay (.cons c hagree) (beq_false_of_ne hc)

theorem signed_foundIn (q : Quantifier) (hagree : Agree cs cs') :
    FoundIn cs cs' (some (signed q cs)) (some (signed q cs')) := by
  cases hagree with
  | stop h h' =>
    have hsigned {cs : List Char} (h : Stops cs) : signed q cs = reluctant q cs := by
      rw [signed]
      rintro rest rfl
      exact absurd h.head (by decide)
    rw [hsigned h, hsigned h']
    exact reluctant_foundIn q (.stop h h')
  | @cons c cs cs' hagree =>
    by_cases hc : c = '+'
    · subst hc
      exact .taken _ ['+'] rfl rfl hagree
    · have hsigned (cs : List Char) : signed q (c :: cs) = reluctant q (c :: cs) := by
        rw [signed]
        exact fun _ heq ↦ hc (List.cons.inj heq).1
      rw [hsigned, hsigned]
      exact reluctant_foundIn q (.cons c hagree)

theorem quantifier?_stops (h : Stops cs) : quantifier? cs = .ok none := by
  cases cs with
  | nil => rfl
  | cons c cs => obtain rfl | rfl | rfl | ⟨rfl, -⟩ := h <;> rfl

theorem quantifier?_foundIn {c : Char} {found : Option (Quantifier × List Char)}
    (hagree : Agree cs cs') (h : quantifier? (c :: cs) = .ok found) :
    ∃ found', quantifier? (c :: cs') = .ok found' ∧ FoundIn cs cs' found found' := by
  by_cases hc : c = '\x7b'
  · subst hc
    obtain ⟨interval, hinterval, h⟩ := bind_eq_ok.1 h
    obtain ⟨interval', hinterval', hfound⟩ := interval?_foundIn hagree hinterval
    cases hfound with
    | nothing =>
      cases h
      exact ⟨none, bind_eq_ok.2 ⟨_, hinterval', rfl⟩, .nothing⟩
    | taken a piece hcs hcs' hrest =>
      obtain ⟨q, single⟩ := a
      cases h
      refine ⟨_, bind_eq_ok.2 ⟨_, hinterval', rfl⟩, ?_⟩
      rw [hcs, hcs']
      refine FoundIn.prepend ?_ piece
      split
      · exact .taken q [] rfl rfl hrest
      · exact reluctant_foundIn q hrest
  · rw [quantifier?] at h
    · rw [quantifier?]
      · split at h
        · cases h
          exact ⟨none, rfl, .nothing⟩
        · cases h
          exact ⟨_, rfl, signed_foundIn _ hagree⟩
      · exact hc
    · exact hc

theorem quantifier?_takes {q : Quantifier} (h : quantifier? cs = .ok (some (q, rest))) :
    ∃ c piece, cs = c :: piece ++ rest ∧ ∀ rest', Agree rest rest' →
      quantifier? (c :: piece ++ rest') = .ok (some (q, rest')) := by
  cases cs with
  | nil => cases h
  | cons c cs =>
    have htakes := FoundIn.takes (fun cs ↦ quantifier? (c :: cs)) quantifier?_foundIn h
    obtain ⟨piece, rfl, hread⟩ := htakes
    exact ⟨c, piece, rfl, hread⟩

theorem quantifier?_none (hagree : Agree cs cs') (h : quantifier? cs = .ok none) :
    quantifier? cs' = .ok none := by
  cases hagree with
  | stop _ hstop => exact quantifier?_stops hstop
  | cons c hagree =>
    obtain ⟨found', hfound', hfound⟩ := quantifier?_foundIn hagree h
    cases hfound
    exact hfound'

theorem quantified_takes {R : Node → Node → Prop}
    (hrepeatable : ∀ {a b}, R a b → a.isRepeatable → b.isRepeatable)
    (happly : ∀ {a b} (q : Quantifier), R a b → R (q.apply a) (q.apply b))
    {extended : Bool} {fuel : Nat} {node node' : Node} (hfuel : cs.length ≤ fuel)
    (h : quantified extended fuel node cs = .ok (node', rest)) (hrest : rest ≠ []) :
    ∃ piece, cs = piece ++ rest ∧ ∀ rest' fuel' other, Agree rest rest' →
      (piece ++ rest').length ≤ fuel' → R node other →
      ∃ other', quantified extended fuel' other (piece ++ rest') = .ok (other', rest') ∧
        R node' other' := by
  induction fuel generalizing cs node with
  | zero =>
    obtain rfl := List.eq_nil_of_length_eq_zero (Nat.le_zero.1 hfuel)
    cases h
    exact absurd rfl hrest
  | succ fuel ih =>
    rw [quantified] at h
    obtain ⟨mid, hskip, h⟩ := bind_eq_ok.1 h
    obtain ⟨found, hfound, h⟩ := bind_eq_ok.1 h
    cases found with
    | none =>
      cases h
      obtain ⟨piece, rfl, hread⟩ := skipIgnored_takes (Nat.le_refl _) hskip hrest
      refine ⟨piece, rfl, fun rest' fuel' other hagree hle hother ↦ ⟨other, ?_, hother⟩⟩
      cases fuel' with
      | zero =>
        have hnil := List.eq_nil_of_length_eq_zero (Nat.le_zero.1 hle)
        obtain ⟨rfl, rfl⟩ := List.append_eq_nil_iff.1 hnil
        rfl
      | succ k =>
        rw [quantified]
        exact bind_eq_ok.2 ⟨_, hread rest' _ hagree (Nat.le_refl _),
          bind_eq_ok.2 ⟨none, quantifier?_none hagree hfound, rfl⟩⟩
    | some found =>
      obtain ⟨q, last⟩ := found
      dsimp only at h
      split at h
      · rename_i hrepeat
        have hnext := h
        obtain ⟨c, taken, rfl, hreadQuantifier⟩ := quantifier?_takes hfound
        obtain ⟨piece, rfl, hread⟩ := skipIgnored_takes (Nat.le_refl _) hskip (by simp)
        simp only [List.length_append, List.length_cons] at hfuel
        obtain ⟨more, rfl, hmore⟩ := ih (by omega) hnext
        refine ⟨piece ++ (c :: taken ++ more), by simp,
          fun rest' fuel' other hagree hle hother ↦ ?_⟩
        have hagree' := hagree.append more
        simp only [List.length_append, List.length_cons] at hle
        obtain ⟨k, rfl⟩ := Nat.exists_eq_add_one.2 (show 0 < fuel' by omega)
        obtain ⟨other', hquantified, hother'⟩ :=
          hmore rest' k (q.apply other) hagree (by rw [List.length_append]; omega) (happly q hother)
        refine ⟨other', ?_, hother'⟩
        rw [quantified, List.append_assoc, List.append_assoc]
        refine bind_eq_ok.2 ⟨_, hread _ _ (hagree'.append (c :: taken)) (Nat.le_refl _),
          bind_eq_ok.2 ⟨_, hreadQuantifier _ hagree', ?_⟩⟩
        dsimp only
        rw [if_pos (hrepeatable hother hrepeat)]
        exact hquantified
      · cases h

end Quantifiers

section Names

variable {α : Type} {cs cs' rest : List Char} {close : Char}

theorem delimitedName_takes {name : List Char} (h : delimitedName close cs = .ok (name, rest)) :
    cs = name ++ close :: rest ∧
      ∀ rest', delimitedName close (name ++ close :: rest') = .ok (name, rest') := by
  rw [delimitedName] at h
  split at h
  rename_i hspan
  obtain ⟨rfl, -, -, hread⟩ := span_takes hspan
  split at h
  · cases h
  · rename_i hempty
    split at h
    · rename_i text last hclose
      cases h
      cases last with
      | nil => cases hclose
      | cons c last =>
        cases hclose
        refine ⟨rfl, fun rest' ↦ ?_⟩
        have hempty : ¬((name ++ close :: rest').isEmpty = true ∨
            name.isEmpty = true ∧ (close :: rest').head? = some close) := by simpa using hempty
        have hclose : (close :: rest').head? = some close := rfl
        rw [delimitedName, hread (close :: rest') (by simp)]
        dsimp only
        rw [if_neg hempty, if_pos hclose]
        rfl
    · cases h

theorem delimited_takes {read : List Char → Except PatternError α} {a : α}
    (h : delimited read close cs = .ok (a, rest)) :
    ∃ name, cs = name ++ close :: rest ∧ read name = .ok a ∧
      ∀ rest', delimited read close (name ++ close :: rest') = .ok (a, rest') := by
  obtain ⟨⟨name, last⟩, hname, h⟩ := bind_eq_ok.1 h
  obtain ⟨b, hb, h⟩ := bind_eq_ok.1 h
  cases h
  obtain ⟨rfl, hread⟩ := delimitedName_takes hname
  exact ⟨name, rfl, hb, fun rest' ↦ bind_eq_ok.2 ⟨_, hread rest', bind_eq_ok.2 ⟨_, hb, rfl⟩⟩⟩

theorem delimitedReference?_takes {target : Reference}
    (h : delimitedReference? cs = .ok (some (target, rest))) :
    ∃ c name close, (c = '<' ∨ c = '\x27') ∧ cs = c :: (name ++ close :: rest) ∧
      reference name = .ok target ∧
      ∀ rest', delimitedReference? (c :: (name ++ close :: rest')) =
        .ok (some (target, rest')) := by
  rw [delimitedReference?.eq_def] at h
  split at h
  · obtain ⟨⟨a, last⟩, ha, h⟩ := map_eq_ok.1 h
    cases h
    obtain ⟨name, rfl, hname, hread⟩ := delimited_takes ha
    exact ⟨'<', name, '>', .inl rfl, rfl, hname, fun rest' ↦ map_eq_ok.2 ⟨_, hread rest', rfl⟩⟩
  · obtain ⟨⟨a, last⟩, ha, h⟩ := map_eq_ok.1 h
    cases h
    obtain ⟨name, rfl, hname, hread⟩ := delimited_takes ha
    exact ⟨'\x27', name, '\x27', .inr rfl, rfl, hname,
      fun rest' ↦ map_eq_ok.2 ⟨_, hread rest', rfl⟩⟩
  · cases h

theorem delimitedReference?_none (h : delimitedReference? cs = .ok none) (hagree : Agree cs cs') :
    delimitedReference? cs' = .ok none := by
  have hdelimiter (c : Char) (hc : (c == '<' || c == '\x27') = true) : ¬Stops [c] := by
    obtain hc | hc := (Bool.or_eq_true _ _).mp hc <;> rw [eq_of_beq hc] <;> decide
  have hcs : cs.head?.any (fun c ↦ c == '<' || c == '\x27') = false := by
    rw [delimitedReference?.eq_def] at h
    split at h
    · obtain ⟨_, -, h⟩ := map_eq_ok.1 h
      cases h
    · obtain ⟨_, -, h⟩ := map_eq_ok.1 h
      cases h
    · rename_i hangle hquote
      cases cs with
      | nil => rfl
      | cons c cs =>
        have hc : c ≠ '<' ∧ c ≠ '\x27' :=
          ⟨fun hc ↦ hangle cs (by rw [hc]), fun hc ↦ hquote cs (by rw [hc])⟩
        simp [hc]
  have hcs' := hagree.head_any_eq_false hdelimiter hcs
  rw [delimitedReference?]
  · rfl
  · rintro more rfl
    cases hcs'
  · rintro more rfl
    cases hcs'

/-- Digits that do not start with a zero are a number, up to where they end. -/
theorem escapedNumber?_digits {digits : List Char} (hall : ∀ c ∈ digits, isAsciiDigit c = true)
    (hzero : digits.head?.any (· != '0') = true) (hrest : rest.head?.any isAsciiDigit = false) :
    escapedNumber? (digits ++ rest) = some (numeralValue 10 digits, rest) := by
  cases digits with
  | nil => cases hzero
  | cons c digits =>
    have hc : c ≠ '0' := by simpa using hzero
    have hspan := span_append hall hrest
    rw [List.cons_append] at hspan ⊢
    rw [escapedNumber?, if_neg hc, decimal?, hspan]

theorem escapedNumber?_eq_some {n : Nat} (h : escapedNumber? cs = some (n, rest)) :
    ∃ digits, cs = digits ++ rest ∧ (∀ c ∈ digits, isAsciiDigit c = true) ∧
      digits.head?.any (· != '0') = true ∧ rest.head?.any isAsciiDigit = false ∧
      n = numeralValue 10 digits := by
  rw [escapedNumber?.eq_def] at h
  split at h
  · cases h
  · split at h
    · cases h
    · rename_i c cs hc
      split at h
      · rename_i hdecimal
        cases h
        rw [decimal?] at hdecimal
        split at hdecimal
        · cases hdecimal
        · rename_i digits last hne hspan
          cases hdecimal
          obtain ⟨hcs, hall, hlast, -⟩ := span_takes hspan
          refine ⟨digits, hcs, hall, ?_, hlast, rfl⟩
          cases digits with
          | nil => exact absurd rfl hne
          | cons d digits =>
            cases hcs
            simpa using hc
      · cases h

theorem decimal?_isSome {c : Char} (hc : isAsciiDigit c = true) :
    (decimal? (c :: cs)).1.isSome := by
  rw [decimal?]
  split
  · rename_i hspan
    rw [List.span_eq_takeWhile_dropWhile, List.takeWhile_cons_of_pos hc] at hspan
    cases hspan
  · rfl

/-- A group's number within a name is one that is noted. -/
theorem writtenNumber?_of_absolute {c : Char} {name : List Char} {n : Nat}
    (hc : c = '<' ∨ c = '\x27') (h : reference name = .ok (.absolute n)) :
    (writtenNumber? ('k' :: c :: (name ++ rest))).isSome := by
  rw [reference.eq_def] at h
  dsimp only at h
  split at h
  · cases h
  · split at h
    · rename_i hdigit
      obtain rfl | rfl := hc <;> exact decimal?_isSome hdigit
    · split at h
      · obtain ⟨m, -, h⟩ := bind_eq_ok.1 h
        split at h <;> cases h
      · split at h <;> cases h

end Names

section Openings

/-- Options that tell the same of how to read. If `strict`, they also tell the same of case. -/
structure Options.Like (strict : Prop) (o o' : Options) : Prop where
  extended : o'.extended = o.extended
  dotAll : o'.dotAll = o.dotAll
  ignoreCase : strict → o'.ignoreCase = o.ignoreCase

theorem Options.Like.refl {strict : Prop} (o : Options) : o.Like strict o :=
  ⟨rfl, rfl, fun _ ↦ rfl⟩

inductive OptionGroup.Like (strict : Prop) : OptionGroup → OptionGroup → Prop
  | rest {o o' : Options} : o.Like strict o' → OptionGroup.Like strict (.rest o) (.rest o')
  | body {o o' : Options} : o.Like strict o' → OptionGroup.Like strict (.body o) (.body o')

inductive Opening.Like (strict : Prop) : Opening → Opening → Prop
  | group (e : Enclosure) {o o' : Options} : o.Like strict o' →
      Opening.Like strict (.group e o) (.group e o')
  | capture (name : Option String) : Opening.Like strict (.capture name) (.capture name)
  | options {o o' : Options} : o.Like strict o' → Opening.Like strict (.options o) (.options o')
  | done : Opening.Like strict (.done (.set .empty)) (.done (.set .empty))

variable {cs rest : List Char}

theorem optionGroup_takes (strict : Prop) {on : Bool} {o : Options} {g : OptionGroup}
    (h : optionGroup on o cs = .ok (g, rest)) :
    ∃ c piece, cs = c :: piece ++ rest ∧ ∀ o' rest', o.Like strict o' →
      ∃ g', optionGroup on o' (c :: piece ++ rest') = .ok (g', rest') ∧ g.Like strict g' := by
  fun_induction optionGroup on o cs with
  | case1 => cases h
  | case2 =>
    cases h
    exact ⟨'\x29', [], rfl, fun o' rest' ho ↦ ⟨_, rfl, .rest ho⟩⟩
  | case3 =>
    cases h
    exact ⟨':', [], rfl, fun o' rest' ho ↦ ⟨_, rfl, .body ho⟩⟩
  | case4 on o cs ih =>
    obtain ⟨c, piece, rfl, hread⟩ := ih h
    exact ⟨'-', c :: piece, rfl, hread⟩
  | case5 on o cs ih =>
    obtain ⟨c, piece, rfl, hread⟩ := ih h
    refine ⟨'i', c :: piece, rfl, fun o' rest' ho ↦ hread _ rest' ?_⟩
    exact ⟨ho.extended, ho.dotAll, fun _ ↦ rfl⟩
  | case6 on o cs ih =>
    obtain ⟨c, piece, rfl, hread⟩ := ih h
    refine ⟨'x', c :: piece, rfl, fun o' rest' ho ↦ hread _ rest' ?_⟩
    exact ⟨rfl, ho.dotAll, ho.ignoreCase⟩
  | case7 on o cs ih =>
    obtain ⟨c, piece, rfl, hread⟩ := ih h
    refine ⟨'m', c :: piece, rfl, fun o' rest' ho ↦ hread _ rest' ?_⟩
    exact ⟨ho.extended, rfl, ho.ignoreCase⟩
  | case8 => cases h

theorem callout_takes {node : Node} (h : callout cs = .ok (node, rest)) :
    node = .set .empty ∧ ∃ piece, cs = piece ++ rest ∧
      ∀ rest', callout (piece ++ rest') = .ok (node, rest') := by
  rw [callout] at h
  split at h
  rename_i name last hspan
  obtain ⟨rfl, -, -, hread⟩ := span_takes hspan
  dsimp only at h
  split at h
  · cases h
  · split at h
    · cases h
    · rename_i hname
      split at h
      · split at h
        · rename_i hfail
          cases h
          refine ⟨rfl, name ++ ['\x29'], by simp, fun rest' ↦ ?_⟩
          rw [List.append_assoc, List.singleton_append, callout, hread _ rfl]
          dsimp only
          rw [if_neg (by simp), if_neg hname]
          exact if_pos hfail
        · cases h
      · cases h

theorem opening_options {o : Options} {c : Char}
    (hc : c ≠ ':' ∧ c ≠ '=' ∧ c ≠ '!' ∧ c ≠ '>' ∧ c ≠ '<' ∧ c ≠ '\x27') :
    opening o ('?' :: c :: cs) = (do
      let (g, rest) ← optionGroup true o (c :: cs)
      pure (g.opening, rest)) := by
  obtain ⟨hplain, hahead, hnot, hatomic, hangle, hquote⟩ := hc
  rw [opening]
  all_goals
    intros
    simp_all

theorem opening_capture {o : Options} {c : Char} (hquestion : c ≠ '?') (hstar : c ≠ '*') :
    opening o (c :: cs) = .ok (.capture none, c :: cs) := by
  rw [opening]
  · rfl
  all_goals
    intros
    simp_all

theorem opening_takes (strict : Prop) {o : Options} {what : Opening}
    (h : opening o cs = .ok (what, rest)) :
    ∃ piece, cs = piece ++ rest ∧ ∀ o' rest', o.Like strict o' →
      (what = .capture none → rest'.head? = rest.head?) →
      ∃ what', opening o' (piece ++ rest') = .ok (what', rest') ∧ what.Like strict what' := by
  rw [opening.eq_def] at h
  split at h
  · cases h
  · cases h
  · cases h
    exact ⟨['?', ':'], rfl, fun o' rest' ho _ ↦ ⟨_, rfl, .group _ ho⟩⟩
  · cases h
    exact ⟨['?', '='], rfl, fun o' rest' ho _ ↦ ⟨_, rfl, .group _ ho⟩⟩
  · cases h
    exact ⟨['?', '!'], rfl, fun o' rest' ho _ ↦ ⟨_, rfl, .group _ ho⟩⟩
  · cases h
    exact ⟨['?', '>'], rfl, fun o' rest' ho _ ↦ ⟨_, rfl, .group _ ho⟩⟩
  · cases h
  · cases h
    exact ⟨['?', '<', '='], rfl, fun o' rest' ho _ ↦ ⟨_, rfl, .group _ ho⟩⟩
  · cases h
    exact ⟨['?', '<', '!'], rfl, fun o' rest' ho _ ↦ ⟨_, rfl, .group _ ho⟩⟩
  · rename_i hempty hahead hnot
    obtain ⟨⟨name, last⟩, hname, h⟩ := bind_eq_ok.1 h
    cases h
    obtain ⟨text, rfl, htext, hread⟩ := delimited_takes hname
    cases text with
    | nil => cases htext
    | cons c text =>
      refine ⟨'?' :: '<' :: (c :: text ++ ['>']), by simp, fun o' rest' ho _ ↦
        ⟨_, ?_, .capture _⟩⟩
      have hread := hread rest'
      simp only [List.cons_append, List.append_assoc, List.nil_append] at hread ⊢
      rw [opening]
      · exact bind_eq_ok.2 ⟨_, hread, rfl⟩
      · exact nofun
      · rintro _ heq
        cases heq
        exact hahead _ rfl
      · rintro _ heq
        cases heq
        exact hnot _ rfl
  · obtain ⟨⟨name, last⟩, hname, h⟩ := bind_eq_ok.1 h
    cases h
    obtain ⟨text, rfl, -, hread⟩ := delimited_takes hname
    refine ⟨'?' :: '\x27' :: (text ++ ['\x27']), by simp, fun o' rest' ho _ ↦
      ⟨_, ?_, .capture _⟩⟩
    simp only [List.cons_append, List.append_assoc, List.nil_append]
    rw [opening]
    exact bind_eq_ok.2 ⟨_, hread rest', rfl⟩
  · rename_i hplain hahead hnot hatomic _ _ _ hangle hquote
    obtain ⟨⟨g, last⟩, hg, hdone⟩ := bind_eq_ok.1 h
    obtain ⟨c, piece, rfl, hread⟩ := optionGroup_takes strict hg
    have hc : c ≠ ':' ∧ c ≠ '=' ∧ c ≠ '!' ∧ c ≠ '>' ∧ c ≠ '<' ∧ c ≠ '\x27' := by
      refine ⟨?_, ?_, ?_, ?_, ?_, ?_⟩ <;> rintro rfl
      · exact hplain _ rfl
      · exact hahead _ rfl
      · exact hnot _ rfl
      · exact hatomic _ rfl
      · exact hangle _ rfl
      · exact hquote _ rfl
    cases hdone
    refine ⟨'?' :: c :: piece, rfl, fun o' rest' ho _ ↦ ?_⟩
    obtain ⟨g', hg', hlike⟩ := hread o' rest' ho
    refine ⟨g'.opening, ?_, ?_⟩
    · simp only [List.cons_append] at hg' ⊢
      rw [opening_options hc]
      exact bind_eq_ok.2 ⟨_, hg', rfl⟩
    · cases hlike with
      | rest ho => exact .options ho
      | body ho => exact .group _ ho
  · obtain ⟨⟨node, last⟩, hnode, h⟩ := bind_eq_ok.1 h
    cases h
    obtain ⟨rfl, piece, rfl, hread⟩ := callout_takes hnode
    refine ⟨'*' :: piece, rfl, fun o' rest' ho _ ↦ ⟨_, ?_, .done⟩⟩
    rw [List.cons_append, opening]
    exact bind_eq_ok.2 ⟨_, hread rest', rfl⟩
  · rename_i hnil _ _ _ _ _ _ _ _ _ _ hquestion hstar
    cases h
    refine ⟨[], rfl, fun o' rest' ho hhead ↦ ⟨_, ?_, .capture _⟩⟩
    have hhead := hhead rfl
    cases cs with
    | nil => exact absurd rfl hnil
    | cons c cs =>
      cases rest' with
      | nil => cases hhead
      | cons d rest' =>
        cases hhead
        exact opening_capture (fun hc ↦ hquestion _ (by rw [hc])) fun hc ↦ hstar _ (by rw [hc])

end Openings

end SyntaxHighlight.Regex
