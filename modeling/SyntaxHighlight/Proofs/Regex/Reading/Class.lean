import Mathlib.Data.List.Find
import SyntaxHighlight.Proofs.Regex.Reading.Escape
import SyntaxHighlight.Regex.Class

/-!
A bracketed class is read from its own text, up to the bracket that closes it. The readers of its
pieces look ahead for closing brackets, but find that one at the latest.
-/
namespace SyntaxHighlight.Regex

/-- A closing bracket that is not escaped is found. -/
inductive Closes : List Char → Prop
  | close (cs : List Char) : Closes (']' :: cs)
  | plain {c : Char} {cs : List Char} : c ≠ '\\' → c ≠ ']' → Closes cs → Closes (c :: cs)
  | escaped (c : Char) {cs : List Char} : Closes cs → Closes ('\\' :: c :: cs)

section Closing

variable {cs piece rest rest' : List Char} {c : Char}

theorem bracketCloses_cons (hc : c ≠ '\\') :
    bracketCloses (c :: cs) = (c == ']' || bracketCloses cs) := by
  rw [bracketCloses.eq_def]
  split
  · rename_i heq
    cases heq
    exact absurd rfl hc
  · rename_i heq
    cases heq
    rfl
  · rename_i hclose heq
    cases heq
    have hne : (c == ']') = false := beq_false_of_ne hclose
    rw [hne, Bool.false_or]
  · rename_i heq
    cases heq

theorem posixCloses_cons {d : Char} (hc : c ≠ '\\') (hclose : c ≠ ']')
    (hname : ¬(c = ':' ∧ d = ']')) : posixCloses (c :: d :: cs) = posixCloses (d :: cs) := by
  rw [posixCloses.eq_def]
  split
  · rename_i heq
    cases heq
    exact absurd ⟨rfl, rfl⟩ hname
  · rename_i heq
    cases heq
    exact absurd rfl hc
  · rename_i heq
    cases heq
    exact absurd rfl hclose
  · rename_i heq
    cases heq
    rfl
  · rename_i heq
    cases heq

namespace Closes

theorem bracketCloses_eq_true (h : Closes cs) : bracketCloses cs = true := by
  induction h with
  | close cs => rfl
  | plain hslash _ _ ih => rw [bracketCloses_cons hslash, ih, Bool.or_true]
  | escaped c _ ih => exact ih

theorem append (h : Closes cs) (rest : List Char) : Closes (cs ++ rest) := by
  induction h with
  | close cs => exact .close _
  | plain hslash hclose _ ih => exact .plain hslash hclose ih
  | escaped c _ ih => exact .escaped c ih

theorem prepend (h : Closes rest) (hpiece : Paired piece) : Closes (piece ++ rest) := by
  induction hpiece with
  | nil => exact h
  | @plain c _ hc _ ih =>
    by_cases hclose : c = ']'
    · subst hclose
      exact .close _
    · exact .plain hc hclose ih
  | escaped c _ ih => exact .escaped c ih

theorem exists_cons (h : Closes cs) : ∃ c more, cs = c :: more := by
  cases h <;> exact ⟨_, _, rfl⟩

theorem tail (h : Closes (c :: cs)) (hslash : c ≠ '\\') (hclose : c ≠ ']') : Closes cs := by
  cases h with
  | close => exact absurd rfl hclose
  | plain _ _ h => exact h
  | escaped => exact absurd rfl hslash

/-- Whether a colon and a bracket are found is settled by the bracket that closes. -/
theorem posixCloses_congr (h : Closes cs) (rest rest' : List Char) :
    posixCloses (cs ++ rest) = posixCloses (cs ++ rest') := by
  induction h with
  | close cs => rfl
  | @plain c cs hslash hclose hcs ih =>
    obtain ⟨d, more, rfl⟩ := hcs.exists_cons
    by_cases hname : c = ':' ∧ d = ']'
    · obtain ⟨rfl, rfl⟩ := hname
      rfl
    · simp only [List.cons_append] at ih ⊢
      rw [posixCloses_cons hslash hclose hname, posixCloses_cons hslash hclose hname, ih]
  | escaped c _ ih => exact ih

theorem exists_close (h : Closes cs) :
    ∃ before after, cs = before ++ ']' :: after ∧ ']' ∉ before := by
  refine List.eq_append_cons_of_mem ?_
  induction h with
  | close cs => exact List.mem_cons_self
  | plain _ _ _ ih => exact List.mem_cons_of_mem _ ih
  | escaped c _ ih => exact List.mem_cons_of_mem _ (List.mem_cons_of_mem _ ih)

end Closes

/-- A name is found or not before the first character that no name has. -/
theorem isPrefixOf_congr {name before : List Char} (hname : c ∉ name) :
    name.isPrefixOf (before ++ c :: rest) = name.isPrefixOf (before ++ c :: rest') := by
  induction name generalizing before with
  | nil => rfl
  | cons d name ih =>
    obtain ⟨hd, hname⟩ := not_or.1 (mt List.mem_cons.2 hname)
    cases before with
    | nil =>
      have hne : (d == c) = false := beq_false_of_ne (Ne.symm hd)
      simp [List.isPrefixOf, hne]
    | cons e before => simp only [List.cons_append, List.isPrefixOf, ih hname]

theorem posixProperty?_congr {before : List Char} (hc : c = ':' ∨ c = ']')
    (rest rest' : List Char) :
    posixProperty? (before ++ c :: rest) = posixProperty? (before ++ c :: rest') := by
  have hclean : posixNames.all fun entry ↦
      !entry.1.toList.contains ':' && !entry.1.toList.contains ']' := by decide
  refine List.find?_congr fun entry hentry ↦ isPrefixOf_congr ?_
  have hentry := List.all_eq_true.1 hclean _ hentry
  obtain rfl | rfl := hc <;> simp_all

/-- What is no named class is none whatever follows the bracket that closes. -/
theorem posixName_none {negated : Bool} {before : List Char} (hbefore : ']' ∉ before)
    (h : posixName negated (before ++ ']' :: rest) = .ok none) :
    posixName negated (before ++ ']' :: rest') = .ok none := by
  obtain ⟨name, tail, hspan⟩ : ∃ name tail,
    before.span (fun c ↦ c != ':' && c != ']') = (name, tail) := ⟨_, _, rfl⟩
  obtain ⟨rfl, -, htail, hread⟩ := span_takes hspan
  have hnone : posixProperty? (name ++ tail ++ ']' :: rest) = none := by
    cases hnamed : posixProperty? (name ++ tail ++ ']' :: rest) with
    | none => rfl
    | some entry =>
      rw [posixName, hnamed] at h
      dsimp only at h
      split at h <;> cases h
  -- The name ends at a colon in `tail` or at the bracket.
  have hread (rest : List Char) := hread (tail ++ ']' :: rest) (by
    cases tail with
    | nil => rfl
    | cons d tail => exact htail)
  rw [posixName, hnone, List.append_assoc, hread] at h
  rw [posixName, posixProperty?_congr (.inr rfl) _ rest, hnone, List.append_assoc, hread]
  dsimp only at h ⊢
  cases tail with
  | nil => rfl
  | cons d tail =>
    have hd : d ≠ ']' := by
      rintro rfl
      exact hbefore (by simp)
    cases tail with
    | nil =>
      obtain rfl : d = ':' := by simpa [hd] using htail
      exact h
    | cons e tail =>
      have he : e ≠ ']' := by
        rintro rfl
        exact hbefore (by simp)
      simp only [List.cons_append]
      split
      · rename_i heq
        cases heq
        exact absurd rfl he
      · rfl

theorem posixName_takes {negated : Bool} {set : CharSet}
    (h : posixName negated cs = .ok (some (set, rest))) :
    ∃ piece, cs = piece ++ rest ∧ piece ≠ [] ∧ Paired piece ∧
      ∀ rest', posixName negated (piece ++ rest') = .ok (some (set, rest')) := by
  rw [posixName] at h
  split at h
  · rename_i name p hnamed
    split at h
    · rename_i hdrop
      cases h
      have hfound := hnamed
      unfold posixProperty? at hfound
      have hprefix := List.find?_some hfound
      obtain ⟨more, rfl⟩ := List.isPrefixOf_iff_prefix.1 hprefix
      obtain rfl : more = ':' :: ']' :: rest := by
        rw [← hdrop, ← String.length_toList, List.drop_left]
      refine ⟨name.toList ++ [':', ']'], by simp, by simp, ?_, fun rest' ↦ ?_⟩
      · have hclean : posixNames.all fun entry ↦ !entry.1.toList.contains '\\' := by decide
        have hname := List.all_eq_true.1 hclean _ (List.mem_of_find?_eq_some hfound)
        exact .of_notMem (by simpa using hname)
      · have hdrop :
            (name.toList ++ ':' :: ']' :: rest').drop name.length = ':' :: ']' :: rest' := by
          rw [← String.length_toList, List.drop_left]
        rw [List.append_assoc, List.cons_append, List.singleton_append, posixName,
          posixProperty?_congr (.inl rfl) (']' :: rest') (']' :: rest), hnamed]
        dsimp only
        rw [hdrop]
        rfl
    · cases h
  · split at h
    split at h
    · split at h <;> cases h
    · cases h

theorem classNegation_takes (cs : List Char) :
    ∃ sign, cs = sign ++ (classNegation cs).2 ∧ Paired sign ∧
      ∀ rest', rest'.head? = (classNegation cs).2.head? →
        classNegation (sign ++ rest') = ((classNegation cs).1, rest') := by
  rw [classNegation.eq_def]
  split
  · exact ⟨['^'], rfl, .plain (by decide) .nil, fun rest' _ ↦ rfl⟩
  · rename_i hcaret
    refine ⟨[], rfl, .nil, fun rest' hhead ↦ ?_⟩
    rw [List.nil_append, classNegation]
    rintro more rfl
    cases cs with
    | nil => cases hhead
    | cons c cs =>
      cases hhead
      exact hcaret cs rfl

theorem posixClass_takes {set : CharSet} (h : posixClass cs = .ok (some (set, rest))) :
    ∃ piece, cs = piece ++ rest ∧ Paired piece ∧
      ∀ rest', posixClass (piece ++ rest') = .ok (some (set, rest')) := by
  obtain ⟨sign, hcs, hsign, hread⟩ := classNegation_takes cs
  obtain ⟨piece, hpiece, hne, hpaired, hname⟩ := posixName_takes h
  rw [hpiece] at hcs hread
  refine ⟨sign ++ piece, by rw [hcs, List.append_assoc], hsign.append hpaired, fun rest' ↦ ?_⟩
  rw [List.append_assoc, posixClass, hread (piece ++ rest')]
  · exact hname rest'
  · obtain ⟨c, piece, rfl⟩ := List.exists_cons_of_ne_nil hne
    rfl

theorem posixClass_none {more : List Char} (hmore : Closes more)
    (h : posixClass (more ++ rest) = .ok none) : posixClass (more ++ rest') = .ok none := by
  obtain ⟨before, after, rfl, hbefore⟩ := hmore.exists_close
  simp only [List.append_assoc, List.cons_append] at h ⊢
  cases before with
  | nil => exact posixName_none hbefore h
  | cons c before =>
    by_cases hc : c = '^'
    · subst hc
      exact posixName_none (fun hmem ↦ hbefore (List.mem_cons_of_mem _ hmem)) h
    · have hsign (cs : List Char) : classNegation (c :: cs) = (false, c :: cs) := by
        rw [classNegation]
        exact fun _ heq ↦ hc (List.cons.inj heq).1
      rw [posixClass, List.cons_append, hsign] at h ⊢
      exact posixName_none hbefore h

theorem escapedMember_takes {token : ClassToken}
    (h : escapedMember (c :: cs) = .ok (token, rest)) :
    TakesEscaped escapedMember (fun rest ↦ (token, rest)) (c :: cs) rest := by
  rw [escapedMember] at h
  split at h
  · rename_i set hset
    cases h
    refine ⟨[c], rfl, .escaped c .nil, fun rest' _ ↦ ?_⟩
    rw [List.singleton_append, escapedMember]
    have hset : (c :: rest').head?.bind escapedClass? = some set := hset
    rw [hset]
    rfl
  · rename_i hset
    obtain ⟨found, hproperty, h⟩ := bind_eq_ok.1 h
    split at h
    · cases h
      obtain ⟨piece, hpiece, hpaired, hread⟩ := escapedProperty?_takes hproperty
      obtain ⟨d, piece, rfl, -⟩ := hpaired.of_escaped
      cases hpiece
      refine ⟨_, rfl, hpaired, fun rest' hrest ↦ ?_⟩
      rw [escapedMember]
      have hset : (c :: piece ++ rest').head?.bind escapedClass? = none := hset
      rw [hset]
      exact bind_eq_ok.2 ⟨_, hread rest' hrest, rfl⟩
    · obtain ⟨found, hcode, h⟩ := bind_eq_ok.1 h
      split at h
      · cases h
        obtain ⟨piece, hpiece, hpaired, hread⟩ := codePointEscape?_takes hcode
        obtain ⟨d, piece, rfl, -⟩ := hpaired.of_escaped
        cases hpiece
        refine ⟨_, rfl, hpaired, fun rest' hrest ↦ ?_⟩
        rw [escapedMember]
        have hset : (c :: piece ++ rest').head?.bind escapedClass? = none := hset
        rw [hset]
        exact bind_eq_ok.2 ⟨none, escapedProperty?_none hproperty (hrest.append piece),
          bind_eq_ok.2 ⟨_, hread rest' hrest, rfl⟩⟩
      · obtain ⟨⟨d, last⟩, hchar, h⟩ := bind_eq_ok.1 h
        cases h
        obtain ⟨piece, hpiece, hpaired, hread⟩ := spelledChar_takes hchar
        obtain ⟨e, piece, rfl, -⟩ := hpaired.of_escaped
        cases hpiece
        refine ⟨_, rfl, hpaired, fun rest' hrest ↦ ?_⟩
        rw [escapedMember]
        have hset : (c :: piece ++ rest').head?.bind escapedClass? = none := hset
        rw [hset]
        exact bind_eq_ok.2 ⟨none, escapedProperty?_none hproperty (hrest.append piece),
          bind_eq_ok.2 ⟨none, codePointEscape?_none hcode (hrest.append piece),
            bind_eq_ok.2 ⟨_, hread rest' hrest, rfl⟩⟩⟩

theorem classToken_takes {token : ClassToken} {more : List Char}
    (h : classToken cs = .ok (token, more ++ rest)) (hmore : Closes more) :
    ∃ piece, piece ≠ [] ∧ cs = piece ++ (more ++ rest) ∧ Paired piece ∧
      ∀ rest', Agree rest rest' →
        classToken (piece ++ (more ++ rest')) = .ok (token, more ++ rest') := by
  obtain ⟨d, tail, rfl⟩ := hmore.exists_cons
  -- What follows starts with `d`, whatever comes after the class.
  rw [classToken.eq_def] at h
  split at h
  · cases h
  · cases h
    exact ⟨[']'], by simp, rfl, .plain (by decide) .nil, fun rest' _ ↦ rfl⟩
  · cases h
    exact ⟨['-'], by simp, rfl, .plain (by decide) .nil, fun rest' _ ↦ rfl⟩
  · cases h
    exact ⟨['&', '&'], by simp, rfl, .plain (by decide) (.plain (by decide) .nil),
      fun rest' _ ↦ rfl⟩
  · rename_i cs
    split at h
    · rename_i hposix
      obtain ⟨found, hclass, h⟩ := bind_eq_ok.1 h
      split at h
      · cases h
        obtain ⟨piece, rfl, hpaired, hread⟩ := posixClass_takes hclass
        have hcloses := hmore.prepend hpaired
        refine ⟨'[' :: ':' :: piece, by simp, rfl,
          .plain (by decide) (.plain (by decide) hpaired), fun rest' _ ↦ ?_⟩
        rw [← List.append_assoc, hcloses.posixCloses_congr rest rest'] at hposix
        simp only [List.cons_append, List.append_assoc] at hposix ⊢
        rw [classToken, if_pos hposix]
        exact bind_eq_ok.2 ⟨_, hread _, rfl⟩
      · cases h
        have htail := hmore.tail (by decide) (by decide)
        refine ⟨['['], by simp, rfl, .plain (by decide) .nil, fun rest' _ ↦ ?_⟩
        have hposix : posixCloses (tail ++ rest') = true :=
          (htail.posixCloses_congr _ _).trans hposix
        simp only [List.cons_append, List.nil_append]
        rw [classToken, if_pos hposix]
        exact bind_eq_ok.2 ⟨none, posixClass_none htail hclass, rfl⟩
    · rename_i hposix
      cases h
      have htail := hmore.tail (by decide) (by decide)
      refine ⟨['['], by simp, rfl, .plain (by decide) .nil, fun rest' _ ↦ ?_⟩
      have hposix : ¬posixCloses (tail ++ rest') = true :=
        fun h ↦ hposix ((htail.posixCloses_congr _ _).trans h)
      simp only [List.cons_append, List.nil_append]
      rw [classToken, if_neg hposix]
      rfl
  · rename_i hcolon
    cases h
    refine ⟨['['], by simp, rfl, .plain (by decide) .nil, fun rest' _ ↦ ?_⟩
    simp only [List.cons_append, List.nil_append]
    rw [classToken]
    · rfl
    · intro _ heq
      cases heq
      exact hcolon _ rfl
  · cases h
  · obtain ⟨piece, hpiece, hpaired, hread⟩ := escapedMember_takes h
    refine ⟨'\\' :: piece, by simp, by rw [hpiece]; rfl, hpaired, fun rest' hrest ↦ ?_⟩
    obtain ⟨e, piece, rfl, -⟩ := hpaired.of_escaped
    have hmember := hread _ (hrest.append (d :: tail))
    simp only [List.cons_append] at hmember ⊢
    rw [classToken]
    exact hmember
  · rename_i c cs hclose hhyphen hboth _ hopen _ hslash
    cases h
    refine ⟨[c], by simp, rfl, .plain (fun hc ↦ hslash _ _ hc rfl) .nil, fun rest' _ ↦ ?_⟩
    simp only [List.cons_append, List.nil_append]
    rw [classToken]
    · rfl
    · exact hclose
    · exact hhyphen
    · rintro _ hc heq
      cases heq
      exact hboth _ hc rfl
    · exact fun _ hc _ ↦ hopen hc
    · exact hopen
    · exact fun hc _ ↦ hslash _ _ hc rfl
    · exact fun _ _ hc _ ↦ hslash _ _ hc rfl

theorem classToken_close (h : classToken cs = .ok (.close, rest)) : cs = ']' :: rest := by
  rw [classToken.eq_def] at h
  split at h
  · cases h
  · cases h
    rfl
  · cases h
  · cases h
  · split at h
    · obtain ⟨found, -, h⟩ := bind_eq_ok.1 h
      split at h <;> cases h
    · cases h
  · cases h
  · cases h
  · rw [escapedMember] at h
    split at h
    · cases h
    · obtain ⟨found, -, h⟩ := bind_eq_ok.1 h
      split at h
      · cases h
      · obtain ⟨found, -, h⟩ := bind_eq_ok.1 h
        split at h
        · cases h
        · obtain ⟨_, -, h⟩ := bind_eq_ok.1 h
          cases h
  · cases h

end Closing

section Items

/-- The rest of a class is read from a text of its own. With other text after that, it is still
read, and its first piece is the same. -/
def ItemsTake (s : ClassState) (cs : List Char) (set : CharSet) (rest : List Char) : Prop :=
  ∃ w, cs = w ++ rest ∧ Paired w ∧ Closes w ∧ ∀ rest', Agree rest rest' →
    (∀ fuel, 2 * w.length ≤ fuel → classItems fuel s (w ++ rest') = .ok (set, rest')) ∧
    ∀ token more, classToken cs = .ok (token, more) →
      ∃ more', classToken (w ++ rest') = .ok (token, more')

def BodyTakes (cs : List Char) (b : Bracketed) (rest : List Char) : Prop :=
  ∃ w, cs = w ++ rest ∧ Paired w ∧ Closes w ∧ ∀ rest', Agree rest rest' →
    ∀ fuel, 2 * w.length < fuel → classBody fuel (w ++ rest') = .ok (b, rest')

variable {s : ClassState} {cs rest : List Char} {set : CharSet}

/-- One piece ahead of a text that the rest of the class is read from. -/
theorem itemsTake_of_token {token : ClassToken} {w : List Char}
    (htoken : classToken cs = .ok (token, w ++ rest)) (hpaired : Paired w) (hcloses : Closes w)
    (hnext : ∀ rest' fuel text, Agree rest rest' → 2 * w.length ≤ fuel →
      classToken text = .ok (token, w ++ rest') → classItems (fuel + 1) s text = .ok (set, rest')) :
    ItemsTake s cs set rest := by
  obtain ⟨piece, hne, hcs, hpiece, hread⟩ := classToken_takes htoken hcloses
  refine ⟨piece ++ w, by rw [hcs, List.append_assoc], hpiece.append hpaired,
    hcloses.prepend hpiece, fun rest' hrest ↦ ⟨fun fuel hfuel ↦ ?_, fun token' more hmore ↦ ?_⟩⟩
  · have hlength := List.length_pos_iff.2 hne
    rw [List.length_append] at hfuel
    obtain ⟨k, rfl⟩ := Nat.exists_eq_add_one.2 (show 0 < fuel by omega)
    refine hnext rest' k _ hrest (by omega) ?_
    rw [List.append_assoc]
    exact hread rest' hrest
  · rw [htoken] at hmore
    cases hmore
    exact ⟨_, by rw [List.append_assoc]; exact hread rest' hrest⟩

theorem pushHyphen_congr {s' : ClassState} {cs' : List Char} (h : s.pushHyphen cs = .ok s')
    (hsame : ∀ token more, classToken cs = .ok (token, more) →
      ∃ more', classToken cs' = .ok (token, more')) : s.pushHyphen cs' = .ok s' := by
  rw [ClassState.pushHyphen] at h ⊢
  cases hplace : s.place with
  | char | members =>
    rw [hplace] at h
    obtain ⟨⟨next, more⟩, hnext, h⟩ := bind_eq_ok.1 h
    obtain ⟨more', hnext'⟩ := hsame next more hnext
    exact bind_eq_ok.2 ⟨_, hnext', h⟩
  | start | range | done =>
    rw [hplace] at h
    exact h

theorem classStart_takes {mid : List Char} (h : classStart cs = .ok (s, mid)) :
    ∃ sign, cs = sign ++ mid ∧ Paired sign ∧ ∀ w rest, mid = w ++ rest → Closes w →
      ∀ rest', classStart (sign ++ (w ++ rest')) = .ok (s, w ++ rest') := by
  rw [classStart.eq_def] at h
  split at h
  · split at h
    · cases h
      refine ⟨[']'], rfl, .plain (by decide) .nil, fun w rest _ hcloses rest' ↦ ?_⟩
      rw [List.singleton_append, classStart,
        if_pos (hcloses.append rest').bracketCloses_eq_true]
      rfl
    · cases h
  · rename_i hclose
    cases h
    refine ⟨[], rfl, .nil, fun w rest heq hcloses rest' ↦ ?_⟩
    obtain ⟨c, w, rfl⟩ := hcloses.exists_cons
    rw [List.nil_append, classStart]
    · rfl
    · intro more hmore
      cases hmore
      exact hclose _ heq

theorem class_takes (fuel : Nat) :
    (∀ {s cs set rest}, classItems fuel s cs = .ok (set, rest) → ItemsTake s cs set rest) ∧
      ∀ {cs b rest}, classBody fuel cs = .ok (b, rest) → BodyTakes cs b rest := by
  induction fuel with
  | zero =>
    refine ⟨fun h ↦ ?_, fun h ↦ ?_⟩
    · rw [classItems] at h
      cases h
    · rw [classBody] at h
      cases h
  | succ fuel ih =>
    obtain ⟨ihItems, ihBody⟩ := ih
    refine ⟨fun {s cs set rest} h ↦ ?_, fun {cs b rest} h ↦ ?_⟩
    · rw [classItems] at h
      obtain ⟨⟨token, mid⟩, htoken, h⟩ := bind_eq_ok.1 h
      cases token with
      | stop => cases h
      | close =>
        cases h
        cases classToken_close htoken
        refine ⟨[']'], rfl, .plain (by decide) .nil, .close [], fun rest' _ ↦ ⟨?_, ?_⟩⟩
        · intro fuel' hfuel
          obtain ⟨k, rfl⟩ := Nat.exists_eq_add_one.2 (Nat.lt_of_lt_of_le (by decide) hfuel)
          rw [classItems]
          rfl
        · intro token more hmore
          cases hmore
          exact ⟨rest', rfl⟩
      | char c =>
        obtain ⟨s', hs, h⟩ := bind_eq_ok.1 h
        obtain ⟨w, rfl, hpaired, hcloses, hread⟩ := ihItems h
        refine itemsTake_of_token htoken hpaired hcloses fun rest' fuel' text hrest hfuel ht ↦ ?_
        rw [classItems]
        exact bind_eq_ok.2 ⟨_, ht, bind_eq_ok.2 ⟨s', hs, (hread rest' hrest).1 fuel' hfuel⟩⟩
      | members members =>
        obtain ⟨s', hs, h⟩ := bind_eq_ok.1 h
        obtain ⟨w, rfl, hpaired, hcloses, hread⟩ := ihItems h
        refine itemsTake_of_token htoken hpaired hcloses fun rest' fuel' text hrest hfuel ht ↦ ?_
        rw [classItems]
        exact bind_eq_ok.2 ⟨_, ht, bind_eq_ok.2 ⟨s', hs, (hread rest' hrest).1 fuel' hfuel⟩⟩
      | both =>
        obtain ⟨w, rfl, hpaired, hcloses, hread⟩ := ihItems h
        refine itemsTake_of_token htoken hpaired hcloses fun rest' fuel' text hrest hfuel ht ↦ ?_
        rw [classItems]
        exact bind_eq_ok.2 ⟨_, ht, (hread rest' hrest).1 fuel' hfuel⟩
      | inner =>
        obtain ⟨⟨inner, last⟩, hinner, hitems⟩ := bind_eq_ok.1 h
        obtain ⟨body, rfl, hbody, hbodyCloses, hreadBody⟩ := ihBody hinner
        obtain ⟨w, rfl, hpaired, hcloses, hread⟩ := ihItems hitems
        rw [← List.append_assoc] at htoken
        refine itemsTake_of_token htoken (hbody.append hpaired) (hbodyCloses.append w)
          fun rest' fuel' text hrest hfuel ht ↦ ?_
        rw [List.append_assoc] at ht
        rw [List.length_append] at hfuel
        have hlength : 0 < w.length := by
          obtain ⟨_, _, rfl⟩ := hcloses.exists_cons
          exact Nat.succ_pos _
        rw [classItems]
        exact bind_eq_ok.2 ⟨_, ht, bind_eq_ok.2
          ⟨_, hreadBody (w ++ rest') (hrest.append w) fuel' (by omega),
            (hread rest' hrest).1 fuel' (by omega)⟩⟩
      | hyphen =>
        -- The piece after the hyphen is looked at first, and is then read as the next one.
        obtain ⟨s', hs, h⟩ := bind_eq_ok.1 h
        obtain ⟨w, rfl, hpaired, hcloses, hread⟩ := ihItems h
        refine itemsTake_of_token htoken hpaired hcloses fun rest' fuel' text hrest hfuel ht ↦ ?_
        obtain ⟨hread, hsame⟩ := hread rest' hrest
        rw [classItems]
        exact bind_eq_ok.2 ⟨_, ht, bind_eq_ok.2 ⟨s', pushHyphen_congr hs hsame, hread fuel' hfuel⟩⟩
    · rw [classBody] at h
      obtain ⟨⟨s, mid⟩, hstart, h⟩ := bind_eq_ok.1 h
      obtain ⟨⟨set, last⟩, hitems, h⟩ := bind_eq_ok.1 h
      cases h
      obtain ⟨sign, hcs, hsign, hreadSign⟩ := classNegation_takes cs
      obtain ⟨first, hmid, hfirst, hreadFirst⟩ := classStart_takes hstart
      obtain ⟨w, rfl, hpaired, hcloses, hread⟩ := ihItems hitems
      rw [hmid] at hcs hreadSign
      have hbody := hcloses.prepend hfirst
      refine ⟨sign ++ (first ++ w), by simpa using hcs, hsign.append (hfirst.append hpaired),
        hbody.prepend hsign, fun rest' hrest fuel' hfuel ↦ ?_⟩
      simp only [List.length_append] at hfuel
      obtain ⟨k, rfl⟩ := Nat.exists_eq_add_one.2 (Nat.zero_lt_of_lt hfuel)
      have hnegation := hreadSign (first ++ (w ++ rest')) (by
        obtain ⟨c, more, hmore⟩ := hbody.exists_cons
        rw [← List.append_assoc, ← List.append_assoc, hmore]
        rfl)
      simp only [List.append_assoc]
      rw [classBody, hnegation]
      exact bind_eq_ok.2 ⟨_, hreadFirst w rest rfl hcloses rest',
        bind_eq_ok.2 ⟨_, (hread rest' hrest).1 k (by omega), rfl⟩⟩

theorem classBody_takes {b : Bracketed} (h : classBody (2 * cs.length + 2) cs = .ok (b, rest)) :
    Takes (fun cs ↦ classBody (2 * cs.length + 2) cs) (fun rest ↦ (b, rest)) cs rest := by
  obtain ⟨w, hcs, -, -, hread⟩ := (class_takes _).2 h
  refine ⟨w, hcs, fun rest' hrest ↦ hread rest' hrest _ ?_⟩
  rw [List.length_append]
  omega

end Items

end SyntaxHighlight.Regex
