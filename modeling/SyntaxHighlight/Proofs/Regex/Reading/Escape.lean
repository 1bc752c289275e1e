import SyntaxHighlight.Proofs.Regex.Reading.Piece

/-! What belongs to a backslash is read off the front of the text after it. -/
namespace SyntaxHighlight.Regex

open Unicode

section Bytes

variable {cs rest : List Char}

theorem byteEscape?_takes {byte : Nat} (h : byteEscape? cs = .ok (some (byte, rest))) :
    TakesEscaped byteEscape? (fun rest ↦ some (byte, rest)) cs rest := by
  rw [byteEscape?.eq_def] at h
  split at h
  · split at h
    rename_i hspan
    cases h
    obtain ⟨rfl, hall, hread⟩ := spanAtMost_takes hspan isHexDigit_not_stops
    refine ⟨'x' :: _, rfl, .escaped _ (.of_forall hall isHexDigit_not_stops),
      fun rest' hrest ↦ ?_⟩
    rw [List.cons_append, byteEscape?, hread rest' hrest]
    rfl
  · split at h
    rename_i hspan
    cases h
    obtain ⟨rfl, hall, hread⟩ := spanAtMost_takes hspan isOctalDigit_not_stops
    refine ⟨'0' :: _, rfl, .escaped _ (.of_forall hall isOctalDigit_not_stops),
      fun rest' hrest ↦ ?_⟩
    rw [List.cons_append, byteEscape?, hread rest' hrest]
    rfl
  · rename_i c cs hx h0
    split at h
    · rename_i hoctal
      split at h
      rename_i digits rest hspan
      dsimp only at h
      split at h
      · cases h
      · rename_i hle
        cases h
        obtain ⟨hcs, hall, hread⟩ := spanAtMost_takes hspan isOctalDigit_not_stops
        rw [spanAtMost, if_pos hoctal] at hspan
        cases hspan
        have hall (d : Char) (hd : d ∈ (spanAtMost isOctalDigit 2 cs).1) :=
          hall d (List.mem_cons_of_mem c hd)
        refine ⟨c :: _, hcs, .escaped c (.of_forall hall isOctalDigit_not_stops),
          fun rest' hrest ↦ ?_⟩
        rw [List.cons_append, byteEscape?, if_pos hoctal]
        have hdigits := hread rest' hrest
        rw [List.cons_append] at hdigits
        rw [hdigits]
        dsimp only
        rw [if_neg hle]
        rfl
        · exact hx
        · exact h0
    · cases h
  · cases h

theorem byteEscape?_none {c : Char} {cs' : List Char} (h : byteEscape? (c :: cs) = .ok none) :
    byteEscape? (c :: cs') = .ok none := by
  rw [byteEscape?.eq_def] at h
  split at h
  · cases h
  · cases h
  · rename_i hx h0 heq
    split at h
    · dsimp only at h
      split at h <;> cases h
    · rename_i hoctal
      cases heq
      rw [byteEscape?, if_neg hoctal]
      · rfl
      · exact hx
      · exact h0
  · rename_i heq
    cases heq

theorem followingBytes_takes {n : Nat} {bytes : List Nat}
    (h : followingBytes n cs = .ok (bytes, rest)) :
    ∃ piece, cs = piece ++ rest ∧ Paired piece ∧
      ∀ rest', Agree rest rest' → followingBytes n (piece ++ rest') = .ok (bytes, rest') := by
  induction n generalizing cs bytes with
  | zero =>
    cases h
    exact ⟨[], rfl, .nil, fun rest' _ ↦ rfl⟩
  | succ n ih =>
    rw [followingBytes.eq_def] at h
    split at h
    · rename_i heq
      cases heq
    · rename_i heq
      cases heq
      obtain ⟨found, hbyte, h⟩ := bind_eq_ok.1 h
      split at h
      · obtain ⟨⟨others, last⟩, hothers, h⟩ := bind_eq_ok.1 h
        cases h
        obtain ⟨first, rfl, hpaired, hfirst⟩ := byteEscape?_takes hbyte
        obtain ⟨piece, rfl, hpaired', hpiece⟩ := ih hothers
        refine ⟨'\\' :: (first ++ piece), by simp, hpaired.append hpaired', fun rest' hrest ↦ ?_⟩
        have hothers := hpiece rest' hrest
        rw [List.cons_append, List.append_assoc, followingBytes, hfirst _ (hrest.append piece)]
        exact bind_eq_ok.2 ⟨_, rfl, bind_eq_ok.2 ⟨_, hothers, rfl⟩⟩
      · cases h
    · cases h

theorem charOfBytes_takes {byte : Nat} {c : Char} (h : charOfBytes byte cs = .ok (c, rest)) :
    ∃ piece, cs = piece ++ rest ∧ Paired piece ∧
      ∀ rest', Agree rest rest' → charOfBytes byte (piece ++ rest') = .ok (c, rest') := by
  obtain ⟨⟨bytes, last⟩, hbytes, h⟩ := bind_eq_ok.1 h
  dsimp only at h
  split at h
  · rename_i hdecode
    cases h
    obtain ⟨piece, rfl, hpaired, hpiece⟩ := followingBytes_takes hbytes
    refine ⟨piece, rfl, hpaired, fun rest' hrest ↦ bind_eq_ok.2 ⟨_, hpiece rest' hrest, ?_⟩⟩
    dsimp only
    rw [hdecode]
    rfl
  · cases h

end Bytes

section Characters

variable {cs rest : List Char} {c : Char}

section Typed

variable {fuel : Nat}

/-- How a character is typed, after a backslash. -/
inductive Typed (fuel : Nat) : List Char → Char → List Char → Prop
  | raised {cs rest : List Char} {c : Char} : typedChar.operand fuel cs = .ok (c, rest) →
      Typed fuel ('M' :: '-' :: cs) (Char.ofNat (c.toNat % 128 + 128)) rest
  | control {cs rest : List Char} {c : Char} : typedChar.control fuel cs = .ok (c, rest) →
      Typed fuel ('C' :: '-' :: cs) c rest
  | short {cs rest : List Char} {c : Char} : typedChar.control fuel cs = .ok (c, rest) →
      Typed fuel ('c' :: cs) c rest
  | plain {c : Char} {cs : List Char} : c ≠ 'c' ∧ c ≠ 'C' ∧ c ≠ 'M' →
      Typed fuel (c :: cs) (escapedChar c) cs

theorem typedChar_eq_ok : typedChar (fuel + 1) cs = .ok (c, rest) ↔ Typed fuel cs c rest := by
  refine ⟨fun h ↦ ?_, fun h ↦ ?_⟩
  · rw [typedChar.eq_def] at h
    split at h
    · cases h
    · cases h
    · rename_i heq
      cases heq
      split at h
      · cases h
      · cases h
      · obtain ⟨⟨e, last⟩, he, h⟩ := bind_eq_ok.1 h
        cases h
        exact .raised he
      · cases h
    · rename_i heq
      cases heq
      split at h
      · cases h
      · exact .control h
      · cases h
    · rename_i heq
      cases heq
      exact .short h
    · rename_i hM hC hc
      cases h
      exact .plain ⟨hc _ rfl, hC _ rfl, hM _ rfl⟩
  · cases h with
    | raised h =>
      rw [typedChar]
      · exact bind_eq_ok.2 ⟨_, h, rfl⟩
      · rintro ⟨⟩
        rw [typedChar.operand] at h
        cases h
    | control h | short h =>
      rw [typedChar]
      exact h
    | plain hc =>
      rw [typedChar]
      · rfl
      · exact Nat.succ_ne_zero _
      · exact fun _ _ ↦ hc.2.2
      · exact fun _ _ ↦ hc.2.1
      · exact fun _ _ ↦ hc.1

theorem operand_eq_ok : typedChar.operand fuel cs = .ok (c, rest) ↔
    (∃ typed, cs = '\\' :: typed ∧ typedChar fuel typed = .ok (c, rest)) ∨
      c ≠ '\\' ∧ cs = c :: rest := by
  refine ⟨fun h ↦ ?_, ?_⟩
  · rw [typedChar.operand.eq_def] at h
    split at h
    · exact .inl ⟨_, rfl, h⟩
    · rename_i hne
      cases h
      exact .inr ⟨hne, rfl⟩
    · cases h
  · rintro (⟨typed, rfl, h⟩ | ⟨hne, rfl⟩)
    · rw [typedChar.operand, h]
    · rw [typedChar.operand]
      · rfl
      · exact hne

theorem control_eq_ok : typedChar.control fuel cs = .ok (c, rest) ↔
    cs = '?' :: rest ∧ c = '\x7f' ∨ cs.head? ≠ some '?' ∧
      ∃ e, typedChar.operand fuel cs = .ok (e, rest) ∧
        c = Char.ofNat (e.toNat % 32 + e.toNat / 128 % 2 * 128) := by
  refine ⟨fun h ↦ ?_, ?_⟩
  · rw [typedChar.control.eq_def] at h
    split at h
    · cases h
    · cases h
      exact .inl ⟨rfl, rfl⟩
    · rename_i hnil hquestion
      obtain ⟨⟨e, last⟩, he, h⟩ := bind_eq_ok.1 h
      cases h
      refine .inr ⟨fun hhead ↦ ?_, e, he, rfl⟩
      obtain ⟨more, rfl⟩ := List.head?_eq_some_iff.1 hhead
      exact hquestion _ rfl
  · rintro (⟨rfl, rfl⟩ | ⟨hhead, e, he, rfl⟩)
    · rw [typedChar.control]
      rfl
    · rw [typedChar.control]
      · exact bind_eq_ok.2 ⟨_, he, rfl⟩
      · rintro rfl
        rw [typedChar.operand] at he
        cases he
      · rintro more rfl
        exact hhead rfl

/-- What is typed is read off the front of the text, whatever follows and if there is fuel for it. -/
def TakesTyped (read : Nat → List Char → Except PatternError (Char × List Char)) (c : Char)
    (cs rest : List Char) : Prop :=
  ∃ d piece, cs = d :: piece ++ rest ∧ Paired (d :: piece) ∧ ∀ fuel rest', piece.length ≤ fuel →
    read fuel (d :: piece ++ rest') = .ok (c, rest')

section Operands

variable (htyped : ∀ {cs rest : List Char} {c : Char}, typedChar fuel cs = .ok (c, rest) →
  ∃ d piece, cs = d :: piece ++ rest ∧ Paired piece ∧ ∀ fuel' rest', piece.length < fuel' →
    typedChar fuel' (d :: piece ++ rest') = .ok (c, rest'))
include htyped

theorem operand_takes (h : typedChar.operand fuel cs = .ok (c, rest)) :
    TakesTyped typedChar.operand c cs rest := by
  obtain ⟨typed, rfl, hread⟩ | ⟨hne, rfl⟩ := operand_eq_ok.1 h
  · obtain ⟨d, piece, rfl, hpaired, hread⟩ := htyped hread
    exact ⟨'\\', d :: piece, rfl, .escaped d hpaired, fun fuel' rest' hle ↦
      operand_eq_ok.2 (.inl ⟨_, rfl, hread fuel' rest' hle⟩)⟩
  · exact ⟨c, [], rfl, .plain hne .nil, fun fuel' rest' _ ↦ operand_eq_ok.2 (.inr ⟨hne, rfl⟩)⟩

theorem control_takes (h : typedChar.control fuel cs = .ok (c, rest)) :
    TakesTyped typedChar.control c cs rest := by
  obtain ⟨rfl, rfl⟩ | ⟨hhead, e, he, rfl⟩ := control_eq_ok.1 h
  · exact ⟨'?', [], rfl, .plain (by decide) .nil, fun fuel' rest' _ ↦
      control_eq_ok.2 (.inl ⟨rfl, rfl⟩)⟩
  · obtain ⟨d, piece, rfl, hpaired, hread⟩ := operand_takes htyped he
    exact ⟨d, piece, rfl, hpaired, fun fuel' rest' hle ↦
      control_eq_ok.2 (.inr ⟨hhead, e, hread fuel' rest' hle, rfl⟩)⟩

end Operands

theorem typedChar_takes (h : typedChar fuel cs = .ok (c, rest)) :
    ∃ d piece, cs = d :: piece ++ rest ∧ Paired piece ∧ ∀ fuel' rest', piece.length < fuel' →
      typedChar fuel' (d :: piece ++ rest') = .ok (c, rest') := by
  induction fuel generalizing cs c rest with
  | zero =>
    rw [typedChar] at h
    cases h
  | succ fuel ih =>
    have hread {d : Char} {piece : List Char}
        (h : ∀ fuel rest', piece.length ≤ fuel → Typed fuel (d :: piece ++ rest') c rest') :
        ∀ fuel' rest', piece.length < fuel' →
          typedChar fuel' (d :: piece ++ rest') = .ok (c, rest') := by
      intro fuel' rest' hlt
      obtain ⟨k, rfl⟩ := Nat.exists_eq_add_one.2 (Nat.zero_lt_of_lt hlt)
      exact typedChar_eq_ok.2 (h k rest' (Nat.le_of_lt_succ hlt))
    cases typedChar_eq_ok.1 h with
    | raised h =>
      obtain ⟨d, piece, rfl, hpaired, hpiece⟩ := operand_takes ih h
      refine ⟨'M', '-' :: d :: piece, rfl, .plain (by decide) hpaired, hread fun k rest' hle ↦ ?_⟩
      exact .raised (hpiece k rest' (Nat.le_of_succ_le (Nat.le_of_succ_le hle)))
    | control h =>
      obtain ⟨d, piece, rfl, hpaired, hpiece⟩ := control_takes ih h
      refine ⟨'C', '-' :: d :: piece, rfl, .plain (by decide) hpaired, hread fun k rest' hle ↦ ?_⟩
      exact .control (hpiece k rest' (Nat.le_of_succ_le (Nat.le_of_succ_le hle)))
    | short h =>
      obtain ⟨d, piece, rfl, hpaired, hpiece⟩ := control_takes ih h
      refine ⟨'c', d :: piece, rfl, hpaired, hread fun k rest' hle ↦ ?_⟩
      exact .short (hpiece k rest' (Nat.le_of_succ_le hle))
    | plain hc => exact ⟨_, [], rfl, .nil, hread fun k rest' _ ↦ .plain hc⟩

end Typed

theorem spelledChar_takes (h : spelledChar cs = .ok (c, rest)) :
    TakesEscaped spelledChar (fun rest ↦ (c, rest)) cs rest := by
  obtain ⟨found, hbyte, hchar⟩ := bind_eq_ok.1 h
  split at hchar
  · obtain ⟨first, rfl, hpaired, hfirst⟩ := byteEscape?_takes hbyte
    obtain ⟨piece, rfl, hpaired', hpiece⟩ := charOfBytes_takes hchar
    refine ⟨first ++ piece, by simp, hpaired.append hpaired', fun rest' hrest ↦ ?_⟩
    rw [List.append_assoc]
    exact bind_eq_ok.2 ⟨_, hfirst _ (hrest.append piece), hpiece rest' hrest⟩
  · obtain ⟨d, piece, rfl, hpaired, hpiece⟩ := typedChar_takes hchar
    refine ⟨d :: piece, rfl, .escaped d hpaired, fun rest' _ ↦ bind_eq_ok.2 ⟨none, ?_, ?_⟩⟩
    · exact byteEscape?_none hbyte
    · exact hpiece _ rest' (by simp only [List.length_append, List.length_cons]; omega)

/-- What is not left out of a property's name, and is not written as another letter, is a letter or a
digit, as all of the names in the table are. -/
theorem isAlphanum_of_lookup {name : List Char} {p : Property}
    (h : propertyNames.lookup (normalizedName name) = some p) (hc : c ∈ name)
    (hkept : (c != ' ' && c != '-' && c != '_') = true) (hfold : simpleFold c = c) :
    c.isAlphanum = true := by
  obtain ⟨ahead, behind, hnames, -⟩ := List.lookup_eq_some_iff.1 h
  have hmem : (normalizedName name, p) ∈ propertyNames := by simp [hnames]
  have hplain : propertyNames.all fun entry ↦ entry.1.toList.all Char.isAlphanum := by
    decide +kernel
  refine List.all_eq_true.1 (List.all_eq_true.1 hplain _ hmem) c ?_
  rw [normalizedName, String.toList_ofList]
  exact List.mem_map.2 ⟨c, List.mem_filter.2 ⟨hc, hkept⟩, hfold⟩

theorem lookup_noBackslash {name : List Char} {p : Property}
    (h : propertyNames.lookup (normalizedName name) = some p) : '\\' ∉ name := by
  intro hname
  exact absurd (isAlphanum_of_lookup h hname rfl rfl) (by decide)

theorem namedProperty_takes {negated : Bool} {set : CharSet}
    (h : namedProperty negated cs = .ok (set, rest)) :
    ∃ name, cs = name ++ '\x7d' :: rest ∧ '\\' ∉ name ∧
      ∀ rest', namedProperty negated (name ++ '\x7d' :: rest') = .ok (set, rest') := by
  rw [namedProperty] at h
  split at h
  rename_i name last hspan
  obtain ⟨rfl, -, -, hread⟩ := span_takes hspan
  split at h
  · split at h
    · rename_i hlookup
      cases h
      refine ⟨name, rfl, lookup_noBackslash hlookup, fun rest' ↦ ?_⟩
      rw [namedProperty, hread _ rfl]
      dsimp only
      rw [hlookup]
      rfl
    · cases h
  · cases h
  · cases h

theorem propertyClass_takes {negated : Bool} {set : CharSet}
    (h : propertyClass negated cs = .ok (set, rest)) :
    ∃ piece, cs = piece ++ rest ∧ '\\' ∉ piece ∧
      ∀ rest', propertyClass negated (piece ++ rest') = .ok (set, rest') := by
  rw [propertyClass.eq_def] at h
  split at h
  · obtain ⟨name, rfl, hname, hread⟩ := namedProperty_takes h
    refine ⟨'^' :: (name ++ ['\x7d']), by simp, by simp [hname], fun rest' ↦ ?_⟩
    simpa [propertyClass] using hread rest'
  · rename_i hcaret
    obtain ⟨name, rfl, hname, hread⟩ := namedProperty_takes h
    refine ⟨name ++ ['\x7d'], by simp, by simp [hname], fun rest' ↦ ?_⟩
    rw [List.append_assoc, List.singleton_append, propertyClass]
    · exact hread rest'
    · cases name with
      | nil => exact nofun
      | cons c name =>
        intro _ heq
        cases heq
        exact hcaret _ rfl

theorem escapedProperty?_takes {set : CharSet}
    (h : escapedProperty? cs = .ok (some (set, rest))) :
    TakesEscaped escapedProperty? (fun rest ↦ some (set, rest)) cs rest := by
  rw [escapedProperty?.eq_def] at h
  split at h
  · rename_i c body
    split at h
    · rename_i hc
      obtain ⟨⟨set, last⟩, hset, hfound⟩ := map_eq_ok.1 h
      cases hfound
      obtain ⟨piece, rfl, hpiece, hread⟩ := propertyClass_takes hset
      refine ⟨c :: '\x7b' :: piece, rfl, .escaped c (.plain (by decide) (.of_notMem hpiece)),
        fun rest' _ ↦ ?_⟩
      simp only [List.cons_append]
      rw [escapedProperty?, if_pos hc, hread rest']
      rfl
    · cases h
  · cases h

theorem escapedProperty?_none {cs' : List Char} (h : escapedProperty? (c :: cs) = .ok none)
    (hagree : Agree cs cs') : escapedProperty? (c :: cs') = .ok none := by
  rw [escapedProperty?.eq_def]
  split
  · rename_i heq
    cases heq
    split
    · rename_i hc
      obtain ⟨u, rfl, -⟩ := hagree.symm.of_cons (by decide)
      rw [escapedProperty?, if_pos hc] at h
      obtain ⟨_, -, hnone⟩ := map_eq_ok.1 h
      cases hnone
    · rfl
  · rfl

/-- Nothing in braces is read as a code point where there are no digits or where they are followed
by something else than a brace. -/
theorem braced_eq_none {base most : Nat} {p more : Char → Bool} {digits : List Char}
    (hspan : spanAtMost p most cs = (digits, rest))
    (h : digits = [] ∨ rest.head?.any (fun d ↦ d == '\x7d' || more d) = false) :
    codePointEscape?.braced base p more most cs = .ok none := by
  rw [codePointEscape?.braced, hspan]
  cases digits with
  | nil => rfl
  | cons e digits =>
    cases rest with
    | nil => rfl
    | cons d rest =>
      have hd : (d == '\x7d' || more d) = false := h.resolve_left (List.cons_ne_nil _ _)
      obtain ⟨hclose, hmore⟩ := Bool.or_eq_false_iff.1 hd
      split
      · rename_i heq
        cases heq
      · rename_i heq
        cases heq
        cases hclose
      · rename_i heq
        cases heq
        rw [hmore]
        rfl
      · rfl

theorem braced_none {base most : Nat} {p more : Char → Bool} {cs' : List Char}
    (hp : ∀ c, p c = true → ¬Stops [c]) (hmore : ∀ c, more c = true → ¬Stops [c])
    (h : codePointEscape?.braced base p more most cs = .ok none) (hagree : Agree cs cs') :
    codePointEscape?.braced base p more most cs' = .ok none := by
  have hclose (d : Char) (h : (d == '\x7d' || more d) = true) : ¬Stops [d] := by
    obtain h | h := (Bool.or_eq_true _ _).mp h
    · cases eq_of_beq h
      decide
    · exact hmore d h
  have hfound : ∃ digits rest, spanAtMost p most cs = (digits, rest) ∧
      (digits = [] ∨ rest.head?.any (fun d ↦ d == '\x7d' || more d) = false) := by
    rw [codePointEscape?.braced.eq_def] at h
    split at h
    · rename_i hspan
      exact ⟨[], _, hspan, .inl rfl⟩
    · obtain ⟨_, -, hnone⟩ := bind_eq_ok.1 h
      cases hnone
    · rename_i d rest _ hd hspan
      split at h
      · cases h
      · rename_i hmore
        refine ⟨_, d :: rest, hspan, .inr ?_⟩
        have hd : d ≠ '\x7d' := hd
        simpa [hd] using hmore
    · rename_i hspan
      exact ⟨_, [], hspan, .inr rfl⟩
  obtain ⟨digits, rest, hspan, hnone⟩ := hfound
  obtain ⟨rfl, hall, hread⟩ := spanAtMost_takes hspan hp
  obtain ⟨last, rfl, hlast⟩ := hagree.of_append fun e he ↦ hp e (hall e he)
  exact braced_eq_none (hread last hlast) (hnone.imp_right (hlast.head_any_eq_false hclose))

theorem braced_takes {base most : Nat} {p more : Char → Bool}
    (hp : ∀ c, p c = true → ¬Stops [c])
    (h : codePointEscape?.braced base p more most cs = .ok (some (c, rest))) :
    ∃ piece, cs = piece ++ rest ∧ Paired piece ∧ ∀ rest', Agree rest rest' →
      codePointEscape?.braced base p more most (piece ++ rest') = .ok (some (c, rest')) := by
  rw [codePointEscape?.braced.eq_def] at h
  split at h
  · cases h
  · rename_i digits last hne hspan
    obtain ⟨d, hd, hfound⟩ := bind_eq_ok.1 h
    cases hfound
    obtain ⟨rfl, hall, hread⟩ := spanAtMost_takes hspan hp
    refine ⟨digits ++ ['\x7d'], by simp,
      (Paired.of_forall hall hp).append (.plain (by decide) .nil), fun rest' hrest ↦ ?_⟩
    rw [List.append_assoc, List.singleton_append, codePointEscape?.braced,
      hread _ (.cons _ hrest)]
    cases digits with
    | nil => exact absurd rfl hne
    | cons => exact bind_eq_ok.2 ⟨_, hd, rfl⟩
  · split at h <;> cases h
  · cases h

theorem codePointEscape?_takes (h : codePointEscape? cs = .ok (some (c, rest))) :
    TakesEscaped codePointEscape? (fun rest ↦ some (c, rest)) cs rest := by
  rw [codePointEscape?.eq_def] at h
  split at h
  · obtain ⟨piece, rfl, hpaired, hpiece⟩ := braced_takes isHexDigit_not_stops h
    exact ⟨'x' :: '\x7b' :: piece, rfl, .escaped _ (.plain (by decide) hpaired), hpiece⟩
  · obtain ⟨piece, rfl, hpaired, hpiece⟩ := braced_takes isOctalDigit_not_stops h
    exact ⟨'o' :: '\x7b' :: piece, rfl, .escaped _ (.plain (by decide) hpaired), hpiece⟩
  · split at h
    rename_i digits last hspan
    split at h
    · cases h
    · rename_i hlength
      obtain ⟨d, hd, hfound⟩ := bind_eq_ok.1 h
      cases hfound
      obtain ⟨rfl, hall, hread⟩ := spanAtMost_takes hspan isHexDigit_not_stops
      refine ⟨'u' :: digits, rfl, .escaped _ (.of_forall hall isHexDigit_not_stops),
        fun rest' hrest ↦ ?_⟩
      rw [List.cons_append, codePointEscape?, hread rest' hrest]
      dsimp only
      rw [if_neg hlength]
      exact bind_eq_ok.2 ⟨_, hd, rfl⟩
  · cases h

theorem codePointEscape?_none {cs' : List Char} (h : codePointEscape? (c :: cs) = .ok none)
    (hagree : Agree cs cs') : codePointEscape? (c :: cs') = .ok none := by
  rw [codePointEscape?.eq_def]
  split
  · rename_i heq
    cases heq
    obtain ⟨u, rfl, hu⟩ := hagree.symm.of_cons (by decide)
    exact braced_none isHexDigit_not_stops isHexDigit_not_stops h hu.symm
  · rename_i heq
    cases heq
    obtain ⟨u, rfl, hu⟩ := hagree.symm.of_cons (by decide)
    exact braced_none isOctalDigit_not_stops isAsciiDigit_not_stops h hu.symm
  · rename_i heq
    cases heq
    rw [codePointEscape?] at h
    dsimp only at h
    split at h
    · cases h
    · obtain ⟨_, -, hfound⟩ := bind_eq_ok.1 h
      cases hfound
  · rfl

end Characters

end SyntaxHighlight.Regex
