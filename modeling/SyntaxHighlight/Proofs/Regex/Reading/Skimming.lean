import Mathlib
import SyntaxHighlight.Proofs.Regex.Reading.Growth
import SyntaxHighlight.Proofs.Regex.Reading.Skim

/-!
What is read of a source, a look at it passes over. So the look tells where the reader closes a
group, and how many groups it has opened by then.
-/
namespace SyntaxHighlight.Regex

open Unicode

/-- The look gets from one place to another, whatever follows. -/
def Passes (stage : Stage) (cs rest : List Char) : Prop :=
  ∀ q more, skim q stage (cs ++ more) = skim q .plain (rest ++ more)

section Escapes

variable {q : Skim} {stage : Stage} {cs mid rest piece : List Char} {c d : Char}

theorem Passes.trans (h : Passes stage cs mid) (h' : Passes .plain mid rest) :
    Passes stage cs rest := fun q more ↦ (h q more).trans (h' q more)

theorem passes_inert (h : ∀ c ∈ piece, isInert c = true) : Passes .plain (piece ++ rest) rest :=
  fun q more ↦ by rw [List.append_assoc, skim_inert h]

theorem Passes.refl (cs : List Char) : Passes .plain cs cs := fun _ _ ↦ rfl

theorem passes_cons {c : Char} (hc : isInert c = true) (h : Passes .plain cs rest) :
    Passes .plain (c :: cs) rest := by
  have hpiece : ∀ d ∈ [c], isInert d = true := by simpa using hc
  exact Passes.trans (passes_inert hpiece) h

theorem passes_letter (h : c ≠ 'c' ∧ c ≠ 'C' ∧ c ≠ 'M') : Passes .escape (c :: cs) cs := by
  intro q more
  rw [List.cons_append, skim_cons (ends?_of_stage (by decide)), Skim.step, if_neg h.1,
    if_neg (not_or.2 h.2)]

theorem isHexDigit_inert (hc : isHexDigit c = true) : isInert c = true :=
  isInert_of ⟨rfl, rfl, rfl, rfl, rfl⟩ hc

theorem isOctalDigit_inert (hc : isOctalDigit c = true) : isInert c = true :=
  isInert_of ⟨rfl, rfl, rfl, rfl, rfl⟩ hc

theorem passes_spanAtMost {p : Char → Bool} {most : Nat} {digits : List Char}
    (hp : ∀ c, p c = true → ¬Stops [c]) (hinert : ∀ {c}, p c = true → isInert c = true)
    (h : spanAtMost p most cs = (digits, rest)) : Passes .plain cs rest := by
  obtain ⟨rfl, hall, -⟩ := spanAtMost_takes h hp
  exact passes_inert fun c hc ↦ hinert (hall c hc)

/-- A backslash, unless it resets the match or calls a group. -/
theorem skim_slash (h : strays cs = false) : skim q .plain ('\\' :: cs) = skim q .escape cs := by
  have hstart : q.start '\\' cs = (q, .escape) := by
    rw [Skim.start]
    split
    · rw [Skim.outside, h, Bool.or_false]
    · rfl
  rw [skim_cons ends?_slash, Skim.step, hstart]

theorem byteEscape?_passes {byte : Nat} (h : byteEscape? cs = .ok (some (byte, rest))) :
    Passes .escape cs rest ∧ ∀ more, strays (cs ++ more) = false := by
  rw [byteEscape?.eq_def] at h
  split at h
  · split at h
    rename_i hspan
    cases h
    exact ⟨(passes_letter (by decide)).trans
      (passes_spanAtMost isHexDigit_not_stops isHexDigit_inert hspan), fun _ ↦ rfl⟩
  · split at h
    rename_i hspan
    cases h
    exact ⟨(passes_letter (by decide)).trans
      (passes_spanAtMost isOctalDigit_not_stops isOctalDigit_inert hspan), fun _ ↦ rfl⟩
  · rename_i c cs _ _
    split at h
    · rename_i hoctal
      split at h
      rename_i digits last hspan
      dsimp only at h
      split at h
      · cases h
      · cases h
        have hdigits := hspan
        rw [spanAtMost, if_pos hoctal] at hdigits
        cases hdigits
        have hne (d : Char) (hd : isOctalDigit d = false) : c ≠ d := by
          rintro rfl
          rw [hd] at hoctal
          cases hoctal
        refine ⟨(passes_letter ⟨hne _ rfl, hne _ rfl, hne _ rfl⟩).trans
          (passes_spanAtMost isOctalDigit_not_stops isOctalDigit_inert (rfl)),
          fun more ↦ ?_⟩
        rw [List.cons_append, strays] <;> rintro _ heq <;>
          exact hne _ rfl (List.cons.inj heq).1
    · cases h
  · cases h

theorem followingBytes_passes {n : Nat} {bytes : List Nat}
    (h : followingBytes n cs = .ok (bytes, rest)) : Passes .plain cs rest := by
  induction n generalizing cs bytes with
  | zero =>
    cases h
    exact fun _ _ ↦ rfl
  | succ n ih =>
    rw [followingBytes.eq_def] at h
    split at h
    · rename_i heq
      cases heq
    · rename_i heq
      cases heq
      obtain ⟨found, hbyte, h⟩ := bind_eq_ok.1 h
      split at h
      · obtain ⟨⟨others, last⟩, hothers, h⟩ := bind_eq_ok.1 h
        cases h
        obtain ⟨hpasses, hstrays⟩ := byteEscape?_passes hbyte
        intro q more
        rw [List.cons_append, skim_slash (hstrays more)]
        exact hpasses.trans (ih hothers) q more
      · cases h
    · cases h

theorem charOfBytes_passes {byte : Nat} (h : charOfBytes byte cs = .ok (c, rest)) :
    Passes .plain cs rest := by
  obtain ⟨⟨bytes, last⟩, hbytes, h⟩ := bind_eq_ok.1 h
  dsimp only at h
  split at h
  · cases h
    exact followingBytes_passes hbytes
  · cases h

theorem passes_hyphen (h : Passes .operand cs rest) : Passes .hyphen ('-' :: cs) rest := by
  intro q more
  rw [List.cons_append, skim_cons (ends?_of_stage (by decide))]
  exact h q more

theorem typedChar_passes {fuel : Nat} (h : typedChar fuel cs = .ok (c, rest)) :
    Passes .escape cs rest := by
  induction fuel generalizing cs c rest with
  | zero =>
    rw [typedChar] at h
    cases h
  | succ fuel ih =>
    have hoperand {cs rest : List Char} {c : Char}
        (h : typedChar.operand fuel cs = .ok (c, rest)) : Passes .operand cs rest := by
      intro q more
      obtain ⟨typed, rfl, hread⟩ | ⟨hslash, rfl⟩ := operand_eq_ok.1 h
      · rw [List.cons_append, skim_cons (ends?_of_stage (by decide))]
        exact ih hread q more
      · rw [List.cons_append, skim_cons (ends?_of_stage (by decide)), Skim.step, if_neg hslash]
    have hcontrol {cs rest : List Char} {c : Char}
        (h : typedChar.control fuel cs = .ok (c, rest)) : Passes .operand cs rest := by
      obtain ⟨rfl, -⟩ | ⟨-, e, he, -⟩ := control_eq_ok.1 h
      · exact fun q more ↦ skim_cons (ends?_of_stage (by decide))
      · exact hoperand he
    have hletter {next : Stage} {c : Char} {cs : List Char}
        (hstep : ∀ q cs, Skim.step q .escape c cs = (q, next)) (h : Passes next cs rest) :
        Passes .escape (c :: cs) rest := by
      intro q more
      rw [List.cons_append, skim_cons (ends?_of_stage (by decide)), hstep]
      exact h q more
    cases typedChar_eq_ok.1 h with
    | raised h => exact hletter (fun _ _ ↦ rfl) (passes_hyphen (hoperand h))
    | control h => exact hletter (fun _ _ ↦ rfl) (passes_hyphen (hcontrol h))
    | short h => exact hletter (fun _ _ ↦ rfl) (hcontrol h)
    | plain hc => exact passes_letter hc

theorem spelledChar_passes (h : spelledChar cs = .ok (c, rest)) : Passes .escape cs rest := by
  obtain ⟨found, hbyte, hchar⟩ := bind_eq_ok.1 h
  split at hchar
  · exact (byteEscape?_passes hbyte).1.trans (charOfBytes_passes hchar)
  · exact typedChar_passes hchar

theorem braced_passes {base most : Nat} {p more : Char → Bool}
    (hp : ∀ c, p c = true → ¬Stops [c]) (hinert : ∀ {c}, p c = true → isInert c = true)
    (h : codePointEscape?.braced base p more most cs = .ok (some (c, rest))) :
    Passes .plain cs rest := by
  rw [codePointEscape?.braced.eq_def] at h
  split at h
  · cases h
  · rename_i hspan
    obtain ⟨d, -, hfound⟩ := bind_eq_ok.1 h
    cases hfound
    exact (passes_spanAtMost hp hinert hspan).trans (passes_cons (by decide) (.refl _))
  · split at h <;> cases h
  · cases h

theorem codePointEscape?_passes (h : codePointEscape? cs = .ok (some (c, rest))) :
    Passes .escape cs rest := by
  have hbrace {cs : List Char} : Passes .plain ('\x7b' :: cs) cs :=
    passes_cons (by decide) (.refl cs)
  rw [codePointEscape?.eq_def] at h
  split at h
  · exact ((passes_letter (by decide)).trans hbrace).trans
      (braced_passes isHexDigit_not_stops isHexDigit_inert h)
  · exact ((passes_letter (by decide)).trans hbrace).trans
      (braced_passes isOctalDigit_not_stops isOctalDigit_inert h)
  · split at h
    rename_i hspan
    split at h
    · cases h
    · obtain ⟨d, -, hfound⟩ := bind_eq_ok.1 h
      cases hfound
      exact (passes_letter (by decide)).trans
        (passes_spanAtMost isHexDigit_not_stops isHexDigit_inert hspan)
  · cases h

theorem escapedLiteral_passes (h : escapedLiteral cs = .ok (c, rest)) : Passes .escape cs rest := by
  obtain ⟨found, hfound, hchar⟩ := bind_eq_ok.1 h
  cases found with
  | some found =>
    cases hchar
    exact codePointEscape?_passes hfound
  | none =>
    dsimp only at hchar
    split at hchar
    · cases hchar
      exact passes_letter (by decide)
    · exact spelledChar_passes hchar

theorem lookup_inert {name : List Char} {p : Property}
    (h : propertyNames.lookup (normalizedName name) = some p) : ∀ c ∈ name, isInert c = true := by
  intro c hc
  refine isInert_iff.2 ⟨?_, ?_, ?_, ?_, ?_⟩ <;> rintro rfl <;>
    exact absurd (isAlphanum_of_lookup h hc rfl rfl) (by decide)

theorem namedProperty_passes {negated : Bool} {set : CharSet}
    (h : namedProperty negated cs = .ok (set, rest)) : Passes .plain cs rest := by
  rw [namedProperty] at h
  split at h
  rename_i name last hspan
  obtain ⟨rfl, -⟩ := span_takes hspan
  split at h
  · split at h
    · rename_i hlookup
      cases h
      exact (passes_inert (lookup_inert hlookup)).trans (passes_cons (by decide) (.refl _))
    · cases h
  · cases h
  · cases h

theorem escapedProperty?_passes {set : CharSet}
    (h : escapedProperty? (c :: cs) = .ok (some (set, rest))) :
    (c = 'p' ∨ c = 'P') ∧ Passes .escape (c :: cs) rest := by
  rw [escapedProperty?.eq_def] at h
  split at h
  · rename_i heq
    cases heq
    split at h
    · rename_i hc
      obtain ⟨⟨set, last⟩, hset, hfound⟩ := map_eq_ok.1 h
      cases hfound
      have hletter : c ≠ 'c' ∧ c ≠ 'C' ∧ c ≠ 'M' := by obtain rfl | rfl := hc <;> decide
      refine ⟨hc, (passes_letter hletter).trans
        (passes_cons (by decide) ?_)⟩
      rw [propertyClass.eq_def] at hset
      split at hset
      · exact passes_cons (by decide) (namedProperty_passes hset)
      · exact namedProperty_passes hset
    · cases h
  · cases h

theorem isWord_inert (hc : isWord c = true) : isInert c = true :=
  isInert_of ⟨by decide, by decide, by decide, by decide, by decide⟩ hc

theorem forall_inert_of_all {p : Char → Bool} (hp : ∀ {c}, p c = true → isInert c = true)
    (h : cs.all p = true) : ∀ c ∈ cs, isInert c = true :=
  fun c hc ↦ hp (List.all_eq_true.1 h c hc)

theorem referenceNumber_inert {text : String} {n : Nat} (h : referenceNumber text cs = .ok n) :
    ∀ c ∈ cs, isInert c = true := by
  rw [referenceNumber] at h
  split at h
  · cases h
  · split at h
    · cases h
    · rename_i hword
      exact forall_inert_of_all isWord_inert (by simpa using hword)

theorem reference_inert {target : Reference} (h : reference cs = .ok target) :
    ∀ c ∈ cs, isInert c = true := by
  rw [reference.eq_def] at h
  dsimp only at h
  split at h
  · cases h
  · split at h
    · obtain ⟨n, hn, -⟩ := map_eq_ok.1 h
      exact referenceNumber_inert hn
    · split at h
      · rename_i hsign
        obtain ⟨n, hn, -⟩ := bind_eq_ok.1 h
        refine List.forall_mem_cons.2 ⟨?_, referenceNumber_inert hn⟩
        obtain rfl | rfl := hsign <;> decide
      · split at h
        · rename_i hword
          exact forall_inert_of_all isWord_inert hword
        · cases h

theorem delimitedReference?_passes {target : Reference}
    (h : delimitedReference? cs = .ok (some (target, rest))) :
    cs.head?.any (fun c ↦ c == '<' || c == '\x27') = true ∧ Passes .plain cs rest := by
  have hnamed {c close : Char} {cs : List Char} (hc : isInert c = true) (hclose : isInert close = true)
      (h : delimited reference close cs = .ok (target, rest)) : Passes .plain (c :: cs) rest := by
    obtain ⟨name, rfl, hname, -⟩ := delimited_takes h
    have hpiece : ∀ d ∈ c :: (name ++ [close]), isInert d = true := by
      simpa [hc, hclose, or_imp, forall_and] using reference_inert hname
    have hpasses : Passes .plain (c :: (name ++ [close]) ++ rest) rest := passes_inert hpiece
    simpa using hpasses
  rw [delimitedReference?.eq_def] at h
  split at h
  · obtain ⟨_, hfound, heq⟩ := map_eq_ok.1 h
    cases heq
    exact ⟨rfl, hnamed (by decide) (by decide) hfound⟩
  · obtain ⟨_, hfound, heq⟩ := map_eq_ok.1 h
    cases heq
    exact ⟨rfl, hnamed (by decide) (by decide) hfound⟩
  · cases h

end Escapes

def Node.isStray : Node → Bool
  | .keep | .call _ => true
  | _ => false

/-- Whether the match is reset or a group called somewhere within a tree. -/
def Node.strays (node : Node) : Bool := node.subterms.any isStray

theorem isStray_of_isCommon (node : Node) (h : node.isCommon) : node.isStray = false := by
  cases node <;> first | rfl | cases h

section Nodes

variable {o : Options} {s t : Source} {node : Node} {cs rest : List Char} {c : Char}

theorem charNode_strays (o : Options) (c : Char) : (charNode o c).strays = false :=
  any_charNode isStray_of_isCommon o c

theorem escapedLetter?_strays (h : escapedLetter? c = some node) :
    (c ≠ 'c' ∧ c ≠ 'C' ∧ c ≠ 'M') ∧ ∀ cs, strays (c :: cs) = node.strays := by
  rw [escapedLetter?] at h
  split at h
  · rename_i hclass
    cases h
    rw [escapedClass?.eq_def] at hclass
    split at hclass <;> cases hclass <;> exact ⟨by decide, fun _ ↦ rfl⟩
  · rw [escapedPlace?.eq_def] at h
    split at h <;> cases h <;> exact ⟨by decide, fun _ ↦ rfl⟩

theorem delimitedNode?_passes (h : delimitedNode? o s (c :: cs) = .ok (some (node, rest))) :
    Passes .escape (c :: cs) rest ∧ ∀ more, Regex.strays (c :: (cs ++ more)) = node.strays := by
  rw [delimitedNode?.eq_def] at h
  split at h
  · rename_i heq
    cases heq
    obtain ⟨found, hfound, h⟩ := bind_eq_ok.1 h
    cases found with
    | none => cases h
    | some found =>
      obtain ⟨_, -, h⟩ := bind_eq_ok.1 h
      cases h
      exact ⟨(passes_letter (by decide)).trans (delimitedReference?_passes hfound).2, fun _ ↦ rfl⟩
  · rename_i heq
    cases heq
    obtain ⟨found, hfound, h⟩ := bind_eq_ok.1 h
    cases found with
    | none => cases h
    | some found =>
      obtain ⟨_, -, h⟩ := bind_eq_ok.1 h
      cases h
      obtain ⟨hhead, hpasses⟩ := delimitedReference?_passes hfound
      refine ⟨(passes_letter (by decide)).trans hpasses, fun more ↦ ?_⟩
      cases cs with
      | nil => cases hhead
      | cons d cs => exact hhead
  · cases h

theorem numberedNode?_passes (h : numberedNode? o s (c :: cs) = some (node, rest)) :
    Passes .escape (c :: cs) rest ∧ isAsciiDigit c = true ∧ node.strays = false := by
  have hplain {d : Char} {rest : List Char} (hd : isAsciiDigit d = true) :
      Passes .escape (d :: rest) rest := fun q more ↦ by
    have hdigits : ∀ e ∈ [d], isAsciiDigit e = true := by simpa using hd
    exact skim_number (.inr rfl) hdigits (rest ++ more)
  rw [numberedNode?.eq_def] at h
  split at h
  · cases h
  · rename_i hnumber
    split at h
    · cases h
      obtain ⟨digits, hcs, hall, hzero, -⟩ := escapedNumber?_eq_some hnumber
      cases digits with
      | nil => cases hzero
      | cons d digits =>
        rw [List.cons_append] at hcs
        cases hcs
        refine ⟨fun q more ↦ ?_, hall c List.mem_cons_self, rfl⟩
        rw [← skim_number (.inr rfl) hall (rest ++ more), List.cons_append, List.cons_append,
          List.append_assoc]
    · split at h
      · rename_i heq
        cases heq
        cases h
        exact ⟨hplain rfl, rfl, charNode_strays o _⟩
      · rename_i heq
        cases heq
        cases h
        exact ⟨hplain rfl, rfl, charNode_strays o _⟩
      · cases h

/-- Nothing but a delimiter makes a call of a letter. -/
theorem strays_of_none {more : List Char} (hmore : Ends more) (hletter : escapedLetter? c = none)
    (hdelimited : delimitedNode? o s (c :: cs) = .ok none) : strays (c :: (cs ++ more)) = false := by
  have hK : c ≠ 'K' := by
    rintro rfl
    cases hletter
  by_cases hg : c = 'g'
  · subst hg
    obtain ⟨found, hfound, hnone⟩ := bind_eq_ok.1 hdelimited
    cases found with
    | some found =>
      obtain ⟨_, -, h⟩ := bind_eq_ok.1 hnone
      cases h
    | none =>
      cases cs with
      | nil =>
        cases more with
        | nil => rfl
        | cons d more => obtain rfl | rfl := hmore <;> rfl
      | cons d cs =>
        by_contra hstrays
        have hdelimiter : d = '<' ∨ d = '\x27' := by simpa [Regex.strays, or_iff_not_imp_left] using hstrays
        obtain rfl | rfl := hdelimiter
        all_goals
          obtain ⟨_, -, heq⟩ := map_eq_ok.1 hfound
          cases heq
  · rw [Regex.strays] <;> simp [hK, hg]

theorem escapeNode_passes (h : escapeNode o s cs = .ok (node, rest)) :
    Passes .escape cs rest ∧ ∀ more, Ends more → Regex.strays (cs ++ more) = node.strays := by
  obtain ⟨c, cs, rfl, hescaped⟩ := escapeNode_eq_ok.1 h
  cases hescaped with
  | letter hletter =>
    obtain ⟨hc, hstrays⟩ := escapedLetter?_strays hletter
    exact ⟨passes_letter hc, fun more _ ↦ hstrays _⟩
  | delimited hletter hdelimited =>
    obtain ⟨hpasses, hstrays⟩ := delimitedNode?_passes hdelimited
    exact ⟨hpasses, fun more _ ↦ hstrays more⟩
  | property hletter hdelimited hproperty =>
    exact ⟨(escapedProperty?_passes hproperty).2,
      fun more hmore ↦ strays_of_none hmore hletter hdelimited⟩
  | numbered hletter hdelimited hproperty hnumbered =>
    obtain ⟨hpasses, hdigit, hstrays⟩ := numberedNode?_passes hnumbered
    exact ⟨hpasses, fun more _ ↦ (strays_digit hdigit _).trans hstrays.symm⟩
  | literal hletter hdelimited hproperty hnumbered hliteral =>
    exact ⟨escapedLiteral_passes hliteral, fun more hmore ↦
      (strays_of_none hmore hletter hdelimited).trans (charNode_strays o _).symm⟩

end Nodes

section Classes

variable {q : Skim} {stage : Stage} {cs mid rest : List Char} {c : Char}

/-- The look gets past the bracket that closes a class. -/
def Leaves (stage : Stage) (cs rest : List Char) : Prop :=
  ∀ (q : Skim) (more : List Char), q.brackets ≠ 0 →
    skim q stage (cs ++ more) = skim { q with brackets := q.brackets - 1 } .plain (rest ++ more)

theorem skim_within (hq : q.brackets ≠ 0) (c : Char) (cs : List Char) :
    skim q .plain (c :: cs) = skim (q.within c cs).1 (q.within c cs).2 cs := by
  rw [skim_cons (ends?_eq_none.2 fun _ h ↦ absurd h hq), Skim.step, Skim.start, if_neg hq]

theorem leaves_close : Leaves .plain (']' :: rest) rest := fun _ _ hq ↦ skim_within hq ']' _

theorem skim_inner (hq : q.brackets ≠ 0) (h : isLoneBracket cs = false) :
    skim q .plain ('[' :: cs) = skim { q with brackets := q.brackets + 1 } (.first false) cs := by
  have hstep : q.within '[' cs = ({ q with brackets := q.brackets + 1 }, .first false) :=
    if_neg (by simp [h])
  rw [skim_within hq, hstep]

theorem posixClass_isNone {found : Option (CharSet × List Char)} (h : posixClass cs = .ok found) :
    (posixProperty? (classNegation cs).2).isNone = found.isNone := by
  rw [posixClass, posixName] at h
  split at h
  · rename_i hnamed
    split at h
    · cases h
      rw [hnamed]
      rfl
    · cases h
  · rename_i hnamed
    split at h
    split at h
    · split at h
      · cases h
      · cases h
        rw [hnamed]
        rfl
    · cases h
      rw [hnamed]
      rfl

theorem classNegation_inert (cs : List Char) : ∃ sign : List Char,
    (∀ c ∈ sign, isInert c = true) ∧ cs = sign ++ (classNegation cs).2 := by
  rw [classNegation.eq_def]
  cases cs with
  | nil => exact ⟨[], List.forall_mem_nil _, rfl⟩
  | cons c cs =>
    by_cases hc : c = '^'
    · subst hc
      exact ⟨['^'], List.forall_mem_singleton.2 (by decide), rfl⟩
    · refine ⟨[], List.forall_mem_nil _, ?_⟩
      split
      · rename_i heq
        exact absurd (List.cons.inj heq).1 hc
      · rfl

theorem posixClass_leaves {set : CharSet} (h : posixClass cs = .ok (some (set, rest))) :
    Leaves .plain cs rest := by
  rw [posixClass, posixName] at h
  split at h
  · rename_i name p hnamed
    split at h
    · rename_i hdrop
      cases h
      unfold posixProperty? at hnamed
      have hprefix := List.find?_some hnamed
      obtain ⟨tail, htail⟩ := List.isPrefixOf_iff_prefix.1 hprefix
      obtain rfl : tail = ':' :: ']' :: rest := by
        rw [← hdrop, ← htail, ← String.length_toList, List.drop_left]
      have hclean : posixNames.all fun entry ↦ entry.1.toList.all isInert := by decide
      have hname := List.all_eq_true.1 hclean _ (List.mem_of_find?_eq_some hnamed)
      obtain ⟨sign, hsign, hcs⟩ := classNegation_inert cs
      have hinert : ∀ c ∈ sign ++ (name.toList ++ [':']), isInert c = true := by
        intro c hc
        obtain hc | hc := List.mem_append.1 hc
        · exact hsign c hc
        · obtain hc | hc := List.mem_append.1 hc
          · exact List.all_eq_true.1 hname c hc
          · cases List.mem_singleton.1 hc
            decide
      intro q more hq
      have htext : cs ++ more = sign ++ (name.toList ++ [':']) ++ (']' :: (rest ++ more)) := by
        rw [hcs, ← htail]
        simp
      rw [htext, skim_inert hinert]
      exact leaves_close q more hq
    · cases h
  · split at h
    split at h
    · split at h <;> cases h
    · cases h

theorem escapedMember_passes {token : ClassToken}
    (h : escapedMember (c :: cs) = .ok (token, rest)) :
    token ≠ .inner ∧ Passes .escape (c :: cs) rest := by
  rw [escapedMember] at h
  split at h
  · rename_i set hset
    cases h
    have hclass : escapedClass? c = some set := hset
    have hletter : escapedLetter? c = some (.set set) := by rw [escapedLetter?, hclass]
    exact ⟨by simp, passes_letter (escapedLetter?_strays hletter).1⟩
  · obtain ⟨found, hproperty, h⟩ := bind_eq_ok.1 h
    split at h
    · cases h
      exact ⟨by simp, (escapedProperty?_passes hproperty).2⟩
    · obtain ⟨found, hcode, h⟩ := bind_eq_ok.1 h
      split at h
      · cases h
        exact ⟨by simp, codePointEscape?_passes hcode⟩
      · obtain ⟨⟨d, last⟩, hchar, h⟩ := bind_eq_ok.1 h
        cases h
        exact ⟨by simp, spelledChar_passes hchar⟩

theorem skim_first (negated : Bool) : skim q (.first negated) (c :: cs) =
    skim (q.step (.first negated) c cs).1 (q.step (.first negated) c cs).2 cs :=
  skim_cons (ends?_of_stage nofun)

theorem isLoneBracket_of_closes {w : List Char} (hcloses : Closes w) (more : List Char) :
    isLoneBracket (':' :: (w ++ rest ++ more)) =
      (posixCloses (w ++ rest) && (posixProperty? (classNegation (w ++ rest ++ more)).2).isNone) := by
  rw [isLoneBracket, List.append_assoc, hcloses.posixCloses_congr _ rest]

theorem isLoneBracket_of_head (hc : c ≠ ':') : isLoneBracket (c :: cs) = false := by
  rw [isLoneBracket]
  exact fun _ heq ↦ hc (List.cons.inj heq).1

/-- What a piece of a class is to the look, with more of the class after it. -/
theorem classToken_passes {token : ClassToken} {w : List Char}
    (h : classToken cs = .ok (token, mid)) (hmid : mid = w ++ rest) (hcloses : Closes w) :
    (token = .inner ∧ ∀ (q : Skim) (more : List Char), q.brackets ≠ 0 →
      skim q .plain (cs ++ more) =
        skim { q with brackets := q.brackets + 1 } (.first false) (mid ++ more)) ∨
    (token = .close ∨ token = .stop) ∨
    token ≠ .inner ∧ ∀ (q : Skim) (more : List Char), q.brackets ≠ 0 →
      skim q .plain (cs ++ more) = skim q .plain (mid ++ more) := by
  rw [classToken.eq_def] at h
  split at h
  · cases h
    exact .inr (.inl (.inr rfl))
  · cases h
    exact .inr (.inl (.inl rfl))
  · cases h
    exact .inr (.inr ⟨by simp, fun q more hq ↦ skim_within hq _ _⟩)
  · cases h
    refine .inr (.inr ⟨by simp, fun q more hq ↦ ?_⟩)
    exact passes_cons (by decide) (passes_cons (by decide) (.refl _)) q more
  · rename_i cs
    split at h
    · rename_i hposix
      obtain ⟨found, hfound, h⟩ := bind_eq_ok.1 h
      split at h
      · cases h
        refine .inr (.inr ⟨by simp, fun q more hq ↦ ?_⟩)
        obtain ⟨piece, rfl, -, hread⟩ := posixClass_takes hfound
        have hsome := posixClass_isNone (hread (mid ++ more))
        rw [← List.append_assoc] at hsome
        have hlone : isLoneBracket (':' :: (piece ++ mid ++ more)) = false := by
          rw [isLoneBracket, hsome]
          exact Bool.and_false _
        have hcolon : Skim.step { q with brackets := q.brackets + 1 } (.first false) ':'
            (piece ++ mid ++ more) = ({ q with brackets := q.brackets + 1 }, .plain) := rfl
        rw [List.cons_append, List.cons_append, skim_inner hq hlone,
          skim_cons (ends?_of_stage (by decide)), hcolon]
        exact posixClass_leaves hfound _ more (Nat.succ_ne_zero _)
      · cases h
        refine .inr (.inr ⟨by simp, fun q more hq ↦ ?_⟩)
        obtain ⟨d, w, rfl⟩ := hcloses.exists_cons
        rw [List.cons_append] at hmid
        cases hmid
        have hw := hcloses.tail (by decide) (by decide)
        have hlonger : posixClass (w ++ (rest ++ more)) = .ok none := posixClass_none hw hfound
        have hnone := posixClass_isNone hlonger
        rw [← List.append_assoc] at hnone
        have hlone : isLoneBracket (':' :: (w ++ rest ++ more)) = true := by
          rw [isLoneBracket_of_closes hw, hnone]
          exact (Bool.and_true _).trans hposix
        have hstep : q.within '[' (':' :: (w ++ rest ++ more)) = (q, .plain) := if_pos hlone
        simp only [List.cons_append]
        rw [skim_within hq, hstep]
    · rename_i hposix
      cases h
      refine .inl ⟨rfl, fun q more hq ↦ skim_inner hq ?_⟩
      obtain ⟨d, w, rfl⟩ := hcloses.exists_cons
      rw [List.cons_append] at hmid
      cases hmid
      have hw := hcloses.tail (by decide) (by decide)
      have hposix : posixCloses (w ++ rest) = false := Bool.eq_false_of_not_eq_true hposix
      refine (isLoneBracket_of_closes hw more).trans ?_
      rw [hposix]
      rfl
  · rename_i cs hcolon
    cases h
    refine .inl ⟨rfl, fun q more hq ↦ skim_inner hq ?_⟩
    obtain ⟨d, w, rfl⟩ := hcloses.exists_cons
    subst hmid
    exact isLoneBracket_of_head fun hd ↦ hcolon (w ++ rest) (by rw [hd]; rfl)
  · cases h
  · rename_i c cs
    obtain ⟨hne, hpasses⟩ := escapedMember_passes h
    refine .inr (.inr ⟨hne, fun q more hq ↦ ?_⟩)
    rw [List.cons_append, skim_within hq]
    exact hpasses q more
  · rename_i hclose _ _ _ hopen hend hslash
    cases h
    refine .inr (.inr ⟨by simp, fun q more hq ↦ ?_⟩)
    rw [List.cons_append, skim_within hq, Skim.within]
    · intro hc
      cases mid with
      | nil => exact hend hc rfl
      | cons d mid => exact hslash d mid hc rfl
    · exact hclose
    · exact hopen

theorem classStart_passes {s : ClassState} {negated : Bool} (h : classStart cs = .ok (s, mid))
    (hmid : mid ≠ []) (hcaret : negated = false → cs.head? ≠ some '^') (hq : q.brackets ≠ 0)
    (more : List Char) : skim q (.first negated) (cs ++ more) = skim q .plain (mid ++ more) := by
  rw [classStart.eq_def] at h
  split at h
  · split at h
    · cases h
      have hstep : q.step (.first negated) ']' (mid ++ more) = (q, .plain) := by
        cases negated <;> rfl
      rw [List.cons_append, skim_first, hstep]
    · cases h
  · rename_i hclose
    cases h
    cases cs with
    | nil => exact absurd rfl hmid
    | cons c cs =>
      have hc : ¬ (c = '^' ∧ negated = false) := fun h ↦ hcaret h.2 (congrArg some h.1)
      have hc' : c ≠ ']' := fun h ↦ hclose cs (by rw [h])
      have hstep : q.step (.first negated) c (cs ++ more) = q.step .plain c (cs ++ more) := by
        rw [Skim.step, if_neg hc, if_neg hc']
        rfl
      rw [List.cons_append, skim_first, hstep,
        skim_cons (ends?_eq_none.2 fun _ h ↦ absurd h hq)]

/-- A class is left with the bracket that closes it, from within or from its start. -/
theorem class_leaves (fuel : Nat) :
    (∀ {s : ClassState} {cs set rest}, classItems fuel s cs = .ok (set, rest) →
      Leaves .plain cs rest) ∧
    ∀ {cs b rest}, classBody fuel cs = .ok (b, rest) → Leaves (.first false) cs rest := by
  induction fuel with
  | zero =>
    refine ⟨fun h ↦ ?_, fun h ↦ ?_⟩
    · rw [classItems] at h
      cases h
    · rw [classBody] at h
      cases h
  | succ fuel ih =>
    obtain ⟨ihItems, ihBody⟩ := ih
    refine ⟨fun {s cs set rest} h ↦ ?_, fun {cs b rest} h q more hq ↦ ?_⟩
    · rw [classItems] at h
      obtain ⟨⟨token, mid⟩, htoken, h⟩ := bind_eq_ok.1 h
      -- A piece that opens and closes nothing is passed, and the rest is left by induction.
      have hnext {s' : ClassState} (hne : token ≠ .inner) (hopen : token ≠ .close ∧ token ≠ .stop)
          (h : classItems fuel s' mid = .ok (set, rest)) : Leaves .plain cs rest := by
        obtain ⟨w, hmid, -, hcloses, -⟩ := (class_takes fuel).1 h
        obtain ⟨hinner, -⟩ | hend | ⟨-, hpasses⟩ := classToken_passes htoken hmid hcloses
        · exact absurd hinner hne
        · exact absurd hend (not_or.2 hopen)
        · exact fun q more hq ↦ (hpasses q more hq).trans (ihItems h q more hq)
      cases token with
      | stop => cases h
      | close =>
        cases h
        cases classToken_close htoken
        exact leaves_close
      | char c =>
        obtain ⟨s', -, h⟩ := bind_eq_ok.1 h
        exact hnext (by simp) (by simp) h
      | members members =>
        obtain ⟨s', -, h⟩ := bind_eq_ok.1 h
        exact hnext (by simp) (by simp) h
      | both => exact hnext (by simp) (by simp) h
      | hyphen =>
        obtain ⟨s', -, h⟩ := bind_eq_ok.1 h
        exact hnext (by simp) (by simp) h
      | inner =>
        obtain ⟨⟨inner, last⟩, hinner, hitems⟩ := bind_eq_ok.1 h
        obtain ⟨w, hmid, -, hcloses, -⟩ := (class_takes fuel).2 hinner
        obtain ⟨-, hopens⟩ | hend | ⟨hne, -⟩ := classToken_passes htoken hmid hcloses
        · intro q more hq
          rw [hopens q more hq, ihBody hinner _ more (Nat.succ_ne_zero _)]
          exact ihItems hitems q more hq
        · obtain hend | hend := hend <;> cases hend
        · exact absurd rfl hne
    · rw [classBody] at h
      obtain ⟨⟨s, mid⟩, hstart, h⟩ := bind_eq_ok.1 h
      obtain ⟨⟨set, last⟩, hitems, h⟩ := bind_eq_ok.1 h
      cases h
      have hmid : mid ≠ [] := by
        obtain ⟨w, rfl, -, hcloses, -⟩ := (class_takes fuel).1 hitems
        obtain ⟨c, w, rfl⟩ := hcloses.exists_cons
        exact List.cons_ne_nil _ _
      rw [← ihItems hitems q more hq]
      by_cases hcaret : cs.head? = some '^'
      · obtain ⟨cs, rfl⟩ := List.head?_eq_some_iff.1 hcaret
        have hnegated : (true = false → cs.head? ≠ some '^') := by simp
        rw [List.cons_append, skim_first]
        exact classStart_passes hstart hmid hnegated hq more
      · have hsame : (classNegation cs).2 = cs := by
          rw [classNegation]
          rintro _ rfl
          exact hcaret rfl
        rw [hsame] at hstart
        exact classStart_passes hstart hmid (fun _ ↦ hcaret) hq more

end Classes

section Quantifiers

variable {cs rest : List Char}

theorem decimal?_passes {n : Option Nat} (h : decimal? cs = (n, rest)) :
    Passes .plain cs rest := by
  obtain ⟨digits, rfl, hall, -⟩ := decimal?_takes h
  exact passes_inert fun c hc ↦ isAsciiDigit_inert (hall c hc)

theorem boundedBetween_passes {low high : Option Nat} {found : Quantifier × Bool}
    (h : boundedBetween low high cs = some (found, rest)) : Passes .plain cs rest := by
  rw [boundedBetween.eq_def] at h
  split at h
  · split at h
    · cases h
    · cases h
      exact passes_cons (by decide) (.refl _)
    · dsimp only at h
      split at h <;> cases h <;> exact passes_cons (by decide) (.refl _)
  · cases h

theorem interval?_passes {found : Quantifier × Bool}
    (h : interval? cs = .ok (some (found, rest))) : Passes .plain cs rest := by
  rw [interval?] at h
  split at h
  rename_i low mid hlow
  split at h
  · cases h
  · refine (decimal?_passes hlow).trans ?_
    rw [intervalAfter.eq_def] at h
    split at h
    · split at h
      · cases h
        exact passes_cons (by decide) (.refl _)
      · cases h
    · split at h
      rename_i high last hhigh
      split at h
      · cases h
      · exact passes_cons (by decide)
          ((decimal?_passes hhigh).trans (boundedBetween_passes (Except.ok.inj h)))
    · cases h

theorem reluctant_passes {q q' : Quantifier} (h : reluctant q cs = (q', rest)) :
    Passes .plain cs rest := by
  rw [reluctant.eq_def] at h
  split at h <;> cases h
  · exact passes_cons (by decide) (.refl _)
  · exact .refl _

theorem signed_passes {q q' : Quantifier} (h : signed q cs = (q', rest)) :
    Passes .plain cs rest := by
  rw [signed.eq_def] at h
  split at h
  · cases h
    exact passes_cons (by decide) (.refl _)
  · exact reluctant_passes h

theorem quantifier?_passes {q : Quantifier} (h : quantifier? cs = .ok (some (q, rest))) :
    Passes .plain cs rest := by
  rw [quantifier?.eq_def] at h
  split at h
  · obtain ⟨found, hfound, h⟩ := bind_eq_ok.1 h
    split at h
    · cases h
    · refine passes_cons (by decide) ((interval?_passes hfound).trans ?_)
      have hread := Option.some.inj (Except.ok.inj h)
      split at hread
      · cases hread
        exact .refl _
      · exact reluctant_passes hread
  · rename_i c cs _
    split at h
    · cases h
    · rename_i hsign
      have hc : isInert c = true := by
        rw [signQuantifier?.eq_def] at hsign
        split at hsign <;> first | decide | cases hsign
      exact passes_cons hc (signed_passes (Option.some.inj (Except.ok.inj h)))
  · cases h

end Quantifiers

section Openings

variable {o : Options} {cs rest : List Char} {what : Opening}

/-- Past what follows an opening parenthesis the look is in a group, one that has a number if `n`
is 1. -/
def Enters (n : Nat) (cs rest : List Char) : Prop :=
  ∀ (q : Skim) (more : List Char), q.brackets = 0 → skim q .plain ('\x28' :: (cs ++ more)) =
    skim { q with depth := q.depth + 1, groups := q.groups + n } .plain (rest ++ more)

theorem enters (hinline : ∀ more, setsInline (cs ++ more) = false) {n : Nat}
    (hn : ∀ more, (takesNumber (cs ++ more)).toNat = n) (h : Passes .plain cs rest) :
    Enters n cs rest := by
  intro q more hq
  have hend : q.ends? .plain '\x28' (cs ++ more) = none :=
    ends?_eq_none.2 fun _ _ ↦ ⟨fun hc ↦ absurd hc (by decide), fun _ ↦ hinline more⟩
  rw [skim_cons hend, Skim.step, Skim.start, if_pos hq, Skim.outside, hn]
  exact h _ more

theorem skim_closes {q : Skim} (hq : q.brackets = 0) (hdepth : q.depth ≠ 0) (cs : List Char) :
    skim q .plain ('\x29' :: cs) = skim { q with depth := q.depth - 1 } .plain cs := by
  have hend : q.ends? .plain '\x29' cs = none :=
    ends?_eq_none.2 fun _ _ ↦ ⟨fun _ ↦ hdepth, fun hc ↦ absurd hc (by decide)⟩
  rw [skim_cons hend, Skim.step, Skim.start, if_pos hq]
  rfl

theorem skim_ends {q : Skim} (hq : q.brackets = 0) (hdepth : q.depth = 0) (cs : List Char) :
    skim q .plain ('\x29' :: cs) = .closed cs q.groups q.strays := by
  have hend : q.ends? .plain '\x29' cs = some (.closed cs q.groups q.strays) := by
    rw [Skim.ends?, if_pos ⟨rfl, hq⟩, if_pos ⟨rfl, hdepth⟩]
  rw [skim, hend]

/-- What a parenthesis opens, and what the look makes of it. -/
inductive OpensTo (o : Options) (cs rest : List Char) : Opening → Prop
  | group (e : Enclosure) : Enters 0 cs rest → OpensTo o cs rest (.group e o)
  | capture (name : Option String) : Enters 1 cs rest → OpensTo o cs rest (.capture name)
  | done : (∀ (q : Skim) (more : List Char), q.brackets = 0 →
      skim q .plain ('\x28' :: (cs ++ more)) = skim q .plain (rest ++ more)) →
      OpensTo o cs rest (.done (.set .empty))

theorem groupName_inert {name : String} (h : groupName cs = .ok name) :
    ∀ c ∈ cs, isInert c = true := by
  rw [groupName.eq_def] at h
  dsimp only at h
  split at h
  · split at h
    · cases h
    · split at h
      · rename_i hword
        exact forall_inert_of_all isWord_inert hword
      · cases h
  · cases h

theorem delimited_passes {close : Char} {name : String} (hclose : isInert close = true)
    (h : delimited groupName close cs = .ok (name, rest)) : Passes .plain cs rest := by
  obtain ⟨text, rfl, hname, -⟩ := delimited_takes h
  exact (passes_inert (groupName_inert hname)).trans (passes_cons hclose (.refl _))

theorem callout_passes {node : Node} (h : callout cs = .ok (node, rest)) :
    ∃ name : List Char, (∀ c ∈ name, isInert c = true) ∧ cs = name ++ '\x29' :: rest := by
  rw [callout] at h
  split at h
  rename_i name last hspan
  obtain ⟨rfl, -⟩ := span_takes hspan
  dsimp only at h
  split at h
  · cases h
  · split at h
    · cases h
    · split at h
      · split at h
        · rename_i hname
          cases h
          exact ⟨name, hname ▸ List.all_eq_true.1 rfl, rfl⟩
        · cases h
      · cases h

theorem opening_passes (hinline : setsInline cs = false) (h : opening o cs = .ok (what, rest)) :
    OpensTo o cs rest what := by
  have hsign {c : Char} {rest : List Char} (hc : isInert c = true) :
      Passes .plain ('?' :: c :: rest) rest :=
    passes_cons (by decide) (passes_cons hc (.refl _))
  rw [opening.eq_def] at h
  split at h
  · cases h
  · cases h
  · cases h
    exact .group _ (enters (fun _ ↦ rfl) (fun _ ↦ rfl) (hsign (by decide)))
  · cases h
    exact .group _ (enters (fun _ ↦ rfl) (fun _ ↦ rfl) (hsign (by decide)))
  · cases h
    exact .group _ (enters (fun _ ↦ rfl) (fun _ ↦ rfl) (hsign (by decide)))
  · cases h
    exact .group _ (enters (fun _ ↦ rfl) (fun _ ↦ rfl) (hsign (by decide)))
  · cases h
  · cases h
    exact .group _ (enters (fun _ ↦ rfl) (fun _ ↦ rfl)
      ((hsign (by decide)).trans (passes_cons (by decide) (.refl _))))
  · cases h
    exact .group _ (enters (fun _ ↦ rfl) (fun _ ↦ rfl)
      ((hsign (by decide)).trans (passes_cons (by decide) (.refl _))))
  · rename_i cs hempty hahead hnot
    obtain ⟨⟨name, last⟩, hname, h⟩ := bind_eq_ok.1 h
    cases h
    refine .capture _ (enters (fun _ ↦ rfl) (fun more ↦ ?_)
      ((hsign (by decide)).trans (delimited_passes (by decide) hname)))
    cases cs with
    | nil => exact absurd rfl hempty
    | cons c cs =>
      have hc : c ≠ '=' ∧ c ≠ '!' :=
        ⟨fun h ↦ hahead cs (by rw [h]), fun h ↦ hnot cs (by rw [h])⟩
      simp [takesNumber, hc]
  · obtain ⟨⟨name, last⟩, hname, h⟩ := bind_eq_ok.1 h
    cases h
    exact .capture _ (enters (fun _ ↦ rfl) (fun more ↦ rfl)
      ((hsign (by decide)).trans (delimited_passes (by decide) hname)))
  · rename_i cs _ hplain hahead hnot hatomic _ _ _ hangle hquote
    obtain ⟨⟨g, last⟩, hg, h⟩ := bind_eq_ok.1 h
    cases cs with
    | nil => cases hg
    | cons c cs =>
      -- Anything else behind a question mark is about options.
      have hc : c = ':' ∨ c = '=' ∨ c = '!' ∨ c = '>' ∨ c = '<' ∨ c = '\x27' := by
        simpa [setsInline, or_iff_not_imp_left] using hinline
      obtain rfl | rfl | rfl | rfl | rfl | rfl := hc
      · exact absurd rfl (hplain cs)
      · exact absurd rfl (hahead cs)
      · exact absurd rfl (hnot cs)
      · exact absurd rfl (hatomic cs)
      · exact absurd rfl (hangle cs)
      · exact absurd rfl (hquote cs)
  · obtain ⟨⟨node, last⟩, hnode, h⟩ := bind_eq_ok.1 h
    cases h
    obtain ⟨name, hname, rfl⟩ := callout_passes hnode
    obtain ⟨rfl, -⟩ := callout_takes hnode
    refine .done fun q more hq ↦ ?_
    have henters : Enters 0 ('*' :: (name ++ '\x29' :: rest)) ('\x29' :: rest) :=
      enters (fun _ ↦ rfl) (fun _ ↦ rfl) (passes_cons (by decide) (passes_inert hname))
    rw [henters q more hq]
    exact skim_closes (q := { q with depth := q.depth + 1, groups := q.groups + 0 }) hq
      (Nat.succ_ne_zero _) _
  · rename_i hnil _ _ _ _ _ _ _ _ _ _ hquestion hstar
    cases h
    cases cs with
    | nil => exact absurd rfl hnil
    | cons c cs =>
      have hc : c ≠ '?' := fun h ↦ hquestion cs (by rw [h])
      have hc' : c ≠ '*' := fun h ↦ hstar cs (by rw [h])
      refine .capture _ (enters (fun more ↦ ?_) (fun more ↦ ?_) (.refl _))
      · rw [List.cons_append, setsInline]
        exact fun _ heq ↦ hc (List.cons.inj heq).1
      · rw [List.cons_append, takesNumber]
        · rfl
        all_goals simp [hc, hc']

end Openings

end SyntaxHighlight.Regex
