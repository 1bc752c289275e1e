import SyntaxHighlight.Proofs.Regex.Reading.Group

/-!
Escapes outside of classes. What they make of numbers, distances and names depends on the groups
ahead; behind more groups they are read the same, with the groups that they mean moved.
-/
namespace SyntaxHighlight.Regex

open Unicode

/-- Two states of reading, the second behind `offset` more groups. Names of groups ahead may be
known there too. -/
structure Behind (offset : Nat) (s s' : Source) : Prop where
  groups : s'.groups = s.groups + offset
  names : ∃ ahead, s'.names = ahead ++ s.names.map (fun (name, n) ↦ (name, n + offset)) ∧
    ∀ entry ∈ ahead, 0 < entry.2 ∧ entry.2 ≤ offset
  positive : ∀ entry ∈ s.names, 0 < entry.2

/-- A relation of trees that the reader keeps, node by node, between trees of which the second
stands behind `offset` more groups. -/
structure Likeness (strict : Prop) (offset : Nat) (R : Node → Node → Prop) : Prop where
  isRepeatable {a b : Node} : R a b → a.isRepeatable → b.isRepeatable
  empty : R .empty .empty
  set (set : CharSet) : R (.set set) (.set set)
  anchor (a : Anchor) : R (.anchor a) (.anchor a)
  keep : R .keep .keep
  newline : R newlineNode newlineNode
  char {o o' : Options} (c : Char) : o.Like strict o' → R (charNode o c) (charNode o' c)
  bracketed {o o' : Options} (b : Bracketed) : o.Like strict o' → R (classNode o b) (classNode o' b)
  call (target target' : GroupRef) : R (.call target) (.call target')
  backref {o o' : Options} {groups ahead : List Nat} : o.Like strict o' → (∀ n ∈ groups, 0 < n) →
    (∀ n ∈ ahead, 0 < n ∧ n ≤ offset) →
    R (.backref groups o.ignoreCase) (.backref (groups.map (· + offset) ++ ahead) o'.ignoreCase)
  cat {a a' b b' : Node} : R a a' → R b b' → R (a.cat b) (a'.cat b')
  alt {a a' b b' : Node} : R a a' → R b b' → R (.alt a b) (.alt a' b')
  group {n : Nat} {body body' : Node} : 0 < n → R body body' →
    R (.group n body) (.group (n + offset) body')
  enclosed {body body' : Node} (e : Enclosure) : R body body' → R (e.node body) (e.node body')
  repeated {body body' : Node} (q : Quantifier) : R body body' → R (q.apply body) (q.apply body')

section Groups

variable {strict : Prop} {offset : Nat} {R : Node → Node → Prop} {o o' : Options} {s s' : Source}
  {target : Reference}

theorem numbersOf_eq (h : Behind offset s s') (name : String) : ∃ ahead,
    s'.numbersOf name = ahead ++ (s.numbersOf name).map (· + offset) ∧
      ∀ n ∈ ahead, 0 < n ∧ n ≤ offset := by
  obtain ⟨ahead, hnames, hahead⟩ := h.names
  refine ⟨ahead.filterMap fun (n, i) ↦ if n = name then some i else none, ?_, fun n hn ↦ ?_⟩
  · simp only [Source.numbersOf, hnames, List.filterMap_append, List.filterMap_map,
      List.map_filterMap]
    congr 2
    funext entry
    dsimp only [Function.comp]
    split <;> rfl
  · obtain ⟨entry, hentry, hn⟩ := List.mem_filterMap.1 hn
    obtain ⟨-, hn⟩ := Option.ite_none_right_eq_some.1 hn
    cases hn
    exact hahead entry hentry

theorem resolve_eq (h : Behind offset s s') (distance : Int) :
    s'.resolve distance = s.resolve distance + offset := by
  simp only [Source.resolve, h.groups]
  split <;> omega

theorem referred_behind (h : Behind offset s s') {groups : List Nat}
    (htarget : ∀ n, target ≠ .absolute n) (hgroups : s.referred target = .ok groups) :
    (∀ n ∈ groups, 0 < n) ∧ ∃ ahead, (∀ n ∈ ahead, 0 < n ∧ n ≤ offset) ∧
      s'.referred target = .ok (groups.map (· + offset) ++ ahead) := by
  cases target with
  | absolute n => exact absurd rfl (htarget n)
  | relative distance =>
    rw [Source.referred] at hgroups
    split at hgroups
    · cases hgroups
    · rename_i hpos
      cases hgroups
      refine ⟨by simpa using hpos, [], nofun, ?_⟩
      rw [Source.referred, resolve_eq h, if_neg (by omega), Int.toNat_add (by omega) (by omega)]
      rfl
  | name name =>
    obtain ⟨ahead, hnumbers, hahead⟩ := numbersOf_eq h name
    rw [Source.referred] at hgroups
    split at hgroups
    · cases hgroups
    · rename_i hne
      cases hgroups
      refine ⟨fun n hn ↦ ?_, ahead.reverse, fun n hn ↦ hahead n (List.mem_reverse.1 hn), ?_⟩
      · obtain ⟨entry, hentry, hn⟩ := List.mem_filterMap.1 (List.mem_reverse.1 hn)
        obtain ⟨-, hn⟩ := Option.ite_none_right_eq_some.1 hn
        cases hn
        exact h.positive entry hentry
      · rw [Source.referred]
        split
        · rename_i hnil
          obtain ⟨-, hnil⟩ := List.append_eq_nil_iff.1 (hnumbers.symm.trans hnil)
          exact absurd (List.map_eq_nil_iff.1 hnil) hne
        · rw [hnumbers, List.reverse_append, List.map_reverse]
          rfl

theorem called_behind (h : Behind offset s s') {callee : GroupRef}
    (hcallee : s.called target = .ok callee) : ∃ callee', s'.called target = .ok callee' := by
  cases target with
  | absolute n => exact ⟨_, rfl⟩
  | relative distance =>
    rw [Source.called] at hcallee ⊢
    split at hcallee
    · cases hcallee
    · rw [resolve_eq h, if_neg (by omega)]
      exact ⟨_, rfl⟩
  | name name => exact ⟨_, rfl⟩

theorem Behind.numbered (h : Behind offset s s') (name : Option String) :
    Behind offset (s.numbered name) (s'.numbered name) := by
  obtain ⟨ahead, hnames, hahead⟩ := h.names
  refine ⟨?_, ⟨ahead, ?_, hahead⟩, fun entry hentry ↦ ?_⟩
  · simp only [Source.numbered, h.groups]
    omega
  · have hnext : s'.groups + 1 = s.groups + 1 + offset := by rw [h.groups]; omega
    simp only [Source.numbered, hnames, hnext, List.map_append, List.append_assoc, List.map_map]
    rfl
  · obtain hentry | hentry := List.mem_append.1 hentry
    · exact h.positive entry hentry
    · obtain ⟨_, -, rfl⟩ := List.mem_map.1 hentry
      exact Nat.succ_pos _

end Groups

section Escapes

variable {strict : Prop} {offset : Nat} {R : Node → Node → Prop} {o : Options} {s : Source}
  {cs rest : List Char}

theorem TakesEscaped.of_cons {β : Type} {read : List Char → Except PatternError β}
    {found : List Char → β} {c : Char} (h : TakesEscaped read found (c :: cs) rest) :
    ∃ piece, cs = piece ++ rest ∧
      ∀ rest', Agree rest rest' → read (c :: (piece ++ rest')) = .ok (found rest') := by
  obtain ⟨piece, hcs, hpaired, hread⟩ := h
  obtain ⟨d, piece, rfl, -⟩ := hpaired.of_escaped
  obtain ⟨rfl, rfl⟩ := List.cons.inj hcs
  exact ⟨piece, rfl, hread⟩

theorem escapedLiteral_takes {c d : Char} (h : escapedLiteral (c :: cs) = .ok (d, rest)) :
    ∃ piece, cs = piece ++ rest ∧ ∀ rest', Agree rest rest' →
      escapedLiteral (c :: (piece ++ rest')) = .ok (d, rest') := by
  obtain ⟨found, hfound, hchar⟩ := bind_eq_ok.1 h
  cases found with
  | some found =>
    cases hchar
    obtain ⟨piece, hcs, hread⟩ := (codePointEscape?_takes hfound).of_cons
    exact ⟨piece, hcs, fun rest' hagree ↦ bind_eq_ok.2 ⟨_, hread rest' hagree, rfl⟩⟩
  | none =>
    dsimp only at hchar
    split at hchar
    · rename_i more heq
      obtain ⟨rfl, rfl⟩ := List.cons.inj heq
      cases hchar
      refine ⟨[], rfl, fun rest' hagree ↦ ?_⟩
      obtain ⟨more', rfl, hmore⟩ := hagree.of_cons (by decide)
      exact bind_eq_ok.2 ⟨_, codePointEscape?_none hfound (.cons _ hmore), rfl⟩
    · rename_i hbrace
      obtain ⟨piece, rfl, hread⟩ := (spelledChar_takes hchar).of_cons
      refine ⟨piece, rfl, fun rest' hagree ↦ bind_eq_ok.2 ⟨none, ?_, ?_⟩⟩
      · exact codePointEscape?_none hfound (hagree.append piece)
      · dsimp only
        split
        · rename_i heq
          obtain ⟨rfl, hpiece⟩ := List.cons.inj heq
          have hbraced := (hagree.append piece).symm
          rw [hpiece] at hbraced
          obtain ⟨tail, htail, -⟩ := hbraced.of_cons (by decide)
          exact absurd (congrArg _ htail) (hbrace tail)
        · exact hread rest' hagree

/-- A reference or a call between delimiters, unless it gives a number to go back to. -/
theorem delimitedNode?_takes (hR : Likeness strict offset R) {node : Node}
    (hnone : writtenNumber? cs = none) (h : delimitedNode? o s cs = .ok (some (node, rest))) :
    ∃ c piece, cs = c :: (piece ++ rest) ∧ ∀ {o' s'} rest', o.Like strict o' →
      Behind offset s s' →
      ∃ node', delimitedNode? o' s' (c :: (piece ++ rest')) = .ok (some (node', rest')) ∧
        R node node' := by
  rw [delimitedNode?.eq_def] at h
  split at h
  · rename_i cs
    obtain ⟨found, hfound, h⟩ := bind_eq_ok.1 h
    cases found with
    | none => cases h
    | some found =>
      obtain ⟨target, last⟩ := found
      obtain ⟨groups, hgroups, h⟩ := bind_eq_ok.1 h
      cases h
      obtain ⟨c, name, close, hc, rfl, hname, hread⟩ := delimitedReference?_takes hfound
      refine ⟨'k', c :: (name ++ [close]), by simp, fun {o' s'} rest' ho hs ↦ ?_⟩
      have htarget (n : Nat) : target ≠ .absolute n := by
        rintro rfl
        have : (writtenNumber? ('k' :: c :: (name ++ (close :: rest)))).isSome :=
          writtenNumber?_of_absolute hc hname
        rw [hnone] at this
        cases this
      obtain ⟨hpos, ahead, hahead, hreferred⟩ := referred_behind hs htarget hgroups
      refine ⟨_, ?_, hR.backref ho hpos hahead⟩
      have := hread rest'
      simp only [List.cons_append, List.append_assoc, List.nil_append]
      rw [delimitedNode?]
      exact bind_eq_ok.2 ⟨_, this, bind_eq_ok.2 ⟨_, hreferred, rfl⟩⟩
  · rename_i cs
    obtain ⟨found, hfound, h⟩ := bind_eq_ok.1 h
    cases found with
    | none => cases h
    | some found =>
      obtain ⟨target, last⟩ := found
      obtain ⟨callee, hcallee, h⟩ := bind_eq_ok.1 h
      cases h
      obtain ⟨c, name, close, hc, rfl, hname, hread⟩ := delimitedReference?_takes hfound
      refine ⟨'g', c :: (name ++ [close]), by simp, fun {o' s'} rest' ho hs ↦ ?_⟩
      obtain ⟨callee', hcalled⟩ := called_behind hs hcallee
      refine ⟨_, ?_, hR.call _ callee'⟩
      have := hread rest'
      simp only [List.cons_append, List.append_assoc, List.nil_append]
      rw [delimitedNode?]
      exact bind_eq_ok.2 ⟨_, this, bind_eq_ok.2 ⟨_, hcalled, rfl⟩⟩
  · cases h

theorem delimitedNode?_none {c : Char} {cs' : List Char} (hagree : Agree cs cs') (o' : Options)
    (s' : Source) (h : delimitedNode? o s (c :: cs) = .ok none) :
    delimitedNode? o' s' (c :: cs') = .ok none := by
  rw [delimitedNode?.eq_def] at h
  split at h
  · rename_i heq
    cases heq
    obtain ⟨found, hfound, h⟩ := bind_eq_ok.1 h
    cases found with
    | some found =>
      obtain ⟨_, -, h⟩ := bind_eq_ok.1 h
      cases h
    | none => exact bind_eq_ok.2 ⟨_, delimitedReference?_none hfound hagree, rfl⟩
  · rename_i heq
    cases heq
    obtain ⟨found, hfound, h⟩ := bind_eq_ok.1 h
    cases found with
    | some found =>
      obtain ⟨_, -, h⟩ := bind_eq_ok.1 h
      cases h
    | none => exact bind_eq_ok.2 ⟨_, delimitedReference?_none hfound hagree, rfl⟩
  · rename_i hk hg
    rw [delimitedNode?]
    · rfl
    · rintro _ heq
      cases heq
      exact hk _ rfl
    · rintro _ heq
      cases heq
      exact hg _ rfl

theorem likeness_letter (hR : Likeness strict offset R) {c : Char} {node : Node}
    (h : escapedLetter? c = some node) : R node node := by
  rw [escapedLetter?] at h
  split at h
  · cases h
    exact hR.set _
  · rw [escapedPlace?.eq_def] at h
    split at h
    all_goals cases h
    all_goals
      first
      | exact hR.anchor _
      | exact hR.set _
      | exact hR.keep
      | exact hR.newline

theorem escapedNumber?_none (h : writtenNumber? cs = none) : escapedNumber? cs = none := by
  rw [writtenNumber?.eq_def] at h
  split at h
  · rfl
  · rfl
  · simpa using h

/-- Whether there is a number after a backslash is told by the next character. -/
theorem numberedNode?_none {c : Char} (h : escapedNumber? (c :: cs) = none) (cs' : List Char) :
    numberedNode? o s (c :: cs') = none := by
  have hnone : escapedNumber? (c :: cs') = none := by
    rw [escapedNumber?] at h ⊢
    split at h
    · rename_i hzero
      exact if_pos hzero
    · rename_i hzero
      have hdigit : isAsciiDigit c = false := by
        by_contra hdigit
        have hsome : (decimal? (c :: cs)).1.isSome :=
          decimal?_isSome (Bool.eq_true_of_not_eq_false hdigit)
        split at h
        · cases h
        · rename_i hdecimal
          rw [hdecimal] at hsome
          cases hsome
      have hspan : (c :: cs').span isAsciiDigit = ([], c :: cs') :=
        @span_append isAsciiDigit [] (c :: cs') (List.forall_mem_nil _) hdigit
      rw [if_neg hzero, decimal?, hspan]
  rw [numberedNode?.eq_def, hnone]

/-- What a backslash stands for, if no number is noted, whatever is ahead and whatever follows. -/
theorem escapeNode_takes (hR : Likeness strict offset R) {node : Node}
    (hnone : writtenNumber? cs = none) (h : escapeNode o s cs = .ok (node, rest)) :
    ∃ piece, cs = piece ++ rest ∧ ∀ {o' s'} rest', o.Like strict o' → Behind offset s s' →
      Agree rest rest' →
      ∃ node', escapeNode o' s' (piece ++ rest') = .ok (node', rest') ∧ R node node' := by
  rw [escapeNode.eq_def] at h
  split at h
  · cases h
  · rename_i c cs
    split at h
    · rename_i hletter
      cases h
      refine ⟨[c], rfl, fun {o' s'} rest' _ _ _ ↦ ⟨node, ?_, likeness_letter hR hletter⟩⟩
      rw [List.singleton_append, escapeNode, hletter]
      rfl
    · rename_i hletter
      obtain ⟨found, hdelimited, h⟩ := bind_eq_ok.1 h
      split at h
      · cases h
        obtain ⟨d, piece, hcs, hread⟩ := delimitedNode?_takes hR hnone hdelimited
        obtain ⟨rfl, rfl⟩ := List.cons.inj hcs
        refine ⟨c :: piece, rfl, fun {o' s'} rest' ho hs _ ↦ ?_⟩
        obtain ⟨node', hnode', hlike⟩ := hread rest' ho hs
        refine ⟨node', ?_, hlike⟩
        rw [List.cons_append, escapeNode, hletter]
        exact bind_eq_ok.2 ⟨_, hnode', rfl⟩
      · obtain ⟨found, hproperty, h⟩ := bind_eq_ok.1 h
        split at h
        · cases h
          obtain ⟨piece, rfl, hread⟩ := (escapedProperty?_takes hproperty).of_cons
          refine ⟨c :: piece, rfl, fun {o' s'} rest' _ _ hagree ↦ ⟨_, ?_, hR.set _⟩⟩
          rw [List.cons_append, escapeNode, hletter]
          exact bind_eq_ok.2 ⟨none, delimitedNode?_none (hagree.append piece) o' s' hdelimited,
            bind_eq_ok.2 ⟨_, hread rest' hagree, rfl⟩⟩
        · have hnumber := escapedNumber?_none hnone
          rw [numberedNode?_none hnumber] at h
          obtain ⟨⟨d, last⟩, hliteral, h⟩ := bind_eq_ok.1 h
          cases h
          obtain ⟨piece, rfl, hread⟩ := escapedLiteral_takes hliteral
          refine ⟨c :: piece, rfl, fun {o' s'} rest' ho _ hagree ↦ ⟨_, ?_, hR.char d ho⟩⟩
          have hagree' := hagree.append piece
          rw [List.cons_append, escapeNode, hletter]
          refine bind_eq_ok.2 ⟨none, delimitedNode?_none hagree' o' s' hdelimited,
            bind_eq_ok.2 ⟨none, escapedProperty?_none hproperty hagree', ?_⟩⟩
          dsimp only
          rw [numberedNode?_none hnumber]
          exact bind_eq_ok.2 ⟨_, hread rest' hagree, rfl⟩

/-- Digits after a backslash that refer to a group. -/
theorem escapeNode_number {digits : List Char} (hall : ∀ c ∈ digits, isAsciiDigit c = true)
    (hzero : digits.head?.any (· != '0') = true) (hrest : rest.head?.any isAsciiDigit = false)
    (hgroup : isGroupNumber s.groups (numeralValue 10 digits) = true) :
    escapeNode o s (digits ++ rest) =
      .ok (.backref [numeralValue 10 digits] o.ignoreCase, rest) := by
  have hnumber := escapedNumber?_digits hall hzero hrest
  cases digits with
  | nil => cases hzero
  | cons c digits =>
    have hdigit := hall c List.mem_cons_self
    have hne (d : Char) (hd : isAsciiDigit d = false) : c ≠ d := by
      rintro rfl
      rw [hd] at hdigit
      cases hdigit
    have hletter : escapedLetter? c = none := by
      rw [escapedLetter?, escapedClass?, escapedPlace?]
      all_goals exact hne _ rfl
    have hdelimited : delimitedNode? o s (c :: digits ++ rest) = .ok none := by
      rw [delimitedNode?.eq_def]
      split
      · rename_i heq
        exact absurd (List.cons.inj heq).1 (hne 'k' rfl)
      · rename_i heq
        exact absurd (List.cons.inj heq).1 (hne 'g' rfl)
      · rfl
    have hproperty : escapedProperty? (c :: digits ++ rest) = .ok none := by
      rw [escapedProperty?.eq_def]
      split
      · rename_i d more heq
        obtain ⟨rfl, -⟩ := List.cons.inj heq
        exact if_neg (not_or.2 ⟨hne 'p' rfl, hne 'P' rfl⟩)
      · rfl
    rw [List.cons_append] at hnumber hdelimited hproperty ⊢
    rw [escapeNode, hletter]
    refine bind_eq_ok.2 ⟨none, hdelimited, bind_eq_ok.2 ⟨none, hproperty, ?_⟩⟩
    dsimp only
    rw [numberedNode?.eq_def, hnumber]
    dsimp only
    rw [if_pos hgroup]
    rfl

/-- What a backslash stands for, by what belongs to it. -/
inductive Escaped (o : Options) (s : Source) (c : Char) (cs : List Char) :
    Node → List Char → Prop
  | letter {node : Node} : escapedLetter? c = some node → Escaped o s c cs node cs
  | delimited {node : Node} {rest : List Char} : escapedLetter? c = none →
      delimitedNode? o s (c :: cs) = .ok (some (node, rest)) → Escaped o s c cs node rest
  | property {set : CharSet} {rest : List Char} : escapedLetter? c = none →
      delimitedNode? o s (c :: cs) = .ok none →
      escapedProperty? (c :: cs) = .ok (some (set, rest)) → Escaped o s c cs (.set set) rest
  | numbered {node : Node} {rest : List Char} : escapedLetter? c = none →
      delimitedNode? o s (c :: cs) = .ok none → escapedProperty? (c :: cs) = .ok none →
      numberedNode? o s (c :: cs) = some (node, rest) → Escaped o s c cs node rest
  | literal {d : Char} {rest : List Char} : escapedLetter? c = none →
      delimitedNode? o s (c :: cs) = .ok none → escapedProperty? (c :: cs) = .ok none →
      numberedNode? o s (c :: cs) = none → escapedLiteral (c :: cs) = .ok (d, rest) →
      Escaped o s c cs (charNode o d) rest

theorem escapeNode_eq_ok {node : Node} : escapeNode o s cs = .ok (node, rest) ↔
    ∃ c more, cs = c :: more ∧ Escaped o s c more node rest := by
  constructor
  · intro h
    rw [escapeNode.eq_def] at h
    split at h
    · cases h
    · rename_i c cs
      refine ⟨c, cs, rfl, ?_⟩
      split at h
      · cases h
        exact .letter ‹_›
      · obtain ⟨found, hdelimited, h⟩ := bind_eq_ok.1 h
        split at h
        · cases h
          exact .delimited ‹_› hdelimited
        · obtain ⟨found, hproperty, h⟩ := bind_eq_ok.1 h
          split at h
          · cases h
            exact .property ‹_› hdelimited hproperty
          · split at h
            · cases h
              exact .numbered ‹_› hdelimited hproperty ‹_›
            · obtain ⟨⟨d, last⟩, hliteral, h⟩ := bind_eq_ok.1 h
              cases h
              exact .literal ‹_› hdelimited hproperty ‹_› hliteral
  · rintro ⟨c, more, rfl, h⟩
    cases h with
    | letter hletter => rw [escapeNode, hletter]; rfl
    | delimited hletter hdelimited =>
      rw [escapeNode, hletter]
      exact bind_eq_ok.2 ⟨_, hdelimited, rfl⟩
    | property hletter hdelimited hproperty =>
      rw [escapeNode, hletter]
      exact bind_eq_ok.2 ⟨_, hdelimited, bind_eq_ok.2 ⟨_, hproperty, rfl⟩⟩
    | numbered hletter hdelimited hproperty hnumbered =>
      rw [escapeNode, hletter]
      refine bind_eq_ok.2 ⟨_, hdelimited, bind_eq_ok.2 ⟨_, hproperty, ?_⟩⟩
      dsimp only
      rw [hnumbered]
      rfl
    | literal hletter hdelimited hproperty hnumbered hliteral =>
      rw [escapeNode, hletter]
      refine bind_eq_ok.2 ⟨_, hdelimited, bind_eq_ok.2 ⟨_, hproperty, ?_⟩⟩
      dsimp only
      rw [hnumbered]
      exact bind_eq_ok.2 ⟨_, hliteral, rfl⟩

end Escapes

end SyntaxHighlight.Regex
