import SyntaxHighlight.Proofs.Regex.Reading.Growth
import SyntaxHighlight.Proofs.Text.Numeral

/-!
A source is read the same way behind other groups, before whatever ends it there, if its numbers
after backslashes are moved by the groups ahead and nothing else is.
-/
namespace SyntaxHighlight.Regex

open Unicode

/-- Two texts, the second with `tail` for the parenthesis that ends the first, and with numbers
after backslashes moved. The numbers come with how much of the first text is left from there. -/
inductive Renumbered (offset : Nat) (tail : List Char) :
    List (Nat × Nat) → List Char → List Char → Prop
  | done : Renumbered offset tail [] ['\x29'] tail
  | plain {marks : List (Nat × Nat)} {cs cs' : List Char} (c : Char) :
      Renumbered offset tail marks cs cs' → Renumbered offset tail marks (c :: cs) (c :: cs')
  | number {marks : List (Nat × Nat)} {cs cs' digits digits' : List Char} {n : Nat} :
      Spells digits n → Spells digits' (n + offset) → cs.head?.any isAsciiDigit = false →
      Renumbered offset tail marks cs cs' →
      Renumbered offset tail (((digits ++ cs).length, n) :: marks) ('\\' :: (digits ++ cs))
        ('\\' :: (digits' ++ cs'))

namespace Renumbered

variable {offset : Nat} {tail cs cs' rest piece : List Char} {marks : List (Nat × Nat)} {c : Char}
  {n : Nat}

theorem agree (h : Renumbered offset tail marks cs cs') (htail : Stops tail) : Agree cs cs' := by
  induction h with
  | done => exact .stop (.inl rfl) htail
  | plain c _ ih => exact .cons c ih
  | number => exact .stop (.inr (.inr (.inl rfl))) (.inr (.inr (.inl rfl)))

theorem lt_length (h : Renumbered offset tail marks cs cs') : ∀ m ∈ marks, m.1 < cs.length := by
  induction h with
  | done => exact nofun
  | plain c _ ih => exact fun m hm ↦ Nat.lt_succ_of_lt (ih m hm)
  | number _ _ _ _ ih =>
    intro m hm
    simp only [List.length_cons, List.length_append]
    obtain rfl | hm := List.mem_cons.1 hm
    · simp only [List.length_append]
      omega
    · have := ih m hm
      omega

theorem length_le (h : Renumbered offset tail marks cs cs') :
    cs.length + tail.length ≤ cs'.length + 1 := by
  induction h with
  | done => exact Nat.le_of_eq (Nat.add_comm _ _)
  | plain c _ ih =>
    simp only [List.length_cons]
    omega
  | number hdigits hdigits' _ _ ih =>
    have hle := hdigits.length_le hdigits' (Nat.le_add_right _ _)
    simp only [List.length_cons, List.length_append]
    omega

theorem of_cons (h : Renumbered offset tail marks (c :: rest) cs') (hc : c ≠ '\\')
    (hrest : rest ≠ []) : ∃ rest', cs' = c :: rest' ∧ Renumbered offset tail marks rest rest' := by
  cases h with
  | done => exact absurd rfl hrest
  | plain _ h => exact ⟨_, rfl, h⟩
  | number => exact absurd rfl hc

theorem prepend (h : Renumbered offset tail marks cs cs') :
    ∀ piece, Renumbered offset tail marks (piece ++ cs) (piece ++ cs')
  | [] => h
  | c :: piece => .plain c (h.prepend piece)

theorem of_append (h : Renumbered offset tail marks (piece ++ rest) cs') (hrest : rest ≠ [])
    (hmarks : ∀ m ∈ marks, m.1 < rest.length) :
    ∃ rest', cs' = piece ++ rest' ∧ Renumbered offset tail marks rest rest' := by
  induction piece generalizing cs' with
  | nil => exact ⟨cs', rfl, h⟩
  | cons c piece ih =>
    rw [List.cons_append] at h
    generalize hcs : piece ++ rest = cs at h
    cases h with
    | done =>
      obtain ⟨-, rfl⟩ := List.append_eq_nil_iff.1 hcs
      exact absurd rfl hrest
    | plain _ h =>
      obtain ⟨rest', rfl, hrest'⟩ := ih (hcs ▸ h)
      exact ⟨rest', rfl, hrest'⟩
    | number =>
      have hlt := hmarks _ List.mem_cons_self
      rw [← hcs, List.length_append] at hlt
      omega

theorem of_number (h : Renumbered offset tail ((rest.length, n) :: marks) ('\\' :: rest) cs') :
    ∃ digits digits' more more', rest = digits ++ more ∧ cs' = '\\' :: (digits' ++ more') ∧
      Spells digits n ∧ Spells digits' (n + offset) ∧ more.head?.any isAsciiDigit = false ∧
      Renumbered offset tail marks more more' := by
  generalize hlength : rest.length = length at h
  cases h with
  | plain _ h => exact absurd (h.lt_length _ List.mem_cons_self) (by simp [hlength])
  | number hdigits hdigits' hmore h => exact ⟨_, _, _, _, rfl, rfl, hdigits, hdigits', hmore, h⟩

end Renumbered

/-- A number that refers to a group, and still does when it is moved with the groups. -/
def Numbered.IsMovable (offset : Nat) (m : Numbered) : Prop :=
  isGroupNumber m.opened m.number ∧ isGroupNumber (m.opened + offset) (m.number + offset)

def Numbered.mark (m : Numbered) : Nat × Nat := (m.left, m.number)

/-- Somewhere in the text options are set for all that is left of a group. -/
def SetsOptions (cs : List Char) : Prop := ∃ ahead rest o inner after,
  cs = ahead ++ '\x28' :: rest ∧ opening o rest = .ok (.options inner, after)

theorem SetsOptions.prepend {cs : List Char} (h : SetsOptions cs) (piece : List Char) :
    SetsOptions (piece ++ cs) := by
  obtain ⟨ahead, rest, o, inner, after, rfl, hopening⟩ := h
  exact ⟨piece ++ ahead, rest, o, inner, after, (List.append_assoc ..).symm, hopening⟩

theorem not_setsOptions {cs : List Char} (h : '?' ∉ cs) : ¬ SetsOptions cs := by
  rintro ⟨ahead, rest, o, inner, after, rfl, hopening⟩
  cases rest with
  | nil => cases hopening
  | cons c rest =>
    have hquestion : c ≠ '?' := by
      rintro rfl
      exact h (by simp)
    by_cases hstar : c = '*'
    · subst hstar
      obtain ⟨⟨_, _⟩, -, hdone⟩ := bind_eq_ok.1 hopening
      cases hdone
    · rw [opening_capture hquestion hstar] at hopening
      cases hopening

/-- More alternatives follow. -/
def GoesOn (tail : List Char) : Prop := ∃ c more, tail = '\x7c' :: c :: more

def Opens (tail : List Char) : Prop := ∃ more, tail = '\x28' :: more

/-- A state on the way to one at which `all` numbers have been met. -/
structure Fits (all : List Numbered) (s : Source) : Prop where
  met : s.numbers <+: all
  left : ∀ m ∈ all.drop s.numbers.length, m.left < s.rest.length
  rest : s.rest ≠ []

/-- Two states of reading, the second behind `offset` groups, where the numbers among `all` that are
still to come are moved by as many. -/
structure Mirrors (offset : Nat) (tail : List Char) (all : List Numbered) (s s' : Source) :
    Prop where
  behind : Behind offset s s'
  text : Renumbered offset tail ((all.drop s.numbers.length).map Numbered.mark) s.rest s'.rest
  /-- Options must not reach into what is not in the first text. -/
  calm : GoesOn tail ∨ Opens tail → ¬ SetsOptions s.rest

section Pieces

variable {offset : Nat} {tail : List Char} {all : List Numbered} {s s' t : Source}

theorem Fits.of_grown (h : Fits all t) (hgrown : Grown s t) : Fits all s := by
  obtain ⟨log, hlog, hleft⟩ := hgrown.log
  obtain ⟨more, rfl⟩ := h.met
  have hmore := h.left
  rw [List.drop_left] at hmore
  refine ⟨⟨log ++ more, by rw [hlog, List.append_assoc]⟩, fun m hm ↦ ?_, hgrown.ne_nil h.rest⟩
  rw [hlog, List.append_assoc, List.drop_left] at hm
  obtain hm | hm := List.mem_append.1 hm
  · exact hleft m hm
  · exact Nat.lt_of_lt_of_le (hmore m hm) hgrown.length

theorem Mirrors.past {piece after : List Char} (h : Mirrors offset tail all s s')
    (htail : Stops tail) (hrest : s.rest = piece ++ after)
    (hfits : Fits all { s with rest := after }) :
    ∃ after', s'.rest = piece ++ after' ∧ Agree after after' ∧
      Mirrors offset tail all { s with rest := after } { s' with rest := after' } := by
  have htext := h.text
  rw [hrest] at htext
  obtain ⟨after', hrest', htext⟩ := htext.of_append hfits.rest fun m hm ↦ by
    obtain ⟨m, hmem, rfl⟩ := List.mem_map.1 hm
    exact hfits.left m hmem
  refine ⟨after', hrest', htext.agree htail, ⟨h.behind.groups, h.behind.names, h.behind.positive⟩,
    htext, fun hon hsets ↦ h.calm hon ?_⟩
  rw [hrest]
  exact hsets.prepend piece

end Pieces

section Steps

variable {strict : Prop} {offset : Nat} {R : Node → Node → Prop} {tail : List Char}
  {all : List Numbered} {o o' : Options} {s s' t : Source} {node : Node}

theorem noting_none {cs : List Char} (h : writtenNumber? cs = none) : s.noting cs = s := by
  rw [Source.noting, h]

theorem noting_some {cs : List Char} {n : Nat} (h : writtenNumber? cs = some n) :
    s.noting cs = { s with numbers := s.numbers ++ [⟨cs.length, n, s.groups⟩] } := by
  rw [Source.noting, h]

theorem Mirrors.noting {after : List Char} (h : Mirrors offset tail all t { s' with rest := after })
    (cs : List Char) : Mirrors offset tail all t { s'.noting cs with rest := after } := by
  rw [Source.noting]
  split
  · exact ⟨⟨h.behind.groups, h.behind.names, h.behind.positive⟩, h.text, h.calm⟩
  · exact h

/-- A reference by number is to the moved number behind other groups. -/
theorem mirrors_number (hR : Likeness strict offset R) (htail : Stops tail)
    {rest after : List Char} {n : Nat}
    (hrest : s.rest = '\\' :: rest) (hnode : escapeNode o s rest = .ok (node, after))
    (hn : writtenNumber? rest = some n) (hmovable : ∀ m ∈ all, m.IsMovable offset)
    (hfits : Fits all { s.noting rest with rest := after }) (ho : o.Like strict o')
    (hs : Mirrors offset tail all s s') :
    ∃ node' t', Atom o' s' node' t' ∧ R node node' ∧
      Mirrors offset tail all { s.noting rest with rest := after } t' := by
  rw [noting_some hn] at hfits ⊢
  obtain ⟨more, rfl⟩ := hfits.met
  have htext := hs.text
  rw [hrest, List.append_assoc, List.drop_left] at htext
  obtain ⟨digits, digits', cs, cs', rfl, hrest', hdigits, hdigits', hcs, htext⟩ := htext.of_number
  obtain ⟨hgroup, hgroup'⟩ := hmovable ⟨(digits ++ cs).length, n, s.groups⟩ (by simp)
  have hcs' : cs'.head?.any isAsciiDigit = false :=
    (htext.agree htail).head_any_eq_false isAsciiDigit_not_stops hcs
  have hnumber : escapeNode o s (digits ++ cs) = .ok (.backref [n] o.ignoreCase, cs) := by
    rw [escapeNode_number hdigits.digit hdigits.zero hcs (hdigits.value.symm ▸ hgroup),
      hdigits.value]
  have hnumber' : escapeNode o' s' (digits' ++ cs') =
      .ok (.backref [n + offset] o'.ignoreCase, cs') := by
    rw [← hs.behind.groups] at hgroup'
    rw [escapeNode_number hdigits'.digit hdigits'.zero hcs' (hdigits'.value.symm ▸ hgroup'),
      hdigits'.value]
  cases hnode.symm.trans hnumber
  have hpos (m : Nat) (hm : m ∈ [n]) : 0 < m := by
    rw [List.mem_singleton.1 hm]
    exact hdigits.pos
  refine ⟨_, _, .escape hrest' hnumber', hR.backref ho hpos nofun, Mirrors.noting ?_ _⟩
  refine ⟨⟨hs.behind.groups, hs.behind.names, hs.behind.positive⟩, ?_, fun hon hsets ↦ ?_⟩
  · dsimp only
    rw [List.drop_left]
    exact htext
  · have hsets := hsets.prepend ('\\' :: digits)
    refine hs.calm hon ?_
    rw [hrest]
    exact hsets

theorem Atom.mirrors (hR : Likeness strict offset R) (htail : Stops tail)
    (hmovable : ∀ m ∈ all, m.IsMovable offset) (h : Atom o s node t) (hfits : Fits all t)
    (ho : o.Like strict o') (hs : Mirrors offset tail all s s') :
    ∃ node' t', Atom o' s' node' t' ∧ R node node' ∧ Mirrors offset tail all t t' := by
  cases h with
  | callout hrest hopening =>
    obtain ⟨piece, rfl, hread⟩ := opening_takes strict hopening
    obtain ⟨after', hrest', -, ht⟩ :=
      hs.past htail (hrest.trans (List.cons_append ..).symm) hfits
    obtain ⟨what, hopening', hlike⟩ := hread o' after' ho nofun
    cases hlike
    exact ⟨_, _, .callout hrest' hopening', hR.set _, ht⟩
  | bracketed hrest hb =>
    obtain ⟨piece, rfl, hread⟩ := classBody_takes hb
    obtain ⟨after', hrest', hagree, ht⟩ :=
      hs.past htail (hrest.trans (List.cons_append ..).symm) hfits
    exact ⟨_, _, .bracketed hrest' (hread after' hagree), hR.bracketed _ ho, ht⟩
  | @escape rest after node hrest hnode =>
    cases hn : writtenNumber? rest with
    | some n => exact mirrors_number hR htail hrest hnode hn hmovable hfits ho hs
    | none =>
      rw [noting_none hn] at hfits ⊢
      obtain ⟨piece, rfl, hread⟩ := escapeNode_takes hR hn hnode
      obtain ⟨after', hrest', hagree, ht⟩ :=
        hs.past htail (hrest.trans (List.cons_append ..).symm) hfits
      obtain ⟨node', hnode', hlike⟩ := hread after' ho hs.behind hagree
      exact ⟨node', _, .escape hrest' hnode', hlike, ht.noting _⟩
  | dot hrest =>
    obtain ⟨after', hrest', -, ht⟩ := hs.past htail (hrest.trans List.singleton_append.symm) hfits
    refine ⟨_, _, .dot hrest', ?_, ht⟩
    rw [dotSet, dotSet, ho.dotAll]
    exact hR.set _
  | lineStart hrest =>
    obtain ⟨after', hrest', -, ht⟩ := hs.past htail (hrest.trans List.singleton_append.symm) hfits
    exact ⟨_, _, .lineStart hrest', hR.anchor _, ht⟩
  | lineEnd hrest =>
    obtain ⟨after', hrest', -, ht⟩ := hs.past htail (hrest.trans List.singleton_append.symm) hfits
    exact ⟨_, _, .lineEnd hrest', hR.anchor _, ht⟩
  | @char c rest hrest hc hquantifier =>
    obtain ⟨after', hrest', hagree, ht⟩ :=
      hs.past htail (hrest.trans List.singleton_append.symm) hfits
    exact ⟨_, _, .char hrest' hc (quantifier?_none (hagree.append [c]) hquantifier),
      hR.char c ho, ht⟩

end Steps

/-- What the second text may end with: nothing, a parenthesis, or a bar, after which an empty
alternative is read, or any others. -/
inductive Finish (R : Node → Node → Prop) (spare : Nat) : List Char → Prop
  | nothing : Finish R spare []
  | close (more : List Char) : Finish R spare ('\x29' :: more)
  | more (c : Char) (more : List Char) : Finish R spare ('\x7c' :: c :: more)
  | bar : 2 ≤ spare → (∀ {a b : Node}, R a b → R a (.alt b .empty)) → Finish R spare ['\x7c']

/-- Where reading both texts leads: to states that mirror each other again, or to the end of both,
past the bar of the second. -/
def Reaches (offset : Nat) (tail : List Char) (all : List Numbered) (t t' : Source) : Prop :=
  Mirrors offset tail all t t' ∨
    (Behind offset t t' ∧ t.rest = ['\x29'] ∧ tail = ['\x7c'] ∧ t'.rest = [])

/-- A way to read that finds in the second text what another finds in the first. -/
def Mirrored (R : Node → Node → Prop) (offset : Nat) (tail : List Char) (all : List Numbered)
    (read read' : Source → Except PatternError (Node × Source)) : Prop :=
  ∀ {s s' node t}, read s = .ok (node, t) → Fits all t → Mirrors offset tail all s s' →
    ∃ node' t', read' s' = .ok (node', t') ∧ R node node' ∧ Reaches offset tail all t t'

/-- The first text is at its end, and the second has more alternatives. -/
def Ended (tail : List Char) (t : Source) : Prop := t.rest = ['\x29'] ∧ GoesOn tail

/-- The same as long as there are no more alternatives in the second text. -/
def MirroredUntilEnd (R : Node → Node → Prop) (offset : Nat) (tail : List Char)
    (all : List Numbered) (read read' : Source → Except PatternError (Node × Source)) : Prop :=
  ∀ {s s' node t}, read s = .ok (node, t) → Fits all t → Mirrors offset tail all s s' →
    (∃ node' t', read' s' = .ok (node', t') ∧ R node node' ∧ Reaches offset tail all t t') ∨
      Ended tail t

/-- The same before the end of the first text, whatever the second has in its place. -/
def MirroredWithin (R : Node → Node → Prop) (offset : Nat) (tail : List Char)
    (all : List Numbered) (read read' : Source → Except PatternError (Node × Source)) : Prop :=
  ∀ {s s' node t}, read s = .ok (node, t) → t.rest ≠ ['\x29'] → Fits all t →
    Mirrors offset tail all s s' →
      ∃ node' t', read' s' = .ok (node', t') ∧ R node node' ∧ Mirrors offset tail all t t'

section Run

variable {strict : Prop} {offset spare : Nat} {R : Node → Node → Prop} {tail : List Char}
  {all : List Numbered} {o o' : Options} {s s' t t' : Source} {node : Node}

theorem Finish.stops (h : Finish R spare tail) : Stops tail := by
  cases h with
  | nothing => trivial
  | close => exact .inl rfl
  | bar | more => exact .inr (.inl rfl)

theorem Finish.not_opens (h : Finish R spare tail) : ¬ Opens tail := by
  rintro ⟨more, rfl⟩
  cases h

theorem Renumbered.ends {marks : List (Nat × Nat)} {cs cs' : List Char}
    (h : Renumbered offset tail marks cs cs') (hfinish : Finish R spare tail) (hends : Ends cs) :
    Ends cs' := by
  cases h with
  | done =>
    cases hfinish with
    | nothing => trivial
    | close => exact .inr rfl
    | bar | more => exact .inl rfl
  | plain c => exact hends
  | number => obtain hends | hends := hends <;> cases hends

/-- Before its end, the second text starts as the first does. -/
theorem Renumbered.head?_eq {marks : List (Nat × Nat)} {cs cs' : List Char}
    (h : Renumbered offset tail marks cs cs') (hne : cs ≠ ['\x29']) : cs'.head? = cs.head? := by
  cases h with
  | done => exact absurd rfl hne
  | plain => rfl
  | number => rfl

theorem Mirrors.skipped (h : Mirrors offset tail all s s') (htail : Stops tail)
    (ho : o.Like strict o') {rest : List Char}
    (hskip : skipIgnored o.extended s.rest.length s.rest = .ok rest)
    (hfits : Fits all { s with rest := rest }) :
    ∃ rest', skipIgnored o'.extended s'.rest.length s'.rest = .ok rest' ∧
      Mirrors offset tail all { s with rest := rest } { s' with rest := rest' } := by
  obtain ⟨piece, hrest, hread⟩ := skipIgnored_takes (Nat.le_refl _) hskip hfits.rest
  obtain ⟨rest', hrest', hagree, ht⟩ := h.past htail hrest hfits
  rw [ho.extended, hrest']
  exact ⟨rest', hread rest' _ hagree (Nat.le_refl _), ht⟩

theorem Mirrors.quantified (hR : Likeness strict offset R) (h : Mirrors offset tail all s s')
    (htail : Stops tail) (ho : o.Like strict o') {first first' repeated : Node} {rest : List Char}
    (hquantified : quantified o.extended s.rest.length first s.rest = .ok (repeated, rest))
    (hfits : Fits all { s with rest := rest }) (hfirst : R first first') :
    ∃ repeated' rest', Regex.quantified o'.extended s'.rest.length first' s'.rest =
        .ok (repeated', rest') ∧ R repeated repeated' ∧
      Mirrors offset tail all { s with rest := rest } { s' with rest := rest' } := by
  obtain ⟨piece, hrest, hread⟩ :=
    quantified_takes hR.isRepeatable hR.repeated (Nat.le_refl _) hquantified hfits.rest
  obtain ⟨rest', hrest', hagree, ht⟩ := h.past htail hrest hfits
  obtain ⟨repeated', hrepeated', hlike⟩ :=
    hread rest' (piece ++ rest').length first' hagree (Nat.le_refl _) hfirst
  rw [ho.extended, hrest']
  exact ⟨repeated', rest', hrepeated', hlike, ht⟩

theorem Fits.of_closed {mid closed : Source} (h : Fits all closed)
    (hclosed : mid.closed = .ok closed) : Fits all mid := by
  obtain ⟨hlength, -, hnumbers, -⟩ := closed_length hclosed
  obtain ⟨hmet, hleft, -⟩ := h
  rw [hnumbers] at hmet hleft
  refine ⟨hmet, fun m hm ↦ ?_, List.ne_nil_of_length_pos (hlength ▸ Nat.succ_pos _)⟩
  have := hleft m hm
  omega

theorem Mirrors.closed {mid mid' closed : Source} (h : Mirrors offset tail all mid mid')
    (hclosed : mid.closed = .ok closed) (hrest : closed.rest ≠ []) :
    ∃ closed', mid'.closed = .ok closed' ∧ Mirrors offset tail all closed closed' := by
  rw [Source.closed] at hclosed
  split at hclosed
  · rename_i rest hmid
    cases hclosed
    have htext := h.text
    rw [hmid] at htext
    obtain ⟨rest', hmid', htext⟩ := htext.of_cons (by decide) hrest
    refine ⟨{ mid' with rest := rest' }, ?_, ⟨h.behind.groups, h.behind.names,
      h.behind.positive⟩, htext, fun hon hsets ↦ h.calm hon ?_⟩
    · rw [Source.closed, hmid']
      rfl
    · rw [hmid]
      exact hsets.prepend ['\x29']
  · cases hclosed

theorem not_end_of_closed {mid closed : Source} (hclosed : mid.closed = .ok closed)
    (hrest : closed.rest ≠ []) : mid.rest ≠ ['\x29'] := by
  intro hmid
  have hlength := (closed_length hclosed).1
  rw [hmid] at hlength
  exact hrest (List.eq_nil_of_length_eq_zero (Nat.succ.inj hlength))

theorem MirroredUntilEnd.within {read read' : Source → Except PatternError (Node × Source)}
    (h : MirroredUntilEnd R offset tail all read read') :
    MirroredWithin R offset tail all read read' := by
  intro s s' node t hread hrest hfits hs
  obtain ⟨node', t', hread', hlike, ht | ⟨-, hend, -⟩⟩ | hended := h hread hfits hs
  · exact ⟨node', t', hread', hlike, ht⟩
  · exact absurd hend hrest
  · exact absurd hended.1 hrest

/-- A sequence of the first text is found in the second, up to how both go on after the first piece,
end, or set options. The groups that it starts with are closed before the end of the first text. -/
theorem Sequence.carried {fuel fuel' : Nat} {Q : Node → Source → Prop}
    (hR : Likeness strict offset R) (htail : Stops tail) (hmovable : ∀ m ∈ all, m.IsMovable offset)
    (hbody : ∀ {o o'}, o.Like strict o' →
      MirroredWithin R offset tail all (alternatives fuel o) (alternatives fuel' o'))
    (hstop : Ends s.rest → node = .empty → t = s →
      ∃ node' t', Sequence fuel' o' s' node' t' ∧ Q node' t')
    (hoptions : ∀ {inner inner' rest after after'}, s.rest = '\x28' :: rest →
      opening o rest = .ok (.options inner, after) → inner.Like strict inner' →
      alternatives fuel inner { s with rest := after } = .ok (node, t) →
      Mirrors offset tail all { s with rest := after } { s' with rest := after' } →
      ∃ node' t', alternatives fuel' inner' { s' with rest := after' } = .ok (node', t') ∧
        Q node' t')
    (hnext : ∀ {first first' mid mid'}, R first first' → next fuel o first mid = .ok (node, t) →
      Mirrors offset tail all mid mid' →
      ∃ node' t', next fuel' o' first' mid' = .ok (node', t') ∧ Q node' t')
    (h : Sequence fuel o s node t) (hfits : Fits all t) (ho : o.Like strict o')
    (hs : Mirrors offset tail all s s') :
    ∃ node' t', Sequence fuel' o' s' node' t' ∧ Q node' t' := by
  obtain ⟨hgrows, -, hgrowsNext⟩ := reading_grows fuel
  cases h with
  | stop hends => exact hstop hends rfl rfl
  | @options inner rest after _ _ hrest hopening h =>
    have hfits' : Fits all { s with rest := after } := hfits.of_grown (hgrows _ h hfits.rest).1
    obtain ⟨piece, rfl, hread⟩ := opening_takes strict hopening
    obtain ⟨after', hrest', -, hs'⟩ :=
      hs.past htail (hrest.trans (List.cons_append ..).symm) hfits'
    obtain ⟨what, hopening', hlike⟩ := hread o' after' ho nofun
    cases hlike with
    | options hinner =>
      obtain ⟨node', t', h', hnode⟩ := hoptions hrest hopening hinner h hs'
      exact ⟨node', t', .options hrest' hopening' h', hnode⟩
  | @group e inner rest after body _ mid closed _ hrest hopening hread hclosed h =>
    have hfitsClosed := hfits.of_grown (hgrowsNext _ _ h hfits.rest).1
    have hfitsMid := hfitsClosed.of_closed hclosed
    have hfits' : Fits all { s with rest := after } :=
      hfitsMid.of_grown (hgrows _ hread hfitsMid.rest).1
    obtain ⟨piece, rfl, hread'⟩ := opening_takes strict hopening
    obtain ⟨after', hrest', -, hs'⟩ :=
      hs.past htail (hrest.trans (List.cons_append ..).symm) hfits'
    obtain ⟨what, hopening', hlike⟩ := hread' o' after' ho nofun
    cases hlike with
    | group _ hinner =>
      obtain ⟨body', mid', hbody', hlike, hmid⟩ :=
        hbody hinner hread (not_end_of_closed hclosed hfitsClosed.rest) hfitsMid hs'
      obtain ⟨closed', hclosed', hs''⟩ := hmid.closed hclosed hfitsClosed.rest
      obtain ⟨node', t', h', hnode⟩ := hnext (hR.enclosed e hlike) h hs''
      exact ⟨node', t', .group hrest' hopening' hbody' hclosed' h', hnode⟩
  | @capture name rest after body _ mid closed _ hrest hopening hread hclosed h =>
    have hfitsClosed := hfits.of_grown (hgrowsNext _ _ h hfits.rest).1
    have hfitsMid := hfitsClosed.of_closed hclosed
    have hgrown := (hgrows _ hread hfitsMid.rest).1
    have hfits' : Fits all { s with rest := after } :=
      have hfits' := hfitsMid.of_grown hgrown
      ⟨hfits'.met, hfits'.left, hfits'.rest⟩
    obtain ⟨piece, rfl, hread'⟩ := opening_takes strict hopening
    obtain ⟨after', hrest', -, hs'⟩ :=
      hs.past htail (hrest.trans (List.cons_append ..).symm) hfits'
    -- The group is closed with more to come, so there is more than a parenthesis left.
    have hlength : 1 < after.length := by
      have := (closed_length hclosed).1
      have := hgrown.length
      have := List.length_pos_iff.2 hfitsClosed.rest
      simp only [Source.numbered] at *
      omega
    have hne : after ≠ ['\x29'] := fun hend ↦ by simp [hend] at hlength
    obtain ⟨what, hopening', hlike⟩ := hread' o' after' ho fun _ ↦ hs'.text.head?_eq hne
    cases hlike with
    | capture =>
      have hnumbered : Mirrors offset tail all ({ s with rest := after }.numbered name)
          ({ s' with rest := after' }.numbered name) :=
        ⟨hs'.behind.numbered name, hs'.text, hs'.calm⟩
      obtain ⟨body', mid', hbody', hlike, hmid⟩ :=
        hbody ho hread (not_end_of_closed hclosed hfitsClosed.rest) hfitsMid hnumbered
      obtain ⟨closed', hclosed', hs''⟩ := hmid.closed hclosed hfitsClosed.rest
      have hgroup := hR.group (Nat.succ_pos s.groups) hlike
      have hnumber : s.groups + 1 + offset = s'.groups + 1 := by
        rw [hs.behind.groups]
        omega
      rw [hnumber] at hgroup
      obtain ⟨node', t', h', hnode⟩ := hnext hgroup h hs''
      exact ⟨node', t', .capture hrest' hopening' hbody' hclosed' h', hnode⟩
  | atom hfirst h =>
    have hfits' := hfits.of_grown (hgrowsNext _ _ h hfits.rest).1
    obtain ⟨first', after', hfirst', hlike, hs'⟩ :=
      hfirst.mirrors hR htail hmovable hfits' ho hs
    obtain ⟨node', t', h', hnode⟩ := hnext hlike h hs'
    exact ⟨node', t', .atom hfirst' h', hnode⟩

theorem Sequence.mirrors {fuel fuel' : Nat} (hR : Likeness strict offset R)
    (hfinish : Finish R spare tail) (hmovable : ∀ m ∈ all, m.IsMovable offset)
    (halternatives : ∀ {o o'}, o.Like strict o' →
      MirroredUntilEnd R offset tail all (alternatives fuel o) (alternatives fuel' o'))
    (hnext : ∀ {o o' first first'}, o.Like strict o' → R first first' →
      Mirrored R offset tail all (next fuel o first) (next fuel' o' first'))
    (h : Sequence fuel o s node t) (hfits : Fits all t) (ho : o.Like strict o')
    (hs : Mirrors offset tail all s s') :
    ∃ node' t', Sequence fuel' o' s' node' t' ∧ R node node' ∧ Reaches offset tail all t t' := by
  refine h.carried hR hfinish.stops hmovable (fun ho ↦ MirroredUntilEnd.within (halternatives ho))
    (fun hends hnode ht ↦ ?_) (fun hrest hopening hinner h hs' ↦ ?_)
    (fun hlike h hs' ↦ hnext ho hlike h hfits hs') hfits ho hs
  · subst hnode ht
    exact ⟨_, _, .stop (hs.text.ends hfinish hends), hR.empty, .inl hs⟩
  · obtain hfound | hended := halternatives hinner h hfits hs'
    · exact hfound
    · exact absurd ⟨[], _, _, _, _, hrest, hopening⟩ (hs.calm (.inl hended.2))

theorem alternatives_nil (fuel : Nat) (o : Options) (s : Source) :
    alternatives (fuel + 2) o { s with rest := [] } = .ok (.empty, { s with rest := [] }) := by
  have hbranch : branch (fuel + 1) o { s with rest := [] } = .ok (.empty, { s with rest := [] }) :=
    branch_eq_ok.2 ⟨[], rfl, .stop trivial⟩
  exact alternatives_eq_ok.2 ⟨_, _, hbranch, .inl ⟨nofun, rfl, rfl⟩⟩

/-- The last alternative of the first text, which in the second others may follow. -/
theorem Reaches.alternatives {fuel : Nat} (h : Reaches offset tail all t t')
    (hfinish : Finish R spare tail) {node' : Node} (hbranch : branch fuel o s' = .ok (node', t'))
    (hbar : t.rest.head? ≠ some '\x7c') (hlike : R node node') (hfuel : spare ≤ fuel) :
    (∃ node' t', Regex.alternatives (fuel + 1) o s' = .ok (node', t') ∧ R node node' ∧
      Reaches offset tail all t t') ∨ Ended tail t := by
  have hlast (hbar : t'.rest.head? ≠ some '\x7c') : ∃ node' t',
      Regex.alternatives (fuel + 1) o s' = .ok (node', t') ∧ R node node' ∧
        Reaches offset tail all t t' :=
    ⟨node', t', alternatives_eq_ok.2 ⟨node', t', hbranch, .inl ⟨hbar, rfl, rfl⟩⟩, hlike, h⟩
  obtain h | ⟨-, -, -, hend⟩ := h
  · have htext := h.text
    generalize hrest : t.rest = cs, hrest' : t'.rest = cs',
      (all.drop t.numbers.length).map Numbered.mark = marks at htext
    cases htext with
    | done =>
      cases hfinish with
      | nothing =>
        refine .inl (hlast ?_)
        rw [hrest']
        exact nofun
      | close =>
        refine .inl (hlast ?_)
        rw [hrest']
        simp
      | more => exact .inr ⟨hrest, _, _, rfl⟩
      | bar hspare halt =>
        obtain ⟨k, rfl⟩ : ∃ k, fuel = k + 2 := ⟨fuel - 2, by omega⟩
        exact .inl ⟨_, _, alternatives_eq_ok.2 ⟨node', t', hbranch,
          .inr ⟨[], .empty, hrest', rfl, alternatives_nil k o t'⟩⟩, halt hlike,
          .inr ⟨⟨h.behind.groups, h.behind.names, h.behind.positive⟩, hrest, rfl, rfl⟩⟩
    | plain c =>
      refine .inl (hlast ?_)
      rw [hrest] at hbar
      rw [hrest']
      exact hbar
    | number =>
      refine .inl (hlast ?_)
      rw [hrest']
      simp
  · refine .inl (hlast ?_)
    rw [hend]
    exact nofun

/-- Where an alternative of the first text ends, with more to come, so does one of the second. -/
theorem Mirrors.past_bar {rest : List Char} (h : Mirrors offset tail all t t')
    (ht : t.rest = '\x7c' :: rest) (hrest : rest ≠ []) : ∃ rest', t'.rest = '\x7c' :: rest' ∧
      Mirrors offset tail all { t with rest := rest } { t' with rest := rest' } := by
  have htext := h.text
  rw [ht] at htext
  obtain ⟨rest', ht', htext⟩ := htext.of_cons (by decide) hrest
  exact ⟨rest', ht', ⟨h.behind.groups, h.behind.names, h.behind.positive⟩, htext, fun hon hsets ↦
    h.calm hon (ht ▸ hsets.prepend ['\x7c'])⟩

/-- Reading the first text is mirrored by reading the second. -/
theorem reading_mirrored (hR : Likeness strict offset R) (hfinish : Finish R spare tail)
    (hmovable : ∀ m ∈ all, m.IsMovable offset) (fuel : Nat) :
    ∀ fuel', fuel + spare ≤ fuel' →
    (∀ {o o'}, o.Like strict o' →
      MirroredUntilEnd R offset tail all (alternatives fuel o) (alternatives fuel' o')) ∧
    (∀ {o o'}, o.Like strict o' → Mirrored R offset tail all (branch fuel o) (branch fuel' o')) ∧
    ∀ {o o' first first'}, o.Like strict o' → R first first' →
      Mirrored R offset tail all (next fuel o first) (next fuel' o' first') := by
  induction fuel with
  | zero => exact fun _ _ ↦ ⟨fun _ ↦ nofun, fun _ ↦ nofun, fun _ _ ↦ nofun⟩
  | succ fuel ih =>
    intro fuel' hfuel
    obtain ⟨fuel', rfl⟩ : ∃ k, fuel' = k + 1 := ⟨fuel' - 1, by omega⟩
    obtain ⟨ihAlternatives, ihBranch, ihNext⟩ := ih fuel' (by omega)
    obtain ⟨hgrows, hgrowsBranch, hgrowsNext⟩ := reading_grows fuel
    refine ⟨fun {o o'} ho s s' node t h hfits hs ↦ ?_, fun {o o'} ho s s' node t h hfits hs ↦ ?_,
      fun {o o' first first'} ho hfirst s s' node t h hfits hs ↦ ?_⟩
    · obtain ⟨first, mid, hbranch, h⟩ := alternatives_eq_ok.1 h
      obtain ⟨hbar, rfl, rfl⟩ | ⟨rest, other, hmid, rfl, hother⟩ := h
      · obtain ⟨first', mid', hbranch', hlike, ht⟩ := ihBranch ho hbranch hfits hs
        exact ht.alternatives hfinish hbranch' hbar hlike (by omega)
      · have hfits' := hfits.of_grown (hgrows _ hother hfits.rest).1
        have hfitsMid : Fits all mid := hfits'.of_grown
          ⟨by simp [hmid], Nat.le_refl _, ⟨[], (List.append_nil _).symm, nofun⟩, id⟩
        obtain ⟨first', mid', hbranch', hlike, hm | ⟨-, hend, -⟩⟩ := ihBranch ho hbranch hfitsMid hs
        · obtain ⟨rest', hmid', hm'⟩ := hm.past_bar hmid hfits'.rest
          obtain ⟨other', t', hother', hlike', ht⟩ | hended := ihAlternatives ho hother hfits hm'
          · exact .inl ⟨_, t', alternatives_eq_ok.2 ⟨first', mid', hbranch',
              .inr ⟨rest', other', hmid', rfl, hother'⟩⟩, hR.alt hlike hlike', ht⟩
          · exact .inr hended
        · rw [hmid] at hend
          cases hend
    · obtain ⟨rest, hskip, hsequence⟩ := branch_eq_ok.1 h
      have hfits' := hfits.of_grown (hsequence.grown hgrows hgrowsNext hfits.rest).1
      obtain ⟨rest', hskip', hs'⟩ := hs.skipped hfinish.stops ho hskip hfits'
      obtain ⟨node', t', hsequence', hnode, ht⟩ :=
        hsequence.mirrors hR hfinish hmovable ihAlternatives ihNext hfits ho hs'
      exact ⟨node', t', branch_eq_ok.2 ⟨rest', hskip', hsequence'⟩, hnode, ht⟩
    · obtain ⟨repeated, rest, others, hquantified, hbranch, rfl⟩ := next_eq_ok.1 h
      have hfits' := hfits.of_grown (hgrowsBranch _ hbranch hfits.rest).1
      obtain ⟨repeated', rest', hquantified', hrepeated, hs'⟩ :=
        hs.quantified hR hfinish.stops ho hquantified hfits' hfirst
      obtain ⟨others', t', hbranch', hothers, ht⟩ := ihBranch ho hbranch hfits hs'
      exact ⟨_, t', next_eq_ok.2 ⟨repeated', rest', others', hquantified', hbranch', rfl⟩,
        hR.cat hrepeated hothers, ht⟩

end Run

end SyntaxHighlight.Regex
