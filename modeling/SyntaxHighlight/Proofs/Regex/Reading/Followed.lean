import SyntaxHighlight.Proofs.Regex.Reading.Whole

/-! A whole source that other alternatives follow, without a group around it. -/
namespace SyntaxHighlight.Regex

/-- The second tree is the first with others as one more alternative. -/
inductive OrElse (others : Node) : Node → Node → Prop
  | last (a : Node) : OrElse others a (.alt a others)
  | more {b b' : Node} (a : Node) : OrElse others b b' → OrElse others (.alt a b) (.alt a b')

/-- The others get their turn where the first tree does not match. -/
theorem OrElse.run_eq {a a' others : Node} (h : OrElse others a a') (subject : Subject)
    (callee : GroupRef → Matcher) (s : State) (k : State → Option State) :
    run subject callee a' s k = match run subject callee a s k with
      | some found => some found
      | none => run subject callee others s k := by
  induction h with
  | last a => rfl
  | more a _ ih =>
    rw [run, ih, run]
    cases run subject callee a s k <;> rfl

section Reading

variable {strict : Prop} {offset spare : Nat} {R : Node → Node → Prop} {all : List Numbered}
  {o o' : Options} {node : Node} {s s' t : Source} {cs : List Char} {c : Char} {more : List Char}
  {P : Node → Source → Prop}

/-- What is read of the other alternatives, behind all that has been read before. -/
def ReadsOthers (offset spare : Nat) (o' : Options) (rest : List Char) (t : Source)
    (P : Node → Source → Prop) : Prop :=
  ∀ {t' fuel}, Behind offset t t' → spare ≤ fuel →
    ∃ others u, alternatives fuel o' { t' with rest := rest } = .ok (others, u) ∧ P others u

/-- The alternatives of the first text are read, and then the others. -/
theorem alternatives_followed (hR : Likeness strict offset R)
    (hmovable : ∀ m ∈ all, m.IsMovable offset) (ho : o.Like strict o')
    (hothers : ReadsOthers offset spare o' (c :: more) t P) (hrest : t.rest = ['\x29'])
    (hfits : Fits all t) {fuel fuel' : Nat} (hfuel : fuel + spare ≤ fuel')
    (h : alternatives fuel o s = .ok (node, t))
    (hs : Mirrors offset ('\x7c' :: c :: more) all s s') :
    ∃ body others node' u, alternatives fuel' o' s' = .ok (node', u) ∧ R node body ∧
      OrElse others body node' ∧ P others u := by
  induction fuel generalizing s s' node fuel' with
  | zero => cases h
  | succ fuel ih =>
    obtain ⟨k, rfl⟩ : ∃ k, fuel' = k + 1 := ⟨fuel' - 1, by omega⟩
    obtain ⟨hgrows, -⟩ := reading_grows fuel
    obtain ⟨first, mid, hbranch, h⟩ := alternatives_eq_ok.1 h
    obtain ⟨-, hmirrored, -⟩ :=
      reading_mirrored hR (.more c more : Finish R 0 _) hmovable fuel k (by omega)
    obtain ⟨hbar, rfl, rfl⟩ | ⟨rest, other, hmid, rfl, hother⟩ := h
    · obtain ⟨first', mid', hbranch', hlike, hm | ⟨-, -, htail, -⟩⟩ := hmirrored ho hbranch hfits hs
      · have htext := hm.text
        rw [hrest] at htext
        obtain ⟨others, u, hread, hP⟩ := hothers hm.behind (by omega : spare ≤ k)
        exact ⟨first', others, _, u, alternatives_eq_ok.2 ⟨first', mid', hbranch',
          .inr ⟨c :: more, others, htext.eq_tail, rfl, hread⟩⟩, hlike, .last first', hP⟩
      · cases htail
    · have hfits' := hfits.of_grown (hgrows _ hother hfits.rest).1
      have hfitsMid : Fits all mid := hfits'.of_grown
        ⟨by simp [hmid], Nat.le_refl _, ⟨[], (List.append_nil _).symm, nofun⟩, id⟩
      obtain ⟨first', mid', hbranch', hlike, hm | ⟨-, hend, -⟩⟩ :=
        hmirrored ho hbranch hfitsMid hs
      · obtain ⟨rest', hmid', hm'⟩ := hm.past_bar hmid hfits'.rest
        obtain ⟨body, others, other', u, hread, hlike', hor, hP⟩ :=
          ih (show fuel + spare ≤ k by omega) hother hm'
        exact ⟨_, others, _, u, alternatives_eq_ok.2 ⟨first', mid', hbranch',
          .inr ⟨rest', other', hmid', rfl, hread⟩⟩, hR.alt hlike hlike', .more first' hor, hP⟩
      · rw [hmid] at hend
        cases hend

/-- A source that is read as a whole is so before other alternatives, unless it sets options. -/
theorem Closed.followed (h : Closed o cs node s) (hR : Likeness strict offset R)
    (hmovable : ∀ m ∈ s.numbers, m.IsMovable offset) (ho : o.Like strict o')
    (hcalm : ¬ SetsOptions (cs ++ ['\x29'])) (hbehind : Behind offset { rest := cs ++ ['\x29'] } s')
    (htext : Renumbered offset ('\x7c' :: c :: more) (s.numbers.map Numbered.mark)
      (cs ++ ['\x29']) s'.rest)
    (hothers : ReadsOthers offset spare o' (c :: more) s P) {fuel : Nat}
    (hfuel : 3 * cs.length + 3 + spare ≤ fuel) :
    ∃ body others node' u, alternatives fuel o' s' = .ok (node', u) ∧ R node body ∧
      OrElse others body node' ∧ P others u := by
  have hfits : Fits s.numbers s :=
    ⟨List.prefix_refl _, by simp, by rw [h.rest]; exact List.cons_ne_nil _ _⟩
  exact alternatives_followed hR hmovable ho hothers h.rest hfits hfuel h.reads
    ⟨hbehind, htext, fun _ ↦ hcalm⟩

end Reading

end SyntaxHighlight.Regex
