import SyntaxHighlight.Proofs.Regex.Reading.Reference
import SyntaxHighlight.Proofs.Regex.Subterms

/-!
Two relations of trees that the reader keeps: to be raised by the groups ahead, and to have the
same groups and references, whatever case means.
-/
namespace SyntaxHighlight.Regex

section Raising

variable {offset : Nat} {a a' b b' : Node}

theorem Raised.isRepeatable_eq (h : Raised offset a a') : a'.isRepeatable = a.isRepeatable := by
  induction h with
  | alt _ _ iha ihb => simp only [Node.isRepeatable, iha, ihb]
  | _ => rfl

theorem Raised.cat (ha : Raised offset a a') (hb : Raised offset b b') :
    Raised offset (a.cat b) (a'.cat b') := by
  fun_induction Node.cat a b generalizing a' b' with
  | case1 b =>
    cases ha
    exact hb
  | case2 a hne =>
    cases hb
    have hne' : a' ≠ .empty := by
      rintro rfl
      cases ha
      exact hne rfl
    rw [Node.cat]
    · exact ha
    · exact hne'
  | case3 xs ys =>
    cases ha
    cases hb
    exact .folded _
  | case4 xs ys rest =>
    cases ha
    cases hb with
    | seq hy hrest =>
      cases hy
      exact .seq (.folded _) hrest
  | case5 a b c hne ih =>
    cases ha with
    | seq ha hab =>
      rw [Node.cat]
      · exact .seq ha (ih hab hb)
      · rintro rfl
        cases hb
        exact hne rfl
  | case6 a b hempty hempty' hfolded hrun hseq =>
    -- The raised trees are of the same kinds, so they are joined in the same way.
    have hempty₁ : a' = .empty → False := by
      rintro rfl
      cases ha
      exact hempty rfl
    have hempty₂ : b' = .empty → False := by
      rintro rfl
      cases hb
      exact hempty' rfl
    have hfolded' (xs ys : List Char) : a' = .folded xs → b' = .folded ys → False := by
      rintro rfl rfl
      cases ha
      cases hb
      exact hfolded _ _ rfl rfl
    have hrun' (xs ys : List Char) (rest : Node) :
        a' = .folded xs → b' = .seq (.folded ys) rest → False := by
      rintro rfl rfl
      cases ha
      cases hb with
      | seq hy hrest =>
        cases hy
        exact hrun _ _ _ rfl rfl
    have hseq' (x y : Node) : a' = .seq x y → False := by
      rintro rfl
      cases ha
      exact hseq _ _ rfl
    rw [Node.cat]
    · exact .seq ha hb
    all_goals assumption

theorem Raised.apply (h : Raised offset a a') (q : Quantifier) :
    Raised offset (q.apply a) (q.apply a') := by
  have hnode : Raised offset
      (if q.low = 1 ∧ q.high = some 1 then a else .repetition a q.low q.high q.greedy)
      (if q.low = 1 ∧ q.high = some 1 then a' else .repetition a' q.low q.high q.greedy) := by
    split
    · exact h
    · exact .repetition _ _ _ h
  rw [Quantifier.apply, Quantifier.apply]
  by_cases hpossessive : q.possessive
  · rw [if_pos hpossessive, if_pos hpossessive]
    exact .atomic hnode
  · rw [if_neg hpossessive, if_neg hpossessive]
    exact hnode

theorem likeness_raised (offset : Nat) : Likeness True offset (Raised offset) where
  isRepeatable h hrepeatable := h.isRepeatable_eq.trans hrepeatable
  empty := .empty
  set := .set
  anchor := .anchor
  keep := .keep
  newline := .atomic (.alt (.seq (.set _) (.set _)) (.set _))
  char c ho := by
    rw [charNode, charNode, ho.ignoreCase trivial]
    split
    · exact .folded _
    · exact .set _
  bracketed b ho := by
    rw [classNode, classNode, ho.ignoreCase trivial]
    dsimp only
    split
    · exact .set _
    · split
      · exact .set _
      · split
        · exact .set _
        · exact .alt (.set _) (.foldedAny _)
  call := .call
  backref ho hgroups hahead := by
    rw [ho.ignoreCase trivial]
    exact .backref _ hgroups hahead
  cat := Raised.cat
  alt := .alt
  group := .group
  enclosed e h := by
    cases e with
    | plain => exact h
    | atomic => exact .atomic h
    | look => exact .look _ _ h
  repeated q h := h.apply q

theorem Raised.eq_of_zero (h : Raised 0 a b) (hcalls : b.subterms.any Node.isCall = false) :
    a = b := by
  induction h with
  | call => cases hcalls
  | seq _ _ iha ihb | alt _ _ iha ihb =>
    simp only [Node.subterms, List.any_cons, List.any_append, Bool.or_eq_false_iff] at hcalls
    rw [iha hcalls.2.1, ihb hcalls.2.2]
  | group _ _ ih | atomic _ ih | repetition _ _ _ _ ih | look _ _ _ ih =>
    simp only [Node.subterms, List.any_cons, Bool.or_eq_false_iff] at hcalls
    simp only [ih hcalls.2, Nat.add_zero]
  | @backref groups ahead _ _ hahead =>
    obtain rfl : ahead = [] :=
      List.eq_nil_iff_forall_not_mem.2 fun n hn ↦ by have := hahead n hn; omega
    simp
  | _ => rfl

theorem Raised.any_eq_false {p p' : Node → Bool}
    (hp : ∀ {a a'}, Raised offset a a' → p a = false → p' a' = false) (h : Raised offset a a')
    (hnone : a.subterms.any p = false) : a'.subterms.any p' = false := by
  have hself := hp h
  induction h with
  | seq ha hb iha ihb | alt ha hb iha ihb =>
    simp only [Node.subterms, List.any_cons, List.any_append, Bool.or_eq_false_iff] at hnone ⊢
    exact ⟨hself hnone.1, iha hnone.2.1 (hp ha), ihb hnone.2.2 (hp hb)⟩
  | group _ h ih | atomic h ih | repetition _ _ _ h ih | look _ _ h ih =>
    simp only [Node.subterms, List.any_cons, Bool.or_eq_false_iff] at hnone ⊢
    exact ⟨hself hnone.1, ih hnone.2 (hp h)⟩
  | _ =>
    simp only [Node.subterms, List.any_cons, List.any_nil, Bool.or_false] at hnone ⊢
    exact hself hnone

end Raising

/-- A property of nodes that only speaks of what kind of group, reference or call one is. -/
structure IsSparse (p : Node → Bool) : Prop where
  common (node : Node) : node.isCommon → p node = false
  group (n : Nat) (body body' : Node) : p (.group n body') = p (.group n body)
  look (direction : Direction) (negated : Bool) (body body' : Node) :
    body'.hasGroup = body.hasGroup →
    p (.look direction negated body') = p (.look direction negated body)
  backref (groups : List Nat) (ignoreCase ignoreCase' : Bool) :
    p (.backref groups ignoreCase') = p (.backref groups ignoreCase)
  call (target target' : GroupRef) : p (.call target') = p (.call target)

/-- Two trees with the same groups and references, as far as sparse properties tell. -/
structure Outlined (a b : Node) : Prop where
  isRepeatable : a.isRepeatable → b.isRepeatable
  empty : b = .empty → a = .empty
  any {p : Node → Bool} : IsSparse p → b.subterms.any p = a.subterms.any p

section Outlines

variable {a a' b b' : Node}

theorem isSparse_isCall : IsSparse Node.isCall where
  common node h := by cases node <;> first | rfl | cases h
  group _ _ _ := rfl
  look _ _ _ _ _ := rfl
  backref _ _ _ := rfl
  call _ _ := rfl

theorem isSparse_refersBeyond (count : Nat) : IsSparse (Node.refersBeyond count) where
  common node h := by cases node <;> first | rfl | cases h
  group _ _ _ := rfl
  look _ _ _ _ _ := rfl
  backref _ _ _ := rfl
  call _ _ := rfl

theorem isSparse_capturesInNegation : IsSparse Node.capturesInNegation where
  common node h := by cases node <;> first | rfl | cases h
  group _ _ _ := rfl
  look direction negated _ _ h := by
    cases direction <;> cases negated <;> first | rfl | exact h
  backref _ _ _ := rfl
  call _ _ := rfl

namespace Outlined

theorem refl (a : Node) : Outlined a a := ⟨id, id, fun _ ↦ rfl⟩

theorem hasGroup (h : Outlined a b) : b.hasGroup = a.hasGroup := by
  refine h.any ⟨fun node hnode ↦ ?_, ?_, ?_, ?_, ?_⟩
  · cases node <;> first | rfl | cases hnode
  all_goals
    intros
    rfl

theorem of_plain (hrepeatable : b.isRepeatable) (hempty : b ≠ .empty)
    (ha : ∀ {p}, IsSparse p → a.subterms.any p = false)
    (hb : ∀ {p}, IsSparse p → b.subterms.any p = false) : Outlined a b :=
  ⟨fun _ ↦ hrepeatable, fun h ↦ absurd h hempty, fun hp ↦ (hb hp).trans (ha hp).symm⟩

theorem alt (ha : Outlined a a') (hb : Outlined b b') : Outlined (.alt a b) (.alt a' b') := by
  refine ⟨fun h ↦ ?_, nofun, fun {p} hp ↦ ?_⟩
  · obtain ⟨hrepeatable, hrepeatable'⟩ := (Bool.and_eq_true _ _).mp h
    exact (Bool.and_eq_true _ _).mpr ⟨ha.isRepeatable hrepeatable, hb.isRepeatable hrepeatable'⟩
  have hself (a b : Node) : p (.alt a b) = false := hp.common _ rfl
  simp only [Node.subterms, List.any_cons, List.any_append, ha.any hp, hb.any hp, hself]

theorem group (n : Nat) (h : Outlined a b) : Outlined (.group n a) (.group n b) := by
  refine ⟨id, nofun, fun hp ↦ ?_⟩
  simp only [Node.subterms, List.any_cons, h.any hp, hp.group n a b]

theorem enclosed (e : Enclosure) (h : Outlined a b) : Outlined (e.node a) (e.node b) := by
  cases e with
  | plain => exact h
  | atomic =>
    refine ⟨id, by simp [Enclosure.node], fun {p} hp ↦ ?_⟩
    have hself (a : Node) : p (.atomic a) = false := hp.common _ rfl
    simp only [Enclosure.node, Node.subterms, List.any_cons, h.any hp, hself]
  | look direction negated =>
    refine ⟨id, by simp [Enclosure.node], fun hp ↦ ?_⟩
    simp only [Enclosure.node, Node.subterms, List.any_cons, h.any hp,
      hp.look direction negated a b h.hasGroup]

theorem bar (h : Outlined a b) : Outlined a (.alt b .empty) := by
  refine ⟨fun ha ↦ (Bool.and_eq_true _ _).mpr ⟨h.isRepeatable ha, rfl⟩, nofun, fun {p} hp ↦ ?_⟩
  have hself : p (.alt b .empty) = false := hp.common _ rfl
  have hempty : p .empty = false := hp.common _ rfl
  simp [Node.subterms, h.any hp, hself, hempty]

end Outlined

theorem isRepeatable_cat : (a.cat b).isRepeatable = true ↔
    (a = .empty → b.isRepeatable) ∧ (b = .empty → a.isRepeatable) := by
  fun_induction Node.cat a b with
  | case1 b => exact ⟨fun h ↦ ⟨fun _ ↦ h, fun _ ↦ rfl⟩, fun h ↦ h.1 rfl⟩
  | case2 a hne => exact ⟨fun h ↦ ⟨fun h ↦ absurd h hne, fun _ ↦ h⟩, fun h ↦ h.2 rfl⟩
  | case3 | case4 => exact ⟨fun _ ↦ ⟨by simp, by simp⟩, fun _ ↦ rfl⟩
  | case5 a b c hne => exact ⟨fun _ ↦ ⟨by simp, fun h ↦ absurd h hne⟩, fun _ ↦ rfl⟩
  | case6 a b hempty hempty' =>
    exact ⟨fun _ ↦ ⟨fun h ↦ absurd h hempty, fun h ↦ absurd h hempty'⟩, fun _ ↦ rfl⟩

theorem cat_eq_empty (h : a.cat b = .empty) : a = .empty ∧ b = .empty := by
  fun_induction Node.cat a b with
  | case1 b => exact ⟨rfl, h⟩
  | case2 a hne => exact absurd h hne
  | _ => cases h

theorem likeness_outlined : Likeness False 0 Outlined where
  isRepeatable h := h.isRepeatable
  empty := .refl _
  set _ := .refl _
  anchor _ := .refl _
  keep := .refl _
  newline := .refl _
  char {o o'} c _ := .of_plain (by rw [charNode]; split <;> rfl) (by rw [charNode]; split <;> simp)
    (fun hp ↦ any_charNode hp.common _ c) fun hp ↦ any_charNode hp.common _ c
  bracketed {o o'} b _ := by
    have hclass : (classNode o' b).isRepeatable ∧ classNode o' b ≠ .empty := by
      rw [classNode]
      dsimp only
      split
      · exact ⟨rfl, by simp⟩
      · split
        · exact ⟨rfl, by simp⟩
        · split <;> exact ⟨rfl, by simp⟩
    exact .of_plain hclass.1 hclass.2 (fun hp ↦ any_classNode hp.common _ b)
      fun hp ↦ any_classNode hp.common _ b
  call target target' := ⟨id, by simp, fun hp ↦ by
    simp only [Node.subterms, List.any_cons, List.any_nil, hp.call target target']⟩
  backref {o o' groups ahead} _ _ hahead := by
    obtain rfl : ahead = [] :=
      List.eq_nil_iff_forall_not_mem.2 fun n hn ↦ by have := hahead n hn; omega
    refine ⟨id, by simp, fun hp ↦ ?_⟩
    simp only [Node.subterms, List.any_cons, List.any_nil, Nat.add_zero, List.map_id',
      List.append_nil, hp.backref groups o.ignoreCase o'.ignoreCase]
  cat ha hb := by
    refine ⟨fun h ↦ ?_, fun h ↦ ?_, fun hp ↦ ?_⟩
    · obtain ⟨hfirst, hsecond⟩ := isRepeatable_cat.1 h
      exact isRepeatable_cat.2 ⟨fun h ↦ hb.isRepeatable (hfirst (ha.empty h)),
        fun h ↦ ha.isRepeatable (hsecond (hb.empty h))⟩
    · obtain ⟨hempty, hempty'⟩ := cat_eq_empty h
      rw [ha.empty hempty, hb.empty hempty']
      rfl
    · rw [any_cat hp.common, any_cat hp.common, ha.any hp, hb.any hp]
  alt := .alt
  group _ h := h.group _
  enclosed e h := h.enclosed e
  repeated q h := by
    refine ⟨?_, ?_, fun hp ↦ ?_⟩
    · rw [Quantifier.apply, Quantifier.apply]
      split
      · exact fun _ ↦ rfl
      · split
        · exact h.isRepeatable
        · exact fun _ ↦ rfl
    · rw [Quantifier.apply, Quantifier.apply]
      split
      · simp
      · split
        · exact h.empty
        · simp
    · rw [any_apply hp.common, any_apply hp.common, h.any hp]

end Outlines

end SyntaxHighlight.Regex
