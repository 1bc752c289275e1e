import SyntaxHighlight.Proofs.Grammar.Nesting

/-!
The compilation of a grammar ends: there are enough levels for all calls that it makes, and more
levels change nothing.
-/
namespace SyntaxHighlight

variable {g : Grammar} {scoring : KeywordScoring} {n l fuel : Nat} {c d : Call}

/-! Two ways to compile templates that agree on those that have to be compiled. -/

namespace Placing

variable {compile compile' : Placing} {own : Nat} {around : List Enclosing}
  {named : Dictionary Mode} {t : Template}

theorem place_congr {u : Template} {a : Arena}
    (h : a.fitting? u around = none → u.makeshift? around = none →
      compile u around a = compile' u around a) :
    compile.place own u around a = compile'.place own u around a := by
  unfold place
  split
  · rfl
  · split
    · rfl
    · exact h ‹_› ‹_›

theorem placeAll_congr {ts : List Template} {a : Arena}
    (h : ∀ u b, AsksAll compile own around ts a u b → compile u around b = compile' u around b) :
    compile.placeAll own around ts a = compile'.placeAll own around ts a := by
  induction ts generalizing a with
  | nil => rfl
  | cons u ts ih =>
    refine bind_congr_ok (place_congr fun hfit hmakeshift ↦ h u a (.here hfit hmakeshift)) ?_
    rintro ⟨id, b⟩ hb
    refine bind_congr_ok (ih fun v d hv ↦ h v d (.there hb hv)) fun _ _ ↦ rfl

theorem placeEntry_congr {i : Nat} {entry : Entry Mode} {a : Arena}
    (h : ∀ u b, AsksAll compile own around (templatesOf named t i entry) a u b →
      compile u around b = compile' u around b) :
    compile.placeEntry named t own around i entry a =
      compile'.placeEntry named t own around i entry a := by
  cases entry with
  | self => rfl
  | named name =>
    simp only [placeEntry, templatesOf] at h ⊢
    cases hmode : named.get? name with
    | none => rfl
    | some mode =>
      rw [hmode] at h
      exact placeAll_congr h
  | inline mode => exact placeAll_congr h

theorem placeEntries_congr {i : Nat} {entries : List (Entry Mode)} {a : Arena}
    (h : ∀ u b, AsksEntries compile own around named t i entries a u b →
      compile u around b = compile' u around b) :
    compile.placeEntries named t own around i entries a =
      compile'.placeEntries named t own around i entries a := by
  induction entries generalizing i a with
  | nil => rfl
  | cons entry entries ih =>
    refine bind_congr_ok (placeEntry_congr fun u b hu ↦ h u b (.here hu)) ?_
    rintro ⟨ids, b⟩ hb
    refine bind_congr_ok (ih fun u d hu ↦ h u d (.there hb hu)) fun _ _ ↦ rfl

theorem placeNext_congr {starts : Option Mode} {a : Arena}
    (h : ∀ mode, starts = some mode → around ≠ [] → a.fitting? (t.next mode) around = none →
      (t.next mode).makeshift? around = none →
      compile (t.next mode) around a = compile' (t.next mode) around a) :
    compile.placeNext t own around starts a = compile'.placeNext t own around starts a := by
  unfold placeNext
  split
  · split
    · rfl
    · rename_i haround
      refine bind_congr_ok (place_congr (h _ rfl (by simpa using haround))) fun _ _ ↦ rfl
  · rfl

end Placing

/-- What a call comes to is told by the calls that it makes. -/
theorem Call.answer_congr {k : Nat}
    (h : ∀ d, Leads g scoring n c d → d.answer g scoring n = d.answer g scoring k) :
    c.answer g scoring (n + 1) = c.answer g scoring (k + 1) := by
  -- The opening has no calls in it; the rest asks for those of `Leads` only.
  rw [answer_succ, answer_succ]
  refine bind_congr_ok rfl fun o ho ↦ ?_
  refine bind_congr_ok (Placing.placeEntries_congr fun u b hu ↦ h _ (.content ho hu)) ?_
  rintro ⟨contains, inner⟩ hcontains
  refine bind_congr_ok (Placing.placeNext_congr fun mode hmode haround hfit hmakeshift ↦
    h _ (.next ho hcontains hmode haround hfit hmakeshift)) fun _ _ ↦ rfl

theorem Within.head {e : Call} (hlead : Leads g scoring n c d) (h : Within g scoring n d l e) :
    Within g scoring (n + 1) c l e := by
  induction h with
  | refl => exact .step .refl hlead
  | step _ hlast ih => exact ih.step hlast

/-- Where no call runs out of levels, one level more changes nothing. -/
theorem Call.answer_succ_eq (h : ∀ l d, Within g scoring n c l d → 0 < l) :
    c.answer g scoring (n + 1) = c.answer g scoring n := by
  induction n generalizing c with
  | zero => exact absurd (h 0 c .refl) (Nat.lt_irrefl 0)
  | succ n ih =>
    exact (answer_congr fun d hd ↦ (ih fun l e he ↦ h l e (he.head hd)).symm).symm

/-! Why a grammar is refused, if not for want of levels. -/

def NotEndless {α : Type} (x : Except GrammarError α) : Prop := x ≠ .error .endlessNesting

namespace NotEndless

variable {α β : Type} {x : Except GrammarError α}

theorem ok (a : α) : NotEndless (.ok a) := by
  intro h
  cases h

theorem error {cause : GrammarError} (h : cause ≠ .endlessNesting) :
    NotEndless (.error cause : Except GrammarError α) := by
  intro h'
  exact h (Except.error.inj h')

theorem bind {f : α → Except GrammarError β} (hx : NotEndless x)
    (hf : ∀ a, x = .ok a → NotEndless (f a)) : NotEndless (x >>= f) := by
  intro h
  obtain h | ⟨a, ha, h⟩ := bind_eq_error.1 h
  · exact hx h
  · exact hf a ha h

theorem map (f : α → β) (hx : NotEndless x) : NotEndless (f <$> x) := fun h ↦
  hx (map_eq_error.1 h)

theorem mapM {f : α → Except GrammarError β} (hf : ∀ a, NotEndless (f a)) (o : Option α) :
    NotEndless (o.mapM f) := by
  cases o with
  | none => exact .ok _
  | some a => exact (hf a).map some

end NotEndless

theorem Pattern.compile_notEndless (source : String) (flags : Regex.Flags) :
    NotEndless (Pattern.compile source flags) := by
  unfold Pattern.compile
  split
  · exact .ok _
  · exact .error (by simp)

theorem Pattern.countGroups_notEndless (source : String) :
    NotEndless (Pattern.countGroups source) :=
  (compile_notEndless _ _).bind fun _ _ ↦ .ok _

namespace Mode

variable (m : Mode) (parent : Option Mode)

theorem takeMatching_notEndless : NotEndless m.takeMatching := by
  unfold takeMatching
  split
  · exact .ok _
  · split
    · exact .error (by simp)
    · exact .ok _

theorem wrapBeforeMatch_notEndless : NotEndless m.wrapBeforeMatch := by
  unfold wrapBeforeMatch
  split
  · exact .ok _
  · split
    · exact .error (by simp)
    · exact .ok _

theorem apply_notEndless (e : Extension) : NotEndless (e.apply m parent) := by
  unfold Extension.apply
  split
  · exact .ok _
  · split
    · exact .error (by simp)
    · exact e.rewrite.ends _ _

theorem extended_notEndless (extensions : List Extension) :
    NotEndless (m.extended extensions parent) := by
  induction extensions generalizing m with
  | nil => exact .ok _
  | cons e es ih => exact (m.apply_notEndless parent e).bind fun next _ ↦ ih next

theorem partGroups_notEndless (names : List (Nat × String)) (group part : Nat)
    (sources : List String) : NotEndless (partGroups names group part sources) := by
  induction sources generalizing group part with
  | nil => exact .ok _
  | cons source sources ih =>
    exact (Pattern.countGroups_notEndless source).bind fun inner _ ↦
      (ih _ _).bind fun _ _ ↦ .ok _

theorem tagBoundary_notEndless (boundary : Option Boundary) (scope : Option Scope)
    (flagged : Bool) (flagReason scopeReason : String) :
    NotEndless (tagBoundary boundary scope flagged flagReason scopeReason) := by
  unfold tagBoundary
  split
  · cases flagged with
    | true => exact .error (by simp)
    | false => exact (partGroups_notEndless _ _ _ _).bind fun _ _ ↦ .ok _
  · exact .error (by simp)
  · exact .ok _
  · exact .ok _

theorem prepare_notEndless (extensions : List Extension) :
    NotEndless (m.prepare parent extensions) :=
  (takeMatching_notEndless _).bind fun _ _ ↦ (wrapBeforeMatch_notEndless _).bind fun _ _ ↦
    (extended_notEndless _ _ _).bind fun _ _ ↦ (tagBoundary_notEndless _ _ _ _ _).bind fun _ _ ↦
      (tagBoundary_notEndless _ _ _ _ _).bind fun _ _ ↦ .ok _

end Mode

namespace Rule

theorem wrappersFrom_notEndless (next : Nat) (sources : List String) :
    NotEndless (Alternation.wrappersFrom next sources) := by
  induction sources generalizing next with
  | nil => exact .ok _
  | cons source sources ih =>
    exact (Pattern.countGroups_notEndless source).bind fun _ _ ↦ (ih _).bind fun _ _ ↦ .ok _

theorem ofSources_notEndless (sources : List String) (flags : Regex.Flags) :
    NotEndless (Alternation.ofSources sources flags) := by
  unfold Alternation.ofSources
  split
  · exact .ok _
  · exact (wrappersFrom_notEndless _ _).bind fun _ _ ↦
      (Pattern.compile_notEndless _ _).bind fun _ _ ↦ .ok _

theorem ofRules_notEndless (rules : List Rule) (flags : Regex.Flags) :
    NotEndless (Resumable.ofRules rules flags) := by
  unfold Resumable.ofRules
  dsimp only
  split
  · rename_i all hall
    refine NotEndless.bind ?_ fun _ _ ↦ .ok _
    have hmem := List.mem_of_getElem? (List.getElem?_toArray ▸ hall)
    obtain ⟨k, -, rfl⟩ := List.mem_map.1 hmem
    exact (ofSources_notEndless _ _).map some
  · exact .ok _

end Rule

namespace Placing

variable {compile : Placing} {own : Nat} {around : List Enclosing} {named : Dictionary Mode}
  {t : Template}

theorem place_notEndless {u : Template} {a : Arena}
    (h : a.fitting? u around = none → u.makeshift? around = none →
      NotEndless (compile u around a)) : NotEndless (compile.place own u around a) := by
  unfold place
  split
  · exact .ok _
  · split
    · exact .ok _
    · exact h ‹_› ‹_›

theorem placeAll_notEndless {ts : List Template} {a : Arena}
    (h : ∀ u b, AsksAll compile own around ts a u b → NotEndless (compile u around b)) :
    NotEndless (compile.placeAll own around ts a) := by
  induction ts generalizing a with
  | nil => exact .ok _
  | cons u ts ih =>
    refine (place_notEndless fun hfit hmakeshift ↦ h u a (.here hfit hmakeshift)).bind ?_
    rintro ⟨id, b⟩ hb
    exact (ih fun v d hv ↦ h v d (.there hb hv)).bind fun _ _ ↦ .ok _

theorem placeEntry_notEndless {i : Nat} {entry : Entry Mode} {a : Arena}
    (h : ∀ u b, AsksAll compile own around (templatesOf named t i entry) a u b →
      NotEndless (compile u around b)) :
    NotEndless (compile.placeEntry named t own around i entry a) := by
  cases entry with
  | self => exact .ok _
  | named name =>
    simp only [placeEntry, templatesOf] at h ⊢
    cases hmode : named.get? name with
    | none => exact .error (by simp)
    | some mode =>
      rw [hmode] at h
      exact placeAll_notEndless h
  | inline mode => exact placeAll_notEndless h

theorem placeEntries_notEndless {i : Nat} {entries : List (Entry Mode)} {a : Arena}
    (h : ∀ u b, AsksEntries compile own around named t i entries a u b →
      NotEndless (compile u around b)) :
    NotEndless (compile.placeEntries named t own around i entries a) := by
  induction entries generalizing i a with
  | nil => exact .ok _
  | cons entry entries ih =>
    refine (placeEntry_notEndless fun u b hu ↦ h u b (.here hu)).bind ?_
    rintro ⟨ids, b⟩ hb
    exact (ih fun u d hu ↦ h u d (.there hb hu)).bind fun _ _ ↦ .ok _

theorem placeNext_notEndless {starts : Option Mode} {a : Arena}
    (h : ∀ mode, starts = some mode → around ≠ [] → a.fitting? (t.next mode) around = none →
      (t.next mode).makeshift? around = none → NotEndless (compile (t.next mode) around a)) :
    NotEndless (compile.placeNext t own around starts a) := by
  unfold placeNext
  split
  · split
    · exact .ok _
    · rename_i haround
      exact (place_notEndless (h _ rfl (by simpa using haround))).bind fun _ _ ↦ .ok _
  · exact .ok _

end Placing

theorem Call.opening_notEndless (c : Call) : NotEndless (c.opening g scoring) := by
  refine (Mode.prepare_notEndless _ _ _).bind fun p _ ↦ ?_
  have hbegin : NotEndless (beginOf g p c.around) := by
    unfold beginOf
    split
    · exact .ok _
    · exact (Pattern.compile_notEndless _ _).bind fun _ _ ↦ .ok _
  have hkeywords : NotEndless (keywordsOf g scoring p.mode) := by
    unfold keywordsOf
    split
    · exact .ok _
    · exact (Pattern.compile_notEndless _ _).bind fun _ _ ↦ .ok _
  have hpattern (o : Option String) :
      NotEndless (o.mapM fun source ↦ Pattern.compile source g.flags) :=
    .mapM (Pattern.compile_notEndless · _) o
  exact hbegin.bind fun _ _ ↦ (hpattern _).bind fun _ _ ↦ (hpattern _).bind fun _ _ ↦
    hkeywords.bind fun _ _ ↦ .ok _

/-- Where no call runs out of levels, none of them fails for want of levels. -/
theorem Call.answer_notEndless (h : ∀ l d, Within g scoring n c l d → 0 < l) :
    NotEndless (c.answer g scoring n) := by
  induction n generalizing c with
  | zero => exact absurd (h 0 c .refl) (Nat.lt_irrefl 0)
  | succ n ih =>
    have hcall (d : Call) (hd : Leads g scoring n c d) : NotEndless (d.answer g scoring n) :=
      ih fun l e he ↦ h l e (he.head hd)
    rw [answer_succ]
    refine c.opening_notEndless.bind fun o ho ↦ ?_
    refine (Placing.placeEntries_notEndless fun u b hu ↦ hcall _ (.content ho hu)).bind ?_
    rintro ⟨contains, inner⟩ hcontains
    refine (Placing.placeNext_notEndless fun mode hmode haround hfit hmakeshift ↦
      hcall _ (.next ho hcontains hmode haround hfit hmakeshift)).bind fun _ _ ↦ ?_
    exact (Rule.ofRules_notEndless _ _).bind fun _ _ ↦ .ok _

/-! The compilation of a whole grammar. -/

namespace Grammar

theorem answer_eq_of_levels_le (hg : g.AsWritten) (hn : g.levels ≤ n) :
    g.firstCall.answer g scoring n = g.firstCall.answer g scoring g.levels := by
  obtain ⟨k, rfl⟩ := Nat.exists_eq_add_of_le hn
  induction k with
  | zero => rfl
  | succ k ih =>
    have hle : g.levels ≤ g.levels + k := Nat.le_add_right _ _
    exact (Call.answer_succ_eq fun l d hd ↦ hd.level_pos hg hle).trans (ih hle)

/-- The compilation of a grammar whose modes are compiled as they are written ends, however they
contain each other. A mode that has nothing to do with its parent gets one number, and among the
modes that are compiled within each other none occurs more often than it may. So there are enough
levels for all calls: more of them change nothing, and the grammar is not refused for want of
levels. -/
theorem compilation_ends (scoring : KeywordScoring) (hg : g.AsWritten) :
    (∀ n k l c d q, Within g scoring n g.firstCall k c → Within g scoring n g.firstCall l d →
        c.template.place = some q → d.template.place = some q →
        c.template.mode.dependsOnParent = false → c.number = d.number) ∧
      (∀ n l c place, Within g scoring n g.firstCall l c →
        c.chain.count place ≤ g.placements place) ∧
      (∀ n l c, Within g scoring n g.firstCall l c → n < l + g.levels) ∧
      (∀ n, g.levels ≤ n →
        g.firstCall.answer g scoring n = g.firstCall.answer g scoring g.levels) ∧
      g.compile scoring ≠ .error .endlessNesting := by
  refine ⟨fun n k l c d q hc hd hcq hdq hfree ↦ ?_, fun n l c place hc ↦ hc.count_chain_le hg place,
    fun n l c hc ↦ ?_, fun n hn ↦ answer_eq_of_levels_le hg hn, ?_⟩
  · rw [hc.eq_of_place hg hd hcq hdq hfree]
  · have hrank := hc.rank_add_le hg
    have hfirst := g.rank_firstCall_lt
    omega
  · have hanswer : NotEndless (g.firstCall.answer g scoring g.levels) :=
      Call.answer_notEndless fun l d hd ↦ hd.level_pos hg (Nat.le_refl _)
    have harena : NotEndless (g.arena scoring) := by
      unfold arena
      split
      · exact .error (by simp)
      · exact hanswer.bind fun _ _ ↦ .ok _
    exact harena.bind fun _ _ ↦ .ok _

def entangled : Grammar where
  contains := [.named "round"]
  modes := .ofList [
    ("round", { begin := some (.source "\\("), ending := some (.source "\\)"),
                contains := [.named "loose", .self] }),
    ("loose", { begin := some (.source "<"), ending := some (.source ">"), endsWithParent := true,
                contains := [.named "loose", .named "round", .self] })]

theorem entangled_compilation_ends :
    entangled.AsWritten ∧ entangled.compile default ≠ .error .endlessNesting ∧
      ∀ n l c, Within entangled default n entangled.firstCall l c →
        c.chain.count (some ⟨some "loose", []⟩) ≤ 8 ∧ c.chain.count (some ⟨some "round", []⟩) ≤ 1 := by
  have hg : entangled.AsWritten := ⟨rfl, by unfold Plain; decide⟩
  obtain ⟨-, hcount, -, -, hcompile⟩ := compilation_ends default hg
  refine ⟨hg, hcompile, fun n l c hc ↦ ⟨?_, ?_⟩⟩
  · exact hcount n l c (some ⟨some "loose", []⟩) hc
  · exact hcount n l c (some ⟨some "round", []⟩) hc

end Grammar

end SyntaxHighlight
