import Mathlib
import SyntaxHighlight.Proofs.Grammar.Calls
import SyntaxHighlight.Proofs.Grammar.Wiring

/-!
What the modes of a compiled grammar are, number by number. Each is what one of the calls has made
of its template, though the number was given out and used before the mode was finished.
-/
namespace SyntaxHighlight

variable {g : Grammar} {scoring : KeywordScoring} {n l : Nat} {c d : Call} {o : Opening}
  {a b : Arena} {m : CompiledMode}

/-- A mode is what a call with the given opening makes, where modes have the given begins. -/
structure CompiledMode.MadeBy (m : CompiledMode) (g : Grammar) (c : Call) (o : Opening)
    (begins : Array String) : Prop where
  endsWithParent : m.endsWithParent = o.p.mode.endsWithParent
  terminator : m.terminator = (terminatorsOf o.p c.around).2
  ending : (terminatorsOf o.p c.around).1.mapM (fun source ↦ Pattern.compile source g.flags) =
    .ok m.ending
  contains : ∀ k ∈ m.contains, k < begins.size
  rules : m.matcher.rules = rulesOf begins m.contains m.terminator o.p.illegalSource?

/-- The begin that an arena has for a number stays. -/
theorem Arena.Le.getElem?_begins (h : a.Le b) {i : Nat} (hi : i < a.begins.size) :
    b.begins[i]? = a.begins[i]? := by
  obtain ⟨others, hothers⟩ := h.begins
  rw [← Array.getElem?_toList, ← hothers, List.getElem?_append_left (by simpa using hi),
    Array.getElem?_toList]

theorem rulesOf_eq_of_le (h : a.Le b) {contains : List Nat}
    (hcontains : ∀ k ∈ contains, k < a.begins.size) (terminator : String)
    (illegal : Option String) :
    rulesOf b.begins contains terminator illegal = rulesOf a.begins contains terminator illegal := by
  have hbegin : ∀ k ∈ contains, b.begins.getD k "" = a.begins.getD k "" := fun k hk ↦ by
    rw [Array.getD_eq_getD_getElem?, Array.getD_eq_getD_getElem?,
      h.getElem?_begins (hcontains k hk)]
  rw [rulesOf, rulesOf, List.map_congr_left fun k hk ↦ by rw [hbegin k hk]]

theorem CompiledMode.MadeBy.mono (h : m.MadeBy g c o a.begins) (hle : a.Le b)
    (hsize : a.begins.size ≤ b.begins.size) : m.MadeBy g c o b.begins where
  endsWithParent := h.endsWithParent
  terminator := h.terminator
  ending := h.ending
  contains k hk := Nat.lt_of_lt_of_le (h.contains k hk) hsize
  rules := h.rules.trans (rulesOf_eq_of_le hle h.contains _ _).symm

/-- An arena that is being built up: each mode in it is what some call with its number has made,
and each number goes with a begin, which is that of the mode once it is finished. -/
structure Arena.Sound (g : Grammar) (scoring : KeywordScoring) (n : Nat) (a : Arena) : Prop where
  size : a.begins.size = a.slots.size
  modes : ∀ (i : Nat) m, a.slots[i]? = some (some m) → a.begins[i]? = some m.begin ∧
    ∃ l c o, Within g scoring n g.firstCall (l + 1) c ∧ c.opening g scoring = .ok o ∧
      c.number = i ∧ m.MadeBy g c o a.begins

namespace Arena.Sound

theorem of_le (h : a.Sound g scoring n) (hle : a.Le b) (hsize : b.begins.size = b.slots.size)
    (hslots : ∀ (i : Nat) m, b.slots[i]? = some (some m) → a.slots[i]? = some (some m)) :
    b.Sound g scoring n where
  size := hsize
  modes i m hm := by
    obtain ⟨hbegin, l, c, o, hc, ho, hi, hmade⟩ := h.modes i m (hslots i m hm)
    have hbegins : a.begins.size ≤ b.begins.size := by
      rw [h.size, hsize]
      exact hle.size
    refine ⟨?_, l, c, o, hc, ho, hi, hmade.mono hle hbegins⟩
    rw [hle.getElem?_begins (Array.getElem?_eq_some_iff.1 hbegin).1, hbegin]

theorem overlooks : Placing.Overlooks (Arena.Sound g scoring n) := fun a _ _ h ↦
  h.of_le (.overlooks a _ _ (.refl a)) h.size fun _ _ hm ↦ hm

theorem opened (h : c.arena.Sound g scoring n) (o : Opening) :
    (c.opened o).Sound g scoring n := by
  refine h.of_le (c.le_opened o) ?_ fun i m hm ↦ ?_
  · simp [Call.opened, Arena.reserve, h.size]
  · simp only [Call.opened, Arena.reserve, Array.getElem?_push] at hm
    split at hm
    · cases hm
    · exact hm

theorem finish (h : a.Sound g scoring n) (hc : Within g scoring n g.firstCall (l + 1) c)
    (ho : c.opening g scoring = .ok o) (hbegin : a.begins[c.number]? = some m.begin)
    (hmade : m.MadeBy g c o a.begins) : (a.finish c.number m).Sound g scoring n where
  size := by simp [Arena.finish, h.size]
  modes i m' hm' := by
    simp only [Arena.finish, Array.getElem?_setIfInBounds] at hm'
    split at hm'
    · rename_i hi
      split at hm'
      · cases hm'
        subst hi
        exact ⟨hbegin, l, c, o, hc, ho, rfl, hmade⟩
      · cases hm'
    · exact h.modes i m' hm'

end Arena.Sound

/-- An arena in which the number of the outermost mode has been taken. -/
structure Arena.Rooted (g : Grammar) (scoring : KeywordScoring) (n : Nat) (a : Arena) : Prop where
  sound : a.Sound g scoring n
  linked : a.Linked
  pos : 0 < a.slots.size

theorem Arena.Rooted.overlooks : Placing.Overlooks (Arena.Rooted g scoring n) :=
  fun _ crowded selves h ↦ ⟨.overlooks crowded selves h.sound, h.linked.noted crowded selves, h.pos⟩

/-- The modes around a call that another call makes have numbers too. -/
theorem Leads.encloses (h : Leads g scoring l c d) (hc : c.arena.Encloses c.around)
    (hplace : c.template.place.isSome → 0 < c.number) : d.arena.Encloses d.around := by
  obtain ⟨o, -, hle⟩ := h.le
  have hsize := hle.size
  rw [c.opened_size] at hsize
  have hmono : d.arena.Encloses c.around := hc.mono (Nat.le_trans (Nat.le_succ _) hsize)
  cases h with
  | content =>
    intro e he
    obtain rfl | he := List.mem_cons.1 he
    · exact ⟨hsize, hplace⟩
    · exact hmono e he
  | next => exact hmono

/-- What there is when a call is made. -/
structure Call.Ready (g : Grammar) (scoring : KeywordScoring) (n : Nat) (c : Call) : Prop where
  sound : c.arena.Sound g scoring n
  linked : c.arena.Linked
  encloses : c.arena.Encloses c.around
  place : c.template.place.isSome → 0 < c.number
  self : ∀ o, c.opening g scoring = .ok o → .self ∈ o.p.mode.contains → 0 < c.number

def Compilation.opening {t : Template} {around : List Enclosing} {a' : Arena}
    (k : Compilation g scoring l t around a a') : Opening :=
  ⟨k.p, k.begin, k.ending, k.keywords⟩

theorem Call.exists_compilation {id : Nat} {a' : Arena}
    (h : c.answer g scoring (l + 1) = .ok (id, a')) :
    ∃ k : Compilation g scoring l c.template c.around c.arena a',
      c.opening g scoring = .ok k.opening := by
  obtain ⟨o, contains, inner, starts, outer, matcher, ho, hcontains, hstarts, hmatcher, -, rfl⟩ :=
    answer_eq_ok h
  obtain ⟨hp, hbegin, hending, hkeywords⟩ := opening_eq_ok ho
  exact ⟨⟨o.p, o.begin, o.ending, o.keywords, contains, starts, matcher, inner, outer, hbegin, hp,
    hending, hkeywords, hcontains, hstarts, hmatcher, rfl⟩, ho⟩

namespace Call

theorem getElem?_begins_opened (c : Call) (o : Opening) (h : c.arena.Sound g scoring n) :
    (c.opened o).begins[c.number]? = some o.begin := by
  simp only [opened, Arena.reserve, number, ← h.size, Array.getElem?_push_size]

/-- A mode leads to modes that have numbers, so all begins in its rules are known when it is
finished. -/
theorem Ready.madeBy (h : c.Ready g scoring n) {a' : Arena}
    (k : Compilation g scoring l c.template c.around c.arena a')
    (ho : c.opening g scoring = .ok k.opening) (hsize : k.outer.begins.size = k.outer.slots.size) :
    k.mode.MadeBy g c k.opening k.outer.begins := by
  have hlinked := k.linked (compileMode_links l) h.linked h.encloses h.place (h.self _ ho)
  refine ⟨rfl, rfl, k.ending_eq, fun i hi ↦ ?_, (Rule.Resumable.ofRules_eq_ok k.matcher_eq).1⟩
  have hlt := ((hlinked.modes _ _ k.slot).contains i hi).2
  rw [k.result] at hlt
  rw [hsize]
  simpa [Arena.finish] using hlt

/-- A call that another call makes finds all that it needs. -/
theorem Ready.of_leads (h : c.Ready g scoring n) (hd : Leads g scoring l c d)
    (hb : d.arena.Rooted g scoring n) : d.Ready g scoring n where
  sound := hb.sound
  linked := hb.linked
  encloses := hd.encloses h.encloses h.place
  place _ := hb.pos
  self _ _ _ := hb.pos

theorem Ready.opened (h : c.Ready g scoring n) (o : Opening) : (c.opened o).Rooted g scoring n where
  sound := h.sound.opened o
  linked := h.linked.reserve o.begin fun hsome ↦ by
    split at hsome
    · cases hsome
    · exact h.place hsome
  pos := by rw [c.opened_size]; exact Nat.succ_pos _

/-- Each call leaves the arena sound: so do the calls that it makes, by induction on the levels,
and the mode of its own number is what it has made. -/
theorem Ready.answer_sound {id : Nat} {a' : Arena} (h : c.Ready g scoring n)
    (hc : Within g scoring n g.firstCall l c) (ha' : c.answer g scoring l = .ok (id, a')) :
    a'.Sound g scoring n := by
  induction l generalizing c id a' with
  | zero => cases ha'
  | succ l ih =>
    obtain ⟨k, ho⟩ := exists_compilation ha'
    have hgrows : (compileMode g scoring l).Grows := compileMode_grows l
    have hle : (c.opened k.opening).Le k.outer :=
      (Placing.placeEntries_le hgrows k.contains_eq).trans (Placing.placeNext_le hgrows k.starts_eq)
    -- Soundness alone would not do: the links tell that all modes in the rules have numbers.
    have hstep : ∀ ⦃d id b⦄, Leads g scoring l c d → d.arena.Rooted g scoring n →
        d.answer g scoring l = .ok (id, b) → b.Rooted g scoring n := by
      intro d id b hd hrooted hanswer
      have hready := h.of_leads hd hrooted
      obtain ⟨hext, hlinked, -⟩ :=
        compileMode_links l hanswer hrooted.pos hrooted.linked hready.encloses
      exact ⟨ih hready (hc.step hd) hanswer, hlinked, Nat.lt_of_lt_of_le hrooted.pos hext.size_le⟩
    have hsound := ((c.along .overlooks (fun o _ ↦ h.opened o) hstep).2 ho k.contains_eq
      k.starts_eq).2.sound
    have hbegin : k.outer.begins[c.number]? = some k.begin := by
      have hopened := c.getElem?_begins_opened k.opening h.sound
      rw [hle.getElem?_begins (Array.getElem?_eq_some_iff.1 hopened).1, hopened]
      rfl
    rw [k.result]
    exact hsound.finish hc ho hbegin (h.madeBy k ho hsound.size)

end Call

/-- Every call but the first one is made within modes, and after the outermost mode has its
number. -/
theorem Within.first_or (h : Within g scoring n g.firstCall l c) :
    c = g.firstCall ∨ (c.around ≠ [] ∧ 0 < c.number) := by
  cases h with
  | refl => exact .inl rfl
  | @step _ d _ _ hlead =>
    obtain ⟨o, -, hle⟩ := hlead.le
    have hsize := hle.size
    rw [d.opened_size] at hsize
    refine .inr ⟨?_, Nat.lt_of_lt_of_le (Nat.succ_pos _) hsize⟩
    cases hlead with
    | content => exact List.cons_ne_nil _ _
    | next _ _ _ haround => exact haround

theorem terminatorsOf_isSome (p : Prepared) (around : List Enclosing) :
    (terminatorsOf p around).1.isSome ↔
      p.endSource?.isSome ∨ (around ≠ [] ∧ p.mode.endsWithParent = false) := by
  cases hend : p.endSource? with
  | some source => simp [terminatorsOf, hend]
  | none => cases around <;> simp [terminatorsOf, hend]

/-- What the compiled form of a mode says of its rules and of its end, where a call with the given
opening has made it. -/
structure CompiledGrammar.ModeForm (cg : CompiledGrammar) (i : Nat) (o : Opening) : Prop where
  /-- The begins of the modes that it contains come first, in order, then its end and its illegal
  text if it has them. -/
  rules : (cg.mode i).matcher.rules =
    (cg.mode i).contains.map (fun k ↦ ⟨(cg.mode k).begin, .begins k⟩) ++
      (if (cg.mode i).terminator = "" then [] else [⟨(cg.mode i).terminator, .ends⟩]) ++
      (o.p.illegalSource?.map fun source ↦ ⟨source, .illegal⟩).toList
  illegal : ∀ source, o.p.illegalSource? = some source → source ≠ ""
  /-- It has an end of its own if one is written, or else unless it is the outermost mode or ends
  with its parent. -/
  ending : (cg.mode i).ending.isSome ↔ o.p.endSource?.isSome ∨
    (i ≠ rootId ∧ (cg.mode i).endsWithParent = false)

/-- A compiled grammar whose modes stand where the arena had their numbers. -/
structure CompiledGrammar.WellFormed (cg : CompiledGrammar) (g : Grammar)
    (scoring : KeywordScoring) (a : Arena) : Prop where
  /-- Every number that was taken is that of a finished mode, so that none is shifted. -/
  slots : a.slots = cg.modes.map some
  begins : a.begins = cg.modes.map CompiledMode.begin
  root : rootId < cg.modes.size
  contains : ∀ i, ∀ k ∈ (cg.mode i).contains, cg.IsInner k
  starts : ∀ i k, (cg.mode i).starts = some k → cg.IsInner k
  /-- Each mode comes from a call with its number, the outermost mode from the first one. -/
  modes : ∀ i < cg.modes.size, ∃ l c o, Within g scoring g.levels g.firstCall (l + 1) c ∧
    c.opening g scoring = .ok o ∧ c.number = i ∧ (c = g.firstCall ↔ i = rootId) ∧ cg.ModeForm i o

namespace Grammar

theorem firstCall_ready (h : Entry.self ∉ g.contains) : g.firstCall.Ready g scoring n where
  sound := ⟨rfl, by simp [firstCall]⟩
  linked := ⟨by simp [firstCall], by simp [firstCall, Arena.All]⟩
  encloses := by simp [firstCall, Arena.Encloses]
  place := by simp [firstCall, Template.root]
  self o ho hself := by
    have hp := (Call.opening_eq_ok ho).1
    rw [rootMode_contains hp] at hself
    exact absurd hself h

theorem arena_sound (h : g.arena scoring = .ok a) : a.Sound g scoring g.levels := by
  unfold arena at h
  split at h
  · cases h
  · rename_i hself
    obtain ⟨⟨id, b⟩, hb, h⟩ := bind_eq_ok.1 h
    cases h
    refine (firstCall_ready fun hmem ↦ hself ?_).answer_sound .refl hb
    exact List.any_eq_true.2 ⟨_, hmem, rfl⟩

theorem illegalSource?_ne {p : Prepared} {source : String} (h : p.illegalSource? = some source) :
    source ≠ "" := by
  unfold Prepared.illegalSource? at h
  split at h
  · split at h
    · cases h
    · cases h
      rename_i hempty
      simpa using hempty
  · cases h

/-- The mode of a number is what a call with that number has made, so its rules name the modes that
it contains by the begins that these have. -/
theorem modeForm {cg : CompiledGrammar} {i : Nat} (hc : Within g scoring n g.firstCall l c)
    (hi : c.number = i) (hmade : (cg.mode i).MadeBy g c o (cg.modes.map CompiledMode.begin)) :
    cg.ModeForm i o where
  rules := by
    rw [hmade.rules, rulesOf]
    congr 2
    · refine List.map_congr_left fun k hk ↦ ?_
      have hlt : k < cg.modes.size := by simpa using hmade.contains k hk
      simp [CompiledGrammar.mode, hlt]
    · simp
  illegal _ := illegalSource?_ne
  ending := by
    rw [mapM_isSome hmade.ending, terminatorsOf_isSome, hmade.endsWithParent]
    have haround : c.around ≠ [] ↔ i ≠ CompiledGrammar.rootId := by
      obtain rfl | ⟨haround, hpos⟩ := hc.first_or
      · simp [← hi, firstCall, Call.number, CompiledGrammar.rootId]
      · simp only [ne_eq, haround, not_false_eq_true, true_iff]
        exact hi ▸ Nat.ne_of_gt hpos
    rw [haround]

theorem arena_slots (h : g.arena scoring = .ok a) : a.slots = a.modes.map some := by
  refine Array.ext_getElem? fun i ↦ ?_
  rw [Array.getElem?_map, arena_modes h]
  by_cases hi : i < a.slots.size
  · obtain ⟨m, hm⟩ := arena_finished h hi
    rw [hm]
    rfl
  · rw [Array.getElem?_eq_none (Nat.le_of_not_lt hi)]
    rfl

theorem arena_begins (h : g.arena scoring = .ok a) :
    a.begins = a.modes.map CompiledMode.begin := by
  have hsound := arena_sound h
  refine Array.ext_getElem? fun i ↦ ?_
  rw [Array.getElem?_map, arena_modes h]
  by_cases hi : i < a.slots.size
  · obtain ⟨m, hm⟩ := arena_finished h hi
    rw [hm, (hsound.modes i m hm).1]
    rfl
  · rw [Array.getElem?_eq_none (Nat.le_of_not_lt hi),
      Array.getElem?_eq_none (hsound.size ▸ Nat.le_of_not_lt hi)]
    rfl

/-- Whenever a grammar is compiled, its modes are well-formed. -/
theorem compile_wellFormed {cg : CompiledGrammar} (h : g.compile scoring = .ok cg) :
    ∃ a, g.arena scoring = .ok a ∧ cg.WellFormed g scoring a := by
  obtain ⟨a, ha, rfl⟩ := compile_eq_ok h
  refine ⟨a, ha, arena_slots ha, arena_begins ha, (compile_wired h).root,
    fun i ↦ (compile_inner h i).1, fun i ↦ (compile_inner h i).2,
    fun i (hi : i < a.modes.size) ↦ ?_⟩
  have hslot : a.slots[i]? = some (some a.modes[i]) := by
    rw [arena_slots ha, Array.getElem?_map, Array.getElem?_eq_getElem hi]
    rfl
  obtain ⟨-, l, c, o, hc, ho, hnumber, hmade⟩ := (arena_sound ha).modes i _ hslot
  refine ⟨l, c, o, hc, ho, hnumber, ⟨?_, fun hroot ↦ ?_⟩, modeForm hc hnumber ?_⟩
  · rintro rfl
    exact hnumber.symm
  · exact hc.first_or.resolve_right fun hinner ↦ Nat.ne_of_gt hinner.2 (hnumber.trans hroot)
  · rw [arena_begins ha] at hmade
    simpa [CompiledGrammar.mode, Array.getElem?_eq_getElem hi] using hmade

def quotes : Grammar where
  contains := [.inline
    { begin := some (.source "<"), ending := some (.source ">"), illegal := some (.source "!"),
      contains := [.self, .inline { begin := some (.source "="), endsWithParent := true }] }]

theorem quotes_wellFormed :
    ∃ cg a, quotes.compile default = .ok cg ∧ quotes.arena default = .ok a ∧
      cg.WellFormed quotes default a ∧ cg.modes.size = 3 := by
  have hevaluated : (quotes.compile default).toOption.map (·.modes.size) = some 3 := by
    cbv
  obtain ⟨cg, hcg, hsize⟩ := eq_ok_of_map hevaluated
  obtain ⟨a, ha, hwell⟩ := compile_wellFormed hcg
  exact ⟨cg, a, hcg, ha, hwell, hsize⟩

end Grammar

end SyntaxHighlight
