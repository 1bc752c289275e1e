import SyntaxHighlight.Proofs.Grammar.Origin
import SyntaxHighlight.Proofs.Mode.Plain

/-!
What becomes of the modes that a mode contains. Each entry stands for a stretch of numbers: a mode
with variants for as many as it has variants, in their order. The mode of such a number is compiled
from the plain form of the variant laid over the mode, be it compiled here or before.
-/
namespace SyntaxHighlight

namespace Placing

variable {compile : Placing} {own i : Nat} {around : List Enclosing} {named : Dictionary Mode}
  {t : Template} {P : Arena → Prop} {S : Nat → Template → Prop} {a a' : Arena} {ids : List Nat}

/-- Templates in a row get numbers in a row, each of which serves for its template or is given to a
mode that is compiled for it. -/
theorem placeAll_forall₂ (hP : Overlooks P) {ts : List Template}
    (hserved : ∀ ⦃u b id⦄, u ∈ ts → P b →
      b.fitting? u around = some id ∨ u.makeshift? around = some id → S id u)
    (hcompiled : ∀ ⦃u b id b'⦄, AsksAll compile own around ts a u b → P b →
      compile u around b = .ok (id, b') → P b' ∧ S id u)
    (ha : P a) (h : compile.placeAll own around ts a = .ok (ids, a')) :
    P a' ∧ List.Forall₂ S ids ts := by
  induction ts generalizing a ids with
  | nil =>
    cases h
    exact ⟨ha, .nil⟩
  | cons v ts ih =>
    obtain ⟨⟨id, b⟩, hb, h⟩ := bind_eq_ok.1 h
    obtain ⟨⟨others, b'⟩, hothers, h⟩ := bind_eq_ok.1 h
    cases h
    have hfirst : P b ∧ S id v := by
      have hplace := hb
      unfold place at hplace
      split at hplace
      · rename_i hfit
        cases hplace
        exact ⟨ha, hserved List.mem_cons_self ha (.inl hfit)⟩
      · split at hplace
        · rename_i hmakeshift
          cases hplace
          exact ⟨hP _ a.selves ha, hserved List.mem_cons_self ha (.inr hmakeshift)⟩
        · exact hcompiled (.here ‹_› ‹_›) ha hplace
    obtain ⟨hlast, hrest⟩ := ih (fun u b id hu ↦ hserved (List.mem_cons_of_mem _ hu))
      (fun u d id d' hasks ↦ hcompiled (.there hb hasks)) hfirst.1 hothers
    exact ⟨hlast, .cons hfirst.2 hrest⟩

/-- Entries in a row get stretches of numbers in a row. -/
theorem placeEntries_segments (hP : Overlooks P) {entries : List (Entry Mode)}
    (hserved : ∀ ⦃u b id⦄,
      (∃ j entry, entries[j]? = some entry ∧ u ∈ templatesOf named t (i + j) entry) → P b →
      b.fitting? u around = some id ∨ u.makeshift? around = some id → S id u)
    (hcompiled : ∀ ⦃u b id b'⦄, AsksEntries compile own around named t i entries a u b → P b →
      compile u around b = .ok (id, b') → P b' ∧ S id u)
    (ha : P a) (h : compile.placeEntries named t own around i entries a = .ok (ids, a')) :
    P a' ∧ ∃ segments : List (List Nat), ids = segments.flatten ∧
      segments.length = entries.length ∧
      ∀ (j : Nat) entry segment, entries[j]? = some entry → segments[j]? = some segment →
        entry ≠ .self → List.Forall₂ S segment (templatesOf named t (i + j) entry) := by
  induction entries generalizing i a ids with
  | nil =>
    cases h
    exact ⟨ha, [], rfl, rfl, nofun⟩
  | cons entry entries ih =>
    obtain ⟨⟨first, b⟩, hfirst, h⟩ := bind_eq_ok.1 h
    obtain ⟨⟨others, b'⟩, hothers, h⟩ := bind_eq_ok.1 h
    cases h
    have hentry : P b ∧
        (entry ≠ .self → List.Forall₂ S first (templatesOf named t i entry)) := by
      rcases placeEntry_eq_ok hfirst with ⟨rfl, -, rfl⟩ | hall
      · exact ⟨hP a.crowded _ ha, fun hne ↦ absurd rfl hne⟩
      · obtain ⟨hb, hrow⟩ := placeAll_forall₂ hP
          (fun u b id hu ↦ hserved ⟨0, entry, rfl, hu⟩)
          (fun u b id b' hasks ↦ hcompiled (.here hasks)) ha hall
        exact ⟨hb, fun _ ↦ hrow⟩
    obtain ⟨hlast, segments, rfl, hlength, hsegments⟩ := ih (fun u d id hu ↦ by
        obtain ⟨j, other, hother, hu⟩ := hu
        rw [show i + 1 + j = i + (j + 1) by omega] at hu
        exact hserved ⟨j + 1, other, hother, hu⟩)
      (fun u d id d' hasks ↦ hcompiled (.there hfirst hasks)) hentry.1 hothers
    refine ⟨hlast, first :: segments, rfl, by simp [hlength], fun j other segment ho hs hne ↦ ?_⟩
    cases j with
    | zero =>
      cases ho
      cases hs
      exact hentry.2 hne
    | succ j =>
      have hrow := hsegments j other segment ho hs hne
      rwa [show i + 1 + j = i + (j + 1) by omega] at hrow

end Placing

variable {g : Grammar} {scoring : KeywordScoring} {cg : CompiledGrammar} {n l i : Nat} {c : Call}
  {p : Prepared}

theorem Call.answer_number {id : Nat} {a : Arena} (h : c.answer g scoring l = .ok (id, a)) :
    id = c.number := by
  cases l with
  | zero => cases h
  | succ l =>
    obtain ⟨o, contains, inner, starts, outer, matcher, -, -, -, -, rfl, -⟩ := answer_eq_ok h
    rfl

theorem Template.modes_alternatives (t : Template) :
    t.alternatives.map Template.mode = t.mode.forms := by
  unfold alternatives Mode.forms
  split
  · rfl
  · refine List.ext_getElem? fun i ↦ ?_
    simp only [List.getElem?_map, List.getElem?_mapIdx, Option.map_map]
    rfl

/-- The mode that an entry stands for, as it is written; none if that is the mode around it. -/
def Grammar.writtenMode? (g : Grammar) : Entry Mode → Option Mode
  | .self => none
  | .named name => g.modes.get? name
  | .inline m => some m

theorem Grammar.modes_templatesOf {t : Template} {entry : Entry Mode} {a : Mode}
    (h : g.writtenMode? entry = some a) (i : Nat) :
    (Placing.templatesOf g.modes t i entry).map Template.mode = a.forms := by
  have hchild : (t.child i a).mode = a := by
    unfold Template.child
    split <;> rfl
  cases entry with
  | self => cases h
  | named name =>
    have hname : g.modes.get? name = some a := h
    simp only [Placing.templatesOf, hname]
    exact Template.modes_alternatives _
  | inline m =>
    cases h
    exact (Template.modes_alternatives _).trans (congrArg Mode.forms hchild)

namespace CompiledMode

def isOn (m : CompiledMode) : Mode.Flag → Bool
  | .excludeBegin => m.excludeBegin
  | .excludeEnd => m.excludeEnd
  | .returnBegin => m.returnBegin
  | .returnEnd => m.returnEnd
  | .endsWithParent => m.endsWithParent
  | .endsParent => m.endsParent
  | .skip => m.skip

/-- What a mode that is compiled within another one has of its plain form. -/
structure HasForm (m : CompiledMode) (flags : Regex.Flags) (p : Prepared) : Prop where
  begin : m.begin = p.beginSource?.getD Pattern.matchAnywhere
  /-- Without an end, it ends at once, unless it ends with its parent. -/
  ending : (p.endSource? <|>
      if p.mode.endsWithParent then none else some Pattern.matchAnywhere).mapM
    (fun source ↦ Pattern.compile source flags) = .ok m.ending
  scope : ∀ s, m.scope = some s ↔ p.mode.scope = some (.name s)
  beginTagging : m.beginTagging = p.beginTagging
  endTagging : m.endTagging = p.endTagging
  flags : ∀ f, m.isOn f = p.mode.isOn f
  relevance : p.mode.relevance = some m.relevance
  subLanguage : m.subLanguage = p.mode.subLanguage

end CompiledMode

theorem Mode.prepare_relevance {m : Mode} {parent : Option Mode}
    (h : m.prepare parent [] = .ok p) : p.mode.relevance.isSome := by
  obtain ⟨named, wrapped, changed, begin, ending, -, -, -, hmode, -, -⟩ := prepare_eq_ok h
  rw [hmode]
  exact relevance_spelledOut _ changed

theorem Compilation.hasForm {t : Template} {around : List Enclosing} {a b : Arena}
    (k : Compilation g scoring l t around a b) (hext : g.extensions = []) (haround : around ≠ []) :
    k.mode.HasForm g.flags k.p := by
  have houter : around.isEmpty = false := by simpa using haround
  have hbegin := k.begin_eq
  simp only [beginOf, houter, Bool.false_eq_true, if_false] at hbegin
  obtain ⟨e, -, hbegin⟩ := bind_eq_ok.1 hbegin
  have hp := k.prepare_eq
  rw [hext] at hp
  obtain ⟨relevance, hrelevance⟩ := Option.isSome_iff_exists.1 (Mode.prepare_relevance hp)
  have hending := k.ending_eq
  simp only [terminatorsOf, houter, Bool.false_or] at hending
  refine ⟨(Except.ok.inj hbegin).symm, hending, fun s ↦ ?_, rfl, rfl, fun f ↦ by cases f <;> rfl, ?_, rfl⟩
  · simp only [Compilation.mode, Prepared.compiled]
    rcases k.p.mode.scope with _ | name | names <;> simp
  · simp only [Compilation.mode, Prepared.compiled, hrelevance, Option.getD_some]

namespace Grammar

/-- The plain form from which the mode of a number is compiled. -/
def IsForm (g : Grammar) (scoring : KeywordScoring) (i : Nat) (p : Prepared) : Prop :=
  ∃ l c, Within g scoring g.levels g.firstCall l c ∧ c.number = i ∧
    c.template.mode.prepare (c.around.head?.map Enclosing.mode) g.extensions = .ok p

theorem IsForm.unique {q : Prepared} (hp : g.IsForm scoring i p) (hq : g.IsForm scoring i q) :
    p = q := by
  obtain ⟨k, c, hc, hi, hp⟩ := hp
  obtain ⟨l, d, hd, hi', hq⟩ := hq
  obtain rfl := hc.eq_of_number hd (hi.trans hi'.symm)
  exact Except.ok.inj (hp.symm.trans hq)

theorem number_lt (h : g.compile scoring = .ok cg) (hc : Within g scoring g.levels g.firstCall l c) :
    c.number < cg.modes.size := by
  obtain ⟨a, ha, rfl⟩ := compile_eq_ok h
  refine lt_modes_size ha ?_
  unfold arena at ha
  split at ha
  · cases ha
  · obtain ⟨⟨id, b⟩, hb, ha⟩ := bind_eq_ok.1 ha
    have hfirst : g.firstCall.answer g scoring g.levels = .ok (id, b) := hb
    cases ha
    obtain ⟨id', b', hanswer, hle⟩ := hc.answered hfirst
    obtain ⟨-, o, -, hopened⟩ := Call.answer_le hanswer
    have hsize := Nat.le_trans hopened.size hle.size
    rw [c.opened_size] at hsize
    exact hsize

theorem isForm_of_takes (hext : g.extensions = []) (h : g.compile scoring = .ok cg)
    {t : Template} (ht : t.Takes g scoring g.levels i) (parent : Mode) :
    ∃ q, t.mode.prepare (some parent) [] = .ok q ∧ g.IsForm scoring i q ∧
      (cg.mode i).HasForm g.flags q := by
  obtain ⟨l, c, hc, rfl, rfl, haround⟩ := ht
  obtain ⟨l', c', b, k, hc', -, hnumber, hmode⟩ := compile_compilation h (number_lt h hc)
  obtain rfl := hc'.eq_of_number hc hnumber
  have hp := k.prepare_eq
  refine ⟨k.p, ?_, ⟨l, c', hc, rfl, hp⟩, hmode ▸ k.hasForm hext haround⟩
  rw [hext] at hp
  refine (Mode.prepare_parent ?_).trans hp
  cases houter : c'.around with
  | nil => exact absurd houter haround
  | cons e outer => rfl

/-- What the mode of a number contains, entry by entry of its plain form. -/
theorem contains_segments (hext : g.extensions = []) (h : g.compile scoring = .ok cg)
    (hp : g.IsForm scoring i p) : ∃ segments : List (List Nat),
      (cg.mode i).contains = segments.flatten ∧ segments.length = p.mode.contains.length ∧
      ∀ (j : Nat) entry segment a, p.mode.contains[j]? = some entry →
        segments[j]? = some segment → g.writtenMode? entry = some a →
        List.Forall₂ (fun id form ↦ ∃ q, form.prepare (some p.mode) [] = .ok q ∧
          g.IsForm scoring id q ∧ (cg.mode id).HasForm g.flags q) segment a.forms := by
  obtain ⟨l, c, hc, rfl, hp⟩ := hp
  obtain ⟨l', c', b, k, hc', ho, hnumber, hmode⟩ := compile_compilation h (number_lt h hc)
  obtain rfl := hc'.eq_of_number hc hnumber
  obtain rfl : k.p = p := Except.ok.inj (k.prepare_eq.symm.trans hp)
  rw [hext] at hp
  -- A number comes from a mode that serves or from a call. Either was taken for the template
  -- itself.
  have hserved : ∀ ⦃u : Template⦄ ⦃b : Arena⦄ ⦃id : Nat⦄, (∃ j entry, k.p.mode.contains[j]? = some entry ∧
      u ∈ Placing.templatesOf g.modes c'.template (0 + j) entry) →
      b.Traced g scoring g.levels →
      (b.fitting? u (c'.within k.opening) = some id ∨
        u.makeshift? (c'.within k.opening) = some id) →
      u.Takes g scoring g.levels id := by
    rintro u b id ⟨j, entry, hentry, hu⟩ hb hserves
    rw [Nat.zero_add] at hu
    exact hb.takes hext (hc'.remembers.within hc' k.opening)
      ((hc'.stems hext).templatesOf hp hentry hu) hserves
  have hcompiled : ∀ ⦃u b id b'⦄, Placing.AsksEntries (compileMode g scoring l') c'.number
      (c'.within k.opening) g.modes c'.template 0 k.p.mode.contains (c'.opened k.opening) u b →
      b.Traced g scoring g.levels →
      compileMode g scoring l' u (c'.within k.opening) b = .ok (id, b') →
      b'.Traced g scoring g.levels ∧ u.Takes g scoring g.levels id := by
    intro u b id b' hasks hb hcompile
    have hlead : Leads g scoring l' c' ⟨u, c'.within k.opening, b⟩ := .content ho hasks
    have hanswer : Call.answer g scoring l' ⟨u, c'.within k.opening, b⟩ = .ok (id, b') := hcompile
    exact ⟨Call.answer_traced (hc'.step hlead) hb hanswer, l', _, hc'.step hlead, rfl,
      (Call.answer_number hanswer).symm, List.cons_ne_nil _ _⟩
  obtain ⟨-, segments, hflat, hlength, hsegments⟩ := Placing.placeEntries_segments
    .overlooks hserved hcompiled (hc'.traced.opened hc' k.opening) k.contains_eq
  refine ⟨segments, hmode ▸ hflat, hlength, fun j entry segment a hentry hsegment ha ↦ ?_⟩
  have hself : entry ≠ .self := by
    rintro rfl
    cases ha
  have hrow := hsegments j entry segment hentry hsegment hself
  rw [← modes_templatesOf (t := c'.template) ha (0 + j), List.forall₂_map_right_iff]
  exact hrow.imp fun id u hu ↦ isForm_of_takes hext h hu k.p.mode

theorem exists_isForm (h : g.compile scoring = .ok cg) (hi : i < cg.modes.size) :
    ∃ p, g.IsForm scoring i p := by
  obtain ⟨l, c, b, k, hc, -, hnumber, -⟩ := compile_compilation h hi
  exact ⟨k.p, l + 1, c, hc, hnumber, k.prepare_eq⟩

theorem isForm_root (h : g.compile scoring = .ok cg) :
    ∃ p, g.IsForm scoring CompiledGrammar.rootId p ∧
      g.rootMode.prepare none g.extensions = .ok p := by
  obtain ⟨l, a, k, -⟩ := compile_root h
  exact ⟨k.p, ⟨g.levels, g.firstCall, .refl, rfl, k.prepare_eq⟩, k.prepare_eq⟩

/-- Laying variants over modes is associative, with the mode that says nothing on either side, and
what is contained with variants becomes one mode for each of them, in their order, wherever it is
contained. -/
theorem variants_laid_over (g : Grammar) (scoring : KeywordScoring) :
    (∀ a b c : Mode, (a.overlay b).overlay c = a.overlay (b.overlay c)) ∧
    (∀ m : Mode, m.overlay {} = m.withoutVariants ∧ Mode.overlay {} m = m.withoutVariants) ∧
    (∀ base variant : Mode, (base.overlay variant).LaidOver base variant) ∧
    (g.extensions = [] → ∀ cg, g.compile scoring = .ok cg →
      (∃ p, g.IsForm scoring CompiledGrammar.rootId p ∧ g.rootMode.prepare none [] = .ok p) ∧
      (∀ i < cg.modes.size, ∃! p, g.IsForm scoring i p) ∧
      ∀ i p, g.IsForm scoring i p → ∃ segments : List (List Nat),
        (cg.mode i).contains = segments.flatten ∧ segments.length = p.mode.contains.length ∧
        ∀ (j : Nat) entry ids a, p.mode.contains[j]? = some entry → segments[j]? = some ids →
          g.writtenMode? entry = some a →
          (a.variants ≠ [] → a.forms = a.variants.map a.overlay ∧
            ids.length = a.variants.length) ∧
          List.Forall₂ (fun id form ↦ ∃ q, form.prepare (some p.mode) [] = .ok q ∧
            g.IsForm scoring id q ∧ (cg.mode id).HasForm g.flags q) ids a.forms) := by
  refine ⟨Mode.overlay_assoc, fun m ↦ ⟨m.overlay_empty, m.empty_overlay⟩,
    Mode.laidOver_overlay, fun hext cg h ↦ ⟨?_, fun i hi ↦ ?_, fun i p hp ↦ ?_⟩⟩
  · obtain ⟨p, hp, hprepare⟩ := isForm_root h
    rw [hext] at hprepare
    exact ⟨p, hp, hprepare⟩
  · obtain ⟨p, hp⟩ := exists_isForm h hi
    exact ⟨p, hp, fun q hq ↦ hq.unique hp⟩
  · obtain ⟨segments, hflat, hlength, hsegments⟩ := contains_segments hext h hp
    refine ⟨segments, hflat, hlength, fun j entry ids a hentry hids ha ↦ ?_⟩
    have hrow := hsegments j entry ids a hentry hids ha
    refine ⟨fun hvariants ↦ ?_, hrow⟩
    have hforms := Mode.forms_of_ne_nil hvariants
    exact ⟨hforms, by simpa [hforms] using hrow.length_eq⟩

def mark : Mode where
  scope := some (.name "mark")
  variants := [{ begin := some (.source "<") }, { begin := some (.source "#"), endsWithParent := true }]

def bracketed : Mode where
  begin := some (.source "\\(")
  ending := some (.source "\\)")
  contains := [.named "mark"]

def marks : Grammar where
  contains := [.named "mark", .inline bracketed]
  modes := ⟨[("mark", mark)]⟩

/-- A compiled mark of one kind. -/
def IsMark (m : CompiledMode) (begin : String) (endsWithParent : Bool) : Prop :=
  m.begin = begin ∧ m.scope = some "mark" ∧ m.endsWithParent = endsWithParent

theorem isMark_of_hasForm {m : CompiledMode} {flags : Regex.Flags} {begin : String} {ends : Bool}
    (h : m.HasForm flags p) (hbegin : p.beginSource? = some begin)
    (hscope : p.mode.scope = some (.name "mark")) (hends : p.mode.endsWithParent = ends) :
    IsMark m begin ends := by
  refine ⟨?_, (h.scope _).2 hscope, (h.flags .endsWithParent).trans hends⟩
  rw [h.begin, hbegin]
  rfl

theorem mark_forms (parent : Mode) :
    mark.forms.map (fun m ↦ (m.prepare (some parent) []).toOption.map fun q ↦
      (q.beginSource?, q.mode.scope, q.mode.endsWithParent)) =
    [some (some "<", some (.name "mark"), false), some (some "#", some (.name "mark"), true)] := by
  cbv

/-- Wherever the mark is contained, there is one number for each kind. -/
theorem marks_of_forms {parent : Mode} {ids : List Nat}
    (h : List.Forall₂ (fun id form ↦ ∃ q, form.prepare (some parent) [] = .ok q ∧
      g.IsForm scoring id q ∧ (cg.mode id).HasForm g.flags q) ids mark.forms) :
    ∃ first second, ids = [first, second] ∧ IsMark (cg.mode first) "<" false ∧
      IsMark (cg.mode second) "#" true := by
  have hforms := mark_forms parent
  have hvariants : mark.variants ≠ [] := List.cons_ne_nil _ _
  rw [Mode.forms_of_ne_nil hvariants] at h hforms
  obtain _ | ⟨⟨q, hq, -, hfirst⟩, _ | ⟨⟨r, hr, -, hsecond⟩, ⟨⟩⟩⟩ := h
  rw [mark, List.map_cons, List.map_cons, List.map_cons, List.map_cons, ← mark, hq, hr] at hforms
  simp only [Except.toOption, Option.map_some, List.map_nil, List.cons.injEq, Option.some.injEq,
    Prod.mk.injEq, and_true] at hforms
  obtain ⟨⟨hopen, hscope, hends⟩, hsharp, hscope', hends'⟩ := hforms
  exact ⟨_, _, rfl, isMark_of_hasForm hfirst hopen hscope hends,
    isMark_of_hasForm hsecond hsharp hscope' hends'⟩

/-- Marks of both kinds by themselves, and others of both kinds within brackets. -/
theorem marks_variants : ∃ cg first second brackets first' second',
    marks.compile default = .ok cg ∧ cg.root.contains = [first, second, brackets] ∧
    (cg.mode brackets).contains = [first', second'] ∧
    IsMark (cg.mode first) "<" false ∧ IsMark (cg.mode second) "#" true ∧
    IsMark (cg.mode first') "<" false ∧ IsMark (cg.mode second') "#" true := by
  have hevaluated : (marks.compile default).toOption.map (·.modes.size) = some 5 := by
    cbv
  obtain ⟨cg, hcg, -⟩ := eq_ok_of_map hevaluated
  obtain ⟨-, -, -, hcompiled⟩ := variants_laid_over marks default
  obtain ⟨⟨p, hp, hprepare⟩, -, hcontents⟩ := hcompiled rfl cg hcg
  obtain ⟨segments, hflat, hlength, hrows⟩ := hcontents _ p hp
  have hcontains : p.mode.contains = marks.contains := (Mode.prepare_contents rfl hprepare).1
  obtain ⟨ids, others, rfl⟩ := List.length_eq_two.1 (hlength.trans (congrArg List.length hcontains))
  obtain ⟨-, hmarks⟩ := hrows 0 (.named "mark") ids mark (by rw [hcontains]; rfl) rfl rfl
  obtain ⟨first, second, rfl, hfirst, hsecond⟩ := marks_of_forms hmarks
  obtain ⟨-, hbrackets⟩ := hrows 1 (.inline bracketed) others bracketed (by rw [hcontains]; rfl) rfl
    rfl
  have hsingle : bracketed.forms = [bracketed] := rfl
  rw [hsingle] at hbrackets
  obtain _ | ⟨⟨q, hq, hform, -⟩, ⟨⟩⟩ := hbrackets
  rename_i brackets
  obtain ⟨segments, hflat', hlength', hrows'⟩ := hcontents brackets q hform
  have hwithin : q.mode.contains = [.named "mark"] := (Mode.prepare_contents rfl hq).1
  obtain ⟨ids, rfl⟩ := List.length_eq_one_iff.1
    (hlength'.trans (congrArg List.length hwithin))
  obtain ⟨-, hmarks'⟩ := hrows' 0 (.named "mark") ids mark (by rw [hwithin]; rfl) rfl rfl
  obtain ⟨first', second', rfl, hfirst', hsecond'⟩ := marks_of_forms hmarks'
  refine ⟨cg, first, second, brackets, first', second', hcg, ?_, ?_, hfirst, hsecond, hfirst',
    hsecond'⟩
  · simpa [CompiledGrammar.root] using hflat
  · simpa using hflat'

end Grammar

end SyntaxHighlight
