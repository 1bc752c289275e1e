import SyntaxHighlight.Proofs.Highlight.Lookup
import SyntaxHighlight.Proofs.Highlight.SafeMode

/-!
Compiled grammars in memory. A grammar is compiled when it is first asked for, and what comes of it
is kept in a cell of its own: one for each registration, and one for the plain text that takes the
place of grammars that do not compile. What tells compiled grammars apart is which cell they are
kept in, as no cell is emptied or filled again.
-/
namespace SyntaxHighlight.Registry

open Unicode

/-- A compiled grammar in memory. Each one that is made gets an address of its own. -/
structure Object where
  address : Nat
  grammar : CompiledGrammar

/-- What has been compiled, or has failed to compile. -/
structure Cells where
  kept : GrammarId → Option (Except GrammarError Object) := fun _ ↦ none
  /-- Addresses from here on are free. -/
  free : Nat := 0

namespace Cells

/-- What is kept in a cell, which is filled with what has been made if it is empty. -/
def get (c : Cells) (id : GrammarId) (made : Except GrammarError CompiledGrammar) :
    Except GrammarError Object × Cells :=
  match c.kept id with
  | some kept => (kept, c)
  | none =>
    let object := made.map (Object.mk c.free)
    (object, ⟨fun other ↦ if other = id then some object else c.kept other, c.free + 1⟩)

/-- The compiled grammar for a name, and the cells after it has been asked for. -/
def compiled (c : Cells) (r : Registry) (name : String) :
    Except HighlightError Object × Cells :=
  match r.find? name with
  | none => (.error (.unknownLanguage name), c)
  | some registration =>
    match c.get (.registered registration.number) (registration.grammar.compile r.scoring) with
    | (.ok object, c) => (.ok object, c)
    | (.error cause, c) =>
      if r.safeMode then
        match c.get .substitute (Grammar.plaintext.compile r.scoring) with
        | (.ok object, c) => (.ok object, c)
        -- Unlike the others, this cell is left empty when there is nothing to put into it.
        | (.error cause, _) => (.error (.grammar Grammar.plaintextName cause), c)
      else (.error (.grammar name cause), c)

/-- What is in a cell stays there. -/
def Extends (c c' : Cells) : Prop := ∀ id kept, c.kept id = some kept → c'.kept id = some kept

theorem Extends.refl (c : Cells) : c.Extends c := fun _ _ h ↦ h

theorem Extends.trans {c c' c'' : Cells} (h : c.Extends c') (h' : c'.Extends c'') :
    c.Extends c'' := fun id kept hkept ↦ h' id kept (h id kept hkept)

end Cells

/-! What a call loads, by what comes of compiling the grammar. -/

section

variable {r : Registry} {name : String} {registration : Registration} {grammar : CompiledGrammar}
  {cause : GrammarError} (hr : r.Compiled) (hfind : r.find? name = some registration)
include hr hfind

theorem Compiled.load_of_compiles
    (hcompile : registration.grammar.compile r.scoring = .ok grammar) :
    r.load name = .ok ⟨.registered registration.number, grammar⟩ := by
  rw [load, hfind]
  dsimp only
  rw [hr.get_of_find? hfind, hcompile]
  rfl

theorem Compiled.load_of_broken (hcompile : registration.grammar.compile r.scoring = .error cause)
    (hsafe : r.safeMode = true) (hplain : Grammar.plaintext.compile r.scoring = .ok grammar) :
    r.load name = .ok ⟨.substitute, grammar⟩ := by
  rw [load, hfind]
  dsimp only
  rw [hr.get_of_find? hfind, hcompile]
  dsimp only
  rw [if_pos hsafe, plaintext, hr.substitute, hplain]
  rfl

theorem Compiled.load_of_broken_strict
    (hcompile : registration.grammar.compile r.scoring = .error cause)
    (hstrict : r.safeMode = false) : r.load name = .error (.grammar name cause) := by
  rw [load, hfind]
  dsimp only
  rw [hr.get_of_find? hfind, hcompile, hstrict]
  rfl

end

/-- What belongs in a cell. -/
inductive Compiles (r : Registry) : GrammarId → Except GrammarError CompiledGrammar → Prop
  | registered {entry : String × Registration} : entry ∈ r.languages.entries →
      Compiles r (.registered entry.2.number) (entry.2.grammar.compile r.scoring)
  | substitute : Compiles r .substitute (Grammar.plaintext.compile r.scoring)

variable {r r' : Registry} {c c' : Cells} {id : GrammarId}
  {made made' : Except GrammarError CompiledGrammar}

theorem Compiles.unique (hr : r.Numbered) (h : r.Compiles id made) (h' : r.Compiles id made') :
    made = made' := by
  generalize hid : id = id' at h'
  cases h with
  | substitute =>
    cases h' with
    | substitute => rfl
    | registered _ => cases hid
  | @registered entry hentry =>
    cases h' with
    | substitute => cases hid
    | @registered entry' hentry' =>
      rw [hr.unique entry hentry entry' hentry' (GrammarId.registered.inj hid)]

theorem Compiles.lt_next {number : Nat} (h : r.Compiles (.registered number) made)
    (hr : r.Numbered) : number < r.next := by
  cases h with
  | registered hentry => exact hr.lt_next _ hentry

namespace Cells

/-- The cells hold what belongs there, each object at an address of its own. -/
structure Sound (c : Cells) (r : Registry) : Prop where
  known : ∀ number kept, c.kept (.registered number) = some kept → number < r.next
  grammar : ∀ id kept made, c.kept id = some kept → r.Compiles id made →
    kept.map Object.grammar = made
  taken : ∀ id object, c.kept id = some (.ok object) → object.address < c.free
  apart : ∀ id id' object object', c.kept id = some (.ok object) →
    c.kept id' = some (.ok object') → object.address = object'.address → id = id'

theorem Sound.follows (hc : c.Sound r) (h : r.Follows r') : c.Sound r' where
  known number kept hkept := Nat.lt_of_lt_of_le (hc.known number kept hkept) h.next_le
  grammar id kept made hkept hmade := by
    cases hmade with
    | @registered entry hentry =>
      rw [h.scoring]
      have hold := h.mem entry hentry (hc.known _ _ hkept)
      exact hc.grammar _ _ _ hkept (.registered hold)
    | substitute =>
      rw [h.scoring]
      exact hc.grammar _ _ _ hkept .substitute
  taken := hc.taken
  apart := hc.apart

/-- A cell that is asked for holds what belongs there from then on. -/
structure Fills (c : Cells) (r : Registry) (id : GrammarId)
    (made : Except GrammarError CompiledGrammar) (object : Except GrammarError Object)
    (c' : Cells) : Prop where
  grammar : object.map Object.grammar = made
  kept : c'.kept id = some object
  grows : c.Extends c'
  sound : c'.Sound r

theorem Sound.get (hc : c.Sound r) (hr : r.Numbered) (hmade : r.Compiles id made) :
    c.Fills r id made (c.get id made).1 (c.get id made).2 := by
  unfold Cells.get
  cases hkept : c.kept id with
  | some kept => exact ⟨hc.grammar id kept made hkept hmade, hkept, .refl c, hc⟩
  | none =>
    have hgrammar : (made.map (Object.mk c.free)).map Object.grammar = made := by
      cases made <;> rfl
    have hfree {object : Object} (h : made.map (Object.mk c.free) = .ok object) :
        object.address = c.free := by
      cases made <;> cases h
      rfl
    -- What is in a cell is what has been made, or has been there before.
    have hcell {id' : GrammarId} {kept : Except GrammarError Object}
        (h : (if id' = id then some (made.map (Object.mk c.free)) else c.kept id') = some kept) :
        id' = id ∧ made.map (Object.mk c.free) = kept ∨ c.kept id' = some kept := by
      split at h
      · exact .inl ⟨‹_›, Option.some.inj h⟩
      · exact .inr h
    refine ⟨hgrammar, if_pos rfl, fun id' kept h ↦ ?_, ?_, ?_, ?_, ?_⟩
    · have hne : id' ≠ id := by
        rintro rfl
        cases hkept.symm.trans h
      exact (if_neg hne).trans h
    · intro number kept h
      obtain ⟨rfl, -⟩ | h := hcell h
      · exact hmade.lt_next hr
      · exact hc.known number kept h
    · intro id' kept made' h hmade'
      obtain ⟨rfl, rfl⟩ | h := hcell h
      · exact hgrammar.trans (hmade.unique hr hmade')
      · exact hc.grammar id' kept made' h hmade'
    · intro id' object h
      obtain ⟨-, h⟩ | h := hcell h
      · exact Nat.lt_succ_of_le (Nat.le_of_eq (hfree h))
      · exact Nat.lt_succ_of_lt (hc.taken id' object h)
    · intro id₁ id₂ object₁ object₂ h₁ h₂ haddress
      obtain ⟨hid₁, hnew₁⟩ | hold₁ := hcell h₁ <;> obtain ⟨hid₂, hnew₂⟩ | hold₂ := hcell h₂
      · exact hid₁.trans hid₂.symm
      · have hlt := hc.taken id₂ object₂ hold₂
        rw [← haddress, hfree hnew₁] at hlt
        exact absurd hlt (Nat.lt_irrefl _)
      · have hlt := hc.taken id₁ object₁ hold₁
        rw [haddress, hfree hnew₂] at hlt
        exact absurd hlt (Nat.lt_irrefl _)
      · exact hc.apart id₁ id₂ object₁ object₂ hold₁ hold₂ haddress

theorem Fills.exists_object {grammar : CompiledGrammar} {object : Except GrammarError Object}
    (h : c.Fills r id (.ok grammar) object c') :
    ∃ o, object = .ok o ∧ o.grammar = grammar := by
  have hgrammar := h.grammar
  cases object with
  | error cause => cases hgrammar
  | ok o => exact ⟨o, rfl, Except.ok.inj hgrammar⟩

theorem Fills.eq_error {cause : GrammarError} {object : Except GrammarError Object}
    (h : c.Fills r id (.error cause) object c') : object = .error cause := by
  have hgrammar := h.grammar
  cases object with
  | error cause' =>
    cases hgrammar
    rfl
  | ok o => cases hgrammar

/-- How a name is answered: as it is loaded, with the object in the cell of the grammar. -/
structure Answers (c : Cells) (r : Registry) (name : String)
    (answer : Except HighlightError Object) (c' : Cells) : Prop where
  error : ∀ err, r.load name = .error err → answer = .error err
  ok : ∀ loaded, r.load name = .ok loaded → ∃ object, answer = .ok object ∧
    object.grammar = loaded.grammar ∧ c'.kept loaded.id = some (.ok object)
  grows : c.Extends c'
  sound : c'.Sound r

theorem Answers.of_error {name : String} {err : HighlightError} (hload : r.load name = .error err)
    (hgrows : c.Extends c') (hsound : c'.Sound r) : c.Answers r name (.error err) c' where
  error err' h := by
    cases hload.symm.trans h
    rfl
  ok loaded h := by cases hload.symm.trans h
  grows := hgrows
  sound := hsound

theorem Answers.of_ok {name : String} {loaded : LoadedGrammar} {object : Object}
    (hload : r.load name = .ok loaded) (hgrammar : object.grammar = loaded.grammar)
    (hkept : c'.kept loaded.id = some (.ok object)) (hgrows : c.Extends c')
    (hsound : c'.Sound r) : c.Answers r name (.ok object) c' where
  error err h := by cases hload.symm.trans h
  ok loaded' h := by
    cases hload.symm.trans h
    exact ⟨object, rfl, hgrammar, hkept⟩
  grows := hgrows
  sound := hsound

theorem Sound.compiled (hc : c.Sound r) (hr : r.Built) (name : String) :
    c.Answers r name (c.compiled r name).1 (c.compiled r name).2 := by
  unfold Cells.compiled
  cases hfind : r.find? name with
  | none =>
    have hload : r.load name = .error (.unknownLanguage name) :=
      load_of_not_isKnown (by rw [isKnown, hfind]; rfl)
    exact .of_error hload (.refl c) hc
  | some registration =>
    obtain ⟨key, hkey⟩ := mem_of_find? hfind
    have hown := hc.get hr.numbered (.registered hkey)
    dsimp only at hown ⊢
    generalize c.get (.registered registration.number) _ = filled at hown ⊢
    obtain ⟨kept, c₁⟩ := filled
    cases hcompile : registration.grammar.compile r.scoring with
    | ok grammar =>
      rw [hcompile] at hown
      have hload := hr.compiled.load_of_compiles hfind hcompile
      obtain ⟨object, rfl, hgrammar⟩ := hown.exists_object
      exact .of_ok hload hgrammar hown.kept hown.grows hown.sound
    | error cause =>
      rw [hcompile] at hown
      cases hown.eq_error
      cases hsafe : r.safeMode with
      | false =>
        have hload := hr.compiled.load_of_broken_strict hfind hcompile hsafe
        exact .of_error hload hown.grows hown.sound
      | true =>
        obtain ⟨plain, hplain⟩ := Grammar.plaintext_compiles r.scoring
        have hload := hr.compiled.load_of_broken hfind hcompile hsafe hplain
        have hother := hown.sound.get hr.numbered .substitute
        rw [hplain] at hother
        dsimp only
        rw [hplain, if_pos rfl]
        generalize c₁.get .substitute _ = filled at hother ⊢
        obtain ⟨kept, c₂⟩ := filled
        obtain ⟨object, rfl, hgrammar⟩ := hother.exists_object
        exact .of_ok hload hgrammar hother.kept (hown.grows.trans hother.grows) hother.sound

end Cells

/-- What may be done to a registry, or asked of it. -/
inductive Operation where
  | change (c : Change)
  | compiled (name : String)

/-- Whether an operation puts something else under a name, or nothing. -/
def Operation.Replaces (safeMode : Bool) (key : String) : Operation → Prop
  | .change c => c.Replaces safeMode key
  | .compiled _ => False

/-- A registry with the cells of its compiled grammars. -/
structure Store where
  registry : Registry
  cells : Cells := {}

namespace Store

variable {s s' : Store} {safeMode : Bool} {scoring : KeywordScoring} {ops : List Operation}

/-- What is answered when the compiled grammar for a name is asked for. -/
def answer (s : Store) (name : String) : Except HighlightError Object :=
  (s.cells.compiled s.registry name).1

def perform (s : Store) : Operation → Store
  | .change c => { s with registry := s.registry.after c }
  | .compiled name => { s with cells := (s.cells.compiled s.registry name).2 }

def performAll (s : Store) (ops : List Operation) : Store := ops.foldl perform s

def ofHistory (safeMode : Bool) (scoring : KeywordScoring) (ops : List Operation) : Store :=
  performAll { registry := { safeMode, scoring } } ops

theorem ofHistory_append (before after : List Operation) :
    ofHistory safeMode scoring (before ++ after) =
      (ofHistory safeMode scoring before).performAll after := List.foldl_append

structure Sound (s : Store) : Prop where
  built : s.registry.Built
  cells : s.cells.Sound s.registry

/-- A store that has come about from another one. -/
structure Follows (s s' : Store) : Prop where
  registry : s.registry.Follows s'.registry
  cells : s.cells.Extends s'.cells

theorem Sound.perform (hs : s.Sound) (op : Operation) :
    (s.perform op).Sound ∧ s.Follows (s.perform op) := by
  cases op with
  | change c =>
    have hfollows := follows_after s.registry c
    exact ⟨⟨hs.built.after c, hs.cells.follows hfollows⟩, hfollows, .refl _⟩
  | compiled name =>
    have hanswers := hs.cells.compiled hs.built name
    exact ⟨⟨hs.built, hanswers.sound⟩, .refl _, hanswers.grows⟩

theorem Sound.performAll (hs : s.Sound) (ops : List Operation) :
    (s.performAll ops).Sound ∧ s.Follows (s.performAll ops) := by
  induction ops generalizing s with
  | nil => exact ⟨hs, .refl _, .refl _⟩
  | cons op ops ih =>
    obtain ⟨hsound, hfirst⟩ := hs.perform op
    obtain ⟨hsound, hothers⟩ := ih hsound
    exact ⟨hsound, hfirst.registry.trans hothers.registry, hfirst.cells.trans hothers.cells⟩

theorem ofHistory_sound (safeMode : Bool) (scoring : KeywordScoring) (ops : List Operation) :
    (ofHistory safeMode scoring ops).Sound ∧
      (ofHistory safeMode scoring ops).registry.safeMode = safeMode ∧
      (ofHistory safeMode scoring ops).registry.scoring = scoring := by
  have hempty : Sound { registry := { safeMode, scoring } } :=
    ⟨.empty safeMode scoring, nofun, nofun, nofun, nofun⟩
  obtain ⟨hsound, hfollows⟩ := hempty.performAll ops
  exact ⟨hsound, hfollows.registry.safeMode, hfollows.registry.scoring⟩

/-- A history goes on from each state that it comes to. -/
theorem follows_ofHistory (safeMode : Bool) (scoring : KeywordScoring)
    (before after : List Operation) :
    (ofHistory safeMode scoring before).Follows (ofHistory safeMode scoring (before ++ after)) := by
  rw [ofHistory_append]
  exact ((ofHistory_sound safeMode scoring before).1.performAll after).2

theorem perform_follows_ofHistory (safeMode : Bool) (scoring : KeywordScoring)
    (before : List Operation) (op : Operation) (after : List Operation) :
    ((ofHistory safeMode scoring before).perform op).Follows
      (ofHistory safeMode scoring (before ++ op :: after)) := by
  have hperform : (ofHistory safeMode scoring before).perform op =
      ofHistory safeMode scoring (before ++ [op]) := (ofHistory_append before [op]).symm
  rw [hperform, List.append_cons before op after]
  exact follows_ofHistory safeMode scoring (before ++ [op]) after

theorem get?_performAll {key : String}
    (h : ∀ op ∈ ops, ¬ op.Replaces s.registry.safeMode key) :
    (s.performAll ops).registry.languages.get? key = s.registry.languages.get? key := by
  induction ops generalizing s with
  | nil => rfl
  | cons op ops ih =>
    have hop := h op List.mem_cons_self
    have hops (op' : Operation) (hop' : op' ∈ ops) := h op' (List.mem_cons_of_mem op hop')
    cases op with
    | change c =>
      have hsafe : (s.perform (.change c)).registry.safeMode = s.registry.safeMode :=
        (follows_after s.registry c).safeMode
      exact (ih (hsafe ▸ hops)).trans (get?_after hop)
    | compiled name => exact ih hops

theorem find?_of_registered {r : Registry} {name other : String}
    {made : Except GrammarError Grammar} (hr : s.registry.register name made = .ok r)
    (hops : ∀ op ∈ ops, ¬ op.Replaces s.registry.safeMode (lowercase name))
    (hother : lowercase other = lowercase name) :
    ∃ grammar registration, s.registry.Made made grammar ∧
      registration.number = s.registry.next ∧ registration.grammar = named name grammar ∧
      ((s.perform (.change (.register name made))).performAll ops).registry.find? other =
        some registration := by
  obtain ⟨grammar, registration, hmade, hnumber, hgrammar, hlanguages, -, hsafe, -⟩ :=
    register_eq_ok hr
  have hafter : (s.perform (.change (.register name made))).registry = r := after_of_ok hr
  refine ⟨grammar, registration, hmade, hnumber, hgrammar, ?_⟩
  rw [← hsafe, ← hafter] at hops
  rw [find?, hother]
  refine resolve?_of_language ((get?_performAll hops).trans ?_)
  rw [hafter, hlanguages]
  exact Dictionary.get?_insert ..

/-! Each grammar that is kept stands for an object, and others for objects still to be made. -/

def spareAddress : GrammarId → Nat
  | .substitute => 0
  | .registered number => number + 1

def object (s : Store) (id : GrammarId) : Object :=
  match s.cells.kept id with
  | some (.ok object) => object
  | _ => ⟨s.cells.free + spareAddress id, default⟩

theorem object_of_kept {id : GrammarId} {o : Object} (h : s.cells.kept id = some (.ok o)) :
    s.object id = o := by
  rw [object, h]

theorem Sound.object_injective (hs : s.Sound) : Function.Injective s.object := by
  have hobject (id : GrammarId) : s.cells.kept id = some (.ok (s.object id)) ∨
      (s.object id).address = s.cells.free + spareAddress id := by
    unfold object
    split
    · exact .inl ‹_›
    · exact .inr rfl
  have hspare (id id' : GrammarId) (h : spareAddress id = spareAddress id') : id = id' := by
    cases id <;> cases id' <;> simp_all [spareAddress]
  intro id id' heq
  have haddress := congrArg Object.address heq
  obtain h | h := hobject id <;> obtain h' | h' := hobject id'
  · exact hs.cells.apart id id' _ _ h h' haddress
  · have hlt := hs.cells.taken id _ h
    omega
  · have hlt := hs.cells.taken id' _ h'
    omega
  · exact hspare id id' (by omega)

theorem Sound.answer_eq (hs : s.Sound) (name : String) {s' : Store}
    (hfollows : (s.perform (.compiled name)).Follows s') :
    s.answer name = (fun loaded ↦ s'.object loaded.id) <$> s.registry.load name ∧
      ∀ loaded, s.registry.load name = .ok loaded →
        (s'.object loaded.id).grammar = loaded.grammar := by
  have hanswers := hs.cells.compiled hs.built name
  cases hload : s.registry.load name with
  | error err => exact ⟨hanswers.error err hload, nofun⟩
  | ok loaded =>
    obtain ⟨o, ho, hgrammar, hkept⟩ := hanswers.ok loaded hload
    have hobject := object_of_kept (hfollows.cells _ _ hkept)
    refine ⟨ho.trans (congrArg Except.ok hobject.symm), fun loaded' h ↦ ?_⟩
    cases h
    rw [hobject, hgrammar]

/-- Through any history of registering languages and aliases, removing languages and asking for
compiled grammars:

* A number stands for one registration under one name.
* When a language is removed, no name stands for it and no alias for its name, and all else stands
  for what it did.
* What is registered under a name is what the name stands for, however it is spelled, until
  something else is registered under it or it is removed; and it has a number of its own.
* There is one object for each compiled grammar, by which every call for it is answered: the one of
  the registration that the name stands for, whichever name that is; if that does not compile, the
  one plain text in safe mode, and the reason otherwise. -/
theorem registrations_keep_objects (safeMode : Bool) (scoring : KeywordScoring)
    (ops : List Operation) :
    let s := ofHistory safeMode scoring ops
    (∀ before after, ops = before ++ after →
      ∀ entry ∈ (ofHistory safeMode scoring before).registry.languages.entries,
        ∀ entry' ∈ s.registry.languages.entries,
          entry.2.number = entry'.2.number → entry = entry') ∧
    (∀ name, s.registry.Removes name (s.perform (.change (.unregister name))).registry) ∧
    (∀ name made r, s.registry.register name made = .ok r → ∀ later other,
      (∀ op ∈ later, ¬ op.Replaces safeMode (lowercase name)) → lowercase other = lowercase name →
        ∃ grammar registration, s.registry.Made made grammar ∧
          ((s.perform (.change (.register name made))).performAll later).registry.find? other =
            some registration ∧
          registration.grammar = named name grammar ∧
          ∀ before after, ops = before ++ after →
            ∀ entry ∈ (ofHistory safeMode scoring before).registry.languages.entries,
              entry.2.number ≠ registration.number) ∧
    ∃ object : GrammarId → Object, Function.Injective object ∧
      ∀ before name after, ops = before ++ .compiled name :: after →
        let t := ofHistory safeMode scoring before
        t.answer name = (fun loaded ↦ object loaded.id) <$> t.registry.load name ∧
        ∀ registration, t.registry.find? name = some registration →
          (∀ grammar, registration.grammar.compile scoring = .ok grammar →
            t.answer name = .ok (object (.registered registration.number)) ∧
              (object (.registered registration.number)).grammar = grammar) ∧
          ∀ cause, registration.grammar.compile scoring = .error cause →
            (safeMode = true → t.answer name = .ok (object .substitute) ∧
              Grammar.plaintext.compile scoring = .ok (object .substitute).grammar) ∧
            (safeMode = false → t.answer name = .error (.grammar name cause)) := by
  intro s
  obtain ⟨hs, hsafe, -⟩ := ofHistory_sound safeMode scoring ops
  refine ⟨?_, removes_unregister hs.built.numbered, fun name made r hr later other hlater hother ↦
    ?_, s.object, hs.object_injective, ?_⟩
  · rintro before after rfl entry hentry entry' hentry' hnumber
    have hbefore := (ofHistory_sound safeMode scoring before).1
    have hfollows := (follows_ofHistory safeMode scoring before after).registry
    exact hfollows.eq_of_number hbefore.built.numbered hentry hentry' hnumber
  · obtain ⟨grammar, registration, hmade, hnumber, hgrammar, hfound⟩ :=
      find?_of_registered hr (hsafe.symm ▸ hlater) hother
    refine ⟨grammar, registration, hmade, hfound, hgrammar, ?_⟩
    rintro before after rfl entry hentry
    have hbefore := (ofHistory_sound safeMode scoring before).1
    have hlt := hbefore.built.numbered.lt_next entry hentry
    have hle : (ofHistory safeMode scoring before).registry.next ≤ s.registry.next :=
      (follows_ofHistory safeMode scoring before after).registry.next_le
    omega
  · rintro before name after rfl t
    obtain ⟨ht, htsafe, htscoring⟩ := ofHistory_sound safeMode scoring before
    obtain ⟨hanswer, hgrammars⟩ :=
      ht.answer_eq name (perform_follows_ofHistory safeMode scoring before _ after)
    refine ⟨hanswer, fun registration hfind ↦ ⟨fun grammar hcompile ↦ ?_, fun cause hcompile ↦
      ⟨fun hlenient ↦ ?_, fun hstrict ↦ ?_⟩⟩⟩
    · have hload := ht.built.compiled.load_of_compiles hfind (htscoring.symm ▸ hcompile)
      exact ⟨hanswer.trans (by rw [hload]; rfl), hgrammars _ hload⟩
    · obtain ⟨plain, hplain⟩ := Grammar.plaintext_compiles scoring
      have hload := ht.built.compiled.load_of_broken hfind (htscoring.symm ▸ hcompile)
        (htsafe.trans hlenient) (htscoring.symm ▸ hplain)
      exact ⟨hanswer.trans (by rw [hload]; rfl), hplain.trans (congrArg _ (hgrammars _ hload).symm)⟩
    · have hload := ht.built.compiled.load_of_broken_strict hfind (htscoring.symm ▸ hcompile)
        (htsafe.trans hstrict)
      exact hanswer.trans (by rw [hload]; rfl)

theorem nickname_shares_object :
    let registered := [Operation.change (.register "mini" (.ok nicknamed))]
    let aliased := registered ++ [.compiled "Mini", .change (.registerAliases ["Tiny"] "MINI")]
    let s := ofHistory true default (aliased ++ [.compiled "TINY"])
    (∃ object, nicknamed.compile default = .ok object.grammar ∧
      (ofHistory true default registered).answer "Mini" = .ok object ∧
      (ofHistory true default aliased).answer "TINY" = .ok object) ∧
    (∀ found, (s.perform (.change (.unregister "MINI"))).registry.find? "TINY" = some found →
      found.number ≠ 0) ∧
    ∃ found, (s.perform (.change (.register "mini" (.ok .plaintext)))).registry.find? "MINI" =
        some found ∧ found.grammar = named "mini" .plaintext ∧ found.number ≠ 0 := by
  intro registered aliased s
  have hcompile := eq_ok_of_isOk (x := nicknamed.compile default) (by cbv) default
  let registration : Registration := ⟨0, nicknamed, Thunk.mk fun _ ↦ nicknamed.compile default⟩
  have hfirst : (ofHistory true default registered).registry.find? "Mini" = some registration := by
    cbv
  have hlast : (ofHistory true default aliased).registry.find? "TINY" = some registration := by
    cbv
  have hown : s.registry.languages.get? (lowercase "MINI") = some registration := by cbv
  have hlower : lowercase "MINI" = lowercase "mini" := by cbv
  obtain ⟨-, hremoves, hregisters, object, -, hanswers⟩ :=
    registrations_keep_objects true default (aliased ++ [.compiled "TINY"])
  have hanswer := ((hanswers registered "Mini" _ rfl).2 registration hfirst).1 _ hcompile
  have hanswer' := ((hanswers aliased "TINY" [] rfl).2 registration hlast).1 _ hcompile
  refine ⟨⟨_, hanswer.2.symm ▸ hcompile, hanswer.1, hanswer'.1⟩, ?_, ?_⟩
  · exact (hremoves "MINI").gone registration hown "TINY"
  · obtain ⟨grammar, found, hmade, hfound, hgrammar, hnumber⟩ :=
      hregisters "mini" (.ok .plaintext) _ rfl [] "MINI" (List.forall_mem_nil _) hlower
    obtain rfl : grammar = .plaintext := by
      obtain h | ⟨-, ⟨_, h⟩, -⟩ := hmade <;> cases h
      rfl
    refine ⟨found, hfound, hgrammar, ?_⟩
    exact Ne.symm (hnumber _ [] (List.append_nil _).symm _ (Dictionary.mem_of_get? hown))

end Store

end SyntaxHighlight.Registry
