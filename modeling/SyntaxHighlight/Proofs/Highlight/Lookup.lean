import Mathlib
import SyntaxHighlight.Proofs.Highlight.History

/-!
What names stand for after changes to a registry. A name is looked up among the languages first and
then among the aliases, and what an alias stands for is not looked up there again. Registrations are
told apart by their numbers, and no number is given twice.
-/
namespace SyntaxHighlight.Registry

open Unicode

variable {r r' : Registry} {name language other key : String} {names : List String}
  {registration registration' : Registration}

theorem resolve?_of_language (h : r.languages.get? key = some registration) :
    r.resolve? key = some registration := by
  rw [resolve?, h]

theorem resolve?_of_no_language (h : r.languages.get? key = none) :
    r.resolve? key = (r.aliases.get? key).bind r.languages.get? := by
  rw [resolve?, h]

theorem resolve?_eq_some (h : r.resolve? key = some registration) :
    r.languages.get? key = some registration ∨
      r.languages.get? key = none ∧ ∃ canonical, r.aliases.get? key = some canonical ∧
        r.languages.get? canonical = some registration := by
  cases hlanguage : r.languages.get? key with
  | some found =>
    rw [resolve?_of_language hlanguage] at h
    exact .inl h
  | none =>
    rw [resolve?_of_no_language hlanguage] at h
    exact .inr ⟨rfl, Option.bind_eq_some_iff.1 h⟩

/-! New aliases. -/

theorem find?_registerAliases (hnew : ∀ name ∈ names, lowercase name ∉ r.names) (other : String) :
    (r.registerAliases names language).find? other =
      if lowercase other ∈ names.map lowercase then r.languages.get? (lowercase language)
      else r.find? other := by
  have halias : (r.registerAliases names language).aliases.get? (lowercase other) =
      if lowercase other ∈ names.map lowercase then some (lowercase language)
      else r.aliases.get? (lowercase other) := Dictionary.get?_foldl_insert ..
  by_cases hmem : lowercase other ∈ names.map lowercase
  · obtain ⟨name, hname, heq⟩ := List.mem_map.1 hmem
    have hlanguage : (r.registerAliases names language).languages.get? (lowercase other) = none :=
      Dictionary.get?_eq_none_iff.2 (heq ▸ hnew name hname)
    rw [find?, resolve?_of_no_language hlanguage, halias, if_pos hmem, if_pos hmem]
    rfl
  · rw [if_neg hmem] at halias ⊢
    simp only [find?, resolve?, halias]
    rfl

/-- Where no new alias is the name of a language, the new aliases stand for the language they were
given for if that was called by its own name, and for nothing if it was called by an alias. What all
other names stand for does not change. -/
theorem new_aliases_resolve (hlanguage : r.find? language = some registration)
    (hnew : ∀ name ∈ names, lowercase name ∉ r.names) :
    (∀ other, lowercase other ∈ names.map lowercase →
      (r.registerAliases names language).find? other =
        if lowercase language ∈ r.names then some registration else none) ∧
    ∀ other, lowercase other ∉ names.map lowercase →
      (r.registerAliases names language).find? other = r.find? other := by
  refine ⟨fun other hmem ↦ ?_, fun other hmem ↦ ?_⟩
  · rw [find?_registerAliases hnew, if_pos hmem]
    obtain hcanonical | ⟨hnone, -⟩ := resolve?_eq_some hlanguage
    · have hname : lowercase language ∈ r.names :=
        List.mem_map.2 ⟨_, Dictionary.mem_of_get? hcanonical, rfl⟩
      rw [if_pos hname, hcanonical]
    · have hname : lowercase language ∉ r.names := Dictionary.get?_eq_none_iff.1 hnone
      rw [if_neg hname, hnone]
  · rw [find?_registerAliases hnew, if_neg hmem]

def nicknamed : Grammar where
  name := "Mini"
  aliases := ["mn"]

theorem alias_of_alias_unresolved : ∃ r registration,
    register { safeMode := true, scoring := default } "mini" (.ok nicknamed) = .ok r ∧
      r.find? "MN" = some registration ∧ r.find? "Mini" = some registration ∧
      (r.registerAliases ["Tiny"] "Mini").find? "TINY" = some registration ∧
      (r.registerAliases ["Tiny"] "MN").find? "TINY" = none := by
  refine ⟨_, ⟨0, nicknamed, Thunk.mk fun _ ↦ nicknamed.compile default⟩, rfl, ?_⟩
  generalize hr : Registry.mk .. = r
  have hnames : r.names = ["mini"] := by
    rw [← hr]
    cbv
  have hfound : r.find? "MN" = some ⟨0, nicknamed, Thunk.mk fun _ ↦ nicknamed.compile default⟩ ∧
      r.find? "Mini" = some ⟨0, nicknamed, Thunk.mk fun _ ↦ nicknamed.compile default⟩ := by
    rw [← hr]
    constructor <;> cbv
  have hlower : ["MN", "Mini", "Tiny", "TINY"].map lowercase =
      ["mn", "mini", "tiny", "tiny"] := by
    cbv
  simp only [List.map_cons, List.map_nil, List.cons.injEq] at hlower
  obtain ⟨halias, hname, htiny, hother, -⟩ := hlower
  have hnew : ∀ name ∈ ["Tiny"], lowercase name ∉ r.names := by
    simp [hnames, htiny]
  have hmem : lowercase "TINY" ∈ ["Tiny"].map lowercase := by
    simp [htiny, hother]
  refine ⟨hfound.1, hfound.2, ?_, ?_⟩
  · rw [(new_aliases_resolve hfound.2 hnew).1 "TINY" hmem, if_pos (by simp [hname, hnames])]
  · rw [(new_aliases_resolve hfound.1 hnew).1 "TINY" hmem, if_neg (by simp [halias, hnames])]

/-! Registering, and what comes after it. -/

/-- A grammar that goes by the name it is registered under if it has none of its own. -/
def named (name : String) (grammar : Grammar) : Grammar :=
  if grammar.name.isEmpty then { grammar with name } else grammar

/-- The grammar that is registered: the one that was made, or plain text in safe mode. -/
def Made (r : Registry) (made : Except GrammarError Grammar) (grammar : Grammar) : Prop :=
  made = .ok grammar ∨ r.safeMode = true ∧ (∃ cause, made = .error cause) ∧ grammar = .plaintext

theorem register_eq_ok {made : Except GrammarError Grammar} (h : r.register name made = .ok r') :
    ∃ grammar registration, r.Made made grammar ∧ registration.number = r.next ∧
      registration.grammar = named name grammar ∧
      r'.languages = r.languages.insert (lowercase name) registration ∧ r'.next = r.next + 1 ∧
      r'.safeMode = r.safeMode ∧ r'.scoring = r.scoring := by
  unfold register at h
  cases made with
  | ok grammar =>
    cases h
    exact ⟨grammar, _, .inl rfl, rfl, rfl, rfl, rfl, rfl, rfl⟩
  | error cause =>
    dsimp only at h
    split at h
    · rename_i hsafe
      cases h
      exact ⟨.plaintext, _, .inr ⟨hsafe, ⟨cause, rfl⟩, rfl⟩, rfl, rfl, rfl, rfl, rfl, rfl⟩
    · cases h

/-- The registry after a change. A registration that fails leaves it as it is. -/
def after (r : Registry) (c : Change) : Registry := (r.change c).toOption.getD r

theorem after_of_ok {c : Change} (h : r.change c = .ok r') : r.after c = r' := by
  rw [after, h]
  rfl

theorem after_of_error {c : Change} {cause : GrammarError} (h : r.change c = .error cause) :
    r.after c = r := by
  rw [after, h]
  rfl

theorem Built.after (hr : r.Built) (c : Change) : (r.after c).Built := by
  cases h : r.change c with
  | ok r' => exact after_of_ok h ▸ hr.change h
  | error cause => exact (after_of_error h).symm ▸ hr

/-- Whether a change puts something else under a name, or nothing. -/
def Change.Replaces (safeMode : Bool) (key : String) : Change → Prop
  | .register name made => lowercase name = key ∧ (made.isOk = true ∨ safeMode = true)
  | .unregister name => lowercase name = key
  | .registerAliases _ _ => False

theorem get?_after {c : Change} (h : ¬ c.Replaces r.safeMode key) :
    (r.after c).languages.get? key = r.languages.get? key := by
  cases c with
  | register name made =>
    cases hr : r.change (.register name made) with
    | error cause => rw [after_of_error hr]
    | ok r' =>
      obtain ⟨grammar, _, hmade, -, -, hlanguages, -⟩ := register_eq_ok hr
      rw [after_of_ok hr, hlanguages]
      refine Dictionary.get?_insert_of_ne _ (fun hkey ↦ h ⟨hkey.symm, ?_⟩) _
      obtain rfl | ⟨hsafe, -⟩ := hmade
      · exact .inl rfl
      · exact .inr hsafe
  | unregister name => exact Dictionary.get?_erase_of_ne _ fun hkey ↦ h hkey.symm
  | registerAliases names language => rfl

/-! Numbers of registrations. -/

/-- No two registrations have one number, and the next one gets a new number. -/
structure Numbered (r : Registry) : Prop where
  lt_next : ∀ entry ∈ r.languages.entries, entry.2.number < r.next
  unique : ∀ entry ∈ r.languages.entries, ∀ entry' ∈ r.languages.entries,
    entry.2.number = entry'.2.number → entry = entry'

theorem Numbered.register {made : Except GrammarError Grammar} (hr : r.Numbered)
    (h : r.register name made = .ok r') : r'.Numbered := by
  obtain ⟨_, registration, -, hnumber, -, hlanguages, hnext, -, -⟩ := register_eq_ok h
  have hentry {entry : String × Registration} (hentry : entry ∈ r'.languages.entries) :
      entry = (lowercase name, registration) ∨
        entry ∈ r.languages.entries ∧ entry.2.number < r.next := by
    rw [hlanguages] at hentry
    exact (Dictionary.mem_insert hentry).imp_right fun h ↦ ⟨h, hr.lt_next entry h⟩
  refine ⟨fun entry h ↦ ?_, fun entry h entry' h' hnumbers ↦ ?_⟩
  · obtain rfl | ⟨-, hlt⟩ := hentry h
    · dsimp only
      omega
    · omega
  · obtain rfl | ⟨hold, hlt⟩ := hentry h <;> obtain rfl | ⟨hold', hlt'⟩ := hentry h'
    · rfl
    · dsimp only at hnumbers
      omega
    · dsimp only at hnumbers
      omega
    · exact hr.unique entry hold entry' hold' hnumbers

theorem Built.numbered (h : r.Built) : r.Numbered := by
  induction h with
  | empty safeMode scoring => exact ⟨by simp [Dictionary.empty], by simp [Dictionary.empty]⟩
  | register _ hregister ih => exact ih.register hregister
  | unregister name _ ih =>
    refine ⟨fun entry h ↦ ih.lt_next entry (Dictionary.mem_erase h), fun entry h entry' h' ↦ ?_⟩
    exact ih.unique entry (Dictionary.mem_erase h) entry' (Dictionary.mem_erase h')
  | registerAliases names language _ ih => exact ⟨ih.lt_next, ih.unique⟩

/-- A registry that has come about by changes to another one. What has an old number is old. -/
structure Follows (r r' : Registry) : Prop where
  safeMode : r'.safeMode = r.safeMode
  scoring : r'.scoring = r.scoring
  next_le : r.next ≤ r'.next
  mem : ∀ entry ∈ r'.languages.entries, entry.2.number < r.next → entry ∈ r.languages.entries

theorem Follows.refl (r : Registry) : r.Follows r := ⟨rfl, rfl, Nat.le_refl _, fun _ h _ ↦ h⟩

theorem Follows.trans {r'' : Registry} (h : r.Follows r') (h' : r'.Follows r'') :
    r.Follows r'' where
  safeMode := h'.safeMode.trans h.safeMode
  scoring := h'.scoring.trans h.scoring
  next_le := Nat.le_trans h.next_le h'.next_le
  mem entry hentry hlt := h.mem entry (h'.mem entry hentry (Nat.lt_of_lt_of_le hlt h.next_le)) hlt

theorem follows_after (r : Registry) (c : Change) : r.Follows (r.after c) := by
  cases c with
  | register name made =>
    cases hr : r.change (.register name made) with
    | error cause =>
      rw [after_of_error hr]
      exact .refl r
    | ok r' =>
      obtain ⟨_, registration, -, hnumber, -, hlanguages, hnext, hsafe, hscoring⟩ :=
        register_eq_ok hr
      rw [after_of_ok hr]
      refine ⟨hsafe, hscoring, by omega, fun entry hentry hlt ↦ ?_⟩
      rw [hlanguages] at hentry
      obtain rfl | hold := Dictionary.mem_insert hentry
      · exact absurd hnumber (Nat.ne_of_lt hlt)
      · exact hold
  | unregister name => exact ⟨rfl, rfl, Nat.le_refl _, fun entry h _ ↦ Dictionary.mem_erase h⟩
  | registerAliases names language => exact ⟨rfl, rfl, Nat.le_refl _, fun _ h _ ↦ h⟩

/-- An old number still stands for the same registration, under the same name. -/
theorem Follows.eq_of_number (h : r.Follows r') (hr : r.Numbered)
    {entry entry' : String × Registration} (hentry : entry ∈ r.languages.entries)
    (hentry' : entry' ∈ r'.languages.entries) (hnumber : entry.2.number = entry'.2.number) :
    entry = entry' :=
  hr.unique entry hentry entry'
    (h.mem entry' hentry' (hnumber ▸ hr.lt_next entry hentry)) hnumber

/-! Removing a language. -/

/-- What is left of a registry when the language of a name has been removed. -/
structure Removes (r : Registry) (name : String) (r' : Registry) : Prop where
  gone : ∀ registration, r.languages.get? (lowercase name) = some registration →
    ∀ other found, r'.find? other = some found → found.number ≠ registration.number
  aliases : ∀ entry ∈ r'.aliases.entries, entry.2 ≠ lowercase name
  /-- What stood for another language still does. -/
  kept : ∀ other found, r.find? other = some found →
    (∀ registration, r.languages.get? (lowercase name) = some registration →
      found.number ≠ registration.number) → r'.find? other = some found

theorem removes_unregister (hr : r.Numbered) (name : String) :
    r.Removes name (r.unregister name) where
  gone registration hlanguage other found hfound hnumber := by
    obtain ⟨key, hkey⟩ := mem_of_find? hfound
    have hentry := hr.unique _ (Dictionary.mem_erase hkey) _ (Dictionary.mem_of_get? hlanguage)
      hnumber
    cases hentry
    exact of_decide_eq_true (List.mem_filter.1 hkey).2 rfl
  aliases entry hentry := of_decide_eq_true (List.mem_filter.1 hentry).2
  kept other found hfound hother := by
    have hkept {key : String} (h : r.languages.get? key = some found) :
        key ≠ lowercase name ∧ (r.unregister name).languages.get? key = some found := by
      have hkey : key ≠ lowercase name := by
        rintro rfl
        exact hother found h rfl
      exact ⟨hkey, (Dictionary.get?_erase_of_ne _ hkey).trans h⟩
    obtain hlanguage | ⟨hnone, canonical, halias, hlanguage⟩ := resolve?_eq_some hfound
    · exact resolve?_of_language (hkept hlanguage).2
    · obtain ⟨hcanonical, hlanguage⟩ := hkept hlanguage
      have hnone' : (r.unregister name).languages.get? (lowercase other) = none := by
        refine Dictionary.get?_eq_none_iff.2 fun hmem ↦ ?_
        exact Dictionary.get?_eq_none_iff.1 hnone
          ((List.Sublist.map Prod.fst List.filter_sublist).subset hmem)
      have halias' : (r.unregister name).aliases.get? (lowercase other) = some canonical :=
        Dictionary.get?_filter halias (decide_eq_true hcanonical)
      rw [find?, resolve?_of_no_language hnone', halias']
      exact hlanguage

end SyntaxHighlight.Registry
