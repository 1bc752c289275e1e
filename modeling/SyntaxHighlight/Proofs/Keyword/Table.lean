import Mathlib
import SyntaxHighlight.Keyword.Table
import SyntaxHighlight.Proofs.Dictionary

/-!
What a keyword table says of a word is what the declaration says last. What a declaration says is
told without the readers of fields and numbers that make the table.
-/
namespace SyntaxHighlight

open Unicode

namespace Text

theorem fields_eq (separator : Char) (cs : List Char) :
    fields separator cs = match cs.dropWhile (· ≠ separator) with
      | [] => [cs]
      | _ :: rest => cs.takeWhile (· ≠ separator) :: fields separator rest := by
  induction cs with
  | nil => rfl
  | cons c cs ih =>
    by_cases hc : c = separator
    · simp [fields, hc]
    · rw [fields, if_neg hc, ih]
      simp only [List.dropWhile_cons, List.takeWhile_cons, ne_eq, hc, not_false_eq_true,
        decide_true, if_true]
      cases cs.dropWhile (· ≠ separator) <;> rfl

theorem head?_fields (separator : Char) (cs : List Char) :
    (fields separator cs).head? = some (cs.takeWhile (· ≠ separator)) := by
  have hall := List.takeWhile_append_dropWhile (p := (· ≠ separator)) (l := cs)
  rw [fields_eq]
  cases hdrop : cs.dropWhile (· ≠ separator) with
  | nil =>
    rw [hdrop, List.append_nil] at hall
    rw [hall]
    rfl
  | cons c rest => rfl

theorem wordsAfter_eq (word cs : List Char) :
    wordsAfter word cs =
      ((cs.splitOnP isSpace).modifyHead (word.reverse ++ ·)).filter (· ≠ []) := by
  have hhead (parts : List (List Char)) : parts.modifyHead (fun part ↦ part) = parts :=
    congrFun List.modifyHead_id parts
  induction cs generalizing word with
  | nil => cases word <;> simp [wordsAfter]
  | cons c cs ih =>
    rw [wordsAfter, List.splitOnP_cons_eq_if_modifyHead]
    split
    · cases word <;> simp [ih, hhead]
    · simp [ih, Function.comp_def]

theorem words_eq (s : String) :
    words s = ((s.toList.splitOnP isSpace).filter (· ≠ [])).map String.ofList := by
  rw [words, wordsAfter_eq]
  congr 2
  exact congrFun List.modifyHead_id _

end Text

namespace Dictionary

variable {α : Type}

theorem lt_of_mem_dropWhile {entries : List (String × α)} {name : String}
    (h : entries.Pairwise (·.1 < ·.1)) (hne : ∀ e ∈ entries, e.1 ≠ name) {e : String × α}
    (he : e ∈ entries.dropWhile (·.1 < name)) : name < e.1 := by
  induction entries with
  | nil => simp at he
  | cons first entries ih =>
    rw [List.pairwise_cons] at h
    rw [List.forall_mem_cons] at hne
    by_cases hfirst : first.1 < name
    · rw [List.dropWhile_cons_of_pos (by simpa using hfirst)] at he
      exact ih h.2 hne.2 he
    · have hlt : name < first.1 := lt_of_le_of_ne (not_lt.1 hfirst) hne.1.symm
      rw [List.dropWhile_cons_of_neg (by simpa using hfirst)] at he
      rcases List.mem_cons.1 he with rfl | he
      · exact hlt
      · exact hlt.trans (h.1 e he)

theorem pairwise_insert {d : Dictionary α} (h : d.names.Pairwise (· < ·)) (name : String)
    (value : α) : (d.insert name value).names.Pairwise (· < ·) := by
  have hothers : (d.entries.filter (·.1 ≠ name)).Pairwise (·.1 < ·.1) :=
    (List.pairwise_map.1 h).filter _
  have hne : ∀ e ∈ d.entries.filter (·.1 ≠ name), e.1 ≠ name := by
    intro e he
    simpa using (List.mem_filter.1 he).2
  rw [names, insert, List.pairwise_map, List.pairwise_append, List.pairwise_cons]
  refine ⟨hothers.sublist (List.takeWhile_sublist _),
    ⟨fun e he ↦ lt_of_mem_dropWhile hothers hne he,
      hothers.sublist (List.dropWhile_sublist _)⟩, ?_⟩
  intro a ha b hb
  have hlt : a.1 < name := by simpa using List.mem_takeWhile_imp ha
  rcases List.mem_cons.1 hb with rfl | hb
  · exact hlt
  · exact hlt.trans (lt_of_mem_dropWhile hothers hne hb)

theorem filter_insert (d : Dictionary α) (name : String) (value : α) :
    (d.insert name value).entries.filter (·.1 ≠ name) = d.entries.filter (·.1 ≠ name) := by
  simp only [insert, List.filter_append]
  rw [List.filter_cons_of_neg (by simp), ← List.filter_append, List.takeWhile_append_dropWhile,
    List.filter_filter]
  simp only [Bool.and_self]

theorem pairwise_ofList (entries : List (String × α)) :
    (ofList entries).names.Pairwise (· < ·) := by
  have hfold (d : Dictionary α) (h : d.names.Pairwise (· < ·)) :
      (entries.foldl (fun d e ↦ d.insert e.1 e.2) d).names.Pairwise (· < ·) := by
    induction entries generalizing d with
    | nil => exact h
    | cons e entries ih => exact ih _ (pairwise_insert h e.1 e.2)
  exact hfold empty .nil

end Dictionary

namespace Keywords

/-- The pattern is none of the words, whatever it is. -/
theorem words_withPattern (keywords : Keywords) (pattern : String) :
    (keywords.withPattern pattern).words = keywords.words := by
  simp only [withPattern, words, Dictionary.filter_insert]
  rcases keywords with list | groups
  · simp [entries, defaultScope, patternName]
  · rfl

/-- The scopes of a listing come in the order of their names, and the pattern is no scope. -/
theorem words_scoped (groups : List (String × WordList)) :
    ((Keywords.scoped (.ofList groups)).words.map Prod.fst).Pairwise (· ≤ ·) ∧
      patternName ∉ (Keywords.scoped (.ofList groups)).words.map Prod.fst := by
  have hnames : ((Dictionary.ofList groups).entries.filter (·.1 ≠ patternName)).Pairwise
      (·.1 < ·.1) := (List.pairwise_map.1 (Dictionary.pairwise_ofList groups)).filter _
  constructor
  · rw [List.pairwise_map, words, List.pairwise_flatMap]
    refine ⟨fun group _ ↦ ?_, hnames.imp fun {group later} hlt x hx y hy ↦ ?_⟩
    · rw [List.pairwise_map]
      exact List.pairwise_of_forall fun _ _ ↦ le_refl group.1
    · obtain ⟨_, -, rfl⟩ := List.mem_map.1 hx
      obtain ⟨_, -, rfl⟩ := List.mem_map.1 hy
      exact hlt.le
  · intro hmem
    obtain ⟨e, he, hscope⟩ := List.mem_map.1 hmem
    obtain ⟨group, hgroup, he⟩ := List.mem_flatMap.1 he
    obtain ⟨_, -, rfl⟩ := List.mem_map.1 he
    have hne : group.1 ≠ patternName := by simpa using (List.mem_filter.1 hgroup).2
    exact hne hscope

end Keywords

/-- What stands in an entry before its first bar. -/
def entryWord (entry : String) : String := String.ofList (entry.toList.takeWhile (· ≠ '\x7c'))

/-- What stands in an entry between its first bar and the next, if it has a bar. -/
def entryWeight (entry : String) : Option String :=
  match entry.toList.dropWhile (· ≠ '\x7c') with
  | [] => none
  | _ :: rest => some (String.ofList (rest.takeWhile (· ≠ '\x7c')))

/-- Digits, perhaps with a plus sign ahead of them, of a number of 32 bits. -/
def ReadsAs (text : String) (n : Nat) : Prop :=
  ∃ digits, (text.toList = digits ∨ text.toList = '+' :: digits) ∧ digits ≠ [] ∧
    (∀ c ∈ digits, isAsciiDigit c = true) ∧ numeralValue 10 digits = n ∧ n < 2 ^ 32

/-- The weight of an entry, as given with the word or else by how common the word is. -/
inductive Weighs (scoring : KeywordScoring) (entry : String) : Nat → Prop
  | given {text : String} {n : Nat} : entryWeight entry = some text → ReadsAs text n →
      Weighs scoring entry n
  | common : (∀ text, entryWeight entry = some text → ∀ n, ¬ ReadsAs text n) →
      lowercase (entryWord entry) ∈ scoring.common → Weighs scoring entry 0
  | rare : (∀ text, entryWeight entry = some text → ∀ n, ¬ ReadsAs text n) →
      lowercase (entryWord entry) ∉ scoring.common → Weighs scoring entry 1

theorem natural?_eq_some {text : String} {n : Nat} :
    natural? greatest32 text.toList = some n ↔ ReadsAs text n := by
  have hread (digits : List Char) :
      (if digits.isEmpty || !digits.all isAsciiDigit || decide (greatest32 < numeralValue 10 digits)
        then none else some (numeralValue 10 digits)) = some n ↔
        digits ≠ [] ∧ (∀ c ∈ digits, isAsciiDigit c = true) ∧
          numeralValue 10 digits = n ∧ n < 2 ^ 32 := by
    have hbound : (2 : Nat) ^ 32 = greatest32 + 1 := rfl
    rw [Option.ite_none_left_eq_some, hbound]
    simp only [Bool.or_eq_true, List.isEmpty_iff, Bool.not_eq_true', List.all_eq_false,
      decide_eq_true_eq, Option.some.injEq, not_or, not_exists, not_and, not_not]
    constructor
    · rintro ⟨⟨⟨hne, hdigits⟩, hle⟩, rfl⟩
      exact ⟨hne, hdigits, rfl, by omega⟩
    · rintro ⟨hne, hdigits, rfl, hlt⟩
      exact ⟨⟨⟨hne, hdigits⟩, by omega⟩, rfl⟩
  unfold natural? ReadsAs
  dsimp only
  split
  · rename_i rest htext
    rw [hread, htext]
    constructor
    · intro h
      exact ⟨rest, .inr rfl, h⟩
    · rintro ⟨digits, rfl | hdigits, h⟩
      · exact absurd (h.2.1 '+' List.mem_cons_self) (by decide)
      · cases hdigits
        exact h
  · rename_i hsign
    rw [hread]
    constructor
    · intro h
      exact ⟨text.toList, .inl rfl, h⟩
    · rintro ⟨digits, rfl | hdigits, h⟩
      · exact h
      · exact absurd hdigits (hsign digits)

namespace KeywordTable

variable {scoring : KeywordScoring} {table : KeywordTable} {entry word : String} {n : Nat}

theorem parseEntry_eq (entry : String) : parseEntry entry = (entryWord entry, entryWeight entry) := by
  have hhead := Text.head?_fields '\x7c' entry.toList
  rw [parseEntry, entryWord, entryWeight]
  rw [Text.fields_eq] at hhead ⊢
  cases hdrop : entry.toList.dropWhile (· ≠ '\x7c') with
  | nil =>
    rw [hdrop] at hhead
    rw [← Option.some.inj hhead]
    rfl
  | cons c rest =>
    dsimp only
    rw [Text.head?_fields]
    rfl

theorem weighs_iff :
    Weighs scoring entry n ↔ n = scoring.score (entryWord entry) (entryWeight entry) := by
  cases hgiven : (entryWeight entry).bind fun text ↦ natural? greatest32 text.toList with
  | some m =>
    obtain ⟨text, hweight, hread⟩ := Option.bind_eq_some_iff.1 hgiven
    have hscore : scoring.score (entryWord entry) (entryWeight entry) = m := by
      rw [KeywordScoring.score, hgiven]
    rw [hscore]
    constructor
    · intro h
      cases h with
      | given hweight' hread' =>
        rw [hweight, Option.some.injEq] at hweight'
        subst hweight'
        exact Option.some.inj ((natural?_eq_some.2 hread').symm.trans hread)
      | common hnone | rare hnone => exact absurd (natural?_eq_some.1 hread) (hnone text hweight m)
    · rintro rfl
      exact .given hweight (natural?_eq_some.1 hread)
  | none =>
    have hnone : ∀ text, entryWeight entry = some text → ∀ n, ¬ ReadsAs text n := by
      intro text hweight n hread
      rw [hweight, Option.bind_some, natural?_eq_some.2 hread] at hgiven
      cases hgiven
    have hscore : scoring.score (entryWord entry) (entryWeight entry) =
        if scoring.common.contains (lowercase (entryWord entry)) then 0 else 1 := by
      rw [KeywordScoring.score, hgiven]
    rw [hscore]
    constructor
    · intro h
      cases h with
      | given hweight hread => exact absurd hread (hnone _ hweight n)
      | common _ hcommon => simp [hcommon]
      | rare _ hrare => simp [hrare]
    · rintro rfl
      split
      · rename_i hcommon
        exact .common hnone (List.contains_iff_mem.1 hcommon)
      · rename_i hrare
        exact .rare hnone fun hmem ↦ hrare (List.contains_iff_mem.2 hmem)

/-- A word is found by an entry that has it before its first bar. -/
def Names (entry word : String) : Prop := entryWord entry = word ∧ word ≠ ""

instance (entry word : String) : Decidable (Names entry word) :=
  inferInstanceAs (Decidable (_ ∧ _))

theorem enter_caseInsensitive (scope entry : String) :
    (table.enter scoring scope entry).caseInsensitive = table.caseInsensitive := by
  simp only [enter]
  split <;> rfl

/-- An entry is found by its word from then on; other words are found as before. -/
theorem lookup?_enter (scope entry word : String) :
    (table.enter scoring scope entry).lookup? word =
      if Names (table.folded entry) (table.folded word) then
        some ⟨scope, scoring.score (entryWord (table.folded entry))
          (entryWeight (table.folded entry))⟩
      else table.lookup? word := by
  have hfolded : (table.enter scoring scope entry).folded word = table.folded word := by
    simp only [folded, enter_caseInsensitive]
  rw [lookup?, hfolded, enter, parseEntry_eq]
  dsimp only
  by_cases hempty : entryWord (table.folded entry) = ""
  · have hnot : ¬ Names (table.folded entry) (table.folded word) := by
      rintro ⟨hword, hne⟩
      exact hne (hword.symm.trans hempty)
    rw [if_neg hnot, if_pos (by simp [hempty])]
    rfl
  · rw [if_neg (by simpa using hempty)]
    by_cases hword : entryWord (table.folded entry) = table.folded word
    · rw [if_pos ⟨hword, hword ▸ hempty⟩, hword]
      exact List.lookup_cons_self
    · rw [if_neg fun h ↦ hword h.1, List.lookup_cons, beq_false_of_ne (Ne.symm hword)]
      exact Dictionary.get?_erase_of_ne ⟨table.words⟩ (Ne.symm hword)

/-- Of several entries for a word the last counts. -/
theorem lookup?_foldl (entries : List (String × String)) (table : KeywordTable) (word : String) :
    let entered := entries.foldl (fun table e ↦ table.enter scoring e.1 e.2) table
    entered.caseInsensitive = table.caseInsensitive ∧
      entered.lookup? word =
        ((entries.reverse.find? fun e ↦ Names (table.folded e.2) (table.folded word)).map fun e ↦
          ⟨e.1, scoring.score (entryWord (table.folded e.2)) (entryWeight (table.folded e.2))⟩).or
          (table.lookup? word) := by
  induction entries generalizing table with
  | nil => exact ⟨rfl, rfl⟩
  | cons e entries ih =>
    obtain ⟨hcase, hlookup⟩ := ih (table.enter scoring e.1 e.2)
    have hfolded (s : String) : (table.enter scoring e.1 e.2).folded s = table.folded s := by
      simp only [folded, enter_caseInsensitive]
    refine ⟨hcase.trans (enter_caseInsensitive _ _), ?_⟩
    simp only [hfolded, lookup?_enter] at hlookup
    rw [List.foldl_cons, hlookup, List.reverse_cons, List.find?_append]
    cases entries.reverse.find? fun e ↦ Names (table.folded e.2) (table.folded word) with
    | some later => rfl
    | none => by_cases hnames : Names (table.folded e.2) (table.folded word) <;> simp [hnames]

theorem find?_reverse_eq_some {α : Type} {p : α → Prop} [DecidablePred p] {xs : List α} {x : α} :
    xs.reverse.find? (fun y ↦ p y) = some x ↔
      ∃ before after, xs = before ++ x :: after ∧ p x ∧ ∀ later ∈ after, ¬ p later := by
  simp only [List.find?_eq_some_iff_append, decide_eq_true_eq, Bool.not_eq_true',
    decide_eq_false_iff_not]
  constructor
  · rintro ⟨hx, after, before, hxs, hafter⟩
    refine ⟨before.reverse, after.reverse, ?_, hx, ?_⟩
    · rw [← List.reverse_reverse xs, hxs]
      simp
    · intro later hlater
      exact hafter later (List.mem_reverse.1 hlater)
  · rintro ⟨before, after, rfl, hx, hafter⟩
    refine ⟨hx, after.reverse, before.reverse, by simp, ?_⟩
    intro later hlater
    exact hafter later (List.mem_reverse.1 hlater)

theorem ofKeywords_congr {keywords keywords' : Keywords} (h : keywords.words = keywords'.words)
    (scoring : KeywordScoring) (caseInsensitive : Bool) :
    ofKeywords scoring keywords caseInsensitive = ofKeywords scoring keywords' caseInsensitive := by
  rw [ofKeywords, ofKeywords, h]

section OfKeywords

variable (keywords : Keywords) (caseInsensitive : Bool)

theorem lookup?_ofKeywords (word : String) :
    let fold := fun s ↦ if caseInsensitive then lowercase s else s
    (ofKeywords scoring keywords caseInsensitive).lookup? word =
      (keywords.words.reverse.find? fun e ↦ Names (fold e.2) (fold word)).map fun e ↦
        ⟨e.1, scoring.score (entryWord (fold e.2)) (entryWeight (fold e.2))⟩ :=
  (lookup?_foldl keywords.words ⟨[], caseInsensitive⟩ word).2.trans (Option.or_none ..)

/-- What is found is what the last entry for the word says. -/
theorem lookup?_eq_some (word : String) (found : Keyword) :
    let fold := fun s ↦ if caseInsensitive then lowercase s else s
    (ofKeywords scoring keywords caseInsensitive).lookup? word = some found ↔
      ∃ before entry after, keywords.words = before ++ (found.scope, entry) :: after ∧
        Names (fold entry) (fold word) ∧ Weighs scoring (fold entry) found.relevance ∧
        ∀ later ∈ after, ¬ Names (fold later.2) (fold word) := by
  intro fold
  rw [lookup?_ofKeywords, Option.map_eq_some_iff]
  constructor
  · rintro ⟨e, he, rfl⟩
    obtain ⟨before, after, hwords, hnames, hafter⟩ := find?_reverse_eq_some.1 he
    exact ⟨before, e.2, after, hwords, hnames, weighs_iff.2 rfl, hafter⟩
  · rintro ⟨before, entry, after, hwords, hnames, hweighs, hafter⟩
    refine ⟨(found.scope, entry), find?_reverse_eq_some.2 ⟨before, after, hwords, hnames, hafter⟩, ?_⟩
    rw [← weighs_iff.1 hweighs]

end OfKeywords

end KeywordTable

end SyntaxHighlight
