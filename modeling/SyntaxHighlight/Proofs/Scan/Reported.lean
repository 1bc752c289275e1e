import SyntaxHighlight.Proofs.Regex.Onward
import SyntaxHighlight.Proofs.Rule.Resumable
import SyntaxHighlight.Proofs.Scan.Written

/-! What a search of the rules of a mode reports, given what is to be expected of the engine. -/
namespace SyntaxHighlight

namespace Rule

variable {text : Text} {start : Nat}

theorem Alternation.winner?_eq_some {spans : List (Option Span)} {position : Nat}
    {wrappers : List Nat} {hit : Hit} (h : Alternation.winner? spans position wrappers = some hit) :
    ∃ wrapper ∈ wrappers, ∃ stop, spans[wrapper]?.join = some (hit.index, stop) ∧
      hit.groups.head?.join = some (hit.index, stop) := by
  induction wrappers generalizing position with
  | nil => cases h
  | cons wrapper wrappers ih =>
    rw [Alternation.winner?] at h
    split at h
    · rename_i first stop hspan
      cases h
      exact ⟨wrapper, List.mem_cons_self, stop, hspan, by rw [List.head?_drop]; exact hspan⟩
    · obtain ⟨wrapper, hmem, hspan⟩ := ih h
      exact ⟨wrapper, List.mem_cons_of_mem _ hmem, hspan⟩

theorem Resumable.searchTail_mem {r : Resumable} {k : Nat} {hit : Hit}
    (h : r.searchTail k text start = .ok (some hit)) :
    ∃ alternation, .ok alternation ∈ r.tails.toList.map Thunk.get ∧
      alternation.search? text start = some hit := by
  unfold searchTail at h
  split at h
  · rename_i tail htail
    obtain ⟨alternation, hget, h⟩ := bind_eq_ok.1 h
    refine ⟨alternation, ?_, Except.ok.inj h⟩
    rw [← hget]
    exact List.mem_map_of_mem (Array.mem_toList_iff.2 (Array.mem_of_getElem? htail))
  · cases h

theorem Resumable.searchTail_head {r : Resumable} {k : Nat} {hit : Hit}
    (h : r.searchTail k text start = .ok (some hit)) :
    ∃ stop, hit.groups.head?.join = some (hit.index, stop) := by
  obtain ⟨alternation, -, hsearch⟩ := searchTail_mem h
  obtain ⟨expr, -, hsearch⟩ := Option.bind_eq_some_iff.1 hsearch
  obtain ⟨spans, -, hwinner⟩ := Option.bind_eq_some_iff.1 hsearch
  obtain ⟨wrapper, -, stop, -, hhead⟩ := Alternation.winner?_eq_some hwinner
  exact ⟨stop, hhead⟩

/-- Whether an alternation does not look back. -/
def Alternation.looksOnward (a : Alternation) : Bool :=
  a.expr.all (Regex.Expr.keepsTo · true false) && a.wrappers.all (0 < ·)

theorem Alternation.search?_range {a : Alternation} (ha : a.looksOnward) {hit : Hit} {stop : Nat}
    (h : a.search? text start = some hit) (hhead : hit.groups.head?.join = some (hit.index, stop)) :
    start ≤ hit.index ∧ hit.index ≤ stop ∧ stop ≤ text.size := by
  obtain ⟨expr, hexpr, h⟩ := Option.bind_eq_some_iff.1 h
  obtain ⟨spans, hspans, hwinner⟩ := Option.bind_eq_some_iff.1 h
  obtain ⟨wrapper, hmem, stop', hspan, hhead'⟩ := winner?_eq_some hwinner
  cases hhead.symm.trans hhead'
  obtain ⟨hkeeps, hwrappers⟩ := (Bool.and_eq_true _ _).mp ha
  rw [hexpr] at hkeeps
  have hpos : 0 < wrapper := by simpa using List.all_eq_true.1 hwrappers wrapper hmem
  exact Regex.Expr.captures?_range hkeeps hpos hspans hspan

end Rule

namespace CompiledGrammar

/-- What is to be expected of the engine, for the patterns of a grammar. -/
structure Searchable (cg : CompiledGrammar) : Prop where
  /-- What a rule spans lies within the text, at or after the place where the search started. -/
  ranges : ∀ i k text start hit stop,
    (cg.mode i).matcher.searchTail k text start = .ok (some hit) →
    hit.groups.head?.join = some (hit.index, stop) →
    start ≤ hit.index ∧ hit.index ≤ stop ∧ stop ≤ text.size
  words : cg.WordsInOrder
  /-- The parts of a begin cover it. -/
  beginParts : ∀ i k text start hit stop id parts,
    (cg.mode i).matcher.searchTail k text start = .ok (some hit) →
    hit.groups.head?.join = some (hit.index, stop) →
    (cg.mode i).matcher.rules[k + hit.position]?.map Rule.kind = some (.begins id) →
    (cg.mode id).beginTagging = some (.parts parts) → Tiles hit.groups parts hit.index stop
  /-- The parts of an end cover it, if nothing else may end the mode. -/
  endParts : ∀ i k text start hit stop parts,
    (cg.mode i).matcher.searchTail k text start = .ok (some hit) →
    hit.groups.head?.join = some (hit.index, stop) →
    (cg.mode i).matcher.rules[k + hit.position]?.map Rule.kind = some .ends →
    (cg.mode i).endsWithParent = false → (cg.mode i).endTagging = some (.parts parts) →
    Tiles hit.groups parts hit.index stop

/-- What a rule spans lies within the text, at or after the place where the search started. -/
def Ranged (cg : CompiledGrammar) : Prop :=
  ∀ i k text start hit stop, (cg.mode i).matcher.searchTail k text start = .ok (some hit) →
    hit.groups.head?.join = some (hit.index, stop) →
    start ≤ hit.index ∧ hit.index ≤ stop ∧ stop ≤ text.size

/-- Whether no rule of a mode looks back, and its words are found without resetting a match. -/
def looksOnward (cg : CompiledGrammar) : Bool :=
  cg.modes.toList.all fun m ↦
    m.keywordPattern.all (Regex.Expr.keepsTo · false true) &&
      (m.matcher.tails.toList.map Thunk.get).all fun tail ↦
        match tail with
        | .ok alternation => alternation.looksOnward
        | .error _ => true

section

variable {cg : CompiledGrammar} (h : cg.looksOnward)
include h

theorem looksOnward_mode (i : Nat) :
    (cg.mode i).keywordPattern.all (Regex.Expr.keepsTo · false true) ∧
      ∀ alternation, .ok alternation ∈ (cg.mode i).matcher.tails.toList.map Thunk.get →
        alternation.looksOnward := by
  rw [CompiledGrammar.mode]
  cases hi : cg.modes[i]? with
  | none => exact ⟨rfl, nofun⟩
  | some m =>
    have hm := List.all_eq_true.1 h m (Array.mem_toList_iff.2 (Array.mem_of_getElem? hi))
    obtain ⟨hwords, htails⟩ := (Bool.and_eq_true _ _).mp hm
    exact ⟨hwords, fun alternation hmem ↦ List.all_eq_true.1 htails _ hmem⟩

/-- The engine keeps to what is expected of it wherever a grammar does not look back. -/
theorem ranged_of_looksOnward : cg.Ranged := by
  intro i k text start hit stop hhit hhead
  obtain ⟨alternation, hmem, hsearch⟩ := Rule.Resumable.searchTail_mem hhit
  exact Rule.Alternation.search?_range ((looksOnward_mode h i).2 alternation hmem) hsearch hhead

theorem wordsInOrder_of_looksOnward : cg.WordsInOrder := by
  intro i pattern text hpattern
  have hwords := (looksOnward_mode h i).1
  rw [hpattern] at hwords
  exact Regex.Expr.findAll_inOrder hwords text

end

end CompiledGrammar

/-- A match that spans a stretch of the text, at or after a place and up to a position. -/
structure Rule.Match.Within (m : Rule.Match) (text : Text) (start stop : Nat) : Prop where
  span : m.span? = some (m.index, stop)
  start_le : start ≤ m.index
  index_le : m.index ≤ stop
  stop_le : stop ≤ text.size

namespace Rule.Match.Within

variable {m : Rule.Match} {text : Text} {start stop : Nat} (h : m.Within text start stop)
include h

theorem lexeme_eq : m.lexeme text = text.slice m.index stop := by
  rw [lexeme, h.span]

theorem lexeme_length : (m.lexeme text).length = stop - m.index := by
  rw [h.lexeme_eq, text.length_slice h.stop_le]

end Rule.Match.Within

theorem CompiledGrammar.Ranged.within {cg : CompiledGrammar} (hcg : cg.Ranged)
    {i first start : Nat} {text : Text} {m : Rule.Match} {following : Nat}
    (h : (cg.mode i).matcher.next first text start = .ok (some (m, following))) :
    ∃ stop, m.Within text start stop := by
  obtain ⟨k, start', hit, hstart, hhit, rfl, -⟩ := Rule.Resumable.next_eq_some h
  obtain ⟨stop, hhead⟩ := Rule.Resumable.searchTail_head hhit
  obtain ⟨hindex, hstop, hsize⟩ := hcg _ _ _ _ _ _ hhit hhead
  exact ⟨stop, hhead, Nat.le_trans hstart hindex, hstop, hsize⟩

/-- A match in a mode that spans a stretch of the text up to a position. -/
structure Rule.Match.Reported (cg : CompiledGrammar) (i : Nat) (text : Text) (start : Nat)
    (m : Rule.Match) (stop : Nat) : Prop where
  start_le : start ≤ m.index
  index_le : m.index ≤ stop
  stop_le : stop ≤ text.size
  lexeme : m.lexeme text = text.slice m.index stop
  begins : ∀ id parts, m.kind = .begins id → (cg.mode id).beginTagging = some (.parts parts) →
    Tiles m.groups parts m.index stop
  ends : ∀ parts, m.kind = .ends → (cg.mode i).endsWithParent = false →
    (cg.mode i).endTagging = some (.parts parts) → Tiles m.groups parts m.index stop

namespace CompiledGrammar

theorem Searchable.reported {cg : CompiledGrammar} (hcg : cg.Searchable) {i first start : Nat}
    {text : Text} {m : Rule.Match} {following : Nat}
    (h : (cg.mode i).matcher.next first text start = .ok (some (m, following))) :
    ∃ stop, m.Reported cg i text start stop := by
  obtain ⟨k, start', hit, hstart, hhit, rfl, -⟩ := Rule.Resumable.next_eq_some h
  obtain ⟨stop, hhead⟩ := Rule.Resumable.searchTail_head hhit
  obtain ⟨hindex, hstop, hsize⟩ := hcg.ranges _ _ _ _ _ _ hhit hhead
  have hkind {kind : Rule.Kind} (hne : kind ≠ .illegal)
      (hk : ((cg.mode i).matcher.rules[k + hit.position]?.map Rule.kind).getD .illegal = kind) :
      (cg.mode i).matcher.rules[k + hit.position]?.map Rule.kind = some kind := by
    cases hrule : (cg.mode i).matcher.rules[k + hit.position]?.map Rule.kind with
    | none =>
      rw [hrule] at hk
      exact absurd hk.symm hne
    | some other =>
      rw [hrule] at hk
      exact congrArg some hk
  exact ⟨stop,
    { start_le := Nat.le_trans hstart hindex
      index_le := hstop
      stop_le := hsize
      lexeme := by simp only [Rule.Match.lexeme, Rule.Match.span?, hhead]
      begins := fun id parts hk ↦
        hcg.beginParts _ _ _ _ _ _ _ _ hhit hhead (hkind nofun hk)
      ends := fun parts hk ↦ hcg.endParts _ _ _ _ _ _ _ hhit hhead (hkind nofun hk) }⟩

end CompiledGrammar

end SyntaxHighlight
