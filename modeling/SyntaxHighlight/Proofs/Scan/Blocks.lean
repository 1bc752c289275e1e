import SyntaxHighlight.Proofs.Dictionary
import SyntaxHighlight.Proofs.Scan.Root
import SyntaxHighlight.Proofs.Scan.Turn
import SyntaxHighlight.Proofs.Tree.Events

/-!
The blocks of a scan: the texts that it hands to a language by name, one after another. What a
language goes on from is what its last block has left, and only blocks leave anything.
-/
namespace SyntaxHighlight

/-- A text that is handed to a language, with what the language is to go on from. -/
structure Block where
  name : String
  text : String
  resumes : Option Continuation
deriving DecidableEq, Repr

namespace Block

variable (e : ScanSetting)

/-- What the language leaves behind, if it is known and has come to the end of the text. -/
def left? (b : Block) : Option Continuation :=
  if e.languages.isKnown b.name then
    (e.languages.highlight b.name b.text b.resumes).toOption.bind HighlightResult.continuation
  else none

/-- Keeps what a block leaves behind under the name of its language. -/
def remember (d : Dictionary Continuation) (b : Block) : Dictionary Continuation :=
  match b.left? e with
  | some c => d.insert b.name c
  | none => d

/-- What the last of some blocks in a language that left anything has left. -/
def lastLeft? (bs : List Block) (name : String) : Option Continuation :=
  bs.reverse.findSome? fun b ↦ if b.name = name then b.left? e else none

theorem get?_remember (d : Dictionary Continuation) (b : Block) (name : String) :
    (b.remember e d).get? name =
      ((if b.name = name then b.left? e else none) <|> d.get? name) := by
  unfold remember
  cases b.left? e with
  | none => simp
  | some c =>
    by_cases hname : b.name = name
    · rw [if_pos hname, ← hname]
      exact Dictionary.get?_insert d b.name c
    · rw [if_neg hname]
      exact Dictionary.get?_insert_of_ne d (Ne.symm hname) c

theorem get?_foldl_remember (bs : List Block) (d : Dictionary Continuation) (name : String) :
    (bs.foldl (fun d b ↦ b.remember e d) d).get? name = (lastLeft? e bs name <|> d.get? name) := by
  induction bs generalizing d with
  | nil => rfl
  | cons b bs ih =>
    rw [List.foldl_cons, ih, get?_remember]
    simp [lastLeft?, List.findSome?_append, Option.or_assoc]

end Block

namespace ScanState

section

variable (e : ScanSetting) (s : ScanState)

/-- The block that emptying the buffer hands over, if the innermost mode embeds a language by name
and there is any text. -/
def flushBlocks : List Block :=
  match (s.topMode e).subLanguage with
  | some (.fixed name) =>
    if s.buffer.isEmpty then [] else [⟨name, s.buffer, s.continuations.get? name⟩]
  | _ => []

def beginBlocks (id : Nat) (m : Rule.Match) : List Block :=
  let mode := e.grammar.mode id
  if mode.skip then []
  else (if mode.excludeBegin then s.keep (m.lexeme e.text) else s).flushBlocks e

/-- The block before an end, with the text of the end or without it. -/
def endBlocks (m : Rule.Match) : List Block :=
  let mode := s.topMode e
  match mode.endTagging with
  | some _ => s.flushBlocks e
  | none =>
    if mode.skip then []
    else (if mode.returnEnd || mode.excludeEnd then s else s.keep (m.lexeme e.text)).flushBlocks e

def matchBlocks (m : Rule.Match) : List Block :=
  match m.kind with
  | .begins id => if (askBegin e id m).1 then [] else s.beginBlocks e id m
  | .ends =>
    match closedBy e m s.stack with
    | (_, none) => []
    | (stack, some _) => { s with stack }.endBlocks e m
  | .illegal => []

def turnBlocks : List Block :=
  match (s.topMode e).matcher.next s.firstRule e.text s.position with
  | .ok (some (m, _)) =>
    if isRunaway e { s with iterations := s.iterations + 1 } m.index || (s.stalled? e m).isSome then
      []
    else (s.facing e m).matchBlocks e m
  | _ => []

/-- The blocks of several turns, and the one of the text that is left when no rule matches any more.
A scan that is stopped has handed over the blocks before that. -/
def turnsBlocks : Nat → ScanState → List Block
  | 0, _ => []
  | fuel + 1, s =>
    s.turnBlocks e ++ match s.turn e with
      | .ok (some s') => turnsBlocks fuel s'
      | .ok none => (s.keep (e.text.rest s.position)).flushBlocks e
      | .error _ => []

end

end ScanState

/-- The blocks of a scan that goes on from where an earlier one has stopped. -/
def ScanSetting.blocks (e : ScanSetting) (c : Option Continuation) : List Block :=
  match e.grammar.emitTokens with
  | some _ => []
  | none => ScanState.turnsBlocks e (ScanState.maxTurns e) (e.start c)

/-- The part of a state that blocks change. -/
structure Trail where
  tree : TreeBuilder
  continuations : Dictionary Continuation

def ScanState.trail (s : ScanState) : Trail := ⟨s.tree, s.continuations⟩

/-- Some blocks lead from one trail to another: the tree has only grown, and what has been left of
each language is what the blocks have left. -/
structure Embeds (e : ScanSetting) (x : Trail) (bs : List Block) (y : Trail) : Prop where
  tree : x.tree.events <+: y.tree.events
  continuations : y.continuations = bs.foldl (fun d b ↦ b.remember e d) x.continuations

variable {e : ScanSetting}

namespace Embeds

variable {x y z : Trail} {bs bs' : List Block}

theorem refl (x : Trail) : Embeds e x [] x := ⟨List.prefix_rfl, rfl⟩

theorem trans (h : Embeds e x bs y) (h' : Embeds e y bs' z) : Embeds e x (bs ++ bs') z :=
  ⟨h.tree.trans h'.tree, by rw [h'.continuations, h.continuations, List.foldl_append]⟩

theorem then_none (h : Embeds e x bs y) (h' : Embeds e y [] z) : Embeds e x bs z := by
  simpa using h.trans h'

end Embeds

namespace ScanState

variable {s s' : ScanState} {m : Rule.Match}

/-! Text that is added, with nothing handed over. -/

section

variable (e s)

theorem embeds_addText (text : String) : Embeds e s.trail [] (s.addText text).trail :=
  ⟨s.tree.prefix_addText text, rfl⟩

theorem embeds_addScoped (scope text : String) :
    Embeds e s.trail [] (s.addScoped e scope text).trail :=
  ⟨s.tree.prefix_addScoped _ text, rfl⟩

theorem embeds_addKeyword (plain word : String) (keyword : Keyword) :
    Embeds e s.trail [] (s.addKeyword e plain word keyword).1.trail := by
  have hplain := embeds_addText e s plain
  unfold addKeyword
  dsimp only
  split
  · exact hplain
  · exact hplain.then_none (embeds_addScoped e ((s.addText plain).hit e word keyword) _ _)

theorem embeds_addWords (table : KeywordTable) (text : Text) (last : Nat) (plain : String)
    (spans : List Span) : Embeds e s.trail [] (addWords e table text last plain spans s).trail := by
  induction spans generalizing s last plain with
  | nil => exact embeds_addText e s _
  | cons span spans ih =>
    obtain ⟨start, stop⟩ := span
    simp only [addWords]
    split
    · exact ih ..
    · exact (embeds_addKeyword e s ..).then_none (ih ..)

theorem embeds_addKeywords (text : String) :
    Embeds e s.trail [] (s.addKeywords e text).trail := by
  unfold addKeywords
  dsimp only
  split
  · exact embeds_addWords e s ..
  · exact embeds_addText e s _

theorem embeds_addParts (groups : List (Option Span)) (parts : List (Nat × Option String)) :
    Embeds e s.trail [] (addParts e groups parts s).trail := by
  induction parts generalizing s with
  | nil => exact .refl _
  | cons part parts ih =>
    obtain ⟨group, scope⟩ := part
    simp only [addParts]
    split
    · exact ih _
    · split
      · exact (embeds_addScoped e s ..).then_none (ih _)
      · exact (embeds_addKeywords e s _).then_none (ih _)

theorem trail_stepOver (position : Nat) : (s.stepOver e position).trail = s.trail := by
  unfold stepOver
  dsimp only
  split <;> rfl

theorem trail_pass (m : Rule.Match) : (s.pass e m).trail = s.trail := by
  unfold pass
  dsimp only
  split
  · exact trail_stepOver e s _
  · rfl

theorem embeds_openMode (id : Nat) (groups : List (Option Span)) (notes : Scratch) :
    Embeds e s.trail [] (s.openMode e id groups notes).trail := by
  unfold openMode
  dsimp only
  cases (e.grammar.mode id).scope with
  | none =>
    cases (e.grammar.mode id).beginTagging with
    | none => exact .refl _
    | some tagging =>
      cases tagging with
      | whole scope => exact embeds_addScoped e s ..
      | parts parts => exact embeds_addParts e s ..
  | some scope =>
    have hopened : Embeds e s.trail []
        { s with tree := s.tree.openScope (e.grammar.aliasScope scope) }.trail :=
      ⟨s.tree.prefix_openScope _, rfl⟩
    refine hopened.then_none ?_
    cases (e.grammar.mode id).beginTagging with
    | none => exact .refl _
    | some tagging =>
      cases tagging with
      | whole scope => exact embeds_addScoped e { s with tree := _ } ..
      | parts parts => exact embeds_addParts e { s with tree := _ } ..

theorem embeds_closeMode : Embeds e s.trail [] (s.closeMode e).trail := by
  unfold closeMode
  split
  · exact .refl _
  · refine ⟨?_, rfl⟩
    dsimp only [trail]
    split
    · exact s.tree.prefix_closeScope
    · exact List.prefix_rfl

theorem embeds_closeModes (n : Nat) : Embeds e s.trail [] (closeModes e n s).trail := by
  induction n generalizing s with
  | zero => exact .refl _
  | succ n ih => exact (embeds_closeMode e s).then_none (ih _)

end

/-! Blocks that are handed over. -/

theorem embeds_addEmbedded {name text : String} {weight : Nat} (htext : text.isEmpty = false)
    (h : s.addEmbedded e (.fixed name) text weight = .ok s') :
    Embeds e s.trail [⟨name, text, s.continuations.get? name⟩] s'.trail := by
  unfold addEmbedded at h
  rw [if_neg (by simp [htext])] at h
  dsimp only at h
  split at h
  · rename_i hknown
    split at h
    · cases h
    · rename_i r hr
      have hleft : Block.left? e ⟨name, text, s.continuations.get? name⟩ = r.continuation := by
        simp [Block.left?, hknown, hr, Except.toOption]
      cases h
      refine ⟨s.tree.prefix_embed _ _, ?_⟩
      cases hc : r.continuation with
      | none => simp [Block.remember, hleft, hc, trail, embed]
      | some next => simp [Block.remember, hleft, hc, trail, embed]
  · rename_i hunknown
    cases h
    refine ⟨s.tree.prefix_addText _, ?_⟩
    simp [Block.remember, Block.left?, hunknown, addText, trail]

theorem embeds_flush (h : s.flush e = .ok s') : Embeds e s.trail (s.flushBlocks e) s'.trail := by
  unfold flush at h
  unfold flushBlocks
  dsimp only at h
  cases hsub : (s.topMode e).subLanguage with
  | none =>
    simp only [hsub] at h
    cases h
    exact embeds_addKeywords e { s with buffer := "" } _
  | some sub =>
    simp only [hsub] at h
    cases htext : s.buffer.isEmpty with
    | true =>
      simp only [addEmbedded, htext, if_true] at h
      cases h
      cases sub <;> exact .refl _
    | false =>
      cases sub with
      | fixed name => exact embeds_addEmbedded (s := { s with buffer := "" }) htext h
      | detect names =>
        simp only [addEmbedded, htext, Bool.false_eq_true, if_false] at h
        split at h
        · cases h
        · cases h
          exact ⟨s.tree.prefix_embed _ _, rfl⟩

/-- Text that is read before, and left in the buffer afterwards, is no block yet. -/
theorem embeds_flush_between {t t' : ScanState} (h : t.flush e = .ok t')
    (hbefore : t.trail = s.trail) (hafter : s'.trail = t'.trail) :
    Embeds e s.trail (t.flushBlocks e) s'.trail := by
  rw [← hbefore, hafter]
  exact embeds_flush h

theorem embeds_addBegin {id : Nat} (h : s.addBegin e (e.grammar.mode id) m = .ok s') :
    Embeds e s.trail (s.beginBlocks e id m) s'.trail := by
  unfold addBegin at h
  unfold beginBlocks
  dsimp only at h ⊢
  split at h
  · rw [if_pos ‹_›]
    cases h
    exact .refl _
  · rw [if_neg ‹_›]
    obtain ⟨t, ht, hs⟩ := bind_eq_ok.1 h
    cases hs
    apply embeds_flush_between ht
    · split <;> rfl
    · split <;> rfl

theorem embeds_addEnd (h : s.addEnd e m = .ok s') :
    Embeds e s.trail (s.endBlocks e m) s'.trail := by
  unfold addEnd at h
  unfold endBlocks
  dsimp only at h ⊢
  cases hend : (s.topMode e).endTagging with
  | some tagging =>
    rw [hend] at h
    cases tagging with
    | whole scope =>
      obtain ⟨t, ht, hs⟩ := bind_eq_ok.1 h
      cases hs
      exact (embeds_flush ht).then_none (embeds_addScoped e t ..)
    | parts parts =>
      obtain ⟨t, ht, hs⟩ := bind_eq_ok.1 h
      cases hs
      exact (embeds_flush ht).then_none (embeds_addParts e t ..)
  | none =>
    rw [hend] at h
    dsimp only at h ⊢
    split at h
    · rw [if_pos ‹_›]
      cases h
      exact .refl _
    · rw [if_neg ‹_›]
      obtain ⟨t, ht, hs⟩ := bind_eq_ok.1 h
      cases hs
      apply embeds_flush_between ht
      · split <;> rfl
      · split <;> rfl

theorem embeds_onBegin {id following : Nat} (hm : m.kind = .begins id)
    (h : s.onBegin e id m following = .ok s') :
    Embeds e s.trail (s.matchBlocks e m) s'.trail := by
  unfold onBegin at h
  simp only [matchBlocks, hm]
  dsimp only at h
  split at h
  · rename_i hrejects
    have hrejects : (askBegin e id m).1 = true := hrejects
    rw [if_pos hrejects]
    split at h
    · cases h
      rw [trail_stepOver]
      exact .refl _
    · cases h
      exact .refl _
  · rename_i hrejects
    have hrejects : ¬ (askBegin e id m).1 = true := hrejects
    rw [if_neg hrejects]
    obtain ⟨t, ht, hs⟩ := bind_eq_ok.1 h
    cases hs
    exact (embeds_addBegin ht).then_none (embeds_openMode e t id m.groups (askBegin e id m).2)

theorem embeds_onEnd (hm : m.kind = .ends) (h : s.onEnd e m = .ok s') :
    Embeds e s.trail (s.matchBlocks e m) s'.trail := by
  simp only [matchBlocks, hm]
  rcases hc : closedBy e m s.stack with ⟨stack, closed⟩
  simp only [onEnd, hc] at h
  cases closed with
  | none =>
    cases h
    rw [trail_pass]
    exact .refl _
  | some n =>
    obtain ⟨t, ht, hs⟩ := bind_eq_ok.1 h
    cases hs
    have hclosed := (embeds_addEnd ht).then_none (embeds_closeModes e t n)
    dsimp only
    cases (e.grammar.mode ((stack[n - 1]?.map Frame.mode).getD CompiledGrammar.rootId)).starts with
    | none => exact hclosed
    | some next => exact hclosed.then_none (embeds_openMode e _ next m.groups .empty)

/-! Turns, and the whole scan. -/

theorem embeds_turn (h : s.turn e = .ok (some s')) :
    Embeds e s.trail (s.turnBlocks e) s'.trail := by
  obtain ⟨m, following, hm, -⟩ := turn_eq_some h
  unfold turnBlocks
  rw [hm]
  dsimp only
  rw [turn_not_isRunaway hm h, Bool.false_or]
  cases hs : s.stalled? e m with
  | some opened =>
    -- A scan that stalls hands nothing over, and moves on by a character.
    rw [turn_eq_stepOver hm h hs, trail_stepOver]
    exact .refl _
  | none =>
    rw [if_neg (by simp)]
    have htrail : (s.facing e m).trail = s.trail := rfl
    rw [← htrail]
    cases hkind : m.kind with
    | begins id =>
      have hmatch := turn_unstalled hm h hs
      simp only [hkind] at hmatch
      exact embeds_onBegin hkind hmatch
    | ends => exact embeds_onEnd hkind (turn_ends hm h hkind hs)
    | illegal =>
      rw [turn_illegal hm h hkind, trail_pass, matchBlocks, hkind]
      exact .refl _

theorem turnBlocks_of_turn_none (h : s.turn e = .ok none) : s.turnBlocks e = [] := by
  unfold turnBlocks
  split
  · rename_i m following hm
    have hm' : (topMode e { s with iterations := s.iterations + 1 }).matcher.next s.firstRule e.text
        s.position = .ok (some (m, following)) := hm
    simp only [turn, hm'] at h
    split at h
    · cases h
    · obtain ⟨_, -, h⟩ := map_eq_ok.1 h
      cases h
  · rfl

theorem embeds_turns {t : ScanState} {n : Nat} (h : turns e n s = .ok t)
    (hrest : t.readRest e = .ok s') : Embeds e s.trail (turnsBlocks e n s) s'.trail := by
  induction n generalizing s with
  | zero => cases h
  | succ n ih =>
    obtain ⟨next, hturn, hturns⟩ := bind_eq_ok.1 h
    rw [turnsBlocks, hturn]
    cases next with
    | none =>
      -- Only the text that is left may still be a block.
      cases hturns
      rw [turnBlocks_of_turn_none hturn]
      exact embeds_flush hrest
    | some s₁ => exact (embeds_turn hturn).trans (ih hturns)

end ScanState

theorem ScanSetting.embeds_run {c : Option Continuation} {output : ScanOutput}
    (he : e.grammar.emitTokens = none) (h : e.run c = .ok output) :
    ∃ s : ScanState, Embeds e (e.start c).trail (e.blocks c) s.trail ∧ output = s.output e := by
  simp only [run, he] at h
  obtain ⟨s, hs, h⟩ := bind_eq_ok.1 h
  obtain ⟨s', hrest, h⟩ := bind_eq_ok.1 h
  cases h
  refine ⟨s', ?_, rfl⟩
  rw [blocks, he]
  exact ScanState.embeds_turns hs hrest

/-! What the blocks go on from. -/

/-- Each block goes on from what has been left of its language when it is handed over. -/
def Heeds (e : ScanSetting) : Dictionary Continuation → List Block → Prop
  | _, [] => True
  | d, b :: bs => b.resumes = d.get? b.name ∧ Heeds e (b.remember e d) bs

namespace Heeds

variable {d : Dictionary Continuation} {bs bs' : List Block}

theorem append (h : Heeds e d bs) (h' : Heeds e (bs.foldl (fun d b ↦ b.remember e d) d) bs') :
    Heeds e d (bs ++ bs') := by
  induction bs generalizing d with
  | nil => exact h'
  | cons b bs ih => exact ⟨h.1, ih h.2 h'⟩

theorem resumes {before after : List Block} {b : Block} (h : Heeds e d (before ++ b :: after)) :
    b.resumes = (Block.lastLeft? e before b.name <|> d.get? b.name) := by
  rw [← Block.get?_foldl_remember]
  induction before generalizing d with
  | nil => exact h.1
  | cons first before ih => exact ih h.2

end Heeds

namespace ScanState

variable {s : ScanState} {m : Rule.Match}

theorem heeds_flushBlocks (s : ScanState) : Heeds e s.continuations (s.flushBlocks e) := by
  unfold flushBlocks
  split
  · split
    · trivial
    · exact ⟨rfl, trivial⟩
  · trivial

theorem heeds_beginBlocks (id : Nat) : Heeds e s.continuations (s.beginBlocks e id m) := by
  unfold beginBlocks
  dsimp only
  split
  · trivial
  · split
    · exact heeds_flushBlocks (s.keep _)
    · exact heeds_flushBlocks s

theorem heeds_endBlocks : Heeds e s.continuations (s.endBlocks e m) := by
  unfold endBlocks
  dsimp only
  split
  · exact heeds_flushBlocks s
  · split
    · trivial
    · split
      · exact heeds_flushBlocks s
      · exact heeds_flushBlocks (s.keep _)

theorem heeds_matchBlocks : Heeds e s.continuations (s.matchBlocks e m) := by
  unfold matchBlocks
  split
  · split
    · trivial
    · exact heeds_beginBlocks _
  · split
    · trivial
    · rename_i stack _ _
      exact heeds_endBlocks (s := { s with stack })
  · trivial

theorem heeds_turnBlocks : Heeds e s.continuations (s.turnBlocks e) := by
  unfold turnBlocks
  split
  · split
    · trivial
    · exact heeds_matchBlocks (s := s.facing e _)
  · trivial

theorem heeds_turnsBlocks (n : Nat) (s : ScanState) :
    Heeds e s.continuations (turnsBlocks e n s) := by
  induction n generalizing s with
  | zero => trivial
  | succ n ih =>
    rw [turnsBlocks]
    refine heeds_turnBlocks.append ?_
    cases hturn : s.turn e with
    | error err => trivial
    | ok next =>
      cases next with
      | none =>
        rw [turnBlocks_of_turn_none hturn]
        exact heeds_flushBlocks (s.keep _)
      | some s' =>
        have hcontinuations : s'.continuations = _ := (embeds_turn hturn).continuations
        have hrest := ih s'
        rw [hcontinuations] at hrest
        exact hrest

end ScanState

namespace ScanSetting

variable {c : Option Continuation}

/-- A block goes on from what the last block before it in the same language has left, if any has
left anything. -/
theorem blocks_resumes {before after : List Block} {b : Block}
    (h : e.blocks c = before ++ b :: after) : b.resumes = Block.lastLeft? e before b.name := by
  have hheeds : Heeds e .empty (e.blocks c) := by
    unfold blocks
    split
    · trivial
    · exact ScanState.heeds_turnsBlocks _ (e.start c)
  rw [h] at hheeds
  have hnothing : (Dictionary.empty : Dictionary Continuation).get? b.name = none := rfl
  simpa [hnothing] using hheeds.resumes

/-! The tree of a scan starts with the scopes that are open again. -/

/-- What a walk meets first where the scopes of some modes are open, the outermost one first. -/
def opens (e : ScanSetting) (stack : List Frame) : List TreeEvent :=
  .opens none :: (stack.reverse.filterMap fun frame ↦ (e.grammar.mode frame.mode).scope).map
    fun scope ↦ .opens (some (e.grammar.aliasScope scope))

theorem events_start (e : ScanSetting) (c : Option Continuation) :
    (e.start c).tree.events = e.opens (e.startStack c).dropLast := by
  have hstart : (e.start c).tree = (((e.startStack c).dropLast.reverse.filterMap fun frame ↦
      (e.grammar.mode frame.mode).scope).map e.grammar.aliasScope).foldl TreeBuilder.openScope {} :=
    List.foldl_map.symm
  rw [hstart, TreeBuilder.events_openScopes, opens, List.map_map]
  rfl

theorem Resumes.startStack_of_emitTokens {loaded : LoadedGrammar} {emission : Emission}
    (hc : Resumes loaded c) (hemit : loaded.grammar.emitTokens = some emission) {e : ScanSetting}
    (he : e.loaded = loaded) : e.startStack c = [{ mode := CompiledGrammar.rootId }] := by
  induction hc generalizing e with
  | fresh => rfl
  | foreign hne => rw [ScanSetting.startStack, if_neg (by simp [he, hne])]
  | @scanned f _ output hf _ hrun ih =>
    have hsame : f.grammar = loaded.grammar := congrArg LoadedGrammar.grammar hf
    have houtput := run_eq_ok_of_emitTokens (hsame ▸ hemit) hrun
    have hstack : output.continuation.stack = [{ mode := CompiledGrammar.rootId }] := by
      rw [houtput]
      exact ih hf
    unfold ScanSetting.startStack
    dsimp only
    split
    · exact hstack
    · rfl

/-- All modes that a scan goes on from have their scopes open again, but for the outermost one. -/
theorem opens_prefix {output : ScanOutput} (hc : Resumes e.loaded c) (h : e.run c = .ok output) :
    e.opens (e.startStack c).dropLast <+: output.tree.walk := by
  cases he : e.grammar.emitTokens with
  | none =>
    obtain ⟨s, hembeds, rfl⟩ := embeds_run he h
    rw [← events_start]
    exact hembeds.tree.trans s.tree.prefix_toTree
  | some emission =>
    rw [run_eq_ok_of_emitTokens he h, hc.startStack_of_emitTokens he rfl]
    exact List.IsPrefix.trans ⟨_, rfl⟩ (TreeBuilder.prefix_toTree _)

/-- An outermost mode without a scope is not missed. -/
theorem opens_dropLast {stack : List Frame} (hstack : Rooted stack)
    (hscope : e.grammar.root.scope = none) : e.opens stack.dropLast = e.opens stack := by
  obtain ⟨frame, hlast, hmode⟩ := Option.map_eq_some_iff.1 hstack
  have hnone : (e.grammar.mode frame.mode).scope = none := hmode ▸ hscope
  conv_rhs => rw [← List.dropLast_append_getLast? frame hlast]
  simp [opens, hnone]

end ScanSetting

end SyntaxHighlight
