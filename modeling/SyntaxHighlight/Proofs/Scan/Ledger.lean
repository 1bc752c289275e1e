import SyntaxHighlight.Proofs.Scan.Turn

/-!
The ledger of a scan: the modes that it opens and closes, the keywords that it hits and the texts
that it embeds, one after another. A scan counts what is entered there and nothing else.
-/
namespace SyntaxHighlight

inductive Posting where
  | opened (mode : Nat)
  | closed (mode : Nat)
  /-- A hit of a word, with what the table says it is worth. -/
  | hit (word : String) (relevance : Nat)
  /-- The result of an embedded text, with the weight of the mode that embeds it. -/
  | embedded (weight relevance : Nat)
deriving DecidableEq, Repr

/-- What a mode counts when it closes. -/
def CompiledMode.worth (mode : CompiledMode) : Nat :=
  if mode.skip || mode.subLanguage.isSome then 0 else mode.relevance

namespace ScanState

section

variable (e : ScanSetting) (s : ScanState)

/-- What a word is counted as. -/
def countedAs (word : String) : String :=
  if e.grammar.caseInsensitive then Unicode.lowercase word else word

/-- The hits among the words that stand at some places in a text. -/
def hitsAt (table : KeywordTable) (text : Text) (spans : List Span) : List Posting :=
  spans.filterMap fun (start, stop) ↦
    (table.lookup? (text.slice start stop)).map fun keyword ↦
      .hit (countedAs e (text.slice start stop)) keyword.relevance

def hitsIn (mode : CompiledMode) (text : String) : List Posting :=
  match mode.keywords, mode.keywordPattern with
  | some table, some pattern =>
    hitsAt e table (.ofString text) (pattern.findAll (.ofString text))
  | _, _ => []

def hitsInParts (mode : CompiledMode) (groups : List (Option Span))
    (parts : List (Nat × Option String)) : List Posting :=
  parts.flatMap fun (group, scope) ↦
    match groups[group]?.join, scope with
    | some (start, stop), none => hitsIn e mode (e.text.slice start stop)
    | _, _ => []

def resultsOf (sub : SubLanguage) (text : String) (weight : Nat) : List Posting :=
  if text.isEmpty then []
  else
    let result := match sub with
      | .fixed name =>
        if e.languages.isKnown name then
          (e.languages.highlight name text (s.continuations.get? name)).toOption
        else none
      | .detect names => (e.languages.detect text names).toOption
    (result.map fun r ↦ .embedded weight r.relevance).toList

def flushPostings : List Posting :=
  match (s.topMode e).subLanguage with
  | some sub => s.resultsOf e sub s.buffer (s.topMode e).relevance
  | none => hitsIn e (s.topMode e) s.buffer

def openPostings (id : Nat) (groups : List (Option Span)) : List Posting :=
  (match (e.grammar.mode id).beginTagging with
    | some (.parts parts) => hitsInParts e (s.topMode e) groups parts
    | _ => []) ++ [.opened id]

def beginPostings (id : Nat) (m : Rule.Match) : List Posting :=
  let mode := e.grammar.mode id
  (if mode.skip then []
    else (if mode.excludeBegin then s.keep (m.lexeme e.text) else s).flushPostings e) ++
    s.openPostings e id m.groups

/-- What is entered for the text before an end, and for the text of the end. -/
def endPostings (m : Rule.Match) : List Posting :=
  let mode := s.topMode e
  match mode.endTagging with
  | some (.whole _) => s.flushPostings e
  | some (.parts parts) => s.flushPostings e ++ hitsInParts e mode m.groups parts
  | none =>
    if mode.skip then []
    else (if mode.returnEnd || mode.excludeEnd then s else s.keep (m.lexeme e.text)).flushPostings e

/-- The innermost modes close, and the last of them may start another one. -/
def closePostings (n : Nat) (groups : List (Option Span)) : List Posting :=
  (s.stack.take n).map (.closed ·.mode) ++
    match (e.grammar.mode
      ((s.stack[n - 1]?.map Frame.mode).getD CompiledGrammar.rootId)).starts with
    | some next => { s with stack := s.stack.drop n }.openPostings e next groups
    | none => []

/-- A begin that is rejected, an end that does not hold and illegal text enter nothing. -/
def matchPostings (m : Rule.Match) : List Posting :=
  match m.kind with
  | .begins id => if (askBegin e id m).1 then [] else s.beginPostings e id m
  | .ends =>
    match closedBy e m s.stack with
    | (_, none) => []
    | (stack, some n) =>
      { s with stack }.endPostings e m ++ { s with stack }.closePostings e n m.groups
  | .illegal => []

def turnPostings : List Posting :=
  match (s.topMode e).matcher.next s.firstRule e.text s.position with
  | .ok (some (m, _)) =>
    if (s.stalled? e m).isSome then [] else (s.facing e m).matchPostings e m
  | _ => []

def turnsPostings : Nat → ScanState → List Posting
  | 0, _ => []
  | fuel + 1, s =>
    match s.turn e with
    | .ok (some s') => s.turnPostings e ++ turnsPostings fuel s'
    | _ => []

end

end ScanState

/-- The ledger of a scan that goes on from where an earlier one has stopped. -/
def ScanSetting.ledger (e : ScanSetting) (c : Option Continuation) : List Posting :=
  match ScanState.turns e (ScanState.maxTurns e) (e.start c) with
  | .ok s =>
    ScanState.turnsPostings e (ScanState.maxTurns e) (e.start c) ++
      (s.keep (e.text.rest s.position)).flushPostings e
  | .error _ => []

/-- The part of a state that the ledger accounts for. -/
structure Account where
  stack : List Nat
  hits : Dictionary Nat
  relevance : Nat

def ScanState.account (s : ScanState) : Account := ⟨s.stack.map Frame.mode, s.hits, s.relevance⟩

/-- Postings that lead from one account to another. A mode can only close when it is the innermost
one. -/
inductive Books (e : ScanSetting) : Account → List Posting → Account → Prop
  | done (a : Account) : Books e a [] a
  | opened {a b : Account} {ps : List Posting} {mode : Nat} :
      Books e { a with stack := mode :: a.stack } ps b → Books e a (.opened mode :: ps) b
  | closed {stack : List Nat} {hits : Dictionary Nat} {relevance mode : Nat} {b : Account}
      {ps : List Posting} :
      Books e ⟨stack, hits, relevance + (e.grammar.mode mode).worth⟩ ps b →
      Books e ⟨mode :: stack, hits, relevance⟩ (.closed mode :: ps) b
  | hit {a b : Account} {ps : List Posting} {word : String} {relevance count : Nat} :
      count = (a.hits.get? word).getD 0 + 1 →
      Books e { a with
        hits := a.hits.insert word count
        relevance :=
          if count ≤ e.options.maxKeywordHits then a.relevance + relevance else a.relevance } ps b →
      Books e a (.hit word relevance :: ps) b
  | embedded {a b : Account} {ps : List Posting} {weight relevance : Nat} :
      Books e { a with
        relevance := if 0 < weight then a.relevance + relevance else a.relevance } ps b →
      Books e a (.embedded weight relevance :: ps) b

variable {e : ScanSetting}

theorem Books.trans {a b c : Account} {ps qs : List Posting} (h : Books e a ps b)
    (h' : Books e b qs c) : Books e a (ps ++ qs) c := by
  induction h with
  | done => exact h'
  | opened _ ih => exact .opened (ih h')
  | closed _ ih => exact .closed (ih h')
  | hit hcount _ ih => exact .hit hcount (ih h')
  | embedded _ ih => exact .embedded (ih h')

namespace ScanState

variable {s s' : ScanState} {m : Rule.Match}

theorem topMode_of_stack (h : s'.stack = s.stack) : s'.topMode e = s.topMode e := by
  rw [topMode, topId, h, topMode, topId]

/-! Text that is added is searched for keywords or embedded. -/

theorem books_hit (s : ScanState) (word : String) (keyword : Keyword) :
    Books e s.account [.hit (countedAs e word) keyword.relevance] (s.hit e word keyword).account :=
  .hit rfl (.done _)

theorem books_addKeyword (s : ScanState) (plain word : String) (keyword : Keyword) :
    Books e s.account [.hit (countedAs e word) keyword.relevance]
      (s.addKeyword e plain word keyword).1.account := by
  have hhit := books_hit (e := e) (s.addText plain) word keyword
  unfold addKeyword
  dsimp only
  split <;> exact hhit

theorem books_addWords (s : ScanState) (table : KeywordTable) (text : Text) (last : Nat)
    (plain : String) (spans : List Span) :
    Books e s.account (hitsAt e table text spans)
      (addWords e table text last plain spans s).account := by
  induction spans generalizing s last plain with
  | nil => exact .done _
  | cons span spans ih =>
    obtain ⟨start, stop⟩ := span
    simp only [addWords, hitsAt, List.filterMap_cons]
    cases table.lookup? (text.slice start stop) with
    | none => exact ih s _ _
    | some keyword => exact (books_addKeyword s _ _ keyword).trans (ih _ _ _)

theorem books_addKeywords (s : ScanState) (text : String) :
    Books e s.account (hitsIn e (s.topMode e) text) (s.addKeywords e text).account := by
  unfold addKeywords hitsIn
  dsimp only
  cases (s.topMode e).keywords with
  | none => exact .done _
  | some table =>
    cases (s.topMode e).keywordPattern with
    | none => exact .done _
    | some pattern => exact books_addWords ..

theorem books_addParts (s : ScanState) (groups : List (Option Span))
    (parts : List (Nat × Option String)) :
    Books e s.account (hitsInParts e (s.topMode e) groups parts)
      (addParts e groups parts s).account := by
  induction parts generalizing s with
  | nil => exact .done _
  | cons part parts ih =>
    obtain ⟨group, scope⟩ := part
    simp only [addParts, hitsInParts, List.flatMap_cons]
    cases groups[group]?.join with
    | none => exact ih s
    | some span =>
      cases scope with
      | some scope => exact ih (s.addScoped e scope _)
      | none =>
        have hrest := ih (s.addKeywords e (e.text.slice span.1 span.2))
        rw [topMode_of_stack (steady_addKeywords ..).stack] at hrest
        exact (books_addKeywords s _).trans hrest

theorem books_embed (s : ScanState) (r : HighlightResult) (weight : Nat) :
    Books e s.account [.embedded weight r.relevance] (s.embed r weight).account :=
  .embedded (.done _)

theorem books_addEmbedded {sub : SubLanguage} {text : String} {weight : Nat}
    (h : s.addEmbedded e sub text weight = .ok s') :
    Books e s.account (s.resultsOf e sub text weight) s'.account := by
  unfold addEmbedded at h
  unfold resultsOf
  split
  · rw [if_pos ‹_›] at h
    cases h
    exact .done _
  · rw [if_neg ‹_›] at h
    cases sub with
    | fixed name =>
      dsimp only at h ⊢
      split
      · rw [if_pos ‹_›] at h
        split at h
        · cases h
        · rename_i r hr
          cases h
          rw [hr]
          exact books_embed ..
      · rw [if_neg ‹_›] at h
        cases h
        exact .done _
    | detect names =>
      dsimp only at h ⊢
      split at h
      · cases h
      · rename_i r hr
        cases h
        rw [hr]
        exact books_embed ..

theorem books_flush (h : s.flush e = .ok s') :
    Books e s.account (s.flushPostings e) s'.account := by
  unfold flush at h
  unfold flushPostings
  cases hsub : (s.topMode e).subLanguage with
  | some sub =>
    simp only [hsub] at h
    have hembedded := books_addEmbedded h
    exact hembedded
  | none =>
    simp only [hsub] at h
    cases h
    exact books_addKeywords { s with buffer := "" } _

/-- Text that is read before, and left in the buffer afterwards, is not accounted for. -/
theorem books_flush_between {t t' : ScanState} (h : t.flush e = .ok t')
    (hbefore : t.account = s.account) (hafter : s'.account = t'.account) :
    Books e s.account (t.flushPostings e) s'.account := by
  rw [← hbefore, hafter]
  exact books_flush h

/-! What a match does to the modes that are open. -/

theorem books_openMode (s : ScanState) (id : Nat) (groups : List (Option Span)) (notes : Scratch) :
    Books e s.account (s.openPostings e id groups) (s.openMode e id groups notes).account := by
  have hopened (t : ScanState) :
      Books e t.account [.opened id] { t with stack := ⟨id, notes⟩ :: t.stack }.account :=
    .opened (.done _)
  have htagged (t : ScanState) (haccount : t.account = s.account)
      (hmode : t.topMode e = s.topMode e) :
      Books e s.account
        (match (e.grammar.mode id).beginTagging with
          | some (.parts parts) => hitsInParts e (s.topMode e) groups parts
          | _ => [])
        (match (e.grammar.mode id).beginTagging with
          | some (.whole scope) => { t.addScoped e scope t.buffer with buffer := "" }
          | some (.parts parts) => { addParts e groups parts t with buffer := "" }
          | none => t).account := by
    rw [← haccount, ← hmode]
    cases (e.grammar.mode id).beginTagging with
    | none => exact .done _
    | some tagging =>
      cases tagging with
      | whole scope => exact .done _
      | parts parts => exact books_addParts t groups parts
  refine Books.trans ?_ (hopened _)
  apply htagged
  · split <;> rfl
  · split <;> rfl

theorem books_closeMode {frame : Frame} {outer : List Frame} (h : s.stack = frame :: outer) :
    Books e s.account [.closed frame.mode] (s.closeMode e).account := by
  have hcounts : (if (e.grammar.mode frame.mode).skip ||
      (e.grammar.mode frame.mode).subLanguage.isSome then s.relevance
      else s.relevance + (e.grammar.mode frame.mode).relevance) =
      s.relevance + (e.grammar.mode frame.mode).worth := by
    unfold CompiledMode.worth
    split <;> rfl
  simp only [closeMode, account, h, List.map_cons, hcounts]
  exact .closed (.done _)

theorem books_closeModes (s : ScanState) (n : Nat) :
    Books e s.account ((s.stack.take n).map (.closed ·.mode)) (closeModes e n s).account := by
  induction n generalizing s with
  | zero => exact .done _
  | succ n ih =>
    have hrest := ih (s.closeMode e)
    cases hstack : s.stack with
    | nil =>
      have hclose : s.closeMode e = s := by
        simp only [closeMode, hstack]
      rw [hclose, hstack, List.take_nil] at hrest
      rw [closeModes, hclose, List.take_nil]
      exact hrest
    | cons frame outer =>
      have hclose : (s.closeMode e).stack = outer := by
        simp only [closeMode, hstack]
      rw [hclose] at hrest
      exact (books_closeMode hstack).trans hrest

theorem books_addBegin {id : Nat} (h : s.addBegin e (e.grammar.mode id) m = .ok s')
    (notes : Scratch) :
    Books e s.account (s.beginPostings e id m) (s'.openMode e id m.groups notes).account := by
  have hopened := books_openMode (e := e) s' id m.groups notes
  rw [openPostings, topMode_of_stack (addBegin_stack h), ← openPostings] at hopened
  refine Books.trans ?_ hopened
  unfold addBegin at h
  dsimp only at h
  split at h
  · rw [if_pos ‹_›]
    cases h
    exact .done _
  · rw [if_neg ‹_›]
    obtain ⟨t, ht, hs⟩ := bind_eq_ok.1 h
    cases hs
    apply books_flush_between ht
    · split <;> rfl
    · split <;> rfl

theorem books_addEnd (h : s.addEnd e m = .ok s') :
    Books e s.account (s.endPostings e m) s'.account := by
  unfold addEnd at h
  unfold endPostings
  dsimp only at h ⊢
  cases hend : (s.topMode e).endTagging with
  | some tagging =>
    rw [hend] at h
    cases tagging with
    | whole scope =>
      obtain ⟨t, ht, hs⟩ := bind_eq_ok.1 h
      cases hs
      exact books_flush_between ht rfl rfl
    | parts parts =>
      obtain ⟨t, ht, hs⟩ := bind_eq_ok.1 h
      cases hs
      have hparts := books_addParts (e := e) t m.groups parts
      rw [topMode_of_stack (steady_flush ht).stack] at hparts
      exact (books_flush ht).trans hparts
  | none =>
    rw [hend] at h
    dsimp only at h ⊢
    by_cases hskip : (s.topMode e).skip = true
    · rw [if_pos hskip] at h ⊢
      cases h
      exact .done _
    · rw [if_neg hskip] at h ⊢
      obtain ⟨t, ht, hs⟩ := bind_eq_ok.1 h
      cases hs
      apply books_flush_between ht
      · split <;> rfl
      · split <;> rfl

theorem account_stepOver (s : ScanState) (position : Nat) :
    (s.stepOver e position).account = s.account := by
  unfold stepOver
  dsimp only
  split <;> rfl

theorem account_pass (s : ScanState) : (s.pass e m).account = s.account := by
  unfold pass
  dsimp only
  split
  · exact account_stepOver s _
  · rfl

theorem books_onBegin {id following : Nat} (hm : m.kind = .begins id)
    (h : s.onBegin e id m following = .ok s') :
    Books e s.account (s.matchPostings e m) s'.account := by
  simp only [matchPostings, hm]
  unfold onBegin at h
  dsimp only at h
  split at h
  · rename_i hrejects
    have hrejects' : (askBegin e id m).1 = true := hrejects
    rw [if_pos hrejects']
    split at h
    · cases h
      rw [account_stepOver]
      exact .done _
    · cases h
      exact .done _
  · rename_i hrejects
    have hrejects' : ¬ (askBegin e id m).1 = true := hrejects
    rw [if_neg hrejects']
    obtain ⟨t, ht, hs⟩ := bind_eq_ok.1 h
    cases hs
    have hopened := books_addBegin ht (askBegin e id m).2
    exact hopened

theorem books_onEnd (hm : m.kind = .ends) (h : s.onEnd e m = .ok s') :
    Books e s.account (s.matchPostings e m) s'.account := by
  simp only [matchPostings, hm]
  rcases hc : closedBy e m s.stack with ⟨stack, closed⟩
  simp only [onEnd, hc] at h
  have hnoted : account { s with stack } = s.account := by
    rw [account, map_mode_of_closedBy hc, account]
  rw [← hnoted]
  cases closed with
  | none =>
    cases h
    rw [account_pass]
    exact .done _
  | some n =>
    obtain ⟨t, ht, hs⟩ := bind_eq_ok.1 h
    cases hs
    have hend := books_addEnd ht
    have hstack : t.stack = stack := addEnd_stack ht
    have hclosed := books_closeModes (e := e) t n
    rw [hstack] at hclosed
    refine hend.trans ?_
    unfold closePostings
    refine hclosed.trans ?_
    have hdrop : (closeModes e n t).stack = stack.drop n := by
      rw [closeModes_stack, hstack]
    dsimp only
    cases (e.grammar.mode ((stack[n - 1]?.map Frame.mode).getD CompiledGrammar.rootId)).starts with
    | none => exact .done _
    | some next =>
      have hopened := books_openMode (e := e) (closeModes e n t) next m.groups .empty
      have htop : (closeModes e n t).topMode e = topMode e { s with stack := stack.drop n } :=
        topMode_of_stack (s := { s with stack := stack.drop n }) hdrop
      rw [openPostings, htop] at hopened
      exact hopened

/-! Turns, and the whole scan. -/

theorem books_turn (h : s.turn e = .ok (some s')) :
    Books e s.account (s.turnPostings e) s'.account := by
  obtain ⟨m, following, hm, -⟩ := turn_eq_some h
  unfold turnPostings
  rw [hm]
  dsimp only
  cases hs : s.stalled? e m with
  | some opened =>
    rw [turn_eq_stepOver hm h hs, account_stepOver]
    exact .done _
  | none =>
    have hstart : (s.facing e m).account = s.account := rfl
    rw [if_neg (by simp), ← hstart]
    cases hkind : m.kind with
    | begins id =>
      have hmatch := turn_unstalled hm h hs
      simp only [hkind] at hmatch
      exact books_onBegin hkind hmatch
    | ends => exact books_onEnd hkind (turn_ends hm h hkind hs)
    | illegal =>
      rw [turn_illegal hm h hkind, account_pass, matchPostings, hkind]
      exact .done _

theorem books_turns {n : Nat} (h : turns e n s = .ok s') :
    Books e s.account (turnsPostings e n s) s'.account := by
  induction n generalizing s with
  | zero => cases h
  | succ n ih =>
    obtain ⟨next, hnext, hrest⟩ := bind_eq_ok.1 h
    rw [turnsPostings, hnext]
    cases next with
    | none =>
      cases hrest
      exact .done _
    | some t => exact (books_turn hnext).trans (ih hrest)

end ScanState

/-- The ledger leads from the modes that are open at the start of a scan, and nothing counted, to
what the scan hands back. -/
theorem ScanSetting.books_run {c : Option Continuation} {output : ScanOutput}
    (he : e.grammar.emitTokens = none) (h : e.run c = .ok output) :
    ∃ hits, Books e ⟨(e.startStack c).map Frame.mode, .empty, 0⟩ (e.ledger c)
      ⟨output.continuation.stack.map Frame.mode, hits, output.relevance⟩ := by
  simp only [run, he] at h
  obtain ⟨s, hs, hrest⟩ := bind_eq_ok.1 h
  obtain ⟨s', hs', hout⟩ := bind_eq_ok.1 hrest
  cases hout
  have hturns : ScanState.turns e (ScanState.maxTurns e) (e.start c) = .ok s := hs
  refine ⟨s'.hits, ?_⟩
  rw [ledger, hturns]
  have hflush := ScanState.books_flush hs'
  exact (ScanState.books_turns hturns).trans hflush

end SyntaxHighlight
