import SyntaxHighlight.Grammar.Compile
import SyntaxHighlight.Proofs.Outcome

/-! What compiling a grammar does not look at: how many hits of a word count, and the names to write
in place of scopes. -/
namespace SyntaxHighlight

/-- The grammar with other names to write in place of its scopes. -/
def Grammar.withNames (g : Grammar) (names : Dictionary String) : Grammar :=
  { g with classNameAliases := names }

def CompiledGrammar.withNames (cg : CompiledGrammar) (names : Dictionary String) :
    CompiledGrammar :=
  { cg with classNameAliases := names }

/-- The scoring with another number of hits that count. -/
def KeywordScoring.withMaxHits (scoring : KeywordScoring) (maxHits : Nat) : KeywordScoring :=
  { scoring with maxHits }

variable (g : Grammar) (scoring : KeywordScoring)

theorem compileMode_withMaxHits (maxHits fuel : Nat) :
    compileMode g (scoring.withMaxHits maxHits) fuel = compileMode g scoring fuel := by
  have hkeywords : keywordsOf g (scoring.withMaxHits maxHits) = keywordsOf g scoring := rfl
  induction fuel with
  | zero => rfl
  | succ fuel ih =>
    funext t around arena
    simp only [compileMode, hkeywords, ih]

theorem Grammar.compile_withMaxHits (maxHits : Nat) :
    g.compile (scoring.withMaxHits maxHits) = g.compile scoring := by
  simp only [compile, arena, compileMode_withMaxHits]

theorem compileMode_withNames (names : Dictionary String) (fuel : Nat) :
    compileMode (g.withNames names) scoring fuel = compileMode g scoring fuel := by
  have hbegin : beginOf (g.withNames names) = beginOf g := rfl
  have hkeywords : keywordsOf (g.withNames names) scoring = keywordsOf g scoring := rfl
  have hflags : (g.withNames names).flags = g.flags := rfl
  induction fuel with
  | zero => rfl
  | succ fuel ih =>
    funext t around arena
    simp only [compileMode, hbegin, hkeywords, hflags, ih]
    rfl

theorem Grammar.compile_withNames (names : Dictionary String) :
    (g.withNames names).compile scoring =
      (fun cg ↦ cg.withNames names) <$> g.compile scoring := by
  have harena : (g.withNames names).arena scoring = g.arena scoring := by
    simp only [arena, compileMode_withNames]
    rfl
  rw [compile, harena, compile]
  cases g.arena scoring <;> rfl

end SyntaxHighlight
