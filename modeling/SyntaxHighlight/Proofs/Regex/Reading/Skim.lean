import SyntaxHighlight.Proofs.Regex.Reading.Class
import SyntaxHighlight.Regex.Parser

/-!
A look at a source that tells no more than brackets, parentheses and backslashes apart. It finds
where the enclosing group is closed and how many groups are opened before that, whatever numbers
stand after backslashes.
-/
namespace SyntaxHighlight.Regex

open Unicode

/-- Whether what follows an opening parenthesis is a comment or sets options. -/
def setsInline : List Char → Bool
  | '?' :: cs => cs.head?.any fun c ↦ !([':', '=', '!', '>', '<', '\x27'].contains c)
  | _ => false

/-- Whether the group that opens with a parenthesis takes a number. -/
def takesNumber : List Char → Bool
  | '?' :: '<' :: cs => cs.head?.any fun c ↦ c != '=' && c != '!'
  | '?' :: cs => cs.head? == some '\x27'
  | '*' :: _ => false
  | _ => true

/-- Whether a backslash resets the match or calls a group. -/
def strays : List Char → Bool
  | 'K' :: _ => true
  | 'g' :: cs => cs.head?.any fun c ↦ c == '<' || c == '\x27'
  | _ => false

/-- Whether a bracket within a class opens none, as before a name that turns out to be none. -/
def isLoneBracket : List Char → Bool
  | ':' :: cs => posixCloses cs && (posixProperty? (classNegation cs).2).isNone
  | _ => false

/-- What the next character is taken for. -/
inductive Stage where
  | plain
  /-- It belongs to a backslash. -/
  | escape
  /-- It separates a letter for control or meta from the character that is typed with it. -/
  | hyphen
  /-- It is typed with control or meta. -/
  | operand
  /-- It is the first of a class, or of what the class leaves out. -/
  | first (negated : Bool)
deriving DecidableEq, Repr

/-- What has been come upon: parentheses and brackets that are open, how many groups have been
opened, and whether the match has been reset or a group called. -/
structure Skim where
  depth : Nat := 0
  brackets : Nat := 0
  groups : Nat := 0
  strays : Bool := false
deriving DecidableEq, Repr

/-- What a look at a source comes to. -/
inductive Skimmed where
  | unclosed
  /-- There is a comment, or options are set. -/
  | inline
  /-- A parenthesis closes the enclosing group. -/
  | closed (rest : List Char) (groups : Nat) (strays : Bool)
deriving DecidableEq, Repr

namespace Skim

variable (q : Skim)

/-- Takes in a character of a class. -/
def within (c : Char) (cs : List Char) : Skim × Stage :=
  match c with
  | '\\' => (q, .escape)
  | ']' => ({ q with brackets := q.brackets - 1 }, .plain)
  | '[' =>
    if isLoneBracket cs then (q, .plain)
    else ({ q with brackets := q.brackets + 1 }, .first false)
  | _ => (q, .plain)

/-- Takes in a character outside of classes. -/
def outside (c : Char) (cs : List Char) : Skim × Stage :=
  match c with
  | '\\' => ({ q with strays := q.strays || Regex.strays cs }, .escape)
  | '[' => ({ q with brackets := 1 }, .first false)
  | '\x28' => ({ q with depth := q.depth + 1, groups := q.groups + (takesNumber cs).toNat }, .plain)
  | '\x29' => ({ q with depth := q.depth - 1 }, .plain)
  | _ => (q, .plain)

def start (c : Char) (cs : List Char) : Skim × Stage :=
  if q.brackets = 0 then q.outside c cs else q.within c cs

def step : Stage → Char → List Char → Skim × Stage
  | .escape, c, _ => (q, if c = 'c' then .operand else if c = 'C' ∨ c = 'M' then .hyphen else .plain)
  | .hyphen, c, _ => (q, if c = '\\' then .escape else .operand)
  | .operand, c, _ => (q, if c = '\\' then .escape else .plain)
  | .first negated, c, cs =>
    if c = '^' ∧ negated = false then (q, .first true)
    else if c = ']' then (q, .plain)
    else q.start c cs
  | .plain, c, cs => q.start c cs

/-- What a look at the source comes to at the next character, if it ends there. -/
def ends? (stage : Stage) (c : Char) (cs : List Char) : Option Skimmed :=
  if stage = .plain ∧ q.brackets = 0 then
    if c = '\x29' ∧ q.depth = 0 then some (.closed cs q.groups q.strays)
    else if c = '\x28' ∧ setsInline cs then some .inline
    else none
  else none

end Skim

def skim (q : Skim) (stage : Stage) : List Char → Skimmed
  | [] => .unclosed
  | c :: cs =>
    match q.ends? stage c cs with
    | some found => found
    | none => skim (q.step stage c cs).1 (q.step stage c cs).2 cs

/-- Characters that are the same to it wherever they stand. -/
def isInert (c : Char) : Bool := !(['\\', '[', ']', '\x28', '\x29'].contains c)

section Inert

variable {q : Skim} {stage : Stage} {c : Char} {cs piece : List Char} {p : Char → Bool}

theorem isInert_iff : isInert c = true ↔
    c ≠ '\\' ∧ c ≠ '[' ∧ c ≠ ']' ∧ c ≠ '\x28' ∧ c ≠ '\x29' := by
  simp [isInert]

theorem isInert_of (h : p '\\' = false ∧ p '[' = false ∧ p ']' = false ∧ p '\x28' = false ∧
    p '\x29' = false) (hc : p c = true) : isInert c = true := by
  refine isInert_iff.2 ⟨?_, ?_, ?_, ?_, ?_⟩ <;> rintro rfl <;> simp_all

theorem isAsciiDigit_inert (hc : isAsciiDigit c = true) : isInert c = true :=
  isInert_of ⟨rfl, rfl, rfl, rfl, rfl⟩ hc

theorem start_inert (hc : isInert c = true) : q.start c cs = (q, .plain) := by
  obtain ⟨hslash, hbracket, hclose, hopens, hcloses⟩ := isInert_iff.1 hc
  rw [Skim.start]
  split
  · rw [Skim.outside] <;> assumption
  · rw [Skim.within] <;> assumption

theorem skim_cons (h : q.ends? stage c cs = none) :
    skim q stage (c :: cs) = skim (q.step stage c cs).1 (q.step stage c cs).2 cs := by
  rw [skim, h]

theorem ends?_eq_none : q.ends? stage c cs = none ↔ (stage = .plain → q.brackets = 0 →
    (c = '\x29' → q.depth ≠ 0) ∧ (c = '\x28' → setsInline cs = false)) := by
  rw [Skim.ends?]
  split
  · rename_i hplain
    split
    · rename_i hclosed
      exact iff_of_false nofun fun h ↦ (h hplain.1 hplain.2).1 hclosed.1 hclosed.2
    · rename_i hclosed
      split
      · rename_i hinline
        refine iff_of_false nofun fun h ↦ ?_
        rw [(h hplain.1 hplain.2).2 hinline.1] at hinline
        cases hinline.2
      · rename_i hinline
        refine iff_of_true rfl fun _ _ ↦ ⟨fun hc hdepth ↦ hclosed ⟨hc, hdepth⟩, fun hc ↦ ?_⟩
        exact Bool.eq_false_of_not_eq_true fun hsets ↦ hinline ⟨hc, hsets⟩
  · rename_i hplain
    exact iff_of_true rfl fun hstage hbrackets ↦ absurd ⟨hstage, hbrackets⟩ hplain

theorem ends?_inert (hc : isInert c = true) : q.ends? stage c cs = none := by
  obtain ⟨-, -, -, hopens, hcloses⟩ := isInert_iff.1 hc
  exact ends?_eq_none.2 fun _ _ ↦ ⟨fun h ↦ absurd h hcloses, fun h ↦ absurd h hopens⟩

theorem ends?_slash : q.ends? stage '\\' cs = none :=
  ends?_eq_none.2 fun _ _ ↦ ⟨fun h ↦ absurd h (by decide), fun h ↦ absurd h (by decide)⟩

theorem ends?_of_stage (h : stage ≠ .plain) : q.ends? stage c cs = none :=
  ends?_eq_none.2 fun hstage ↦ absurd hstage h

theorem skim_inert (h : ∀ c ∈ piece, isInert c = true) (cs : List Char) :
    skim q .plain (piece ++ cs) = skim q .plain cs := by
  induction piece with
  | nil => rfl
  | cons c piece ih =>
    obtain ⟨hc, hpiece⟩ := List.forall_mem_cons.1 h
    rw [List.cons_append, skim_cons (ends?_inert hc), Skim.step, start_inert hc]
    exact ih hpiece

end Inert

/-- Two texts that differ in numbers after backslashes at most, ahead of a parenthesis and what
follows that. -/
inductive Respelled (tail : List Char) : List Char → List Char → Prop
  | tail : Respelled tail ('\x29' :: tail) ('\x29' :: tail)
  | char {cs cs' : List Char} (c : Char) : Respelled tail cs cs' →
      Respelled tail (c :: cs) (c :: cs')
  | number {cs cs' : List Char} {d d' : Char} {digits digits' : List Char} :
      (∀ c ∈ d :: digits, isAsciiDigit c = true) → (∀ c ∈ d' :: digits', isAsciiDigit c = true) →
      Respelled tail cs cs' →
      Respelled tail ('\\' :: (d :: digits ++ cs)) ('\\' :: (d' :: digits' ++ cs'))

namespace Respelled

variable {tail cs cs' : List Char}

theorem prepend (h : Respelled tail cs cs') :
    ∀ piece, Respelled tail (piece ++ cs) (piece ++ cs')
  | [] => h
  | c :: piece => .char c (h.prepend piece)

theorem head?_eq (h : Respelled tail cs cs') : cs'.head? = cs.head? := by
  cases h <;> rfl

theorem lt_length (h : Respelled tail cs cs') : tail.length < cs.length := by
  induction h with
  | tail => exact Nat.lt_succ_self _
  | char c _ ih => exact Nat.lt_succ_of_lt ih
  | number _ _ _ ih =>
    simp only [List.length_cons, List.length_append]
    omega

theorem setsInline_eq (h : Respelled tail cs cs') : setsInline cs' = setsInline cs := by
  cases h with
  | tail => rfl
  | @char cs cs' c h =>
    by_cases hc : c = '?'
    · subst hc
      rw [setsInline, setsInline, h.head?_eq]
    · rw [setsInline, setsInline] <;> exact fun _ heq ↦ hc (List.cons.inj heq).1
  | number => rfl

theorem strays_eq (h : Respelled tail cs cs') : strays cs' = strays cs := by
  cases h with
  | tail => rfl
  | @char cs cs' c h =>
    by_cases hK : c = 'K'
    · subst hK
      rfl
    · by_cases hg : c = 'g'
      · subst hg
        rw [strays, strays, h.head?_eq]
      · have hnone (more : List Char) : strays (c :: more) = false := by
          rw [strays] <;> simp [hK, hg]
        rw [hnone, hnone]
  | number => rfl

theorem takesNumber_eq (h : Respelled tail cs cs') : takesNumber cs' = takesNumber cs := by
  cases h with
  | tail => rfl
  | @char cs cs' c h =>
    by_cases hc : c = '?'
    · subst hc
      cases h with
      | tail => rfl
      | @char cs cs' d h =>
        by_cases hd : d = '<'
        · subst hd
          rw [takesNumber, takesNumber, h.head?_eq]
        · have hsome (more : List Char) : takesNumber ('?' :: d :: more) = (d == '\x27') := by
            rw [takesNumber]
            · rfl
            · intro _ heq
              exact hd (List.cons.inj heq).1
          rw [hsome, hsome]
      | number => rfl
    · by_cases hstar : c = '*'
      · subst hstar
        rfl
      · have hsome (more : List Char) : takesNumber (c :: more) = true := by
          rw [takesNumber] <;> simp [hc, hstar]
        rw [hsome, hsome]
  | number => rfl

theorem posixCloses_digits {digits : List Char} (h : ∀ c ∈ digits, isAsciiDigit c = true)
    (cs : List Char) : posixCloses (digits ++ cs) = posixCloses cs := by
  induction digits with
  | nil => rfl
  | cons c digits ih =>
    obtain ⟨hc, hdigits⟩ := List.forall_mem_cons.1 h
    have hcolon : c ≠ ':' := by rintro rfl; cases hc
    have hslash : c ≠ '\\' := by rintro rfl; cases hc
    have hclose : c ≠ ']' := by rintro rfl; cases hc
    rw [List.cons_append, posixCloses, ih hdigits] <;> simp [hcolon, hslash, hclose]

theorem posixCloses_eq (h : Respelled tail cs cs') : posixCloses cs' = posixCloses cs ∧
    posixCloses ('\\' :: cs') = posixCloses ('\\' :: cs) := by
  induction h with
  | tail => exact ⟨rfl, rfl⟩
  | @char cs cs' c h ih =>
    refine ⟨?_, ih.1⟩
    by_cases hslash : c = '\\'
    · subst hslash
      exact ih.2
    · by_cases hclose : c = ']'
      · subst hclose
        rfl
      · cases h with
        | tail => rfl
        | char d h =>
          by_cases hname : c = ':' ∧ d = ']'
          · obtain ⟨rfl, rfl⟩ := hname
            rfl
          · rw [posixCloses_cons hslash hclose hname, posixCloses_cons hslash hclose hname]
            exact ih.1
        | number =>
          have hname : ¬ (c = ':' ∧ '\\' = ']') := fun h ↦ absurd h.2 (by decide)
          rw [posixCloses_cons hslash hclose hname, posixCloses_cons hslash hclose hname]
          exact ih.1
  | number hdigits hdigits' h ih =>
    have hall := List.forall_mem_cons.1 hdigits
    have hall' := List.forall_mem_cons.1 hdigits'
    refine ⟨?_, ?_⟩
    · rw [List.cons_append, List.cons_append, posixCloses, posixCloses, posixCloses_digits hall.2,
        posixCloses_digits hall'.2]
      exact ih.1
    · rw [posixCloses, posixCloses, posixCloses_digits hdigits, posixCloses_digits hdigits']
      exact ih.1

theorem isPrefixOf_eq {name : List Char} (hname : '\\' ∉ name) (h : Respelled tail cs cs') :
    name.isPrefixOf cs' = name.isPrefixOf cs := by
  induction name generalizing cs cs' with
  | nil => rfl
  | cons c name ih =>
    obtain ⟨hc, hname⟩ := not_or.1 (mt List.mem_cons.2 hname)
    cases h with
    | tail => rfl
    | char d h => rw [List.isPrefixOf_cons_cons, List.isPrefixOf_cons_cons, ih hname h]
    | number =>
      have hne : (c == '\\') = false := beq_false_of_ne (Ne.symm hc)
      rw [List.isPrefixOf_cons_cons, List.isPrefixOf_cons_cons, hne, Bool.false_and, Bool.false_and]

theorem posixProperty?_eq (h : Respelled tail cs cs') : posixProperty? cs' = posixProperty? cs := by
  have hclean : posixNames.all fun entry ↦ !entry.1.toList.contains '\\' := by decide
  refine List.find?_congr fun entry hentry ↦ isPrefixOf_eq ?_ h
  simpa using List.all_eq_true.1 hclean entry hentry

theorem isLoneBracket_eq (h : Respelled tail cs cs') : isLoneBracket cs' = isLoneBracket cs := by
  cases h with
  | tail => rfl
  | @char cs cs' c h =>
    by_cases hc : c = ':'
    · subst hc
      have hproperty : posixProperty? (classNegation cs').2 = posixProperty? (classNegation cs).2 := by
        cases h with
        | tail => rfl
        | @char cs cs' c h =>
          by_cases hc : c = '^'
          · subst hc
            exact posixProperty?_eq h
          · have hsame (more : List Char) : classNegation (c :: more) = (false, c :: more) := by
              rw [classNegation]
              exact fun _ heq ↦ hc (List.cons.inj heq).1
            rw [hsame, hsame]
            exact posixProperty?_eq (.char c h)
        | number hdigits hdigits' h => exact posixProperty?_eq (.number hdigits hdigits' h)
      rw [isLoneBracket, isLoneBracket, h.posixCloses_eq.1, hproperty]
    · rw [isLoneBracket, isLoneBracket] <;> exact fun _ heq ↦ hc (List.cons.inj heq).1
  | number => rfl

variable {q : Skim} {stage : Stage}

theorem step_eq (h : Respelled tail cs cs') (c : Char) : q.step stage c cs' = q.step stage c cs := by
  have hstart : q.start c cs' = q.start c cs := by
    simp only [Skim.start, Skim.outside, Skim.within, h.strays_eq, h.takesNumber_eq,
      h.isLoneBracket_eq]
  cases stage <;> simp only [Skim.step, hstart]

end Respelled

section Numbers

variable {q : Skim} {stage : Stage} {tail cs cs' digits : List Char} {c d : Char}

theorem strays_digit (hd : isAsciiDigit d = true) (cs : List Char) : strays (d :: cs) = false := by
  rw [strays] <;> rintro _ heq <;> cases heq <;> cases hd

theorem step_slash (q : Skim) (stage : Stage) : ∃ next, (next = .plain ∨ next = .escape) ∧
    ∀ {d} cs, isAsciiDigit d = true → q.step stage '\\' (d :: cs) = (q, next) := by
  have hstart {d : Char} (cs : List Char) (hd : isAsciiDigit d = true) :
      q.start '\\' (d :: cs) = (q, .escape) := by
    rw [Skim.start]
    split
    · rw [Skim.outside, strays_digit hd, Bool.or_false]
    · rfl
  cases stage with
  | plain => exact ⟨_, .inr rfl, fun cs hd ↦ hstart cs hd⟩
  | escape => exact ⟨_, .inl rfl, fun cs hd ↦ rfl⟩
  | hyphen => exact ⟨_, .inr rfl, fun cs hd ↦ rfl⟩
  | operand => exact ⟨_, .inr rfl, fun cs hd ↦ rfl⟩
  | first negated =>
    refine ⟨_, .inr rfl, fun cs hd ↦ ?_⟩
    rw [Skim.step, if_neg (by simp), if_neg (by decide)]
    exact hstart cs hd

theorem skim_number (hstage : stage = .plain ∨ stage = .escape)
    (h : ∀ c ∈ d :: digits, isAsciiDigit c = true) (cs : List Char) :
    skim q stage (d :: digits ++ cs) = skim q .plain cs := by
  have hinert (c : Char) (hc : c ∈ d :: digits) : isInert c = true := isAsciiDigit_inert (h c hc)
  obtain rfl | rfl := hstage
  · exact skim_inert hinert cs
  · have hd := h d List.mem_cons_self
    have hplain : q.step .escape d (digits ++ cs) = (q, .plain) := by
      have hc : d ≠ 'c' := by rintro rfl; cases hd
      have hC : d ≠ 'C' := by rintro rfl; cases hd
      have hM : d ≠ 'M' := by rintro rfl; cases hd
      rw [Skim.step, if_neg hc, if_neg (not_or.2 ⟨hC, hM⟩)]
    rw [List.cons_append, skim_cons (ends?_of_stage (by decide)), hplain]
    exact skim_inert (fun c hc ↦ hinert c (List.mem_cons_of_mem _ hc)) cs

/-- Where a group is closed, and what has been come upon until then, does not depend on numbers
after backslashes. -/
theorem Respelled.skim_closed {groups : Nat} {strays : Bool} (h : Respelled tail cs cs')
    (hclosed : skim q stage cs = .closed tail groups strays) :
    skim q stage cs' = .closed tail groups strays := by
  induction h generalizing q stage with
  | tail => exact hclosed
  | @char cs cs' c h ih =>
    rw [skim] at hclosed ⊢
    rw [h.step_eq]
    cases hend : q.ends? stage c cs with
    | none =>
      have hend' : q.ends? stage c cs' = none := by
        rw [ends?_eq_none] at hend ⊢
        rwa [h.setsInline_eq]
      rw [hend] at hclosed
      rw [hend']
      exact ih hclosed
    | some found =>
      -- The group is not closed yet.
      rw [hend] at hclosed
      cases hclosed
      rw [Skim.ends?] at hend
      split at hend
      · split at hend
        · cases hend
          exact absurd h.lt_length (Nat.lt_irrefl _)
        · split at hend <;> cases hend
      · cases hend
  | @number cs cs' d d' digits digits' hdigits hdigits' h ih =>
    obtain ⟨next, hnext, hstep⟩ := step_slash q stage
    have hsame {d : Char} {digits : List Char} (h : ∀ c ∈ d :: digits, isAsciiDigit c = true)
        (cs : List Char) : skim q stage ('\\' :: (d :: digits ++ cs)) = skim q .plain cs := by
      rw [skim_cons ends?_slash, List.cons_append, hstep _ (h d List.mem_cons_self)]
      exact skim_number hnext h cs
    rw [hsame hdigits] at hclosed
    rw [hsame hdigits']
    exact ih hclosed

end Numbers

def Skim.behind (n : Nat) (q : Skim) : Skim := { q with groups := q.groups + n }

def Skimmed.behind (n : Nat) : Skimmed → Skimmed
  | .closed rest groups strays => .closed rest (groups + n) strays
  | found => found

section Behind

variable (n : Nat) (q : Skim) (stage : Stage) (c : Char) (cs : List Char)

theorem ends?_behind : (q.behind n).ends? stage c cs = (q.ends? stage c cs).map (.behind n) := by
  change (if stage = .plain ∧ q.brackets = 0 then
      if c = '\x29' ∧ q.depth = 0 then some (Skimmed.closed cs (q.groups + n) q.strays)
      else if c = '\x28' ∧ setsInline cs then some Skimmed.inline
      else none
    else none) = _
  rw [Skim.ends?]
  split
  · split
    · rfl
    · split <;> rfl
  · rfl

theorem start_behind : (q.behind n).start c cs = ((q.start c cs).1.behind n, (q.start c cs).2) := by
  rw [Skim.start, Skim.start, Skim.behind]
  dsimp only
  split
  · rw [Skim.outside.eq_def, Skim.outside.eq_def]
    split
    all_goals simp [Skim.behind, Nat.add_right_comm]
  · rw [Skim.within.eq_def, Skim.within.eq_def]
    split
    case h_3 => split <;> rfl
    all_goals rfl

theorem step_behind :
    (q.behind n).step stage c cs = ((q.step stage c cs).1.behind n, (q.step stage c cs).2) := by
  cases stage with
  | plain => exact start_behind n q c cs
  | first negated =>
    rw [Skim.step, Skim.step]
    split
    · rfl
    · split
      · rfl
      · exact start_behind n q c cs
  | _ => rfl

theorem skim_behind : skim (q.behind n) stage cs = (skim q stage cs).behind n := by
  induction cs generalizing q stage with
  | nil => rfl
  | cons c cs ih =>
    rw [skim, skim, ends?_behind, step_behind]
    cases q.ends? stage c cs with
    | none => exact ih _ _
    | some found => rfl

end Behind

end SyntaxHighlight.Regex
