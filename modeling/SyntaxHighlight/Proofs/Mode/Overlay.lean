import SyntaxHighlight.Grammar.Template

/-!
Laying variants over modes. The fields of a mode are of two kinds, those that may be left out and
those that are on or off, and a kind of field is laid over in one way; only what a mode contains and
its variants are neither.
-/
namespace SyntaxHighlight.Mode

inductive Setting : Type → Type
  | scope : Setting Scope
  | className : Setting String
  | beginScope : Setting Scope
  | endScope : Setting Scope
  | begin : Setting Boundary
  | ending : Setting Boundary
  | matching : Setting Boundary
  | beforeMatch : Setting String
  | beginKeywords : Setting String
  | keywords : Setting Keywords
  | illegal : Setting Illegal
  | starts : Setting Mode
  | relevance : Setting Nat
  | subLanguage : Setting SubLanguage
  | onBegin : Setting Callback
  | onEnd : Setting Callback

def get? (m : Mode) {α : Type} : Setting α → Option α
  | .scope => m.scope
  | .className => m.className
  | .beginScope => m.beginScope
  | .endScope => m.endScope
  | .begin => m.begin
  | .ending => m.ending
  | .matching => m.matching
  | .beforeMatch => m.beforeMatch
  | .beginKeywords => m.beginKeywords
  | .keywords => m.keywords
  | .illegal => m.illegal
  | .starts => m.starts
  | .relevance => m.relevance
  | .subLanguage => m.subLanguage
  | .onBegin => m.onBegin
  | .onEnd => m.onEnd

inductive Flag where
  | excludeBegin
  | excludeEnd
  | returnBegin
  | returnEnd
  | endsWithParent
  | endsParent
  | skip
deriving DecidableEq, Repr

def isOn (m : Mode) : Flag → Bool
  | .excludeBegin => m.excludeBegin
  | .excludeEnd => m.excludeEnd
  | .returnBegin => m.returnBegin
  | .returnEnd => m.returnEnd
  | .endsWithParent => m.endsWithParent
  | .endsParent => m.endsParent
  | .skip => m.skip

def withoutVariants (m : Mode) : Mode := { m with variants := [] }

/-- The modes that take the place of a mode: its variants laid over it, if it has any. -/
def forms (m : Mode) : List Mode :=
  if m.variants.isEmpty then [m] else m.variants.map m.overlay

variable {m m' : Mode}

theorem forms_of_ne_nil (h : m.variants ≠ []) : m.forms = m.variants.map m.overlay := by
  rw [forms, if_neg (by simpa using h)]

theorem ext_fields (hsettings : ∀ {α : Type} (f : Setting α), m.get? f = m'.get? f)
    (hflags : ∀ f, m.isOn f = m'.isOn f) (hcontains : m.contains = m'.contains)
    (hvariants : m.variants = m'.variants) : m = m' := by
  cases m
  cases m'
  rw [mk.injEq]
  exact ⟨hsettings .scope, hsettings .className, hsettings .beginScope, hsettings .endScope,
    hsettings .begin, hsettings .ending, hsettings .matching, hsettings .beforeMatch,
    hsettings .beginKeywords, hsettings .keywords, hsettings .illegal, hcontains,
    hsettings .starts, hvariants, hsettings .relevance, hflags .excludeBegin, hflags .excludeEnd,
    hflags .returnBegin, hflags .returnEnd, hflags .endsWithParent, hflags .endsParent,
    hflags .skip, hsettings .subLanguage, hsettings .onBegin, hsettings .onEnd⟩

section Overlay

variable (base variant : Mode)

theorem get?_overlay {α : Type} (f : Setting α) :
    (base.overlay variant).get? f = (variant.get? f).or (base.get? f) := by
  cases f <;> exact Option.or_eq_orElse.symm

theorem isOn_overlay (f : Flag) :
    (base.overlay variant).isOn f = (variant.isOn f || base.isOn f) := by
  cases f <;> rfl

theorem contains_overlay : (base.overlay variant).contains =
    if variant.contains = [] then base.contains else variant.contains := by
  simp [overlay]

/-- A mode that is a variant where that says something, and what it is a variant of elsewhere. -/
structure LaidOver (m base variant : Mode) : Prop where
  settings : ∀ {α : Type} (f : Setting α), m.get? f = (variant.get? f).or (base.get? f)
  flags : ∀ f, m.isOn f = (variant.isOn f || base.isOn f)
  contains : m.contains = if variant.contains = [] then base.contains else variant.contains
  variants : m.variants = []

theorem laidOver_overlay : (base.overlay variant).LaidOver base variant where
  settings := get?_overlay base variant
  flags := isOn_overlay base variant
  contains := contains_overlay base variant
  variants := rfl

end Overlay

/-- Of several variants laid over each other it does not matter which are taken together first. -/
theorem overlay_assoc (a b c : Mode) : (a.overlay b).overlay c = a.overlay (b.overlay c) := by
  apply ext_fields
  · intro α f
    simp only [get?_overlay, Option.or_assoc]
  · intro f
    simp only [isOn_overlay, Bool.or_assoc]
  · simp only [contains_overlay]
    by_cases hc : c.contains = []
    · simp [hc]
    · simp [hc]
  · rfl

theorem get?_empty {α : Type} (f : Setting α) : ({} : Mode).get? f = none := by
  cases f <;> rfl

theorem isOn_empty (f : Flag) : ({} : Mode).isOn f = false := by
  cases f <;> rfl

theorem get?_withoutVariants (m : Mode) {α : Type} (f : Setting α) :
    m.withoutVariants.get? f = m.get? f := by
  cases f <;> rfl

theorem isOn_withoutVariants (m : Mode) (f : Flag) : m.withoutVariants.isOn f = m.isOn f := by
  cases f <;> rfl

theorem overlay_empty (m : Mode) : m.overlay {} = m.withoutVariants := by
  apply ext_fields
  · intro α f
    simp [get?_overlay, get?_empty, get?_withoutVariants]
  · intro f
    simp [isOn_overlay, isOn_empty, isOn_withoutVariants]
  · simp [contains_overlay, withoutVariants]
  · rfl

theorem empty_overlay (m : Mode) : Mode.overlay {} m = m.withoutVariants := by
  apply ext_fields
  · intro α f
    simp [get?_overlay, get?_empty, get?_withoutVariants]
  · intro f
    simp [isOn_overlay, isOn_empty, isOn_withoutVariants]
  · by_cases h : m.contains = []
    · simp [contains_overlay, withoutVariants, h]
    · simp [contains_overlay, withoutVariants, h]
  · rfl

end SyntaxHighlight.Mode
