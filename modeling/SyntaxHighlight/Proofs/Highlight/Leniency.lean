import Mathlib
import SyntaxHighlight.Proofs.Highlight.History
import SyntaxHighlight.Proofs.Highlight.Parallel

/-! What succeeds by strict rules comes out the same by lenient ones, which are asked only where
strict ones fail. -/
namespace SyntaxHighlight

/-- More may be excused. -/
theorem Leeway.Embeds.mono {excused excused' : ScanError → Prop} {W : Nat → Nat → Prop}
    {l l' : Languages} {sub : SubLanguage} (h : (weighing excused W).Embeds l l' sub)
    (hexcused : ∀ err, excused err → excused' err) : (weighing excused' W).Embeds l l' sub := by
  cases sub with
  | fixed name =>
    obtain ⟨hknown, hresults⟩ := h
    exact ⟨hknown, fun hname text c ↦ (hresults hname text c).mono (fun _ ↦ hexcused _) fun _ _ ↦ id⟩
  | detect names => exact fun text ↦ (h text).mono (fun _ ↦ hexcused _) fun _ _ ↦ id

namespace Highlighter

variable {h : Highlighter}

/-- A strict highlighter that has not found illegal text has scanned all of it. -/
theorem exists_scanned (hstrict : h.settings.safeMode = false) {l : Languages}
    {language code : String} {ignoreIllegals : Bool} {c : Option Continuation}
    {r : HighlightResult} (hr : h.highlightWith l language code ignoreIllegals c = .ok r)
    (hlegal : r.illegal = false) :
    ∃ loaded output, h.registry.load language = .ok loaded ∧
      (ScanSetting.mk loaded (h.scanOptions ignoreIllegals) l (.ofString code)).run c =
        .ok output ∧ h.scanned language code output = r := by
  obtain ⟨loaded, hload, hr⟩ := bind_eq_ok.1 hr
  split at hr
  · rename_i output hrun
    cases hr
    exact ⟨loaded, output, hload, hrun, rfl⟩
  · rename_i err _
    exfalso
    cases err with
    | illegal message offset mode =>
      cases hr
      cases hlegal
    | _ => simp [settle, hstrict] at hr

theorem parallel_withSafeMode (hregistry : h.registry.safeMode = false)
    (hsettings : h.settings.safeMode = false) (safeMode : Bool) :
    h.Parallel True (· = ·) (fun _ ↦ True) (h.withSafeMode safeMode) where
  names := rfl
  isKnown _ := rfl
  supersetOf := rfl
  candidates _ := rfl
  load name _ := Registry.agree_load_withSafeMode hregistry safeMode name
  within _ _ _ _ _ _ _ := ⟨fun _ _ ↦ trivial, fun _ _ _ _ ↦ id⟩
  classPrefix := rfl
  maxIterations := rfl
  autodetectIgnoreIllegals := rfl
  safeMode := .inr trivial
  strict _ := hsettings
  refl _ := rfl
  add := by
    rintro n _ k _ rfl rfl
    rfl
  hit := by
    rintro n _ hits k rfl
    rfl

variable {settings : Settings} {changes : List Registry.Change}

end Highlighter

end SyntaxHighlight
