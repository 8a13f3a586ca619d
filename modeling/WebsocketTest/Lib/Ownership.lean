import Mathlib.Logic.Function.Basic
import Mathlib.Tactic.Common

/-!
# Exclusive ownership

Holders `H` and resources `R`: each holder holds at most one resource, and a resource is open or
not. `Exclusive` says that the open resources are exactly the held ones, each with one holder. It
is what a program must keep if it is neither to leak a resource nor to release one twice.

There are two rules. `Exclusive.acquire`: a holder with empty hands takes a resource that was
closed. `Exclusive.release`: a holder gives up what it holds, and that is closed. A program that
takes a second resource into full hands, or forgets one, is not covered by either.

A holder that goes away without a resource changes nothing, and neither does one that comes. So the
type of holders may be larger than the holders there are: `holds` is `none` at all the others.
-/

set_option autoImplicit false

namespace Lib

universe u v

variable {H : Type u} {R : Type v}

/-- The open resources are the held ones, each held once. -/
structure Exclusive (holds : H → Option R) (opened : R → Prop) : Prop where
  opened_of_holds : ∀ h r, holds h = some r → opened r
  holder : ∀ r, opened r → ∃ h, holds h = some r
  unique : ∀ h h' r, holds h = some r → holds h' = some r → h = h'

namespace Exclusive

variable {holds : H → Option R} {opened opened' : R → Prop}

theorem existsUnique (he : Exclusive holds opened) {r : R} (hr : opened r) :
    ∃! h, holds h = some r := by
  obtain ⟨h, hh⟩ := he.holder r hr
  exact ⟨h, hh, fun h' hh' => he.unique h' h r hh' hh⟩

variable [DecidableEq H]

/-- **Acquire**: a holder with empty hands takes what was not open, and opens it. -/
theorem acquire (he : Exclusive holds opened) {h : H} {r : R} (hnone : holds h = none)
    (hr : ¬ opened r) (ho : ∀ r', opened' r' ↔ r' = r ∨ opened r') :
    Exclusive (Function.update holds h (some r)) opened' := by
  refine ⟨?_, ?_, ?_⟩
  · intro h₁ r₁ h₁r
    by_cases heq : h₁ = h
    · rw [heq, Function.update_self] at h₁r
      exact (ho r₁).mpr (.inl (Option.some.inj h₁r).symm)
    · rw [Function.update_of_ne heq] at h₁r
      exact (ho r₁).mpr (.inr (he.opened_of_holds h₁ r₁ h₁r))
  · intro r₁ hr₁
    rcases (ho r₁).mp hr₁ with rfl | hr₁
    · exact ⟨h, Function.update_self ..⟩
    · obtain ⟨h₁, hh₁⟩ := he.holder r₁ hr₁
      have hne : h₁ ≠ h := by
        intro heq
        rw [heq, hnone] at hh₁
        cases hh₁
      exact ⟨h₁, by rw [Function.update_of_ne hne, hh₁]⟩
  · have only : ∀ h₁, h₁ ≠ h → Function.update holds h (some r) h₁ ≠ some r := by
      intro h₁ hne hh₁
      rw [Function.update_of_ne hne] at hh₁
      exact hr (he.opened_of_holds h₁ r hh₁)
    intro h₁ h₂ r₁ hh₁ hh₂
    by_cases h₁r : h₁ = h
    · subst h₁r
      rw [Function.update_self] at hh₁
      cases hh₁
      by_contra hne
      exact only h₂ (Ne.symm hne) hh₂
    · by_cases h₂r : h₂ = h
      · subst h₂r
        rw [Function.update_self] at hh₂
        cases hh₂
        exact absurd hh₁ (only h₁ h₁r)
      · rw [Function.update_of_ne h₁r] at hh₁
        rw [Function.update_of_ne h₂r] at hh₂
        exact he.unique h₁ h₂ r₁ hh₁ hh₂

/-- **Release**: a holder gives up what it holds, and closes it. -/
theorem release (he : Exclusive holds opened) {h : H} {r : R} (hh : holds h = some r)
    (ho : ∀ r', opened' r' ↔ r' ≠ r ∧ opened r') :
    Exclusive (Function.update holds h none) opened' := by
  have ne_of : ∀ h₁ r₁, Function.update holds h none h₁ = some r₁ → h₁ ≠ h := by
    intro h₁ r₁ h₁r heq
    rw [heq, Function.update_self] at h₁r
    cases h₁r
  refine ⟨?_, ?_, ?_⟩
  · intro h₁ r₁ h₁r
    have hne := ne_of h₁ r₁ h₁r
    rw [Function.update_of_ne hne] at h₁r
    refine (ho r₁).mpr ⟨fun heq => hne ?_, he.opened_of_holds h₁ r₁ h₁r⟩
    exact he.unique h₁ h r (heq ▸ h₁r) hh
  · intro r₁ hr₁
    obtain ⟨hne, hr₁⟩ := (ho r₁).mp hr₁
    obtain ⟨h₁, hh₁⟩ := he.holder r₁ hr₁
    have h₁h : h₁ ≠ h := by
      intro heq
      rw [heq, hh] at hh₁
      exact hne (Option.some.inj hh₁).symm
    exact ⟨h₁, by rw [Function.update_of_ne h₁h, hh₁]⟩
  · intro h₁ h₂ r₁ hh₁ hh₂
    have h₁h := ne_of h₁ r₁ hh₁
    have h₂h := ne_of h₂ r₁ hh₂
    rw [Function.update_of_ne h₁h] at hh₁
    rw [Function.update_of_ne h₂h] at hh₂
    exact he.unique h₁ h₂ r₁ hh₁ hh₂

end Exclusive

end Lib
