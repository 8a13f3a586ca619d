import Mathlib.Tactic.Common

/-!
# Runs of a step relation

A system is a relation `step s l t`: in state `s`, the step labelled `l` can lead to `t`. `Steps`
is its runs, with the labels in order, and two rules are the inductions over runs that the
developments on top need: `Steps.invariant` (what every step preserves holds wherever a run leads)
and `Steps.simulate` (what one system can do, another can do with it).

`guard` restricts a system to the steps that meet a condition on the state before the step and
on the step itself, so that "a run whose steps all meet the condition" is a run of the guarded
system and no second notion of run is needed.
-/

set_option autoImplicit false

namespace Lib.Run

universe u v w

variable {S : Type u} {L : Type v}

/-- The runs of a step relation: no step, or one and then a run. -/
inductive Steps (step : S → L → S → Prop) : S → List L → S → Prop
  | nil (s : S) : Steps step s [] s
  | cons {s t u : S} {l : L} {ls : List L} (head : step s l t) (tail : Steps step t ls u) :
      Steps step s (l :: ls) u

/-- The steps of `step` that meet `ok`. -/
def guard (ok : S → L → Prop) (step : S → L → S → Prop) : S → L → S → Prop :=
  fun s l t => ok s l ∧ step s l t

/-- The step relation of a function: a label the function refuses is no step. -/
def ofFn (f : S → L → Option S) : S → L → S → Prop := fun s l t => f s l = some t

namespace Steps

variable {step : S → L → S → Prop}

theorem single {s t : S} {l : L} (h : step s l t) : Steps step s [l] t := .cons h (.nil t)

theorem append {s t u : S} {ls ms : List L} (h₁ : Steps step s ls t) (h₂ : Steps step t ms u) :
    Steps step s (ls ++ ms) u := by
  induction h₁ with
  | nil => exact h₂
  | cons head _ ih => exact .cons head (ih h₂)

/-- A system that can do every step of another has its runs. -/
theorem mono {step' : S → L → S → Prop} (hstep : ∀ s l t, step s l t → step' s l t) {s t : S}
    {ls : List L} (h : Steps step s ls t) : Steps step' s ls t := by
  induction h with
  | nil => exact .nil _
  | cons head _ ih => exact .cons (hstep _ _ _ head) ih

/-- **What every step preserves holds in every state a run reaches.** -/
theorem invariant {P : S → Prop} (hstep : ∀ s l t, P s → step s l t → P t) {s t : S}
    {ls : List L} (h : Steps step s ls t) (hs : P s) : P t := by
  induction h with
  | nil => exact hs
  | cons head _ ih => exact ih (hstep _ _ _ hs head)

/-- **Two systems that agree where an invariant holds** have the same runs from there. -/
theorem mono_on {step' : S → L → S → Prop} {P : S → Prop}
    (hstep : ∀ s l t, P s → step s l t → step' s l t ∧ P t) {s t : S} {ls : List L}
    (h : Steps step s ls t) (hs : P s) : Steps step' s ls t := by
  induction h with
  | nil => exact .nil _
  | cons head _ ih =>
    obtain ⟨head', ht⟩ := hstep _ _ _ hs head
    exact .cons head' (ih ht)

/-- **Simulation.** If every step can be answered by a step of another system with the same label,
    and the answer leads to related states again, every run can. -/
theorem simulate {T : Type w} {step' : T → L → T → Prop} {R : S → T → Prop}
    (hstep : ∀ s l t a, R s a → step s l t → ∃ b, step' a l b ∧ R t b) {s t : S} {ls : List L}
    {a : T} (h : Steps step s ls t) (hs : R s a) : ∃ b, Steps step' a ls b ∧ R t b := by
  induction h generalizing a with
  | nil => exact ⟨a, .nil a, hs⟩
  | cons head _ ih =>
    obtain ⟨b, hb, hR⟩ := hstep _ _ _ _ hs head
    obtain ⟨c, hc, hR'⟩ := ih hR
    exact ⟨c, .cons hb hc, hR'⟩

end Steps

end Lib.Run
