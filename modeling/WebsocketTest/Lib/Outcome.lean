import Mathlib.Tactic.Common

/-!
# What a program with exceptions comes to

A program changes a state, and returns or throws. Seen through an abstraction `R` of its states,
`Comes R m a r b` says what it comes to from the abstract state `a`: the result `r` and the abstract
state `b`, from *every* state that `a` stands for. So whatever `R` leaves out of a state has no
influence. One program after the other is `Comes.bind`.

The result is one value and not a condition on it. A program that may return one thing or another,
by something that `R` leaves out, has no such judgement, and that is the point: to have one is to be
a function of the abstract state.

An exception keeps the state it was thrown in, as it does in C++, where nothing is undone but what
destructors undo.
-/

set_option autoImplicit false

namespace Lib.Outcome

universe u v

variable {σ ε β γ : Type u} {A : Type v}

/-- A program on the states `σ`: it throws an `ε` or returns a `β`, and changes the state in either
    case. -/
abbrev Program (σ ε : Type u) (β : Type u) := ExceptT ε (StateM σ) β

/-- A function of the state, as a program. -/
def program (f : σ → Except ε β × σ) : Program σ ε β := ExceptT.mk f

/-- A program, with what it throws as a result. -/
def attempt (m : Program σ ε β) : Program σ ε (Except ε β) :=
  program fun s => (.ok (m.run.run s).1, (m.run.run s).2)

@[simp] theorem run_program (f : σ → Except ε β × σ) (s : σ) : (program f).run.run s = f s := rfl

variable {R : σ → A → Prop}

/-- From every state that `a` stands for, `m` comes to `r`, in a state that `b` stands for. -/
def Comes (R : σ → A → Prop) (m : Program σ ε β) (a : A) (r : Except ε β) (b : A) : Prop :=
  ∀ s, R s a → ∃ t, m.run.run s = (r, t) ∧ R t b

namespace Comes

variable {m : Program σ ε β} {f : β → Program σ ε γ} {a b c : A}

theorem pure (x : β) : Comes R (pure x : Program σ ε β) a (.ok x) a :=
  fun s hs => ⟨s, rfl, hs⟩

theorem throw (e : ε) : Comes R (throw e : Program σ ε β) a (.error e) a :=
  fun s hs => ⟨s, rfl, hs⟩

/-- **One program after the other**: the second starts in what the first comes to. -/
theorem bind {x : β} {r : Except ε γ} (hm : Comes R m a (.ok x) b) (hf : Comes R (f x) b r c) :
    Comes R (m >>= f) a r c := by
  intro s hs
  obtain ⟨t, hst, ht⟩ := hm s hs
  obtain ⟨u, htu, hu⟩ := hf t ht
  refine ⟨u, ?_, hu⟩
  rw [← htu, ExceptT.run_bind]
  change StateT.run (m.run >>= _) s = _
  rw [StateT.run_bind, hst]
  rfl

/-- What is thrown ends the program, and the rest of it changes nothing. -/
theorem bind_error {e : ε} (hm : Comes R m a (.error e) b) : Comes R (m >>= f) a (.error e) b := by
  intro s hs
  obtain ⟨t, hst, ht⟩ := hm s hs
  refine ⟨t, ?_, ht⟩
  rw [ExceptT.run_bind]
  change StateT.run (m.run >>= _) s = _
  rw [StateT.run_bind, hst]
  rfl

theorem map {g : β → γ} {x : β} (hm : Comes R m a (.ok x) b) :
    Comes R (g <$> m) a (.ok (g x)) b := by
  rw [map_eq_pure_bind]
  exact hm.bind (pure (g x))

theorem map_error {g : β → γ} {e : ε} (hm : Comes R m a (.error e) b) :
    Comes R (g <$> m) a (.error e) b := by
  rw [map_eq_pure_bind]
  exact hm.bind_error

theorem attempt {r : Except ε β} (hm : Comes R m a r b) :
    Comes R (attempt m) a (.ok r) b := by
  intro s hs
  obtain ⟨t, hst, ht⟩ := hm s hs
  exact ⟨t, by simp only [Lib.Outcome.attempt, run_program, hst], ht⟩

end Comes

end Lib.Outcome
