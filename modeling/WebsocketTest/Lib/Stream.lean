import WebsocketTest.Lib.Outcome

/-!
# A stream that arrives in pieces

The reader of a blocking stream gets what has arrived, at least one element and at most as many as
it asks for. How many have arrived at each of its calls, and which of its calls are interrupted, is
no choice of the reader's: the schedule is a part of the source, `polls`, and what holds for every
source holds for every schedule.

A reader is a state transformer of the source that returns or throws. `Reads η m xs r ys` says what
it comes to on a source with `xs` left to come and the ending `η`: the result `r`, with `ys` left,
under *every* schedule. It composes (`Reads.bind`), and a reader that has such a judgement for every
`xs` and `η` is `Scheduleless`: what it returns and what it leaves are functions of the stream.
-/

set_option autoImplicit false

namespace Lib.Stream

open Lib.Outcome

universe u

variable {α ε η β γ : Type u}

/-- What goes before a call returns: it is interrupted, or `count` more elements have arrived since
    the last. -/
inductive Poll
  | interrupted
  | arrived (count : Nat)
  deriving DecidableEq, Repr

/-- The receiving end of a stream. `input` is all that is left to come, of which the first `ready`
    have arrived; `ending` is what comes after it, an error or the end. -/
structure Source (α η : Type u) where
  input : List α
  ready : Nat
  polls : List Poll
  ending : Option η

/-- What a call returns. An empty `data` is the end of the stream. -/
inductive Received (α η : Type u)
  | interrupted
  | failed (error : η)
  | data (xs : List α)

namespace Source

/-- What comes at the end of the stream. -/
def ended (s : Source α η) : Received α η :=
  match s.ending with
  | none => .data []
  | some error => .failed error

/-- A call that gets `n` elements at most, and takes them unless it only peeks. It waits for the
    first. -/
def deliver (n : Nat) (peek : Bool) (count : Nat) (s : Source α η) :
    Received α η × Source α η :=
  if s.input.isEmpty then (s.ended, s)
  else
    let ready := min (max 1 (s.ready + count)) s.input.length
    let got := s.input.take (min n ready)
    if peek then (.data got, { s with ready := ready })
    else (.data got, { s with input := s.input.drop (min n ready), ready := ready - min n ready })

def recv (n : Nat) (peek : Bool) (s : Source α η) : Received α η × Source α η :=
  match s.polls with
  | [] => s.deliver n peek 0
  | .interrupted :: polls => (.interrupted, { s with polls := polls })
  | .arrived count :: polls => deliver n peek count { s with polls := polls }

end Source

/-! ## What a call comes to -/

/-- A call gets the elements `got` of `s`, and all that it asks for if so many have arrived. -/
structure Piece (n : Nat) (s : Source α η) (got : List α) : Prop where
  start : got <+: s.input
  nonempty : got ≠ []
  length_le : got.length ≤ n
  length_eq : n ≤ s.ready → n ≤ s.input.length → got.length = n

/-- The stream after a call that got `got`. What was only peeked at has arrived. -/
structure After (peek : Bool) (s : Source α η) (got : List α) (s' : Source α η) : Prop where
  input : s'.input = if peek then s.input else s.input.drop got.length
  ending : s'.ending = s.ending
  ready : peek → got.length ≤ s'.ready

variable {s : Source α η} {n : Nat}

theorem deliver_spec (hn : 0 < n) (peek : Bool) (count : Nat) (hne : s.input ≠ []) :
    ∃ got s', s.deliver n peek count = (.data got, s') ∧ Piece n s got ∧ After peek s got s' := by
  have hlen : 0 < s.input.length := List.length_pos_iff.mpr hne
  have hempty : s.input.isEmpty = false := by simpa using hne
  rw [Source.deliver, hempty]
  generalize hready : min (max 1 (s.ready + count)) s.input.length = ready
  have hpos : 0 < min n ready := by omega
  have hle : min n ready ≤ s.input.length := by omega
  have hpiece : Piece n s (s.input.take (min n ready)) :=
    { start := List.take_prefix _ _
      nonempty := by
        intro h
        have := congrArg List.length h
        rw [List.length_take_of_le hle, List.length_nil] at this
        omega
      length_le := by
        rw [List.length_take_of_le hle]
        exact Nat.min_le_left _ _
      length_eq := by
        intro h₁ h₂
        rw [List.length_take_of_le hle]
        omega }
  cases peek with
  | true =>
    refine ⟨_, _, rfl, hpiece, rfl, rfl, fun _ => ?_⟩
    rw [List.length_take_of_le hle]
    exact Nat.min_le_right _ _
  | false =>
    refine ⟨_, _, rfl, hpiece, ?_, rfl, fun h => by cases h⟩
    simp [List.length_take_of_le hle]

theorem deliver_ended (peek : Bool) (count : Nat) (hnil : s.input = []) :
    s.deliver n peek count = (s.ended, s) := by
  rw [Source.deliver, hnil]
  rfl

theorem recv_interrupted {peek : Bool} {s' : Source α η}
    (h : s.recv n peek = (.interrupted, s')) :
    s'.polls.length < s.polls.length ∧ s'.input = s.input ∧ s'.ending = s.ending ∧
      s'.ready = s.ready := by
  have hdeliver (t : Source α η) (count : Nat) : (t.deliver n peek count).1 ≠ .interrupted := by
    rw [Source.deliver, Source.ended]
    split
    · cases t.ending <;> simp
    · cases peek <;> simp
  rw [Source.recv] at h
  split at h
  · exact absurd (congrArg Prod.fst h) (hdeliver _ _)
  · rename_i polls hpolls
    cases h
    exact ⟨by simp [hpolls], rfl, rfl, rfl⟩
  · exact absurd (congrArg Prod.fst h) (hdeliver _ _)

/-- **A call on a stream that is not at its end** is interrupted, or gets a piece of it. -/
theorem recv_spec (hn : 0 < n) (peek : Bool) (hne : s.input ≠ []) :
    (s.recv n peek).1 = .interrupted ∨
      ∃ got, (s.recv n peek).1 = .data got ∧ Piece n s got ∧
        After peek s got (s.recv n peek).2 := by
  rw [Source.recv]
  split
  · obtain ⟨got, s', h, hpiece, hafter⟩ := deliver_spec hn peek 0 hne
    rw [h]
    exact .inr ⟨got, rfl, hpiece, hafter⟩
  · exact .inl rfl
  · rename_i count polls hpolls
    obtain ⟨got, s', h, hpiece, hafter⟩ :=
      deliver_spec (s := { s with polls := polls }) hn peek count hne
    rw [h]
    exact .inr ⟨got, rfl, ⟨hpiece.start, hpiece.nonempty, hpiece.length_le, hpiece.length_eq⟩,
      ⟨hafter.input, hafter.ending, hafter.ready⟩⟩

/-- **A call at the end of a stream** is interrupted, or gets the ending. -/
theorem recv_ended (peek : Bool) (hnil : s.input = []) :
    (s.recv n peek).1 = .interrupted ∨
      (s.recv n peek).1 = s.ended ∧ (s.recv n peek).2.input = [] ∧
        (s.recv n peek).2.ending = s.ending := by
  rw [Source.recv]
  split
  · rw [deliver_ended peek 0 hnil]
    exact .inr ⟨rfl, hnil, rfl⟩
  · exact .inl rfl
  · rename_i count polls hpolls
    rw [deliver_ended (s := { s with polls := polls }) peek count hnil]
    exact .inr ⟨rfl, hnil, rfl⟩

/-! ## Readers -/

/-- A computation that reads a stream, and may throw. -/
abbrev Reader (α η ε : Type u) (β : Type u) := Program (Source α η) ε β

/-- What is left of the stream is `xs`, and then its ending. -/
def Left (ending : Option η) (s : Source α η) (xs : List α) : Prop :=
  s.input = xs ∧ s.ending = ending

/-- On a stream with `xs` to come and then the ending, the reader comes to `r` and leaves `ys`,
    however the stream arrives. -/
abbrev Reads (ending : Option η) (m : Reader α η ε β) (xs : List α) (r : Except ε β)
    (ys : List α) : Prop :=
  Comes (Left ending) m xs r ys

/-- What the reader comes to does not depend on how the stream arrives. -/
def Scheduleless (m : Reader α η ε β) : Prop :=
  ∀ (ending : Option η) (xs : List α), ∃ r ys, Reads ending m xs r ys

variable {ending : Option η} {m : Reader α η ε β} {f : β → Reader α η ε γ} {xs ys zs : List α}

namespace Scheduleless

theorem pure (b : β) : Scheduleless (pure b : Reader α η ε β) :=
  fun _ _ => ⟨_, _, Comes.pure b⟩

theorem throw (e : ε) : Scheduleless (throw e : Reader α η ε β) :=
  fun _ _ => ⟨_, _, Comes.throw e⟩

theorem bind (hm : Scheduleless m) (hf : ∀ b, Scheduleless (f b)) : Scheduleless (m >>= f) := by
  intro ending xs
  obtain ⟨r, ys, h⟩ := hm ending xs
  cases r with
  | error e => exact ⟨_, _, h.bind_error⟩
  | ok b =>
    obtain ⟨r, zs, h'⟩ := hf b ending ys
    exact ⟨r, zs, h.bind h'⟩

theorem ite {c : Prop} [Decidable c] {m' : Reader α η ε β} (hm : Scheduleless m)
    (hm' : Scheduleless m') : Scheduleless (if c then m else m') := by
  split
  · exact hm
  · exact hm'

/-- **The schedule does not matter**: on two sources of the same stream the reader comes to the
    same. -/
theorem agree (h : Scheduleless m) {s t : Source α η} (hinput : s.input = t.input)
    (hending : s.ending = t.ending) :
    (m.run.run s).1 = (m.run.run t).1 ∧ (m.run.run s).2.input = (m.run.run t).2.input := by
  obtain ⟨r, ys, hr⟩ := h t.ending t.input
  obtain ⟨s', hs, hs', -⟩ := hr s ⟨hinput, hending⟩
  obtain ⟨t', ht, ht', -⟩ := hr t ⟨rfl, rfl⟩
  rw [hs, ht]
  exact ⟨rfl, hs'.trans ht'.symm⟩

end Scheduleless

end Lib.Stream
