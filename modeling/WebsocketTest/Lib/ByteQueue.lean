import Mathlib.Tactic.Common

/-!
# A queue that is read in pieces

What a byte buffer is for, with no bytes and no buffer in it: a list that is appended to at the
back and taken from the front in pieces of any size. `QueueOp.apply` is the meaning of an
operation, what it answers and what the queue is afterwards; an implementation may refuse an
operation, and then the queue is what it was (`Acts`).

When it may refuse is left to the implementation, since that depends on its room and not on the
queue. To take or to look at more than there is has a meaning here, all there is, but no
implementation need give that answer.
-/

set_option autoImplicit false

namespace Lib.ByteQueue

universe u

variable {α : Type u}

inductive QueueOp (α : Type u)
  | replace (xs : List α)
  | append (xs : List α)
  /-- take `n` from the front -/
  | take (n : Nat)
  /-- look at `n` at the front -/
  | peek (n : Nat)
  /-- drop up to `n` from the front -/
  | drop (n : Nat)
  | keep
  | clear

/-- What an operation answers, and the queue after it. -/
def QueueOp.apply : QueueOp α → List α → List α × List α
  | .replace xs, _ => ([], xs)
  | .append xs, q => ([], q ++ xs)
  | .take n, q => (q.take n, q.drop n)
  | .peek n, q => (q.take n, q)
  | .drop n, q => ([], q.drop n)
  | .keep, q => ([], q)
  | .clear, _ => ([], [])

/-- The operation was refused, or did what it means. -/
def Acts (q : List α) (l : QueueOp α × Option (List α)) (q' : List α) : Prop :=
  match l.2 with
  | none => q' = q
  | some out => l.1.apply q = (out, q')

end Lib.ByteQueue
