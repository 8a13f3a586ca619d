import WebsocketTest.Lib.Memory

/-!
# `CSendMsg` — the message every queue carries (`basetask.h`)

A message owns a copy of its body. The constructor takes the length as an `int`, so a body is
shorter than `2 ^ 31`; the field `len_lt` keeps that with the body, and it is what makes the
`unsigned int` arithmetic of the send path exact.

The peer address a message may carry is left out: nothing modelled here reads it.
-/

set_option autoImplicit false

namespace WebsocketTest

open Lib.Memory

@[ext]
structure CSendMsg where
  sendBody : List UInt8
  len_lt : sendBody.length < 2147483648
  deriving DecidableEq

namespace CSendMsg

/-- `CSendMsg(len, buf)`, copying `len` bytes from offset `buf` of `mem`. A negative `len` is
    converted to a `memcpy` size near `2 ^ 64`: there is no message, the copy runs off the end of
    every object. That case is `none`, and whoever constructs the message is undefined there. -/
def new (len : Int) (mem : Nat → UInt8) (buf : Nat) : Option CSendMsg :=
  if h : 0 ≤ len ∧ len < 2147483648 then
    some ⟨read mem buf len.toNat, by rw [length_read]; omega⟩
  else none

def getLen (m : CSendMsg) : Nat := m.sendBody.length

theorem new_eq_some {len : Int} {mem : Nat → UInt8} {buf : Nat} {m : CSendMsg} :
    new len mem buf = some m ↔
      0 ≤ len ∧ len < 2147483648 ∧ m.sendBody = read mem buf len.toNat := by
  unfold new
  split
  · rename_i h
    refine ⟨?_, ?_⟩
    · intro he
      cases he
      exact ⟨h.1, h.2, rfl⟩
    · intro he
      exact congrArg some (CSendMsg.ext he.2.2.symm)
  · rename_i h
    exact ⟨fun he => absurd he (by simp), fun he => absurd ⟨he.1, he.2.1⟩ h⟩

theorem new_of_neg {len : Int} (h : len < 0) (mem : Nat → UInt8) (buf : Nat) :
    new len mem buf = none := dif_neg (by omega)

end CSendMsg

end WebsocketTest
