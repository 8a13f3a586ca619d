import WebsocketTest.Lib.Utf8

/-!
# The UTF-8 validator

`utf8_validator.hpp`: a table with a class for each byte, and behind it one row of next states for
each state. `meaning` is what each state has seen, as a state of the reader of `Lib.Utf8`, and the
table makes the same step as the reader on every byte (`meaning_decode`). So the validator accepts
the texts, in however many calls its input comes, and refuses at the first byte that no text goes on
with (`decodeAll_spec`).

## The table is data

Nothing in the source says what its 400 numbers mean, and a single one of them may be wrong without
any text being refused that a test is likely to hold. So the table is copied as it stands, and
`table_meaning` compares all of it, state by state and byte by byte, with the reader of
`WebsocketTest/Lib/Utf8.lean`, which is written from the definition of the encoding. Everything else
is proved about the reader.

The state is kept between calls and not reset after a refusal. The caller has to look at what
`decode` returns; all callers do, and none calls again.
-/

set_option autoImplicit false

namespace WebsocketTest.WebSocket

open Lib.Utf8 Lib.Utf8.State

/-! ## The code -/

/-- `UTF8_ACCEPT` -/
def utf8Accept : Nat := 0

/-- `UTF8_REJECT` -/
def utf8Reject : Nat := 1

/-- `utf8d` -/
def utf8d : List Nat := [
  0,0,0,0,0,0,0,0,0,0,0,0,0,0,0,0,0,0,0,0,0,0,0,0,0,0,0,0,0,0,0,0, -- 00..1f
  0,0,0,0,0,0,0,0,0,0,0,0,0,0,0,0,0,0,0,0,0,0,0,0,0,0,0,0,0,0,0,0, -- 20..3f
  0,0,0,0,0,0,0,0,0,0,0,0,0,0,0,0,0,0,0,0,0,0,0,0,0,0,0,0,0,0,0,0, -- 40..5f
  0,0,0,0,0,0,0,0,0,0,0,0,0,0,0,0,0,0,0,0,0,0,0,0,0,0,0,0,0,0,0,0, -- 60..7f
  1,1,1,1,1,1,1,1,1,1,1,1,1,1,1,1,9,9,9,9,9,9,9,9,9,9,9,9,9,9,9,9, -- 80..9f
  7,7,7,7,7,7,7,7,7,7,7,7,7,7,7,7,7,7,7,7,7,7,7,7,7,7,7,7,7,7,7,7, -- a0..bf
  8,8,2,2,2,2,2,2,2,2,2,2,2,2,2,2,2,2,2,2,2,2,2,2,2,2,2,2,2,2,2,2, -- c0..df
  0xa,0x3,0x3,0x3,0x3,0x3,0x3,0x3,0x3,0x3,0x3,0x3,0x3,0x4,0x3,0x3, -- e0..ef
  0xb,0x6,0x6,0x6,0x5,0x8,0x8,0x8,0x8,0x8,0x8,0x8,0x8,0x8,0x8,0x8, -- f0..ff
  0x0,0x1,0x2,0x3,0x5,0x8,0x7,0x1,0x1,0x1,0x4,0x6,0x1,0x1,0x1,0x1, -- s0..s0
  1,1,1,1,1,1,1,1,1,1,1,1,1,1,1,1,1,0,1,1,1,1,1,0,1,0,1,1,1,1,1,1, -- s1..s2
  1,2,1,1,1,1,1,2,1,2,1,1,1,1,1,1,1,1,1,1,1,1,1,2,1,1,1,1,1,1,1,1, -- s3..s4
  1,2,1,1,1,1,1,1,1,2,1,1,1,1,1,1,1,1,1,1,1,1,1,3,1,3,1,1,1,1,1,1, -- s5..s6
  1,3,1,1,1,1,1,3,1,3,1,1,1,1,1,1,1,3,1,1,1,1,1,1,1,1,1,1,1,1,1,1] -- s7..s8

/-- What `decode` puts into `*codep`. -/
def decodeCodep (state : Nat) (codep : UInt32) (byte : UInt8) : UInt32 :=
  if state ≠ utf8Accept then (byte &&& 0x3f).toUInt32 ||| codep <<< 6
  else ((0xff : UInt32) >>> UInt32.ofNat (utf8d.getD byte.toNat 0)) &&& byte.toUInt32

/-- What `decode` puts into `*state`, and returns. -/
def decodeState (state : Nat) (byte : UInt8) : Nat :=
  utf8d.getD (256 + state * 16 + utf8d.getD byte.toNat 0) 0

/-- `validator` -/
structure Validator where
  state : Nat := utf8Accept
  codepoint : UInt32 := 0
  deriving DecidableEq, Repr

namespace Validator

/-- `utf8_validator::decode`, at the members of a validator. -/
def next (v : Validator) (byte : UInt8) : Validator :=
  ⟨decodeState v.state byte, decodeCodep v.state v.codepoint byte⟩

/-- `validator::decode`: what it returns, and the validator after it. -/
def decode (v : Validator) : List UInt8 → Bool × Validator
  | [] => (true, v)
  | b :: bs => if (v.next b).state = utf8Reject then (false, v.next b) else (v.next b).decode bs

/-- `complete` -/
def complete (v : Validator) : Bool := v.state = utf8Accept

/-- `decode` on one part of the input after the other, up to the first that it refuses. -/
def decodeAll (v : Validator) : List (List UInt8) → Bool × Validator
  | [] => (true, v)
  | s :: ss => if (v.decode s).1 then (v.decode s).2.decodeAll ss else v.decode s

end Validator

/-- `validate` -/
def validate (s : List UInt8) : Bool :=
  let r := ({} : Validator).decode s
  r.1 && r.2.complete

/-! ## What the states mean

Eight of the nine states are states of the reader: how many bytes of a character are still to come,
and between which bounds the next of them has to be. The ninth is `UTF8_REJECT`. -/

/-- What a state has seen; nothing goes on from `UTF8_REJECT`. -/
def meaning : Nat → Option State
  | 0 => some start
  | 2 => some (inside 0 0x80 0xBF)
  | 3 => some (inside 1 0x80 0xBF)
  | 4 => some (inside 1 0xA0 0xBF)
  | 5 => some (inside 1 0x80 0x9F)
  | 6 => some (inside 2 0x90 0xBF)
  | 7 => some (inside 2 0x80 0xBF)
  | 8 => some (inside 2 0x80 0x8F)
  | _ => none

/-- The table, entry by entry: the next state means what the reader makes of the byte. This is the
    one place where the numbers are looked at. -/
theorem table_meaning : ∀ state < 9, ∀ n < 256,
    meaning (decodeState state (UInt8.ofNat n)) =
        ((meaning state).bind fun q => step q (UInt8.ofNat n)) ∧
      decodeState state (UInt8.ofNat n) < 9 := by
  decide +kernel

/-- **The table makes the step of the reader.** -/
theorem meaning_decode {state : Nat} (h : state < 9) (b : UInt8) :
    meaning (decodeState state b) = ((meaning state).bind fun q => step q b) ∧
      decodeState state b < 9 := by
  have htable := table_meaning state h b.toNat b.toNat_lt
  rwa [UInt8.ofNat_toNat] at htable

namespace Validator

/-- The validator has seen what the reader in state `q` has. -/
def At (v : Validator) (q : State) : Prop := v.state < 9 ∧ meaning v.state = some q

variable {v : Validator} {q q' : State} {b : UInt8} {bs : List UInt8}

theorem at_new : ({} : Validator).At start := ⟨by decide, rfl⟩

theorem At.complete_iff (h : v.At q) : v.complete = true ↔ q = start := by
  obtain ⟨hlt, hq⟩ := h
  rw [complete, decide_eq_true_iff]
  constructor
  · intro hz
    rw [hz] at hq
    exact (Option.some.inj hq).symm
  · rintro rfl
    generalize v.state = s at hlt hq
    have hall : ∀ s < 9, meaning s = some start → s = utf8Accept := by decide
    exact hall s hlt hq

theorem At.next (h : v.At q) (hstep : step q b = some q') :
    (v.next b).At q' ∧ (v.next b).state ≠ utf8Reject := by
  obtain ⟨hmeaning, hlt⟩ := meaning_decode h.1 b
  rw [h.2] at hmeaning
  have hq' : meaning (v.next b).state = some q' := hmeaning.trans hstep
  refine ⟨⟨hlt, hq'⟩, ?_⟩
  intro hz
  rw [hz] at hq'
  cases hq'

theorem At.next_none (h : v.At q) (hstep : step q b = none) : (v.next b).state = utf8Reject := by
  obtain ⟨hmeaning, hlt⟩ := meaning_decode h.1 b
  rw [h.2] at hmeaning
  have hnone : meaning (v.next b).state = none := hmeaning.trans hstep
  have hlt' : (v.next b).state < 9 := hlt
  generalize (v.next b).state = s at hlt' hnone
  have hall : ∀ s < 9, meaning s = none → s = utf8Reject := by decide
  exact hall s hlt' hnone

/-- **`decode` runs the reader**, where the reader gets to the end of the input. -/
theorem At.decode (h : v.At q) (hrun : run q bs = some q') :
    (v.decode bs).1 = true ∧ (v.decode bs).2.At q' := by
  induction bs generalizing v q with
  | nil =>
    cases hrun
    exact ⟨rfl, h⟩
  | cons b bs ih =>
    rw [run_cons, Option.bind_eq_some_iff] at hrun
    obtain ⟨q₁, hstep, hrun⟩ := hrun
    obtain ⟨hnext, hne⟩ := h.next hstep
    rw [Validator.decode, if_neg hne]
    exact ih hnext hrun

/-- It refuses where the reader stops, and there only, since the two make the same steps. -/
theorem At.decode_none (h : v.At q) (hrun : run q bs = none) : (v.decode bs).1 = false := by
  induction bs generalizing v q with
  | nil => cases hrun
  | cons b bs ih =>
    rw [run_cons] at hrun
    cases hstep : step q b with
    | none => rw [Validator.decode, if_pos (h.next_none hstep)]
    | some q₁ =>
      rw [hstep] at hrun
      obtain ⟨hnext, hne⟩ := h.next hstep
      rw [Validator.decode, if_neg hne]
      exact ih hnext hrun

theorem At.decode_iff (h : v.At q) : (v.decode bs).1 = true ↔ ∃ q', run q bs = some q' := by
  cases hrun : run q bs with
  | none => simp [h.decode_none hrun]
  | some q' => simp [(h.decode hrun).1]

/-- A text may be cut anywhere, in the middle of a character too: the second call goes on in the
    state that the first one ended in. -/
theorem decode_append (v : Validator) (bs cs : List UInt8) :
    v.decode (bs ++ cs) =
      if (v.decode bs).1 then (v.decode bs).2.decode cs else v.decode bs := by
  induction bs generalizing v with
  | nil => rfl
  | cons b bs ih =>
    rw [List.cons_append, Validator.decode, Validator.decode]
    split
    · rfl
    · exact ih _

theorem decodeAll_eq (v : Validator) (ss : List (List UInt8)) :
    v.decodeAll ss = v.decode ss.flatten := by
  induction ss generalizing v with
  | nil => rfl
  | cons s ss ih => rw [decodeAll, List.flatten_cons, decode_append, ih]

theorem decode_iff : (({} : Validator).decode bs).1 = true ↔ ∃ rest cs, bs ++ rest = encode cs := by
  rw [at_new.decode_iff, exists_run_iff]

theorem decode_complete_iff :
    (({} : Validator).decode bs).1 = true ∧ (({} : Validator).decode bs).2.complete = true ↔
      ∃ cs, bs = encode cs := by
  rw [← run_eq_start_iff]
  cases hrun : run start bs with
  | none => simp [at_new.decode_none hrun]
  | some q =>
    obtain ⟨hok, hat⟩ := at_new.decode hrun
    simp [hok, hat.complete_iff]

end Validator

/-- `validate` accepts the texts: it asks for a whole character at the end, where `decode` does
    not. -/
theorem validate_iff {s : List UInt8} : validate s = true ↔ ∃ cs, s = encode cs := by
  rw [validate, Bool.and_eq_true]
  exact Validator.decode_complete_iff

/-- **UTF-8**: the validator accepts what begins a text, and it is complete where the text is, in
    however many parts the text comes. -/
theorem decodeAll_spec (ss : List (List UInt8)) :
    ((({} : Validator).decodeAll ss).1 = true ↔ ∃ rest cs, ss.flatten ++ rest = encode cs) ∧
      ((({} : Validator).decodeAll ss).1 = true ∧
          (({} : Validator).decodeAll ss).2.complete = true ↔
        ∃ cs, ss.flatten = encode cs) := by
  rw [Validator.decodeAll_eq]
  exact ⟨Validator.decode_iff, Validator.decode_complete_iff⟩

end WebsocketTest.WebSocket
