import WebsocketTest.Buffer.Content

/-!
# The bound checks, for every 32-bit length

`Append`, `Get`, `Copy` and `Jump` add a length to a cursor and compare the sum. Both are `unsigned
int`, so the sum is taken modulo `2 ^ 32`, and a length that is nearly that large passes the check
as if it were a small one. Such lengths are not far-fetched: a negative `int` is one when it is
passed as an `unsigned int`.

**`checked_iff`** — a call does what its check is for exactly if the sum does not wrap, and as long
as none does the cursors stay in order and inside the array. With a sum that wraps, `Append` takes
what does not fit, `Get` and `Copy` hand out what is not there, and `Jump` goes back.

This is `Content.lean` without its bound on the lengths. There every call is looked at as an
operation on a queue; here only what it answers and where it leaves the cursors, which is what the
checks are about, and which still has a meaning when a call reads or writes outside the array.
-/

set_option autoImplicit false

namespace WebsocketTest

open Lib.Memory Lib.Integers Lib.Run

/-- The length of the call is one that an `unsigned int` holds. -/
def BufferOp.Fits : BufferOp → Prop
  | setBuffer p | set p | append p => p.length < 4294967296
  | getType n | get n | copy n | jump n => n < 4294967296
  | alignBuf | clear => True

instance (op : BufferOp) : Decidable op.Fits :=
  match op with
  | .setBuffer _ | .set _ | .append _ => Nat.decLt _ _
  | .getType _ | .get _ | .copy _ | .jump _ => Nat.decLt _ _
  | .alignBuf | .clear => instDecidableTrue

namespace CVBuffer

variable {b b' : CVBuffer}

/-- What a call answered and where it left the cursors is what its check is for. -/
structure Checked (b : CVBuffer) (op : BufferOp) : Prop where
  accepted : match op with
    | .set p | .append p =>
      (b.exec op).1 ≠ none → b.uOffset + p.length ≤ maxCVBufferSize
    | .getType n | .get n | .copy n =>
      (b.exec op).1 ≠ none → (n : Int) ≤ (b.uOffset : Int) - b.uGetOffset
    | .jump _ => b.uGetOffset ≤ (b.exec op).2.uGetOffset
    | .setBuffer _ | .alignBuf | .clear => True
  cursors : (b.exec op).2.Cursors

/-- The sum that the check looks at is the sum of the numbers. -/
def NoWrap (b : CVBuffer) : BufferOp → Prop
  | .set p | .append p => b.uOffset + p.length < 4294967296
  | .getType n | .get n | .copy n | .jump n => b.uGetOffset + n < 4294967296
  | .setBuffer _ | .alignBuf | .clear => True

/-! ## The sums -/

/-- A sum that wraps is below the cursor. -/
theorem u32_of_wrap {a n : Nat} (ha : a ≤ 65536) (hn : n < 4294967296)
    (hwrap : 4294967296 ≤ a + n) : u32 (a + n) = a + n - 4294967296 ∧ u32 (a + n) < a := by
  unfold u32
  omega

/-! ## Where no sum wraps -/

theorem checked_set (h : b.Cursors) {p : List UInt8} (hsum : b.uOffset + p.length < 4294967296) :
    ((b.set p).1 = true → b.uOffset + p.length ≤ maxCVBufferSize) ∧ (b.set p).2.Cursors := by
  rw [set, u32_eq hsum]
  split
  · exact ⟨fun hf => (Bool.false_ne_true hf).elim, h⟩
  · rename_i hle
    have ho := h.order
    refine ⟨fun _ => Nat.le_of_not_lt hle, ?_, Nat.le_of_not_lt hle⟩
    show b.uGetOffset ≤ b.uOffset + p.length
    omega

theorem checked_getType (h : b.Cursors) {n : Nat} (hsum : b.uGetOffset + n < 4294967296) :
    ((b.getType n).1 ≠ none → (n : Int) ≤ (b.uOffset : Int) - b.uGetOffset) ∧
      (b.getType n).2.Cursors := by
  rw [getType, u32_eq hsum]
  split
  · exact ⟨fun hne => absurd rfl hne, h⟩
  · rename_i hle
    have hle' := Nat.le_of_not_lt hle
    exact ⟨fun _ => by omega, hle', h.size⟩

theorem checked_jump (h : b.Cursors) {n : Nat} (hsum : b.uGetOffset + n < 4294967296) :
    b.uGetOffset ≤ (b.jump n).uGetOffset ∧ (b.jump n).Cursors := by
  rw [jump, u32_eq hsum]
  split
  · exact ⟨h.order, Nat.le_refl _, h.size⟩
  · rename_i hle
    exact ⟨Nat.le_add_right _ _, Nat.le_of_not_lt hle, h.size⟩

theorem answer_ne_none {r : Bool × CVBuffer} : (exec.answer r).1 ≠ none ↔ r.1 = true := by
  unfold exec.answer
  cases r.1 with
  | false => simp
  | true => simp

theorem checked_of_noWrap (h : b.Cursors) {op : BufferOp} (hop : b.NoWrap op) : b.Checked op := by
  -- `append` and `get` are `set` and `getType` but for a length of zero, which they refuse.
  cases op with
  | setBuffer p =>
    refine ⟨trivial, ?_⟩
    show (b.setBuffer p).2.Cursors
    rw [setBuffer]
    split
    · exact h
    · split
      · exact h
      · rename_i hle
        exact ⟨Nat.zero_le _, Nat.le_of_not_lt hle⟩
  | set p =>
    obtain ⟨hacc, hcur⟩ := checked_set h hop
    exact ⟨fun hne => hacc (answer_ne_none.mp hne), hcur⟩
  | append p =>
    obtain ⟨hacc, hcur⟩ := checked_set h hop
    by_cases hp : p.length = 0
    · have he : b.append p = (false, b) := if_pos hp
      refine ⟨fun hne => ?_, ?_⟩
      · have hz := h.size'
        simp only [maxCVBufferSize, hp]
        omega
      · show (b.append p).2.Cursors
        rw [he]
        exact h
    · have he : b.append p = b.set p := if_neg hp
      refine ⟨fun hne => hacc ?_, ?_⟩
      · rw [← he]
        exact answer_ne_none.mp hne
      · show (b.append p).2.Cursors
        rw [he]
        exact hcur
  | getType n =>
    obtain ⟨hacc, hcur⟩ := checked_getType h hop
    exact ⟨hacc, hcur⟩
  | get n =>
    obtain ⟨hacc, hcur⟩ := checked_getType h hop
    by_cases hn : n = 0
    · have he : b.get n = (none, b) := if_pos hn
      exact ⟨fun hne => absurd (congrArg Prod.fst he) hne, by rw [exec, he]; exact h⟩
    · have he : b.get n = b.getType n := if_neg hn
      exact ⟨fun hne => hacc (by rwa [exec, he] at hne), by rw [exec, he]; exact hcur⟩
  | copy n =>
    refine ⟨fun hne => ?_, h⟩
    simp only [exec, copy] at hne
    split at hne
    · exact absurd rfl hne
    · split at hne
      · exact absurd rfl hne
      · rename_i hle
        rw [u32_eq hop] at hle
        omega
  | jump n =>
    obtain ⟨hforward, hcur⟩ := checked_jump h hop
    exact ⟨hforward, hcur⟩
  | alignBuf =>
    refine ⟨trivial, ?_⟩
    show b.alignBuf.Cursors
    rw [alignBuf_of_le h.order]
    exact ⟨Nat.zero_le _, Nat.le_trans (Nat.sub_le _ _) h.size⟩
  | clear => exact ⟨trivial, Nat.le_refl _, Nat.zero_le _⟩

/-! ## Where one does

The wrapped sum is below the cursor, and so it passes the comparison. -/

theorem set_of_wrap (h : b.Cursors) {p : List UInt8} (hp : p.length < 4294967296)
    (hwrap : 4294967296 ≤ b.uOffset + p.length) : (b.set p).1 = true := by
  have hz := h.size'
  obtain ⟨-, hlt⟩ := u32_of_wrap hz hp hwrap
  rw [set, if_neg]
  show ¬ 65536 < u32 (b.uOffset + p.length)
  omega

theorem getType_of_wrap (h : b.Cursors) {n : Nat} (hn : n < 4294967296)
    (hwrap : 4294967296 ≤ b.uGetOffset + n) : (b.getType n).1 ≠ none := by
  have hz := h.size'
  have ho := h.order
  obtain ⟨-, hlt⟩ := u32_of_wrap (Nat.le_trans ho hz) hn hwrap
  rw [getType, if_neg (by omega)]
  exact Option.some_ne_none _

/-- With a sum that wraps `Jump` goes back, to where the wrapped sum points. -/
theorem jump_of_wrap (h : b.Cursors) {n : Nat} (hn : n < 4294967296)
    (hwrap : 4294967296 ≤ b.uGetOffset + n) : (b.jump n).uGetOffset < b.uGetOffset := by
  have hz := h.size'
  have ho := h.order
  obtain ⟨-, hlt⟩ := u32_of_wrap (Nat.le_trans ho hz) hn hwrap
  rw [jump, if_neg (by omega)]
  exact hlt

theorem not_checked_of_wrap (h : b.Cursors) {op : BufferOp} (hop : op.Fits)
    (hwrap : ¬ b.NoWrap op) : ¬ b.Checked op := by
  have hz := h.size'
  have ho := h.order
  rintro ⟨hacc, -⟩
  -- In each case the sum passes the check, and then the lengths contradict what it is for.
  cases op with
  | setBuffer p => exact hwrap trivial
  | set p =>
    have hle := hacc (answer_ne_none.mpr (set_of_wrap h hop (Nat.le_of_not_lt hwrap)))
    have hle' : b.uOffset + p.length ≤ 65536 := hle
    simp only [NoWrap] at hwrap
    omega
  | append p =>
    simp only [NoWrap] at hwrap
    simp only [BufferOp.Fits] at hop
    have he : b.append p = b.set p := if_neg (by omega)
    have hle := hacc (answer_ne_none.mpr (he ▸ set_of_wrap h hop (Nat.le_of_not_lt hwrap)))
    have hle' : b.uOffset + p.length ≤ 65536 := hle
    omega
  | getType n =>
    have hle := hacc (getType_of_wrap h hop (Nat.le_of_not_lt hwrap))
    simp only [NoWrap] at hwrap
    omega
  | get n =>
    simp only [NoWrap] at hwrap
    simp only [BufferOp.Fits] at hop
    have he : b.get n = b.getType n := if_neg (by omega)
    have hle := hacc (by rw [exec, he]; exact getType_of_wrap h hop (Nat.le_of_not_lt hwrap))
    omega
  | copy n =>
    simp only [NoWrap] at hwrap
    simp only [BufferOp.Fits] at hop
    obtain ⟨-, hlt⟩ := u32_of_wrap (Nat.le_trans ho hz) hop (Nat.le_of_not_lt hwrap)
    have hle := hacc (by
      rw [exec, copy, if_neg (by omega), if_neg (by omega)]
      exact Option.some_ne_none _)
    omega
  | jump n =>
    have hback := jump_of_wrap h hop (Nat.le_of_not_lt hwrap)
    exact absurd (hacc : b.uGetOffset ≤ (b.jump n).uGetOffset) (Nat.not_le_of_lt hback)
  | alignBuf => exact hwrap trivial
  | clear => exact hwrap trivial

/-! ## Runs -/

/-- A call with a 32-bit length. -/
def step32 (b : CVBuffer) (l : BufferOp × Option (List UInt8)) (b' : CVBuffer) : Prop :=
  l.1.Fits ∧ b.exec l.1 = (l.2, b')

theorem checked_call_iff (h : b.Cursors) {op : BufferOp} (hop : op.Fits) :
    b.Checked op ↔ b.NoWrap op := by
  constructor
  · intro hc
    by_contra hwrap
    exact not_checked_of_wrap h hop hwrap hc
  · exact checked_of_noWrap h

theorem cursors_step (h : b.Cursors) {l : BufferOp × Option (List UInt8)} (hn : b.NoWrap l.1)
    (hs : step32 b l b') : b'.Cursors := by
  have hcur := (checked_of_noWrap h hn).cursors
  rwa [hs.2] at hcur

/-- **When the bound checks hold.** A call with a 32-bit length, on cursors that are in order and
    inside the array, does what its check is for exactly if the sum in the check does not wrap. And
    from the default constructor on the runs in which every call does are those in which no sum
    wraps; the cursors are in order and inside the array wherever they lead. -/
theorem checked_iff (mem : Nat → UInt8) (ls : List (BufferOp × Option (List UInt8)))
    (b' : CVBuffer) :
    (∀ (b : CVBuffer) (op : BufferOp), b.Cursors → op.Fits → (b.Checked op ↔ b.NoWrap op)) ∧
    (Steps (guard (fun b l => b.Checked l.1) step32) (new mem) ls b' ↔
      Steps (guard (fun b l => b.NoWrap l.1) step32) (new mem) ls b') ∧
    (Steps (guard (fun b l => b.NoWrap l.1) step32) (new mem) ls b' → b'.Cursors) := by
  refine ⟨?_, ⟨?_, ?_⟩, ?_⟩
  · intro b op h hop
    exact checked_call_iff h hop
  · intro hrun
    refine hrun.mono_on (P := Cursors) (fun s l t hc hs => ?_) (new_cursors mem)
    have hn := (checked_call_iff hc hs.2.1).mp hs.1
    exact ⟨⟨hn, hs.2⟩, cursors_step hc hn hs.2⟩
  · intro hrun
    refine hrun.mono_on (P := Cursors) (fun s l t hc hs => ?_) (new_cursors mem)
    exact ⟨⟨(checked_call_iff hc hs.2.1).mpr hs.1, hs.2⟩, cursors_step hc hs.1 hs.2⟩
  · intro hrun
    exact hrun.invariant (P := Cursors) (fun s l t hc hs => cursors_step hc hs.1 hs.2)
      (new_cursors mem)

/-- `Jump(-1)` after two of three bytes were taken: the cursor goes back to the second. -/
theorem jump_minus_one :
    ∃ b, Steps step32 (new fun _ => 0) [(.append [1, 2, 3], some []), (.get 2, some [1, 2])] b ∧
      (BufferOp.jump (toU32 (-1))).Fits ∧ b.uGetOffset = 2 ∧
      (b.jump (toU32 (-1))).uGetOffset = 1 ∧ ¬ b.Checked (.jump (toU32 (-1))) := by
  have hrun : Steps step32 (new fun _ => 0)
      [(.append [1, 2, 3], some []), (.get 2, some [1, 2])] _ :=
    .cons ⟨by decide, rfl⟩ (.single ⟨by decide, rfl⟩)
  refine ⟨_, hrun, by decide, rfl, rfl, ?_⟩
  rintro ⟨hforward, -⟩
  exact absurd hforward (by decide)

end CVBuffer

end WebsocketTest
