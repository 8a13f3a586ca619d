import WebsocketTest.Buffer
import WebsocketTest.Lib.ByteQueue
import WebsocketTest.Lib.Run

/-!
# `CVBuffer` refines a byte queue

The content of a buffer is what lies between its two cursors. `BufferOp` are the calls, `exec` is
what the buffer does with one, and `BufferOp.meaning` what the call is for, as an operation on a
`Lib.ByteQueue`.

**`content_of_run`** — from the default constructor on, over any calls with lengths of at most
`MAX_CVBUFFER_SIZE`, the content goes through the states of the queue, and every call says
`false` and changes nothing just where its length does not fit. The invariant is `Cursors`: the
cursors are in order and inside the array, so that no sum of a cursor and a length wraps.

The bound on the lengths is there because of the wrap, and is not needed for anything else
(`Checks.lean`). `AlignBuf` is a call like the others and has no meaning for the queue: it moves the
content to the front of the array, which nobody sees but a later `Append` that would not have
fitted.
-/

set_option autoImplicit false

namespace WebsocketTest

open Lib.Memory Lib.Integers Lib.ByteQueue Lib.Run

/-- A call, with the bytes its pointer points to or the length it is given. -/
inductive BufferOp
  | setBuffer (pBuffer : List UInt8)
  | set (tData : List UInt8)
  | append (pData : List UInt8)
  | getType (uSize : Nat)
  | get (uLength : Nat)
  | copy (uLength : Nat)
  | jump (uLength : Nat)
  | alignBuf
  | clear
  deriving DecidableEq

namespace BufferOp

def meaning : BufferOp → QueueOp UInt8
  | setBuffer pBuffer => .replace pBuffer
  | set tData => .append tData
  | append pData => .append pData
  | getType uSize => .take uSize
  | get uLength => .take uLength
  | copy uLength => .peek uLength
  | jump uLength => .drop uLength
  | alignBuf => .keep
  | clear => .clear

/-- Lengths are at most that of the array, and no type is without bytes. -/
def Bounded : BufferOp → Prop
  | setBuffer pBuffer => pBuffer.length ≤ maxCVBufferSize
  | set tData => 0 < tData.length ∧ tData.length ≤ maxCVBufferSize
  | append pData => pData.length ≤ maxCVBufferSize
  | getType uSize => 0 < uSize ∧ uSize ≤ maxCVBufferSize
  | get uLength | copy uLength | jump uLength => uLength ≤ maxCVBufferSize
  | alignBuf | clear => True

instance (op : BufferOp) : Decidable op.Bounded := by
  cases op <;> unfold Bounded <;> infer_instance

end BufferOp

namespace CVBuffer

/-- A call: the bytes it hands out, or `none` for `false`, and the buffer after it. -/
def exec (b : CVBuffer) : BufferOp → Option (List UInt8) × CVBuffer
  | .setBuffer pBuffer => answer (b.setBuffer pBuffer)
  | .set tData => answer (b.set tData)
  | .append pData => answer (b.append pData)
  | .getType uSize => b.getType uSize
  | .get uLength => b.get uLength
  | .copy uLength => (b.copy uLength, b)
  | .jump uLength => (some [], b.jump uLength)
  | .alignBuf => (some [], b.alignBuf)
  | .clear => (some [], b.clear)
where
  answer (r : Bool × CVBuffer) : Option (List UInt8) × CVBuffer :=
    (if r.1 then some [] else none, r.2)

def step (b : CVBuffer) (l : BufferOp × Option (List UInt8)) (b' : CVBuffer) : Prop :=
  l.1.Bounded ∧ b.exec l.1 = (l.2, b')

/-- What is between the cursors: put in, and not taken out again. -/
def content (b : CVBuffer) : List UInt8 := read b.buffer b.uGetOffset (b.uOffset - b.uGetOffset)

/-- When a call says `false`: its length is more than there is, or than there is room for, or it is
    zero and the call refuses that. -/
def Refuses (b : CVBuffer) : BufferOp → Prop
  | .setBuffer pBuffer => pBuffer.length = 0
  | .set tData => maxCVBufferSize < b.uOffset + tData.length
  | .append pData => pData.length = 0 ∨ maxCVBufferSize < b.uOffset + pData.length
  | .getType n | .get n | .copy n => n = 0 ∨ b.remainSize < n
  | .jump _ | .alignBuf | .clear => False

/-- The cursors are in order and inside the array. -/
structure Cursors (b : CVBuffer) : Prop where
  order : b.uGetOffset ≤ b.uOffset
  size : b.uOffset ≤ maxCVBufferSize

variable {b : CVBuffer}

theorem new_cursors (mem : Nat → UInt8) : (new mem).Cursors := ⟨Nat.le_refl _, Nat.zero_le _⟩

namespace Cursors

theorem size' (h : b.Cursors) : b.uOffset ≤ 65536 := h.size

theorem remainSize (h : b.Cursors) : b.remainSize = (b.uOffset : Int) - b.uGetOffset :=
  remainSize_of_le h.order (by have := h.size'; omega)

theorem length_content (h : b.Cursors) : b.remainSize = b.content.length := by
  rw [h.remainSize, content, length_read]
  have := h.order
  omega

end Cursors

/-! ## What each call does -/

/-- A call that is not refused answers as the queue does, and keeps the cursors in order. -/
def Serves (b : CVBuffer) (op : BufferOp) : Prop :=
  ∃ out b', b.exec op = (some out, b') ∧ op.meaning.apply b.content = (out, b'.content) ∧ b'.Cursors

/-- A `Set` that fits, field by field. -/
theorem set_eq_of_le {tData : List UInt8} (hle : b.uOffset + tData.length ≤ maxCVBufferSize) :
    b.set tData = (true, { b with
      buffer := write b.buffer b.uOffset tData, uOffset := b.uOffset + tData.length }) := by
  have hle' : b.uOffset + tData.length ≤ 65536 := hle
  have hu : u32 (b.uOffset + tData.length) = b.uOffset + tData.length := u32_eq (by omega)
  rw [set, hu, if_neg (Nat.not_lt.mpr hle)]

theorem set_of_le (h : b.Cursors) {tData : List UInt8}
    (hle : b.uOffset + tData.length ≤ maxCVBufferSize) :
    ∃ b', b.set tData = (true, b') ∧ b'.content = b.content ++ tData ∧ b'.Cursors := by
  refine ⟨_, set_eq_of_le hle, ?_, ?_, hle⟩
  · obtain ⟨n, hn⟩ := Nat.exists_eq_add_of_le h.order
    have hlen : b.uGetOffset + n + tData.length - b.uGetOffset = n + tData.length := by omega
    simp only [content, hn, hlen, Nat.add_sub_cancel_left]
    exact read_write_append b.buffer b.uGetOffset n tData
  · have := h.order
    show b.uGetOffset ≤ b.uOffset + tData.length
    omega

theorem set_of_gt {tData : List UInt8} (h : b.Cursors) (hlen : tData.length ≤ maxCVBufferSize)
    (hgt : maxCVBufferSize < b.uOffset + tData.length) : b.set tData = (false, b) := by
  have hz := h.size'
  have hlen' : tData.length ≤ 65536 := hlen
  have hu : u32 (b.uOffset + tData.length) = b.uOffset + tData.length := u32_eq (by omega)
  rw [set, hu, if_pos hgt]

/-- A piece at the front of the content. -/
theorem take_content {n : Nat} (hn : b.uGetOffset + n ≤ b.uOffset) :
    b.content.take n = read b.buffer b.uGetOffset n := take_read _ (by omega)

/-- Moving the cursor on drops what it passes. -/
theorem drop_content {n : Nat} (hn : b.uGetOffset + n ≤ b.uOffset) :
    b.content.drop n = content { b with uGetOffset := b.uGetOffset + n } := by
  rw [content, drop_read _ (by omega), content]
  congr 1
  simp only
  omega

theorem serves_getType (h : b.Cursors) {n : Nat} (hn : b.uGetOffset + n ≤ b.uOffset) :
    b.Serves (.getType n) := by
  refine ⟨_, _, getType_of_le hn (by have := h.size'; omega), ?_, hn, h.size⟩
  simp only [BufferOp.meaning, QueueOp.apply, take_content hn, drop_content hn]

theorem serves_jump (h : b.Cursors) {n : Nat} (hlen : n ≤ maxCVBufferSize) :
    b.Serves (.jump n) := by
  have hz := h.size'
  have ho := h.order
  have hlen' : n ≤ 65536 := hlen
  rcases Nat.lt_or_ge b.uOffset (b.uGetOffset + n) with hgt | hle
  · -- past the end: everything is dropped
    refine ⟨_, _, rfl, ?_, ?_⟩
    · have hdrop : b.content.drop n = [] := by
        rw [List.drop_eq_nil_iff, content, length_read]
        omega
      rw [BufferOp.meaning, QueueOp.apply, hdrop, jump_of_gt hgt (by omega)]
      simp only [content, Nat.sub_self, read_zero]
    · rw [jump_of_gt hgt (by omega)]
      exact ⟨Nat.le_refl _, h.size⟩
  · refine ⟨_, _, rfl, ?_, ?_⟩
    · rw [BufferOp.meaning, QueueOp.apply, drop_content hle, jump_of_le hle (by omega)]
    · rw [jump_of_le hle (by omega)]
      exact ⟨hle, h.size⟩

theorem serves_alignBuf (h : b.Cursors) : b.Serves .alignBuf := by
  refine ⟨_, _, rfl, ?_, ?_⟩
  · rw [BufferOp.meaning, QueueOp.apply, alignBuf_of_le h.order]
    simp only [content, Nat.sub_zero, read_move]
  · rw [alignBuf_of_le h.order]
    exact ⟨Nat.zero_le _, Nat.le_trans (Nat.sub_le _ _) h.size⟩

theorem serves_setBuffer {p : List UInt8} (hlen : p.length ≤ maxCVBufferSize)
    (hp : p.length ≠ 0) : b.Serves (.setBuffer p) := by
  have he : b.setBuffer p = (true, ⟨write b.buffer 0 p, p.length, 0⟩) := by
    rw [setBuffer, if_neg hp, if_neg (Nat.not_lt.mpr hlen)]
  refine ⟨[], ⟨write b.buffer 0 p, p.length, 0⟩, by rw [exec, he]; rfl, ?_, Nat.zero_le _, hlen⟩
  simp only [BufferOp.meaning, QueueOp.apply, content, Nat.sub_zero, read_write_self]

/-- **One call**: it is refused and changes nothing, or it is served. -/
theorem exec_cases (h : b.Cursors) {op : BufferOp} (hop : op.Bounded) :
    (b.Refuses op ∧ b.exec op = (none, b)) ∨ (¬ b.Refuses op ∧ b.Serves op) := by
  have hz := h.size'
  have hr := h.remainSize
  -- `Get` and `Copy` share the test, and `Get<type>` has no test for zero.
  have short : ∀ {n : Nat}, n ≤ maxCVBufferSize → b.remainSize < n →
      b.uOffset < b.uGetOffset + n ∧ b.uGetOffset + n < 4294967296 := by
    intro n hn hlt
    have hn' : n ≤ 65536 := hn
    have := h.order
    omega
  have enough : ∀ {n : Nat}, ¬ b.remainSize < n → b.uGetOffset + n ≤ b.uOffset := by
    intro n hlt
    have := h.order
    omega
  cases op with
  | setBuffer p =>
    by_cases hp : p.length = 0
    · exact .inl ⟨hp, by simp only [exec, setBuffer, if_pos hp]; rfl⟩
    · exact .inr ⟨hp, serves_setBuffer hop hp⟩
  | set p =>
    by_cases hgt : maxCVBufferSize < b.uOffset + p.length
    · exact .inl ⟨hgt, by rw [exec, set_of_gt h hop.2 hgt]; rfl⟩
    · obtain ⟨b', he, hc, hb'⟩ := set_of_le h (Nat.le_of_not_lt hgt)
      exact .inr ⟨hgt, [], b', by rw [exec, he]; rfl, by rw [hc]; rfl, hb'⟩
  | append p =>
    by_cases hp : p.length = 0
    · exact .inl ⟨.inl hp, by simp only [exec, append, if_pos hp]; rfl⟩
    by_cases hgt : maxCVBufferSize < b.uOffset + p.length
    · exact .inl ⟨.inr hgt, by rw [exec, append, if_neg hp, set_of_gt h hop hgt]; rfl⟩
    · obtain ⟨b', he, hc, hb'⟩ := set_of_le h (Nat.le_of_not_lt hgt)
      refine .inr ⟨fun hr => hr.elim hp hgt, [], b', ?_, by rw [hc]; rfl, hb'⟩
      rw [exec, append, if_neg hp, he]
      rfl
  | getType n =>
    by_cases hlt : b.remainSize < n
    · obtain ⟨h₁, h₂⟩ := short hop.2 hlt
      exact .inl ⟨.inr hlt, getType_of_gt h₁ h₂⟩
    · exact .inr ⟨fun hr => hr.elim (Nat.ne_of_gt hop.1) hlt, serves_getType h (enough hlt)⟩
  | get n =>
    by_cases hn : n = 0
    · exact .inl ⟨.inl hn, if_pos hn⟩
    by_cases hlt : b.remainSize < n
    · obtain ⟨h₁, h₂⟩ := short hop hlt
      exact .inl ⟨.inr hlt, (if_neg hn).trans (getType_of_gt h₁ h₂)⟩
    · obtain ⟨out, b', he, hact, hb'⟩ := serves_getType h (enough hlt)
      exact .inr ⟨fun hr => hr.elim hn hlt, out, b', (if_neg hn).trans he, hact, hb'⟩
  | copy n =>
    by_cases hn : n = 0
    · exact .inl ⟨.inl hn, by rw [exec, copy, if_pos hn]⟩
    by_cases hlt : b.remainSize < n
    · obtain ⟨h₁, h₂⟩ := short hop hlt
      refine .inl ⟨.inr hlt, ?_⟩
      rw [exec, copy, if_neg hn, u32_eq h₂, if_pos h₁]
    · have hle := enough hlt
      refine .inr ⟨fun hr => hr.elim hn hlt, b.content.take n, b, ?_, rfl, h⟩
      rw [exec, copy, if_neg hn, u32_eq (by omega), if_neg (Nat.not_lt.mpr hle), take_content hle]
  | jump n => exact .inr ⟨id, serves_jump h hop⟩
  | alignBuf => exact .inr ⟨id, serves_alignBuf h⟩
  | clear => exact .inr ⟨id, [], b.clear, rfl, rfl, Nat.le_refl _, Nat.zero_le _⟩

/-! ## Runs -/

/-- The steps of the queue a buffer is for. -/
def queueStep (q : List UInt8) (l : BufferOp × Option (List UInt8)) (q' : List UInt8) : Prop :=
  Acts q (l.1.meaning, l.2) q'

/-- A call answers as the queue does, and keeps the cursors in order. -/
theorem step_acts {b' : CVBuffer} {l : BufferOp × Option (List UInt8)} (h : b.Cursors)
    (hs : step b l b') : queueStep b.content l b'.content ∧ b'.Cursors := by
  obtain ⟨op, r⟩ := l
  obtain ⟨hop, he⟩ := hs
  simp only at hop he
  rcases exec_cases h hop with ⟨-, hrefused⟩ | ⟨-, out, c, hserved, hact, hc⟩
  · cases hrefused.symm.trans he
    exact ⟨rfl, h⟩
  · cases hserved.symm.trans he
    exact ⟨hact, hc⟩

/-- **A buffer is a byte queue.** Over any run the content goes through the states of the queue;
    from every state it reaches, a call is refused without effect or acts as the queue does, and
    refused exactly when its length does not fit; and the sizes it reports are the content's. -/
theorem content_of_run (mem : Nat → UInt8) {ls : List (BufferOp × Option (List UInt8))}
    (h : Steps step (new mem) ls b) :
    Steps queueStep [] ls b.content ∧
      (∀ op, op.Bounded →
        (b.exec op = (none, b) ∨ ∃ out b', b.exec op = (some out, b') ∧
          op.meaning.apply b.content = (out, b'.content)) ∧
        ((b.exec op).1 = none ↔ b.Refuses op)) ∧
      b.remainSize = b.content.length ∧
      b.alignBuf.notUsedSize = (maxCVBufferSize : Int) - b.alignBuf.remainSize := by
  have hsim : ∃ q, Steps queueStep [] ls q ∧ b.content = q ∧ b.Cursors := by
    refine h.simulate (R := fun b q => b.content = q ∧ b.Cursors) (fun s l t a hR hs => ?_)
      ⟨rfl, new_cursors mem⟩
    obtain ⟨rfl, hcur⟩ := hR
    obtain ⟨hact, hcur'⟩ := step_acts hcur hs
    exact ⟨t.content, hact, rfl, hcur'⟩
  obtain ⟨q, hq, rfl, hb⟩ := hsim
  refine ⟨hq, ?_, hb.length_content, ?_⟩
  · intro op hop
    rcases exec_cases hb hop with ⟨href, he⟩ | ⟨href, out, b', he, hact, -⟩
    · exact ⟨.inl he, by simp [he, href]⟩
    · exact ⟨.inr ⟨out, b', he, hact⟩, by simp [he, href]⟩
  · have hz := hb.size'
    rw [alignBuf_of_le hb.order, notUsedSize, remainSize_of_le (Nat.zero_le _) (by
      simp only
      omega)]
    simp only [toU32, toS32, maxCVBufferSize]
    omega

/-- Three bytes in, two out, one left. -/
theorem content_of_run_append_get :
    ∃ b, Steps step (new fun _ => 0) [(.append [1, 2, 3], some []), (.get 2, some [1, 2])] b ∧
      b.content = [3] ∧ b.remainSize = b.content.length := by
  have hrun : Steps step (new fun _ => 0)
      [(.append [1, 2, 3], some []), (.get 2, some [1, 2])] _ :=
    .cons ⟨by decide, rfl⟩ (.single ⟨by decide, rfl⟩)
  exact ⟨_, hrun, rfl, (content_of_run _ hrun).2.2.1⟩

end CVBuffer

end WebsocketTest
