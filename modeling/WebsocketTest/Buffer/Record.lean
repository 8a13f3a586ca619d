import WebsocketTest.Buffer.Typed

/-!
# `storageData`: a length and as many bytes from another buffer

Two overloads, for an `unsigned short` and an `unsigned char`. Each clears the buffer, writes the
length, sets the cursor to where the record would end and has the bytes copied behind the length.
What `Get` answers to that is ignored and the value returned is always `true`.

**`storageData_iff`** — the record is complete, or refused, exactly if the other buffer has the
bytes and the record fits; 65535 bytes behind a two-byte length are one too many. With fewer bytes
in the other buffer the record ends in what the array held before, and with one too many the last of
them lands behind the array, on `m_uOffset`.

A refused record would be one of which nothing is taken, with `false` for an answer. Since the
answer is always `true`, only a complete one will do (`complete_iff`).

The two buffers are different objects. With one object for both, the clearing at the beginning would
already have taken what is to be copied.
-/

set_option autoImplicit false

namespace WebsocketTest

open Lib.Memory Lib.Integers Lib.Framing Lib.ByteOrder

/-- `unsigned char`. -/
def uchar : IntType := ⟨.one, false⟩

theorem uchar_conv {n : Nat} (hn : n < 256) : uchar.conv n = n := by
  show (n : Int) % (256 : Nat) = n
  omega

def CInt.ofUShort (n : UInt16) : CInt := ⟨CVBuffer.ushort, n.toNat, CVBuffer.ushort_conv n.toNat_lt⟩

def CInt.ofUChar (n : UInt8) : CInt := ⟨uchar, n.toNat, uchar_conv n.toNat_lt⟩

/-- What a call leaves: its value, the buffer it is made on, and the one it takes from. -/
structure StorageDone where
  ret : Bool
  dest : CVBuffer
  buf : CVBuffer

namespace CVBuffer

/-- Both overloads are this, for a length of either type; `buf` is another object. -/
def storage (b : CVBuffer) (len : CInt) (buf : CVBuffer) : StorageDone :=
  let w := len.type.width.bytes
  let n := len.val.toNat
  let b := { b.clear.shl len with uOffset := u32 (n + w), uGetOffset := 0 }
  match buf.get n with
  | (some pData, buf) => ⟨true, { b with buffer := write b.buffer w pData }, buf⟩
  | (none, buf) => ⟨true, b, buf⟩

/-- `storageData(unsigned short, CVBuffer&)`, the overload with two bytes for the length. -/
def storageData16 (b : CVBuffer) (usLen : UInt16) (buf : CVBuffer) : StorageDone :=
  b.storage (.ofUShort usLen) buf

/-- `storageData(unsigned char, CVBuffer&)`, the overload with one. -/
def storageData8 (b : CVBuffer) (ucLen : UInt8) (buf : CVBuffer) : StorageDone :=
  b.storage (.ofUChar ucLen) buf

/-- A complete record is stored, or nothing is taken and the call says so. -/
structure Complete (len : CInt) (buf : CVBuffer) (r : StorageDone) : Prop where
  stored : r.ret = true →
    (∃ bytes, bytes.length = len.val.toNat ∧ bytes = buf.content.take len.val.toNat ∧
      r.dest.content = len.bigEndian ++ bytes) ∧
    r.dest.uOffset ≤ maxCVBufferSize ∧ r.buf.uGetOffset = buf.uGetOffset + len.val.toNat
  refused : buf.remainSize < len.val.toNat ∨
      maxCVBufferSize < len.type.width.bytes + len.val.toNat → r.ret = false ∧ r.buf = buf

variable {b buf : CVBuffer} {len : CInt}

theorem storage_ret (b : CVBuffer) (len : CInt) (buf : CVBuffer) :
    (b.storage len buf).ret = true := by
  simp only [storage]
  split <;> rfl

/-- The length at the start of a cleared buffer. -/
theorem clear_shl_buffer (b : CVBuffer) (len : CInt) :
    (b.clear.shl len).buffer = write b.buffer 0 len.bigEndian := by
  have hle : b.clear.uOffset + len.bigEndian.length ≤ maxCVBufferSize := by
    rw [clear_uOffset, len.length_bigEndian]
    cases len.type.width with
    | _ => decide
  rw [shl_eq, set_eq_of_le hle, clear_uOffset]
  rfl

/-- What the record is if the bytes are there: nothing has to be copied for a length of zero. -/
theorem storage_of_le (h : buf.Cursors) (hn : buf.uGetOffset + len.val.toNat ≤ buf.uOffset) :
    (b.storage len buf).dest.buffer =
        write (write b.buffer 0 len.bigEndian) len.type.width.bytes
          (buf.content.take len.val.toNat) ∧
      (b.storage len buf).dest.uOffset = u32 (len.val.toNat + len.type.width.bytes) ∧
      (b.storage len buf).dest.uGetOffset = 0 ∧
      (b.storage len buf).buf.uGetOffset = buf.uGetOffset + len.val.toNat := by
  have htake := take_content hn
  by_cases h₀ : len.val.toNat = 0
  · have hget : buf.get 0 = (none, buf) := rfl
    simp only [storage, h₀, hget, clear_shl_buffer, List.take_zero, Nat.add_zero, and_self,
      and_true]
    funext i
    simp [write]
  · have hw : buf.uOffset < 4294967296 := by
      have := h.size'
      omega
    have hget : buf.get len.val.toNat = _ := (if_neg h₀).trans (getType_of_le hn hw)
    simp only [storage, hget, clear_shl_buffer, htake, and_self]

/-- **The record is complete** if the bytes are there and it fits. -/
theorem complete_of_fits (h : buf.Cursors) (hn : (len.val.toNat : Int) ≤ buf.remainSize)
    (hfit : len.type.width.bytes + len.val.toNat ≤ maxCVBufferSize) :
    Complete len buf (b.storage len buf) := by
  have hrem := h.remainSize
  have hle : buf.uGetOffset + len.val.toNat ≤ buf.uOffset := by
    have := h.order
    omega
  obtain ⟨hbuffer, hoff, hget, hcursor⟩ := storage_of_le (b := b) h hle
  have hu : u32 (len.val.toNat + len.type.width.bytes) =
      len.type.width.bytes + len.val.toNat := by
    unfold maxCVBufferSize at hfit
    rw [Nat.add_comm, u32_eq (by omega)]
  have hbytes : (buf.content.take len.val.toNat).length = len.val.toNat := by
    rw [take_content hle, length_read]
  refine ⟨fun _ => ⟨⟨_, hbytes, rfl, ?_⟩, ?_, hcursor⟩, ?_⟩
  · have hstart := read_write_self b.buffer 0 len.bigEndian
    rw [len.length_bigEndian] at hstart
    have hrest := read_write_append (write b.buffer 0 len.bigEndian) 0 len.type.width.bytes
      (buf.content.take len.val.toNat)
    rw [hbytes, Nat.zero_add, hstart] at hrest
    rw [content, hget, hoff, hu, hbuffer, Nat.sub_zero, hrest]
  · rw [hoff, hu]
    exact hfit
  · rintro (hfew | hbig)
    · exact absurd hn (Int.not_le.mpr hfew)
    · exact absurd hfit (Nat.not_le_of_lt hbig)

/-- **When a record is complete or refused.** A call always says `true`, so that it has to be
    complete. -/
theorem complete_iff (h : buf.Cursors) (b : CVBuffer) (len : CInt) :
    Complete len buf (b.storage len buf) ↔
      (len.val.toNat : Int) ≤ buf.remainSize ∧
        len.type.width.bytes + len.val.toNat ≤ maxCVBufferSize := by
  constructor
  · intro hc
    have hret := storage_ret b len buf
    have said : ¬ (buf.remainSize < len.val.toNat ∨
        maxCVBufferSize < len.type.width.bytes + len.val.toNat) := by
      intro hbad
      exact absurd (hret.symm.trans (hc.refused hbad).1) (by simp)
    rw [not_or] at said
    exact ⟨Int.not_lt.mp said.1, Nat.le_of_not_lt said.2⟩
  · rintro ⟨hn, hfit⟩
    exact complete_of_fits h hn hfit

/-- **`storageData` builds a complete record or fails** exactly if the other buffer has the bytes
    and the record fits into the array, which it does for every `unsigned char` and for every
    `unsigned short` up to 65534. -/
theorem storageData_iff (b : CVBuffer) (h : buf.Cursors) :
    (∀ usLen : UInt16, Complete (.ofUShort usLen) buf (b.storageData16 usLen buf) ↔
      (usLen.toNat : Int) ≤ buf.remainSize ∧ usLen.toNat ≤ 65534) ∧
    (∀ ucLen : UInt8, Complete (.ofUChar ucLen) buf (b.storageData8 ucLen buf) ↔
      (ucLen.toNat : Int) ≤ buf.remainSize) := by
  constructor
  · intro usLen
    rw [storageData16, complete_iff h b]
    refine and_congr Iff.rfl ?_
    show 2 + usLen.toNat ≤ 65536 ↔ usLen.toNat ≤ 65534
    omega
  · intro ucLen
    rw [storageData8, complete_iff h b]
    refine and_iff_left ?_
    have := ucLen.toNat_lt
    show 1 + ucLen.toNat ≤ 65536
    omega

/-- Two bytes from a buffer of three. -/
theorem storageData_iff_two_bytes :
    Complete (.ofUShort 2) ⟨fun _ => 7, 3, 0⟩
      ((new fun _ => 0).storageData16 2 ⟨fun _ => 7, 3, 0⟩) :=
  ((storageData_iff (new fun _ => 0) ⟨by decide, by decide⟩).1 2).mpr (by decide)

/-- Two bytes from a buffer of one: `true`, and a record with two bytes of what was there before. -/
theorem short_source_stored :
    ∃ buf : CVBuffer, buf.Cursors ∧ buf.content = [7] ∧
      ((new fun _ => 0).storageData16 2 buf).ret = true ∧
      ((new fun _ => 0).storageData16 2 buf).dest.content = [0, 2, 0, 0] ∧
      ¬ Complete (.ofUShort 2) buf ((new fun _ => 0).storageData16 2 buf) := by
  refine ⟨⟨fun _ => 7, 1, 0⟩, ⟨by decide, by decide⟩, by decide, by decide, by decide, ?_⟩
  intro hc
  exact absurd (hc.refused (by decide)).1 (by decide)

end CVBuffer

end WebsocketTest
