import WebsocketTest.Lib.Framing
import WebsocketTest.Lib.Integers
import WebsocketTest.Lib.Memory

/-!
# `CVBuffer` — the byte buffer under every receive path (`buffer.h`, `buffer.cpp`)

One array of `MAX_CVBUFFER_SIZE` chars and two cursors: bytes below `m_uOffset` were put in, bytes
below `m_uGetOffset` were taken out again. The members keep their names, less the `m_` prefix.

* The array is a `Lib.Memory` region. It is never zeroed (`Clear` has its `memset` commented out),
  so a buffer starts with whatever its memory held; what lies past the last cell is whatever lies
  there, and no theorem here assumes anything of it.
* The cursors are `unsigned int`: every addition to one is taken modulo `2 ^ 32`.
* Pointer arguments are the bytes they point to. No caller in the repository passes `NULL`, so the
  `NULL` tests are not modelled; a length of zero is.
* `ntohs` and the loads in front of it are those of a little-endian host.
-/

set_option autoImplicit false

namespace WebsocketTest

open Lib.Memory Lib.Integers Lib.Framing

/-- `MAX_CVBUFFER_SIZE`, `64*1024`. -/
abbrev maxCVBufferSize : Nat := 65536

structure CVBuffer where
  buffer : Nat → UInt8
  uOffset : Nat
  uGetOffset : Nat

/-- A two-byte load on a little-endian host, as the 16 bits it yields. -/
def hostLoad (bs : List UInt8) : Nat := beNat bs.reverse

/-- `ntohs` on a little-endian host: the two bytes change places. -/
def ntohs (n : Nat) : Nat := n % 256 * 256 + n / 256 % 256

/-- A two-byte store on a little-endian host. -/
def hostStore (n : Nat) : List UInt8 := (beBytes 2 n).reverse

/-- `htons` on a little-endian host, which is what `ntohs` does. -/
def htons (n : Nat) : Nat := ntohs n

namespace CVBuffer

def clear (b : CVBuffer) : CVBuffer := { b with uOffset := 0, uGetOffset := 0 }

/-- `CVBuffer(void)` on memory that held `mem`: the constructor calls `Clear`. -/
def new (mem : Nat → UInt8) : CVBuffer := clear ⟨mem, 0, 0⟩

def getSize (b : CVBuffer) : Nat := b.uOffset

def setBuffer (b : CVBuffer) (pBuffer : List UInt8) : Bool × CVBuffer :=
  if pBuffer.length = 0 then (false, b)
  else if pBuffer.length > maxCVBufferSize then (false, b)
  else (true, { buffer := write b.buffer 0 pBuffer, uOffset := pBuffer.length, uGetOffset := 0 })

/-- `CVBuffer(pBuffer, uSize)`. The constructor initialises nothing itself and ignores what
    `setBuffer` answers, so `raw`, the uninitialised object, is what is left when it refuses. -/
def ofBytes (raw : CVBuffer) (pBuffer : List UInt8) : CVBuffer := (raw.setBuffer pBuffer).2

/-- `Get<type>`, for a type of `uSize` bytes; `none` is `false`, with `tData` left alone. -/
def getType (b : CVBuffer) (uSize : Nat) : Option (List UInt8) × CVBuffer :=
  if u32 (b.uGetOffset + uSize) > b.uOffset then (none, b)
  else (some (read b.buffer b.uGetOffset uSize),
    { b with uGetOffset := u32 (b.uGetOffset + uSize) })

/-- `Get(pData, uLength)`: as `Get<type>`, but a length of zero is refused. -/
def get (b : CVBuffer) (uLength : Nat) : Option (List UInt8) × CVBuffer :=
  if uLength = 0 then (none, b) else b.getType uLength

/-- `Copy`: as `Get`, with the cursor left where it is. -/
def copy (b : CVBuffer) (uLength : Nat) : Option (List UInt8) :=
  if uLength = 0 then none
  else if u32 (b.uGetOffset + uLength) > b.uOffset then none
  else some (read b.buffer b.uGetOffset uLength)

/-- `Set<type>`, for a value whose bytes are `tData`. -/
def set (b : CVBuffer) (tData : List UInt8) : Bool × CVBuffer :=
  if u32 (b.uOffset + tData.length) > maxCVBufferSize then (false, b)
  else (true, { b with
    buffer := write b.buffer b.uOffset tData, uOffset := u32 (b.uOffset + tData.length) })

/-- `Append`: as `Set<type>`, but a length of zero is refused. -/
def append (b : CVBuffer) (pData : List UInt8) : Bool × CVBuffer :=
  if pData.length = 0 then (false, b) else b.set pData

def alignBuf (b : CVBuffer) : CVBuffer :=
  if b.uGetOffset ≤ b.uOffset then
    { buffer := move b.buffer 0 b.uGetOffset (b.uOffset - b.uGetOffset)
      uOffset := b.uOffset - b.uGetOffset
      uGetOffset := 0 }
  else b

def addDataSize (b : CVBuffer) (uSize : Nat) : CVBuffer :=
  { b with uOffset := u32 (b.uOffset + uSize) }

def jump (b : CVBuffer) (uLength : Nat) : CVBuffer :=
  if u32 (b.uGetOffset + uLength) > b.uOffset then { b with uGetOffset := b.uOffset }
  else { b with uGetOffset := u32 (b.uGetOffset + uLength) }

/-- `JumpBuffer()`, as an offset into the array. -/
def jumpBuffer (b : CVBuffer) : Nat := if b.uOffset > b.uGetOffset then b.uGetOffset else 0

def remainSize (b : CVBuffer) : Int :=
  if b.uOffset > b.uGetOffset then toS32 (b.uOffset - b.uGetOffset : Nat) else 0

/-- `NotUsedSize()`: the difference is an `unsigned int`, returned as an `int`. -/
def notUsedSize (b : CVBuffer) : Int := toS32 (toU32 (maxCVBufferSize - b.uOffset : Int))

/-- `operator<<` of an `unsigned short`. What `Append` answers is ignored. -/
def shl16 (b : CVBuffer) (v : Nat) : CVBuffer := (b.append (hostStore (htons v))).2

/-- `setTcpMsgLen`: the argument is converted to an `unsigned short` and put in front, whatever
    the buffer holds. -/
def setTcpMsgLen (b : CVBuffer) (usLen : Nat) : CVBuffer :=
  { b with buffer := write b.buffer 0 (hostStore (htons (toU16 usLen))) }

/-- `operator>>` into an `unsigned short`: zero when fewer than two bytes are left. -/
def shr16 (b : CVBuffer) : Nat × CVBuffer :=
  match b.get 2 with
  | (some nv, b') => (ntohs (hostLoad nv), b')
  | (none, b') => (0, b')

end CVBuffer

/-! ## Small facts

What each operation does where no addition wraps, which is everywhere the receive paths use it. -/

/-- Loading two bytes and swapping them is reading them big-endian. -/
theorem ntohs_hostLoad (a b : UInt8) : ntohs (hostLoad [a, b]) = beNat [a, b] := by
  have ha : a.toNat < 256 := a.toNat_lt
  have hb : b.toNat < 256 := b.toNat_lt
  simp only [ntohs, hostLoad, List.reverse_cons, List.reverse_nil, List.nil_append,
    List.singleton_append, beNat_pair]
  omega

theorem ntohs_hostLoad_read (m : Nat → UInt8) (p : Nat) :
    ntohs (hostLoad (read m p 2)) = beNat (read m p 2) := by
  rw [read_succ, read_succ, read_zero]
  exact ntohs_hostLoad _ _

namespace CVBuffer

variable {b : CVBuffer}

@[simp] theorem clear_buffer (b : CVBuffer) : b.clear.buffer = b.buffer := rfl
@[simp] theorem clear_uOffset (b : CVBuffer) : b.clear.uOffset = 0 := rfl
@[simp] theorem clear_uGetOffset (b : CVBuffer) : b.clear.uGetOffset = 0 := rfl

theorem getType_of_le {n : Nat} (h : b.uGetOffset + n ≤ b.uOffset)
    (hw : b.uOffset < 4294967296) :
    b.getType n = (some (read b.buffer b.uGetOffset n),
      { b with uGetOffset := b.uGetOffset + n }) := by
  have hu : u32 (b.uGetOffset + n) = b.uGetOffset + n := u32_eq (by omega)
  rw [getType, hu, if_neg (by omega)]

theorem getType_of_gt {n : Nat} (h : b.uOffset < b.uGetOffset + n)
    (hw : b.uGetOffset + n < 4294967296) : b.getType n = (none, b) := by
  have hu : u32 (b.uGetOffset + n) = b.uGetOffset + n := u32_eq hw
  rw [getType, hu, if_pos (by omega)]

theorem jump_of_le {n : Nat} (h : b.uGetOffset + n ≤ b.uOffset) (hw : b.uOffset < 4294967296) :
    b.jump n = { b with uGetOffset := b.uGetOffset + n } := by
  have hu : u32 (b.uGetOffset + n) = b.uGetOffset + n := u32_eq (by omega)
  rw [jump, hu, if_neg (by omega)]

/-- `Jump` past the end stops at the end. -/
theorem jump_of_gt {n : Nat} (h : b.uOffset < b.uGetOffset + n)
    (hw : b.uGetOffset + n < 4294967296) : b.jump n = { b with uGetOffset := b.uOffset } := by
  have hu : u32 (b.uGetOffset + n) = b.uGetOffset + n := u32_eq hw
  rw [jump, hu, if_pos (by omega)]

theorem alignBuf_of_le (h : b.uGetOffset ≤ b.uOffset) :
    b.alignBuf =
      { buffer := move b.buffer 0 b.uGetOffset (b.uOffset - b.uGetOffset)
        uOffset := b.uOffset - b.uGetOffset
        uGetOffset := 0 } := if_pos h

theorem remainSize_of_le (h : b.uGetOffset ≤ b.uOffset) (hw : b.uOffset < 2147483648) :
    b.remainSize = (b.uOffset : Int) - b.uGetOffset := by
  unfold remainSize
  split
  · rw [toS32_eq (by omega) (by omega)]
    omega
  · omega

end CVBuffer

end WebsocketTest
