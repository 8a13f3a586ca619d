import WebsocketTest.Lib.Masking
import WebsocketTest.Lib.Memory
import WebsocketTest.Lib.Words
import Mathlib.Data.List.GetD

/-!
# Frame headers and masking

`frame.hpp`: the two bytes every frame starts with, the bytes that may follow them, and the three
ways of masking a payload. The host is little-endian and its `size_t` has eight bytes, so the
prepared key of `word_mask_circ` is the key twice, and the key is turned by what was masked with it.

The header functions come with what they read back from a header that was put together here
(`getOpcode_new` and the others); `prepareHeader_eq` says which bytes it is on the wire. The masks
are all one `mask`, whatever the size of the pieces (`wordMaskCirc_eq`, `wordMaskExact_eq`).

## Why the masks are proved equal to a stream

`consume` unmasks a payload in the pieces it arrives in, with `word_mask_circ`; `masked_copy` masks
all of one at once, with `word_mask_exact`, or with `byte_mask` in a build that asks for strict
masking. Nothing in the source says that they agree, although what one end masks with one of them
the other end unmasks with another. A key is read here as an endless stream of bytes (`keyStream`),
of which a piece of any length uses up a beginning. Then each of the three is `mask` with that
stream, and that they agree (**`masks_agree`**) has nothing to do with words any more.

What is not here: a big-endian host, and one whose `size_t` has four bytes. For the latter the code
has a branch in `prepare_masking_key`, which this host does not take.
-/

set_option autoImplicit false

namespace WebsocketTest.WebSocket

open Lib.ByteOrder Lib.Framing Lib.Masking Lib.Memory

/-! ## Opcodes

Four bits of the first byte. The enumeration has a member for each of the sixteen, the reserved ones
too, so that reading an opcode never fails; that it is one that may be used is for
`validate_incoming_basic_header` to say. -/

/-- `frame::opcode::value`. -/
inductive Opcode
  | continuation
  | text
  | binary
  | rsv3
  | rsv4
  | rsv5
  | rsv6
  | rsv7
  | close
  | ping
  | pong
  | controlRsvb
  | controlRsvc
  | controlRsvd
  | controlRsve
  | controlRsvf
  deriving DecidableEq, Repr

namespace Opcode

def value : Opcode → UInt8
  | continuation => 0x0
  | text => 0x1
  | binary => 0x2
  | rsv3 => 0x3
  | rsv4 => 0x4
  | rsv5 => 0x5
  | rsv6 => 0x6
  | rsv7 => 0x7
  | close => 0x8
  | ping => 0x9
  | pong => 0xA
  | controlRsvb => 0xB
  | controlRsvc => 0xC
  | controlRsvd => 0xD
  | controlRsve => 0xE
  | controlRsvf => 0xF

/-- `opcode::value(b)`, for the four bits that a header has. -/
def ofValue (b : UInt8) : Opcode :=
  match b.toNat with
  | 0x0 => continuation
  | 0x1 => text
  | 0x2 => binary
  | 0x3 => rsv3
  | 0x4 => rsv4
  | 0x5 => rsv5
  | 0x6 => rsv6
  | 0x7 => rsv7
  | 0x8 => close
  | 0x9 => ping
  | 0xA => pong
  | 0xB => controlRsvb
  | 0xC => controlRsvc
  | 0xD => controlRsvd
  | 0xE => controlRsve
  | _ => controlRsvf

/-- `opcode::reserved` -/
def reserved (v : Opcode) : Bool :=
  (rsv3.value ≤ v.value && v.value ≤ rsv7.value) ||
    (controlRsvb.value ≤ v.value && v.value ≤ controlRsvf.value)

/-- `opcode::invalid`, which four bits never are. -/
def invalid (v : Opcode) : Bool := 0xF < v.value

/-- `opcode::is_control` -/
def isControl (v : Opcode) : Bool := 0x8 ≤ v.value

end Opcode

/-! ## The basic header

Two bytes of bits. A header that the code puts together is one of `basic_header`'s constructor, and
what its functions read back from it are simp lemmas here, so that nothing below takes a byte apart
again. A header that came from the peer is any two bytes. -/

/-- `limits::payload_size_basic` -/
def payloadSizeBasic : Nat := 125

/-- `limits::payload_size_extended` -/
def payloadSizeExtended : Nat := 0xFFFF

/-- `payload_size_code_16bit` -/
def payloadSizeCode16bit : UInt8 := 0x7E

/-- `payload_size_code_64bit` -/
def payloadSizeCode64bit : UInt8 := 0x7F

/-- `basic_header` -/
@[ext] structure BasicHeader where
  b0 : UInt8
  b1 : UInt8
  deriving DecidableEq, Repr

/-- The seven bits for a payload of this size: the size itself, or one of the two codes that say how
    many bytes the size has behind them. -/
def basicValue (size : Nat) : UInt8 :=
  if size ≤ payloadSizeBasic then UInt8.ofNat size
  else if size ≤ payloadSizeExtended then payloadSizeCode16bit
  else payloadSizeCode64bit

namespace BasicHeader

/-- `basic_header(op, size, fin, mask, rsv1, rsv2, rsv3)` -/
def new (op : Opcode) (size : Nat) (fin mask : Bool) (rsv1 rsv2 rsv3 : Bool := false) :
    BasicHeader where
  b0 := (if fin then 0x80 else 0) ||| (if rsv1 then 0x40 else 0) ||| (if rsv2 then 0x20 else 0) |||
    (if rsv3 then 0x10 else 0) ||| (op.value &&& 0x0F)
  b1 := (if mask then 0x80 else 0) ||| basicValue size

/-- `get_fin` -/
def getFin (h : BasicHeader) : Bool := h.b0 &&& 0x80 == 0x80

/-- `get_rsv1` -/
def getRsv1 (h : BasicHeader) : Bool := h.b0 &&& 0x40 == 0x40

/-- `get_rsv2` -/
def getRsv2 (h : BasicHeader) : Bool := h.b0 &&& 0x20 == 0x20

/-- `get_rsv3` -/
def getRsv3 (h : BasicHeader) : Bool := h.b0 &&& 0x10 == 0x10

/-- `get_opcode` -/
def getOpcode (h : BasicHeader) : Opcode := .ofValue (h.b0 &&& 0x0F)

/-- `get_masked` -/
def getMasked (h : BasicHeader) : Bool := h.b1 &&& 0x80 == 0x80

/-- `get_basic_size` -/
def getBasicSize (h : BasicHeader) : UInt8 := h.b1 &&& 0x7F

/-- `get_masking_key_offset` -/
def getMaskingKeyOffset (h : BasicHeader) : Nat :=
  if h.getBasicSize = payloadSizeCode16bit then 2
  else if h.getBasicSize = payloadSizeCode64bit then 8
  else 0

/-- `get_header_len` -/
def getHeaderLen (h : BasicHeader) : Nat :=
  2 + h.getMaskingKeyOffset + if h.getMasked then 4 else 0

section

variable {op : Opcode} {size : Nat} {fin mask rsv1 rsv2 rsv3 : Bool}

/-- The bits of the first byte do not touch each other. -/
theorem b0_new :
    let b0 := (new op size fin mask rsv1 rsv2 rsv3).b0
    (b0 &&& 0x80 == 0x80) = fin ∧ (b0 &&& 0x40 == 0x40) = rsv1 ∧ (b0 &&& 0x20 == 0x20) = rsv2 ∧
      (b0 &&& 0x10 == 0x10) = rsv3 ∧ Opcode.ofValue (b0 &&& 0x0F) = op := by
  dsimp only [new]
  cases op <;> cases fin <;> cases rsv1 <;> cases rsv2 <;> cases rsv3 <;> decide +kernel

@[simp] theorem getFin_new : (new op size fin mask rsv1 rsv2 rsv3).getFin = fin := b0_new.1

@[simp] theorem getRsv1_new : (new op size fin mask rsv1 rsv2 rsv3).getRsv1 = rsv1 := b0_new.2.1

@[simp] theorem getRsv2_new : (new op size fin mask rsv1 rsv2 rsv3).getRsv2 = rsv2 := b0_new.2.2.1

@[simp] theorem getRsv3_new : (new op size fin mask rsv1 rsv2 rsv3).getRsv3 = rsv3 :=
  b0_new.2.2.2.1

@[simp] theorem getOpcode_new : (new op size fin mask rsv1 rsv2 rsv3).getOpcode = op :=
  b0_new.2.2.2.2

/-- Seven bits beside the mask bit are read back as they were, and so is the mask bit. -/
theorem seven_bits {v : UInt8} (h : v.toNat < 128) (mask : Bool) :
    ((if mask then 0x80 else 0) ||| v) &&& 0x7F = v ∧
      (((if mask then 0x80 else 0) ||| v) &&& 0x80 == 0x80) = mask := by
  have hall : ∀ n < 128, ∀ mask : Bool,
      ((if mask then 0x80 else 0) ||| UInt8.ofNat n) &&& 0x7F = UInt8.ofNat n ∧
        (((if mask then 0x80 else 0) ||| UInt8.ofNat n) &&& 0x80 == 0x80) = mask := by
    decide +kernel
  have hv := hall v.toNat h mask
  rwa [UInt8.ofNat_toNat] at hv

theorem basicValue_lt (size : Nat) : (basicValue size).toNat < 128 := by
  unfold basicValue
  split
  · next h =>
    have hsize : size ≤ 125 := h
    simp only [UInt8.toNat_ofNat']
    omega
  · split <;> decide

@[simp] theorem getBasicSize_new :
    (new op size fin mask rsv1 rsv2 rsv3).getBasicSize = basicValue size :=
  (seven_bits (basicValue_lt size) mask).1

@[simp] theorem getMasked_new : (new op size fin mask rsv1 rsv2 rsv3).getMasked = mask :=
  (seven_bits (basicValue_lt size) mask).2

end

end BasicHeader

/-! ## The extended header

The size, where it does not fit the basic header, and the key, where there is one. The array has
room for both at their longest, and its bytes are used from the front: where the key begins depends
on how long the size is (`getMaskingKeyOffset_new`). -/

/-- `htonll`, and `ntohll` -/
def htonll (src : Nat) : Nat := swap 8 src

/-- `ntohs` -/
def ntohs (src : Nat) : Nat := swap 2 src

/-- The bytes `key.c` of a `masking_key_type`. -/
def keyBytes (key : UInt32) : List UInt8 := store 4 key.toNat

/-- `extended_header`, of whose `bytes` the first twelve are its own. -/
structure ExtendedHeader where
  bytes : Nat → UInt8

namespace ExtendedHeader

/-- `copy_payload`: the bytes, and how many of them are the size. -/
def copyPayload (payloadSize : Nat) (bytes : Nat → UInt8) : (Nat → UInt8) × Nat :=
  let payloadOffset :=
    if payloadSize ≤ payloadSizeBasic then 8
    else if payloadSize ≤ payloadSizeExtended then 6
    else 0
  (write bytes 0 ((store 8 (htonll payloadSize)).drop payloadOffset), 8 - payloadOffset)

/-- `extended_header()` -/
def empty : ExtendedHeader := ⟨fun _ => 0⟩

/-- `extended_header(payload_size)` -/
def ofSize (payloadSize : Nat) : ExtendedHeader := ⟨(copyPayload payloadSize empty.bytes).1⟩

/-- `extended_header(payload_size, masking_key)` -/
def ofSizeKey (payloadSize : Nat) (maskingKey : UInt32) : ExtendedHeader :=
  let copied := copyPayload payloadSize empty.bytes
  ⟨write copied.1 copied.2 (keyBytes maskingKey)⟩

/-- `get_extended_size` -/
def getExtendedSize (e : ExtendedHeader) : Nat := ntohs (load (read e.bytes 0 2))

/-- `get_jumbo_size` -/
def getJumboSize (e : ExtendedHeader) : Nat := htonll (load (read e.bytes 0 8))

end ExtendedHeader

/-- `get_payload_size` -/
def getPayloadSize (h : BasicHeader) (e : ExtendedHeader) : Nat :=
  if h.getBasicSize.toNat ≤ payloadSizeBasic then h.getBasicSize.toNat
  else if h.getBasicSize = payloadSizeCode16bit then e.getExtendedSize
  else e.getJumboSize

/-- `get_masking_key` -/
def getMaskingKey (h : BasicHeader) (e : ExtendedHeader) : UInt32 :=
  if h.getMasked then UInt32.ofNat (load (read e.bytes h.getMaskingKeyOffset 4)) else 0

/-- `prepare_header` -/
def prepareHeader (h : BasicHeader) (e : ExtendedHeader) : List UInt8 :=
  h.b0 :: h.b1 :: read e.bytes 0 (h.getHeaderLen - 2)

/-- How many bytes the size takes behind the basic header. -/
def sizeWidth (size : Nat) : Nat :=
  if size ≤ payloadSizeBasic then 0 else if size ≤ payloadSizeExtended then 2 else 8

section

variable {op : Opcode} {size : Nat} {fin mask : Bool}

/-- The source takes the size apart as eight big-endian bytes and copies the last of them: as many
    as the width has. -/
theorem copyPayload_eq (size : Nat) (bytes : Nat → UInt8) :
    ExtendedHeader.copyPayload size bytes =
      (write bytes 0 (beBytes (sizeWidth size) size), sizeWidth size) := by
  have hstore : store 8 (htonll size) = beBytes 8 size := store_swap 8 size
  have hlow : (beBytes 8 size).drop 6 = beBytes 2 size := by
    rw [beBytes_add 6 2 size, List.drop_left' (length_beBytes 6 _)]
  unfold ExtendedHeader.copyPayload sizeWidth
  rw [hstore]
  split
  · simp [beBytes]
  · split
    · simp only [hlow, Nat.reduceSub]
    · simp only [List.drop_zero, Nat.sub_zero]

theorem getMaskingKeyOffset_new : (BasicHeader.new op size fin mask).getMaskingKeyOffset =
    sizeWidth size := by
  rw [BasicHeader.getMaskingKeyOffset, BasicHeader.getBasicSize_new, basicValue, sizeWidth]
  split
  · next h =>
    have hsize : size ≤ 125 := h
    have hmod : (UInt8.ofNat size).toNat = size := by
      simp only [UInt8.toNat_ofNat']
      omega
    have h₁ : UInt8.ofNat size ≠ payloadSizeCode16bit := by
      intro heq
      rw [heq] at hmod
      have : payloadSizeCode16bit.toNat = 126 := rfl
      omega
    have h₂ : UInt8.ofNat size ≠ payloadSizeCode64bit := by
      intro heq
      rw [heq] at hmod
      have : payloadSizeCode64bit.toNat = 127 := rfl
      omega
    rw [if_neg h₁, if_neg h₂]
  · split
    · rw [if_pos rfl]
    · rw [if_pos rfl, if_neg (by decide)]

/-- **The header on the wire**, of a frame that is not masked: the two bytes, and the size in as
    many bytes as it needs, the highest first. -/
theorem prepareHeader_eq (op : Opcode) (size : Nat) (fin : Bool) :
    prepareHeader (.new op size fin false) (.ofSize size) =
      (BasicHeader.new op size fin false).b0 :: (BasicHeader.new op size fin false).b1 ::
        beBytes (sizeWidth size) size := by
  have hread := read_write_self ExtendedHeader.empty.bytes 0 (beBytes (sizeWidth size) size)
  rw [length_beBytes] at hread
  rw [prepareHeader, BasicHeader.getHeaderLen, BasicHeader.getMasked_new, getMaskingKeyOffset_new,
    ExtendedHeader.ofSize, copyPayload_eq]
  simp [hread]

/-- **The header on the wire**, of a frame that is masked: the four bytes of the key, as the host
    stores them, are behind the size. -/
theorem prepareHeader_eq_of_masked (op : Opcode) (size : Nat) (fin : Bool) (key : UInt32) :
    prepareHeader (.new op size fin true) (.ofSizeKey size key) =
      (BasicHeader.new op size fin true).b0 :: (BasicHeader.new op size fin true).b1 ::
        (beBytes (sizeWidth size) size ++ keyBytes key) := by
  have hkey : (keyBytes key).length = 4 := length_store 4 _
  have hread := read_write_append
    (write ExtendedHeader.empty.bytes 0 (beBytes (sizeWidth size) size)) 0 (sizeWidth size)
    (keyBytes key)
  have hsize := read_write_self ExtendedHeader.empty.bytes 0 (beBytes (sizeWidth size) size)
  rw [length_beBytes] at hsize
  rw [hkey, hsize, Nat.zero_add] at hread
  rw [prepareHeader, BasicHeader.getHeaderLen, BasicHeader.getMasked_new, getMaskingKeyOffset_new,
    ExtendedHeader.ofSizeKey, copyPayload_eq]
  have hlen : 2 + sizeWidth size + (if true = true then 4 else 0) - 2 = sizeWidth size + 4 := by
    simp only [if_true]
    omega
  rw [hlen, hread]

end

/-! ## Masking, as it is done

`byte_mask` goes by bytes and takes the key from a table of four; the other two go by words of eight
bytes and take it from a word that has the key in it twice. Only `word_mask_circ` can go on with a
payload that came in pieces: it returns the key turned to where the next piece begins. -/

/-- `prepare_masking_key` -/
def prepareMaskingKey (key : UInt32) : UInt64 :=
  let lowBits := key.toUInt64
  let highBits := key.toUInt64
  highBits <<< 32 ||| lowBits

/-- `circshift_prepared_key`. A shift by a whole word, which is what an `offset` of zero makes of
    the left one, is a shift by nothing on this host, as it is here. -/
def circshiftPreparedKey (preparedKey : UInt64) (offset : Nat) : UInt64 :=
  let temp := preparedKey <<< UInt64.ofNat ((8 - offset) * 8)
  preparedKey >>> UInt64.ofNat (offset * 8) ||| temp

/-- The loop of `byte_mask`, from `key_index` on. -/
def byteMaskFrom (key : UInt32) : Nat → List UInt8 → List UInt8
  | _, [] => []
  | keyIndex, b :: bs =>
    (b ^^^ (keyBytes key).getD keyIndex 0) :: byteMaskFrom key ((keyIndex + 1) % 4) bs

/-- `byte_mask` -/
def byteMask (input : List UInt8) (key : UInt32) (keyOffset : Nat := 0) : List UInt8 :=
  byteMaskFrom key (keyOffset % 4) input

/-- The bytes of a `size_t`. -/
def wordBytes (word : UInt64) : List UInt8 := store 8 word.toNat

/-- The `size_t` with these bytes. -/
def wordOf (bytes : List UInt8) : UInt64 := UInt64.ofNat (load bytes)

/-- The loop over the whole words. -/
def maskWords (preparedKey : UInt64) : Nat → List UInt8 → List UInt8
  | 0, _ => []
  | n + 1, input =>
    wordBytes (wordOf (input.take 8) ^^^ preparedKey) ++ maskWords preparedKey n (input.drop 8)

/-- `word_mask_exact`: what it writes. -/
def wordMaskExact (input : List UInt8) (key : UInt32) : List UInt8 :=
  let preparedKey := prepareMaskingKey key
  let n := input.length / 8
  maskWords preparedKey n input ++
    (input.drop (n * 8)).mapIdx fun i b => b ^^^ (keyBytes key).getD ((n * 8 + i) % 4) 0

/-- `word_mask_circ`: what it writes, and the key it returns. -/
def wordMaskCirc (input : List UInt8) (preparedKey : UInt64) : List UInt8 × UInt64 :=
  let n := input.length / 8
  let l := input.length - n * 8
  (maskWords preparedKey n input ++
      List.zipWith (· ^^^ ·) (input.drop (n * 8)) (wordBytes preparedKey),
    circshiftPreparedKey preparedKey l)

/-- `word_mask_circ` on one piece after the other, each with the key that came back from the one
    before it. -/
def maskPieces (preparedKey : UInt64) : List (List UInt8) → List (List UInt8)
  | [] => []
  | p :: ps => (wordMaskCirc p preparedKey).1 :: maskPieces (wordMaskCirc p preparedKey).2 ps

/-- The bytes that a prepared key is read as, one word after the other. -/
def keyStream (preparedKey : UInt64) : Nat → UInt8 :=
  fun i => (wordBytes preparedKey).getD (i % 8) 0

/-- What masking is, for a prepared key: each byte with the next one of the key's stream. -/
abbrev masked (preparedKey : UInt64) (input : List UInt8) : List UInt8 :=
  mask (· ^^^ ·) (keyStream preparedKey) input

/-! ## A key is a stream of bytes

What is proved of a word is brought down to its bytes: a word masked with a word is the bytes masked
with the bytes, the prepared key is the key twice, and the shift turns it. From there on a key is
only its stream, and turning the key is dropping from the stream. -/

@[simp] theorem length_keyBytes (key : UInt32) : (keyBytes key).length = 4 := length_store 4 _

@[simp] theorem length_wordBytes (word : UInt64) : (wordBytes word).length = 8 := length_store 8 _

theorem wordBytes_inj {v w : UInt64} (h : wordBytes v = wordBytes w) : v = w := by
  have hload := congrArg load h
  rw [wordBytes, wordBytes, load_store v.toNat_lt, load_store w.toNat_lt] at hload
  exact UInt64.toNat_inj.mp hload

theorem wordBytes_wordOf {bytes : List UInt8} (h : bytes.length = 8) :
    wordBytes (wordOf bytes) = bytes := by
  have hlt : load bytes < 2 ^ 64 := by
    have := load_lt bytes
    rwa [h] at this
  have hstore := store_load bytes
  rw [h] at hstore
  rw [wordBytes, wordOf, UInt64.toNat_ofNat_of_lt' hlt, hstore]

/-- The exclusive or of two words is that of their bytes, so that a word is masked byte by byte. -/
theorem wordBytes_xor {bytes : List UInt8} (h : bytes.length = 8) (key : UInt64) :
    wordBytes (wordOf bytes ^^^ key) = List.zipWith (· ^^^ ·) bytes (wordBytes key) := by
  have hlen : bytes.length = (wordBytes key).length := by rw [h, length_wordBytes]
  have hword : load bytes = (wordOf bytes).toNat := by
    have := congrArg load (wordBytes_wordOf h)
    rwa [wordBytes, load_store (wordOf bytes).toNat_lt, eq_comm] at this
  apply load_inj (by simp [h])
  rw [load_zipWith_xor hlen, wordBytes, load_store (UInt64.toNat_lt _), wordBytes,
    load_store key.toNat_lt, UInt64.toNat_xor, hword]

/-- The bytes of the prepared key are those of the key twice, since a word has room for two. -/
theorem wordBytes_prepareMaskingKey (key : UInt32) :
    wordBytes (prepareMaskingKey key) = keyBytes key ++ keyBytes key := by
  have hkey : key.toNat < 2 ^ 32 := key.toNat_lt
  have hhigh : key.toNat <<< 32 % 2 ^ 64 = 2 ^ 32 * key.toNat := by
    rw [Nat.shiftLeft_eq, Nat.mul_comm, Nat.mod_eq_of_lt (by omega)]
  apply load_inj (by simp)
  have hnat : (prepareMaskingKey key).toNat = 2 ^ 32 * key.toNat + key.toNat := by
    rw [Nat.two_pow_add_eq_or_of_lt hkey, ← hhigh, prepareMaskingKey]
    simp
  rw [load_append, keyBytes, length_store, load_store hkey, wordBytes,
    load_store (UInt64.toNat_lt _), hnat, Nat.add_comm]
  rfl

/-- The shift turns the bytes of the key to the left, which is how a little-endian host stores a
    word that is shifted to the right. -/
theorem wordBytes_circshiftPreparedKey (key : UInt64) {offset : Nat} (h : offset < 8) :
    wordBytes (circshiftPreparedKey key offset) = (wordBytes key).rotate offset := by
  have hlen : (wordBytes key).length = 8 := length_wordBytes key
  have hload : load (wordBytes key) = key.toNat := load_store key.toNat_lt
  have hrotate := load_rotate (show offset ≤ (wordBytes key).length by omega)
  rw [hlen, hload] at hrotate
  apply load_inj (by simp)
  rw [hrotate, wordBytes, load_store (UInt64.toNat_lt _), circshiftPreparedKey, UInt64.toNat_or,
    UInt64.toNat_shiftRight, UInt64.toNat_shiftLeft, Nat.shiftRight_eq_div_pow, Nat.shiftLeft_eq,
    UInt64.toNat_ofNat_of_lt' (show offset * 8 < 2 ^ 64 by omega),
    UInt64.toNat_ofNat_of_lt' (show (8 - offset) * 8 < 2 ^ 64 by omega)]
  have hpow : ∀ n : Nat, (256 : Nat) ^ n = 2 ^ (n * 8) := by
    intro n
    rw [Nat.mul_comm, Nat.pow_mul]
  rw [hpow, hpow, Nat.mod_eq_of_lt (show offset * 8 < 64 by omega)]
  rcases Nat.eq_zero_or_pos offset with rfl | hpos
  · -- Both shifts are by nothing, and the key is put beside itself.
    have hfull : key.toNat * 2 ^ ((8 - 0) * 8) % 256 ^ 8 = 0 := Nat.mul_mod_left _ _
    have hkey : key.toNat * 2 ^ ((8 - 0) * 8 % 64) % 2 ^ 64 = key.toNat := by
      rw [Nat.mod_self, Nat.pow_zero, Nat.mul_one, Nat.mod_eq_of_lt key.toNat_lt]
    rw [hfull, hkey]
    simp
  · rw [Nat.mod_eq_of_lt (show (8 - offset) * 8 < 64 by omega), hpow 8]

theorem keyStream_periodic (key : UInt64) : Function.Periodic (keyStream key) 8 := by
  intro i
  rw [keyStream, keyStream, Nat.add_mod_right]

/-- The stream of a key that was turned is what is left of its stream. -/
theorem keyStream_circshiftPreparedKey (key : UInt64) {offset : Nat} (h : offset < 8) :
    keyStream (circshiftPreparedKey key offset) = shift offset (keyStream key) := by
  funext i
  have hi : i % 8 < 8 := Nat.mod_lt _ (by omega)
  have hmod : (i % 8 + offset) % 8 = (offset + i) % 8 := by omega
  rw [shift, keyStream, keyStream, wordBytes_circshiftPreparedKey key h,
    List.getD_eq_getElem _ _ (by simpa using hi), List.getElem_rotate,
    List.getD_eq_getElem _ _ (by simpa using Nat.mod_lt (offset + i) (show 0 < 8 by omega))]
  simp only [length_wordBytes, hmod]

/-- The prepared key is read as the key over and over. -/
theorem keyStream_prepareMaskingKey (key : UInt32) (i : Nat) :
    keyStream (prepareMaskingKey key) i = (keyBytes key).getD (i % 4) 0 := by
  have hmod : i % 8 = i % 4 ∨ i % 8 = i % 4 + 4 := by omega
  rw [keyStream, wordBytes_prepareMaskingKey]
  rcases hmod with h | h
  · rw [h, List.getD_append _ _ _ _ (by simpa using Nat.mod_lt i (show 0 < 4 by omega))]
  · rw [h, List.getD_append_right _ _ _ _ (by simp), length_keyBytes, Nat.add_sub_cancel]

/-- Up to eight bytes are masked with the bytes of the key. -/
theorem masked_eq_zipWith (key : UInt64) {input : List UInt8} (h : input.length ≤ 8) :
    masked key input = List.zipWith (· ^^^ ·) input (wordBytes key) := by
  apply mask_eq_zipWith
  · rwa [length_wordBytes]
  · intro i hi
    rw [length_wordBytes] at hi
    rw [keyStream, Nat.mod_eq_of_lt hi, List.getD_eq_getElem]

/-- The loop over the words masks what they cover; the bytes behind the last word are not its. -/
theorem maskWords_eq (key : UInt64) {n : Nat} {input : List UInt8} (h : n * 8 ≤ input.length) :
    maskWords key n input = masked key (input.take (n * 8)) := by
  induction n generalizing input with
  | zero => simp [maskWords]
  | succ n ih =>
    have hword : (input.take 8).length = 8 := List.length_take_of_le (by omega)
    have hrest : n * 8 ≤ (input.drop 8).length := by
      rw [List.length_drop]
      omega
    have hshift : shift 8 (keyStream key) = keyStream key := by
      have := shift_of_periodic (keyStream_periodic key) 1
      rwa [Nat.one_mul] at this
    rw [maskWords, ih hrest, wordBytes_xor hword, ← masked_eq_zipWith key (by omega),
      show (n + 1) * 8 = 8 + n * 8 by omega, List.take_add, masked, masked, masked, mask_append,
      hword, hshift]

/-! ## The three ways are one -/

/-- **`word_mask_circ` masks its input**, and returns a key for what comes next. -/
theorem wordMaskCirc_eq (input : List UInt8) (key : UInt64) :
    (wordMaskCirc input key).1 = masked key input ∧
      keyStream (wordMaskCirc input key).2 = shift input.length (keyStream key) := by
  have hn : input.length / 8 * 8 ≤ input.length := Nat.div_mul_le_self _ _
  have hl : input.length - input.length / 8 * 8 < 8 := by omega
  have hwords : (input.take (input.length / 8 * 8)).length = input.length / 8 * 8 :=
    List.length_take_of_le hn
  have hshift := shift_of_periodic (keyStream_periodic key) (input.length / 8)
  constructor
  · have hrest : (input.drop (input.length / 8 * 8)).length ≤ 8 := by
      rw [List.length_drop]
      omega
    calc (wordMaskCirc input key).1
        = masked key (input.take (input.length / 8 * 8)) ++
            masked key (input.drop (input.length / 8 * 8)) := by
          rw [wordMaskCirc, maskWords_eq key hn, masked_eq_zipWith key hrest]
      _ = masked key (input.take (input.length / 8 * 8) ++
            input.drop (input.length / 8 * 8)) := by
          rw [masked, masked, masked, mask_append, hwords, hshift]
      _ = masked key input := by rw [List.take_append_drop]
  · calc keyStream (wordMaskCirc input key).2
        = shift (input.length - input.length / 8 * 8) (keyStream key) :=
          keyStream_circshiftPreparedKey key hl
      _ = shift (input.length - input.length / 8 * 8)
            (shift (input.length / 8 * 8) (keyStream key)) := by rw [hshift]
      _ = shift input.length (keyStream key) := by
          rw [shift_shift, Nat.add_sub_cancel' hn]

/-- A key is known by its stream, which is why the key that two calls come to can be compared. -/
theorem keyStream_inj {v w : UInt64} (h : keyStream v = keyStream w) : v = w := by
  apply wordBytes_inj
  apply List.ext_getElem (by simp)
  intro i h₁ h₂
  have hi : i % 8 = i := Nat.mod_eq_of_lt (by rwa [length_wordBytes] at h₁)
  have hstream := congrFun h i
  rwa [keyStream, keyStream, hi, List.getD_eq_getElem _ _ h₁,
    List.getD_eq_getElem _ _ h₂] at hstream

/-- `word_mask_circ` may be called on the parts of its input. -/
theorem wordMaskCirc_append (xs ys : List UInt8) (key : UInt64) :
    wordMaskCirc (xs ++ ys) key =
      ((wordMaskCirc xs key).1 ++ (wordMaskCirc ys (wordMaskCirc xs key).2).1,
        (wordMaskCirc ys (wordMaskCirc xs key).2).2) := by
  obtain ⟨hwhole, hkey⟩ := wordMaskCirc_eq (xs ++ ys) key
  obtain ⟨hxs, hkx⟩ := wordMaskCirc_eq xs key
  obtain ⟨hys, hky⟩ := wordMaskCirc_eq ys (wordMaskCirc xs key).2
  apply Prod.ext
  · rw [hwhole, hxs, hys, masked, masked, masked, mask_append, hkx]
  · apply keyStream_inj
    rw [hkey, hky, hkx, shift_shift, List.length_append]

/-- **`word_mask_exact` masks its input** with the key over and over. -/
theorem wordMaskExact_eq (input : List UInt8) (key : UInt32) :
    wordMaskExact input key = masked (prepareMaskingKey key) input := by
  have hn : input.length / 8 * 8 ≤ input.length := Nat.div_mul_le_self _ _
  have hwords : (input.take (input.length / 8 * 8)).length = input.length / 8 * 8 :=
    List.length_take_of_le hn
  calc wordMaskExact input key
      = masked (prepareMaskingKey key) (input.take (input.length / 8 * 8)) ++
          mask (· ^^^ ·) (shift (input.length / 8 * 8) (keyStream (prepareMaskingKey key)))
            (input.drop (input.length / 8 * 8)) := by
        rw [wordMaskExact, maskWords_eq _ hn, mask]
        simp only [shift, keyStream_prepareMaskingKey]
    _ = masked (prepareMaskingKey key)
          (input.take (input.length / 8 * 8) ++ input.drop (input.length / 8 * 8)) := by
        rw [masked, masked, mask_append, hwords]
    _ = masked (prepareMaskingKey key) input := by rw [List.take_append_drop]

/-- The loop of `byte_mask` masks its input. -/
theorem byteMaskFrom_eq (key : UInt32) (keyIndex : Nat) (input : List UInt8) :
    byteMaskFrom key (keyIndex % 4) input =
      mask (· ^^^ ·) (shift keyIndex (keyStream (prepareMaskingKey key))) input := by
  induction input generalizing keyIndex with
  | nil => rfl
  | cons b bs ih =>
    have hnext : (keyIndex % 4 + 1) % 4 = (keyIndex + 1) % 4 := by omega
    have hhead : shift keyIndex (keyStream (prepareMaskingKey key)) 0 =
        (keyBytes key).getD (keyIndex % 4) 0 := by
      rw [shift, Nat.add_zero, keyStream_prepareMaskingKey]
    rw [byteMaskFrom, mask_cons, hnext, ih, shift_shift, hhead]

theorem byteMask_eq (input : List UInt8) (key : UInt32) :
    byteMask input key = masked (prepareMaskingKey key) input := by
  rw [byteMask, byteMaskFrom_eq, shift_zero]

/-- The pieces are masked like the whole: each call returns the key that the next one needs. -/
theorem flatten_maskPieces (key : UInt64) (pieces : List (List UInt8)) :
    (maskPieces key pieces).flatten = masked key pieces.flatten := by
  induction pieces generalizing key with
  | nil => rfl
  | cons p ps ih =>
    obtain ⟨hmask, hkey⟩ := wordMaskCirc_eq p key
    rw [maskPieces, List.flatten_cons, ih, List.flatten_cons, masked, masked, mask_append, hmask,
      hkey]

/-- Masking twice is nothing, so that unmasking needs no function of its own. -/
@[simp] theorem masked_masked (key : UInt64) (input : List UInt8) :
    masked key (masked key input) = input :=
  mask_mask (fun x c => by rw [UInt8.xor_assoc, UInt8.xor_self, UInt8.xor_zero]) _ _

/-- **The three masks are one**: a word at a time, a word at a time over pieces of any lengths, and
    a byte at a time; and the mask takes itself off again. -/
theorem masks_agree (key : UInt32) (pieces : List (List UInt8)) :
    (maskPieces (prepareMaskingKey key) pieces).flatten = byteMask pieces.flatten key ∧
      wordMaskExact pieces.flatten key = byteMask pieces.flatten key ∧
        byteMask (byteMask pieces.flatten key) key = pieces.flatten := by
  simp only [flatten_maskPieces, wordMaskExact_eq, byteMask_eq, masked_masked, and_self]

end WebsocketTest.WebSocket
