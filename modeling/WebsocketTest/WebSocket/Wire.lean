import WebsocketTest.WebSocket.Frame
import WebsocketTest.WebSocket.Utf8

/-!
# Frames on the wire

A frame of RFC 6455 and its bytes: `Frame`, `Frame.bytes`. What `frame.hpp` reads from the header of
a frame is the frame's (`getPayloadSize_header`, `getMaskingKey_header`), and bytes that pass for a
header are the header of a frame (`exists_frame`).

A `Frame` is the side of the wire that the protocol speaks of: a flag, an opcode, a key or none, and
a payload without its mask. It has no reserved bits and no length of its own, so that a frame cannot
be written wrongly: its length is always in the shortest form and its reserved bits are clear. That
loses nothing, for a header with other bits does not get past the validation, and one that does is
the header of some `Frame`, with whatever payload comes next. This is what soundness rests on.

A length has 64 bits on the wire, which is why payloads here are shorter than 2 ^ 64. The top bit is
reserved in the protocol; the code does not look at it, and neither does `bytes`.
-/

set_option autoImplicit false

namespace WebsocketTest.WebSocket

open Lib.ByteOrder Lib.Framing Lib.Masking Lib.Memory

/-! ## A frame and its bytes -/

/-- A frame, with its payload as it is without the mask. -/
structure Frame where
  fin : Bool
  opcode : Opcode
  key : Option UInt32
  payload : List UInt8
  deriving DecidableEq, Repr

namespace Frame

/-- The two bytes in front. -/
def header (f : Frame) : BasicHeader := .new f.opcode f.payload.length f.fin f.key.isSome

/-- The size, where it does not fit in front, and the key. -/
def extension (f : Frame) : List UInt8 :=
  beBytes (sizeWidth f.payload.length) f.payload.length ++ (f.key.elim [] keyBytes)

def maskedPayload (f : Frame) : List UInt8 :=
  f.key.elim f.payload fun key => masked (prepareMaskingKey key) f.payload

def bytes (f : Frame) : List UInt8 :=
  f.header.b0 :: f.header.b1 :: (f.extension ++ f.maskedPayload)

variable {f : Frame}

@[simp] theorem length_maskedPayload : f.maskedPayload.length = f.payload.length := by
  unfold maskedPayload
  cases f.key <;> simp

theorem length_extension : f.extension.length = f.header.getHeaderLen - 2 := by
  unfold extension
  rw [header, BasicHeader.getHeaderLen, getMaskingKeyOffset_new, BasicHeader.getMasked_new,
    List.length_append, length_beBytes]
  cases f.key with
  | none => simp
  | some key =>
    simp only [Option.elim_some, length_keyBytes, Option.isSome_some, if_true]
    omega

/-- The extended header with the bytes of the frame. -/
def extendedHeader (f : Frame) : ExtendedHeader := ⟨write ExtendedHeader.empty.bytes 0 f.extension⟩

/-! ## What is read from a header

The source reads the size from the first bytes of `extended_header` and the key from where
`get_masking_key_offset` says, so that what is proved is about two parts of one array. -/

/-- Reading the first of the bytes that were written gives those bytes. -/
theorem read_write_prefix (m : Nat → UInt8) (xs ys : List UInt8) :
    read (write m 0 (xs ++ ys)) 0 xs.length = xs := by
  have h := read_write_drop m 0 (xs ++ ys) (a := 0) (n := xs.length) (by simp)
  rwa [List.drop_zero, List.take_left, Nat.zero_add] at h

/-- Reading behind the first bytes gives those that were written behind them. -/
theorem read_write_suffix (m : Nat → UInt8) (xs ys : List UInt8) :
    read (write m 0 (xs ++ ys)) xs.length ys.length = ys := by
  have h := read_write_drop m 0 (xs ++ ys) (a := xs.length) (n := ys.length) (by simp)
  rwa [List.drop_left, List.take_length, Nat.zero_add] at h

theorem basicValue_toNat {size : Nat} (h : size ≤ payloadSizeBasic) :
    (basicValue size).toNat = size := by
  have hsize : size ≤ 125 := h
  rw [basicValue, if_pos h, UInt8.toNat_ofNat', Nat.mod_eq_of_lt (by omega)]

theorem lt_basicValue_toNat {size : Nat} (h : ¬ size ≤ payloadSizeBasic) :
    payloadSizeBasic < (basicValue size).toNat := by
  rw [basicValue, if_neg h]
  split <;> decide

/-- **The size is read back**, in whichever of the three forms it was written. -/
theorem getPayloadSize_header (h : f.payload.length < 2 ^ 64) :
    getPayloadSize f.header f.extendedHeader = f.payload.length := by
  have hread : read f.extendedHeader.bytes 0 (sizeWidth f.payload.length) =
      beBytes (sizeWidth f.payload.length) f.payload.length := by
    have := read_write_prefix ExtendedHeader.empty.bytes
      (beBytes (sizeWidth f.payload.length) f.payload.length) (f.key.elim [] keyBytes)
    rwa [length_beBytes] at this
  have hload : ∀ {w : Nat}, f.payload.length < 256 ^ w →
      swap w (load (beBytes w f.payload.length)) = f.payload.length := by
    intro w hw
    have := swap_load (beBytes w f.payload.length)
    rwa [length_beBytes, beNat_beBytes_of_lt hw] at this
  rw [getPayloadSize, header, BasicHeader.getBasicSize_new]
  by_cases hbasic : f.payload.length ≤ payloadSizeBasic
  · rw [if_pos (by rw [basicValue_toNat hbasic]; exact hbasic), basicValue_toNat hbasic]
  · rw [if_neg (Nat.not_le.mpr (lt_basicValue_toNat hbasic))]
    by_cases hextended : f.payload.length ≤ payloadSizeExtended
    · have hwidth : sizeWidth f.payload.length = 2 := by
        rw [sizeWidth, if_neg hbasic, if_pos hextended]
      have hcode : basicValue f.payload.length = payloadSizeCode16bit := by
        rw [basicValue, if_neg hbasic, if_pos hextended]
      have hlt : f.payload.length < 256 ^ 2 := Nat.lt_succ_of_le hextended
      rw [hwidth] at hread
      rw [if_pos hcode, ExtendedHeader.getExtendedSize, hread, ntohs, hload hlt]
    · have hwidth : sizeWidth f.payload.length = 8 := by
        rw [sizeWidth, if_neg hbasic, if_neg hextended]
      have hcode : basicValue f.payload.length ≠ payloadSizeCode16bit := by
        rw [basicValue, if_neg hbasic, if_neg hextended]
        decide
      rw [hwidth] at hread
      rw [if_neg hcode, ExtendedHeader.getJumboSize, hread, htonll, hload h]

/-- **The key is read back**, from behind the size; a frame that is not masked has the key 0. -/
theorem getMaskingKey_header :
    getMaskingKey f.header f.extendedHeader = f.key.getD 0 := by
  rw [getMaskingKey, header, BasicHeader.getMasked_new, getMaskingKeyOffset_new]
  cases hkey : f.key with
  | none => rfl
  | some key =>
    have hread := read_write_suffix ExtendedHeader.empty.bytes
      (beBytes (sizeWidth f.payload.length) f.payload.length) (keyBytes key)
    rw [length_beBytes, length_keyBytes] at hread
    have hext : f.extendedHeader.bytes = write ExtendedHeader.empty.bytes 0
        (beBytes (sizeWidth f.payload.length) f.payload.length ++ keyBytes key) := by
      rw [extendedHeader, extension, hkey, Option.elim_some]
    have hload : load (keyBytes key) = key.toNat := load_store key.toNat_lt
    rw [Option.isSome_some, if_pos rfl, hext, hread, hload, Option.getD_some, UInt32.ofNat_toNat]

/-! ## Bytes that pass for a header

The other direction: two bytes and as many as they ask for behind them. Where the reserved bits are
clear and the size is no longer than it needs to be, which is what the two validations ask, there is
a frame that begins with exactly these bytes. -/

/-- The mask bit and the seven bits are the second byte. -/
theorem b1_split (b : UInt8) :
    (if b &&& 0x80 == 0x80 then 0x80 else 0) ||| (b &&& 0x7F) = b ∧ (b &&& 0x7F).toNat < 128 := by
  have hall : ∀ n < 256, (if UInt8.ofNat n &&& 0x80 == 0x80 then 0x80 else 0) |||
      (UInt8.ofNat n &&& 0x7F) = UInt8.ofNat n ∧ (UInt8.ofNat n &&& 0x7F).toNat < 128 := by
    decide +kernel
  have hb := hall b.toNat b.toNat_lt
  rwa [UInt8.ofNat_toNat] at hb

/-- The first byte is what is read from it, where the reserved bits are clear. -/
theorem b0_split {h : BasicHeader} (h₁ : h.getRsv1 = false) (h₂ : h.getRsv2 = false)
    (h₃ : h.getRsv3 = false) (size : Nat) (mask : Bool) :
    (BasicHeader.new h.getOpcode size h.getFin mask).b0 = h.b0 := by
  have hall : ∀ n < 256, (UInt8.ofNat n &&& 0x40 == 0x40) = false →
      (UInt8.ofNat n &&& 0x20 == 0x20) = false → (UInt8.ofNat n &&& 0x10 == 0x10) = false →
      (if UInt8.ofNat n &&& 0x80 == 0x80 then 0x80 else 0) ||| 0 ||| 0 ||| 0 |||
        ((Opcode.ofValue (UInt8.ofNat n &&& 0x0F)).value &&& 0x0F) = UInt8.ofNat n := by
    decide +kernel
  have hb := hall h.b0.toNat h.b0.toNat_lt
  rw [UInt8.ofNat_toNat] at hb
  exact hb h₁ h₂ h₃

/-- A size that is not written longer than it needs to be is written in the one way there is. -/
theorem size_bytes {h : BasicHeader} {sizes key : List UInt8}
    (hlen : sizes.length = h.getMaskingKeyOffset)
    (h16 : h.getBasicSize = payloadSizeCode16bit →
      payloadSizeBasic < getPayloadSize h ⟨write ExtendedHeader.empty.bytes 0 (sizes ++ key)⟩)
    (h64 : h.getBasicSize = payloadSizeCode64bit →
      payloadSizeExtended < getPayloadSize h ⟨write ExtendedHeader.empty.bytes 0 (sizes ++ key)⟩) :
    ∃ size, getPayloadSize h ⟨write ExtendedHeader.empty.bytes 0 (sizes ++ key)⟩ = size ∧
      size < 2 ^ 64 ∧ basicValue size = h.getBasicSize ∧ sizes = beBytes (sizeWidth size) size := by
  have hread := read_write_prefix ExtendedHeader.empty.bytes sizes key
  have hnum : ∀ {w : Nat}, sizes.length = w → swap w (load sizes) = beNat sizes ∧
      beNat sizes < 256 ^ w ∧ beBytes w (beNat sizes) = sizes := by
    rintro w rfl
    exact ⟨swap_load sizes, beNat_lt sizes, beBytes_beNat sizes⟩
  rw [BasicHeader.getMaskingKeyOffset] at hlen
  unfold getPayloadSize at h16 h64 ⊢
  -- The three ways to write a size: seven bits, or a code and 16 bits, or another and 64.
  by_cases hbasic : h.getBasicSize.toNat ≤ payloadSizeBasic
  · have hne16 : h.getBasicSize ≠ payloadSizeCode16bit := by
      intro heq
      rw [heq] at hbasic
      exact absurd hbasic (by decide)
    have hne64 : h.getBasicSize ≠ payloadSizeCode64bit := by
      intro heq
      rw [heq] at hbasic
      exact absurd hbasic (by decide)
    rw [if_neg hne16, if_neg hne64] at hlen
    refine ⟨_, if_pos hbasic, ?_, ?_, ?_⟩
    · exact Nat.lt_of_le_of_lt hbasic (by decide)
    · rw [basicValue, if_pos hbasic, UInt8.ofNat_toNat]
    · rw [List.eq_nil_of_length_eq_zero hlen, sizeWidth, if_pos hbasic]
      rfl
  · rw [if_neg hbasic] at h16 h64 ⊢
    by_cases hcode : h.getBasicSize = payloadSizeCode16bit
    · rw [if_pos hcode] at hlen h16 ⊢
      obtain ⟨hswap, hlt, hback⟩ := hnum hlen
      rw [hlen] at hread
      have hsize : ExtendedHeader.getExtendedSize
          ⟨write ExtendedHeader.empty.bytes 0 (sizes ++ key)⟩ = beNat sizes := by
        rw [ExtendedHeader.getExtendedSize, hread, ntohs, hswap]
      rw [hsize] at h16 ⊢
      have hgt := h16 hcode
      have hle : beNat sizes ≤ payloadSizeExtended := Nat.le_of_lt_succ hlt
      refine ⟨_, rfl, Nat.lt_of_lt_of_le hlt (by decide), ?_, ?_⟩
      · rw [basicValue, if_neg (Nat.not_le.mpr hgt), if_pos hle, hcode]
      · rw [sizeWidth, if_neg (Nat.not_le.mpr hgt), if_pos hle, hback]
    · have hcode64 : h.getBasicSize = payloadSizeCode64bit := by
        have hlt : h.getBasicSize.toNat < 128 := (b1_split h.b1).2
        apply UInt8.toNat_inj.mp
        have hne : h.getBasicSize.toNat ≠ 126 := fun heq => hcode (UInt8.toNat_inj.mp heq)
        have hgt : 125 < h.getBasicSize.toNat := Nat.not_le.mp hbasic
        show h.getBasicSize.toNat = 127
        omega
      rw [if_neg hcode] at hlen h64 ⊢
      rw [if_pos hcode64] at hlen
      obtain ⟨hswap, hlt, hback⟩ := hnum hlen
      rw [hlen] at hread
      have hsize : ExtendedHeader.getJumboSize
          ⟨write ExtendedHeader.empty.bytes 0 (sizes ++ key)⟩ = beNat sizes := by
        rw [ExtendedHeader.getJumboSize, hread, htonll, hswap]
      rw [hsize] at h64 ⊢
      have hgt := h64 hcode64
      have hgt' : payloadSizeBasic < beNat sizes := Nat.lt_trans (by decide) hgt
      refine ⟨_, rfl, hlt, ?_, ?_⟩
      · rw [basicValue, if_neg (Nat.not_le.mpr hgt'), if_neg (Nat.not_le.mpr hgt), hcode64]
      · rw [sizeWidth, if_neg (Nat.not_le.mpr hgt'), if_neg (Nat.not_le.mpr hgt), hback]

/-- Four bytes are the bytes of the key that they are read as. -/
theorem keyBytes_ofNat_load {bs : List UInt8} (h : bs.length = 4) :
    keyBytes (UInt32.ofNat (load bs)) = bs := by
  have hlt : load bs < 2 ^ 32 := by
    have := load_lt bs
    rwa [h] at this
  have hstore := store_load bs
  rw [h] at hstore
  rw [keyBytes, UInt32.toNat_ofNat_of_lt' hlt, hstore]

/-- **Every header that passes is the header of a frame**, with the payload that follows. -/
theorem exists_frame {h : BasicHeader} {ext pay : List UInt8} (h₁ : h.getRsv1 = false)
    (h₂ : h.getRsv2 = false) (h₃ : h.getRsv3 = false) (hext : ext.length = h.getHeaderLen - 2)
    (h16 : h.getBasicSize = payloadSizeCode16bit →
      payloadSizeBasic < getPayloadSize h ⟨write ExtendedHeader.empty.bytes 0 ext⟩)
    (h64 : h.getBasicSize = payloadSizeCode64bit →
      payloadSizeExtended < getPayloadSize h ⟨write ExtendedHeader.empty.bytes 0 ext⟩)
    (hpay : pay.length = getPayloadSize h ⟨write ExtendedHeader.empty.bytes 0 ext⟩) :
    ∃ f : Frame, f.header = h ∧ f.extension = ext ∧ f.maskedPayload = pay ∧
      f.payload.length < 2 ^ 64 := by
  -- The extension is the bytes of the size and then those of the key.
  obtain ⟨sizes, keys, rfl, hsizes, hkeys⟩ : ∃ sizes keys, ext = sizes ++ keys ∧
      sizes.length = h.getMaskingKeyOffset ∧ keys.length = if h.getMasked then 4 else 0 := by
    refine ⟨ext.take h.getMaskingKeyOffset, ext.drop h.getMaskingKeyOffset,
      (List.take_append_drop _ _).symm, ?_, ?_⟩
    · rw [List.length_take, hext, BasicHeader.getHeaderLen]
      omega
    · rw [List.length_drop, hext, BasicHeader.getHeaderLen]
      omega
  obtain ⟨size, hsize, hlt, hbasic, hsizeBytes⟩ := size_bytes hsizes h16 h64
  rw [hsize] at hpay
  have hheader : ∀ mask, h.getMasked = mask →
      BasicHeader.new h.getOpcode size h.getFin mask = h := by
    rintro mask rfl
    apply BasicHeader.ext (b0_split h₁ h₂ h₃ size _)
    rw [BasicHeader.new, hbasic]
    exact (b1_split h.b1).1
  cases hmask : h.getMasked with
  | false =>
    have hnil : keys = [] := List.eq_nil_of_length_eq_zero (by rw [hkeys, hmask]; rfl)
    refine ⟨⟨h.getFin, h.getOpcode, none, pay⟩, ?_, ?_, rfl, by rw [hpay]; exact hlt⟩
    · rw [header, hpay]
      exact hheader _ hmask
    · rw [extension, hpay, ← hsizeBytes, hnil]
      rfl
  | true =>
    have hfour : keys.length = 4 := by rw [hkeys, hmask]; rfl
    refine ⟨⟨h.getFin, h.getOpcode, some (UInt32.ofNat (load keys)),
      masked (prepareMaskingKey (UInt32.ofNat (load keys))) pay⟩, ?_, ?_, ?_, ?_⟩
    · rw [header, length_mask, hpay]
      exact hheader _ hmask
    · rw [extension, length_mask, hpay, ← hsizeBytes, Option.elim_some, keyBytes_ofNat_load hfour]
    · rw [maskedPayload, Option.elim_some, masked_masked]
    · rw [length_mask, hpay]
      exact hlt

end Frame

end WebsocketTest.WebSocket
