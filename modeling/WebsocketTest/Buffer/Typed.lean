import WebsocketTest.Buffer.Content
import WebsocketTest.Lib.ByteOrder

/-!
# `operator<<` and `operator>>`

One template for eight integer types: it casts the value to the unsigned type of its size, calls
`htons`, `htonl` or the class's own `htonll`, casts back, and appends the object as it lies in
memory. Reading does the same with `ntohs`, `ntohl` and `ntohll`. The host is little-endian, so that
the three functions turn the bytes round (`hton_swap`), and what is appended is the big-endian
two's complement of the value (`shl_content`).

**`round_trip`** — any list of integers that fits into the array is written as their encodings one
after the other, read back at the same types, and leaves nothing over.

That it has to fit is a hypothesis, since `operator<<` says nothing when it does not; what happens
then is in `Chain.lean`. It also has to be read at the types it was written with. The buffer holds
no types, and a reader with others reads other numbers.

A type is its size and whether it is signed. The template's casts are conversions of integers that
keep the bits, so that the sign plays no part between the two ends.
-/

set_option autoImplicit false

namespace WebsocketTest

open Lib.Memory Lib.Integers Lib.Framing Lib.ByteQueue Lib.ByteOrder

/-! ## Types -/

/-- The values of `sizeof(type)` that the templates tell apart. -/
inductive Width
  | one
  | two
  | four
  | eight
  deriving DecidableEq

def Width.bytes : Width → Nat
  | one => 1
  | two => 2
  | four => 4
  | eight => 8

/-- How many values a type of this size has. -/
def Width.modulus : Width → Nat
  | one => 256
  | two => 65536
  | four => 4294967296
  | eight => 18446744073709551616

structure IntType where
  width : Width
  signed : Bool
  deriving DecidableEq

/-- Conversion to the unsigned type of this size. -/
def Width.unsigned (w : Width) (z : Int) : Nat := (z % w.modulus).toNat

/-- `(type)z`. -/
def IntType.conv (t : IntType) (z : Int) : Int :=
  if t.signed then
    (z + (t.width.modulus / 2 : Nat)) % t.width.modulus - (t.width.modulus / 2 : Nat)
  else z % t.width.modulus

/-- A value of an integer type: converting it to the type does not change it. -/
structure CInt where
  type : IntType
  val : Int
  inRange : type.conv val = val

/-! ## The operators -/

/-- `htonl` on a little-endian host: the four bytes change places. -/
def htonl (n : Nat) : Nat :=
  n % 256 * 16777216 + n / 256 % 256 * 65536 + n / 65536 % 256 * 256 + n / 16777216 % 256

/-- `ntohl` on a little-endian host, which is what `htonl` does. -/
def ntohl (n : Nat) : Nat := htonl n

/-- `CVBuffer::htonll`. -/
def htonll (old : Nat) : Nat :=
  let high := htonl (u32 (old >>> 32))
  let low := htonl (u32 (old &&& 0xffffffff))
  (low <<< 32) % 18446744073709551616 ||| high

/-- `CVBuffer::ntohll`. -/
def ntohll (old : Nat) : Nat :=
  let high := ntohl (u32 (old >>> 32))
  let low := ntohl (u32 (old &&& 0xffffffff))
  (low <<< 32) % 18446744073709551616 ||| high

namespace IntType

/-- `nv` in `operator<<`: the value with its bytes in network order, at its own type. -/
def hton (t : IntType) (v : Int) : Int :=
  match t.width with
  | .one => v
  | .two => t.conv (htons (Width.two.unsigned v))
  | .four => t.conv (htonl (Width.four.unsigned v))
  | .eight => t.conv (htonll (Width.eight.unsigned v))

/-- `v` in `operator>>`, behind the branches. -/
def ntoh (t : IntType) (nv : Int) : Int :=
  match t.width with
  | .one => nv
  | .two => t.conv (ntohs (Width.two.unsigned nv))
  | .four => t.conv (ntohl (Width.four.unsigned nv))
  | .eight => t.conv (ntohll (Width.eight.unsigned nv))

end IntType

namespace CVBuffer

/-- `operator<<`. What `Append` answers is ignored. -/
def shl (b : CVBuffer) (v : CInt) : CVBuffer :=
  let w := v.type.width
  (b.append (store w.bytes (w.unsigned (v.type.hton v.val)))).2

/-- `operator>>`: zero when there are not enough bytes left. -/
def shr (b : CVBuffer) (type : IntType) : Int × CVBuffer :=
  match b.get type.width.bytes with
  | (some nv, b') => (type.ntoh (type.conv (load nv)), b')
  | (none, b') => (0, b')

/-- `b << v₁ << v₂ …`, a chain of writes. -/
def shlAll (b : CVBuffer) (vs : List CInt) : CVBuffer := vs.foldl shl b

/-- `b >> v₁ >> v₂ …`, a chain of reads into variables of these types. -/
def shrAll (b : CVBuffer) : List IntType → List Int × CVBuffer
  | [] => ([], b)
  | type :: types => ((b.shr type).1 :: ((b.shr type).2.shrAll types).1,
      ((b.shr type).2.shrAll types).2)

end CVBuffer

/-! ## What the casts and the swaps do -/

theorem Width.modulus_eq (w : Width) : w.modulus = 256 ^ w.bytes := by
  cases w with
  | _ => rfl

theorem Width.bytes_pos (w : Width) : 0 < w.bytes := by
  cases w with
  | _ => decide

theorem Width.unsigned_lt (w : Width) (z : Int) : w.unsigned z < 256 ^ w.bytes := by
  rw [← w.modulus_eq, unsigned]
  cases w with
  | _ =>
    simp only [modulus]
    omega

theorem Width.unsigned_natCast (w : Width) (n : Nat) : w.unsigned n = n % 256 ^ w.bytes := by
  rw [← w.modulus_eq, unsigned]
  cases w with
  | _ =>
    simp only [modulus]
    omega

/-- A cast keeps the bits: to any type and then to the unsigned one of its size is the same as at
    once. -/
theorem IntType.unsigned_conv (t : IntType) (z : Int) :
    t.width.unsigned (t.conv z) = t.width.unsigned z := by
  obtain ⟨w, s⟩ := t
  cases w with
  | _ =>
    simp only [conv, Width.unsigned, Width.modulus]
    split
    · omega
    · omega

/-- A cast depends on the bits alone. -/
theorem IntType.conv_unsigned (t : IntType) (z : Int) :
    t.conv (t.width.unsigned z) = t.conv z := by
  obtain ⟨w, s⟩ := t
  cases w with
  | _ =>
    simp only [conv, Width.unsigned, Width.modulus]
    split
    · omega
    · omega

theorem htons_swap (n : Nat) : htons n = swap 2 n := by
  simp only [htons, ntohs, swap, load, beBytes, beNat, List.nil_append, List.cons_append,
    List.reverse_cons, List.reverse_nil, List.foldl_cons, List.foldl_nil, UInt8.toNat_ofNat']
  omega

theorem htonl_swap (n : Nat) : htonl n = swap 4 n := by
  have h₂ : n / 256 / 256 = n / 65536 := Nat.div_div_eq_div_mul n 256 256
  have h₃ : n / 65536 / 256 = n / 16777216 := Nat.div_div_eq_div_mul n 65536 256
  simp only [h₂, h₃, htonl, swap, load, beBytes, beNat, List.nil_append, List.cons_append,
    List.reverse_cons, List.reverse_nil, List.foldl_cons, List.foldl_nil, UInt8.toNat_ofNat']
  omega

/-- **The hand-written swap**: each half is swapped, and the halves change places. -/
theorem htonll_swap {n : Nat} (hn : n < 18446744073709551616) : htonll n = swap 8 n := by
  have hhigh : u32 (n >>> 32) = n / 256 ^ 4 := by
    rw [Nat.shiftRight_eq_div_pow, u32]
    omega
  have hlow : u32 (n &&& 0xffffffff) = n % 256 ^ 4 := by
    rw [show (0xffffffff : Nat) = 2 ^ 32 - 1 from rfl, Nat.and_two_pow_sub_one_eq_mod, u32]
    omega
  have hlt : swap 4 n < 4294967296 := swap_lt 4 n
  have hlt' : swap 4 (n / 256 ^ 4) < 2 ^ 32 := swap_lt 4 _
  have hfit : (swap 4 n <<< 32) % 18446744073709551616 = swap 4 n <<< 32 := by
    rw [Nat.shiftLeft_eq]
    omega
  rw [htonll, hhigh, hlow]
  simp only [htonl_swap, swap_mod]
  rw [hfit, ← Nat.shiftLeft_add_eq_or_of_lt hlt', Nat.shiftLeft_eq, swap_add 4 4 n,
    show (2 : Nat) ^ 32 = 256 ^ 4 from rfl]

namespace IntType

variable (t : IntType)

/-- **What `operator<<` stores** are the bits of the value, turned round. -/
theorem hton_swap (v : Int) :
    t.width.unsigned (t.hton v) = swap t.width.bytes (t.width.unsigned v) := by
  have hlt := t.width.unsigned_lt v
  have hswap : t.width.unsigned (swap t.width.bytes (t.width.unsigned v) : Nat) =
      swap t.width.bytes (t.width.unsigned v) := by
    rw [Width.unsigned_natCast, Nat.mod_eq_of_lt (swap_lt _ _)]
  obtain ⟨w, s⟩ := t
  cases w with
  | one =>
    simp only [hton, Width.bytes, swap_one] at hlt ⊢
    omega
  | two => rw [hton, unsigned_conv, htons_swap]; exact hswap
  | four => rw [hton, unsigned_conv, htonl_swap]; exact hswap
  | eight => rw [hton, unsigned_conv, htonll_swap hlt]; exact hswap

theorem ntoh_swap (z : Int) :
    t.ntoh (t.conv z) = t.conv (swap t.width.bytes (t.width.unsigned z) : Nat) := by
  have hlt := t.width.unsigned_lt z
  have hcast := t.unsigned_conv z
  have hconv := t.conv_unsigned z
  obtain ⟨w, s⟩ := t
  cases w with
  | one =>
    have hmod : Width.one.unsigned z % 256 = Width.one.unsigned z := Nat.mod_eq_of_lt hlt
    simp only [ntoh, Width.bytes, swap_one, hmod, hconv]
  | two =>
    simp only at hcast
    simp only [ntoh, hcast]
    rw [show ntohs = htons from rfl, htons_swap]
    rfl
  | four =>
    simp only at hcast
    simp only [ntoh, hcast]
    rw [ntohl, htonl_swap]
    rfl
  | eight =>
    simp only at hcast
    simp only [ntoh, hcast]
    rw [show ntohll = htonll from rfl, htonll_swap hlt]
    rfl

end IntType

/-- The big-endian two's complement of a value. -/
def CInt.bigEndian (v : CInt) : List UInt8 :=
  beBytes v.type.width.bytes (v.type.width.unsigned v.val)

namespace CInt

theorem length_bigEndian (v : CInt) : v.bigEndian.length = v.type.width.bytes :=
  length_beBytes _ _

/-- What the host stores for `nv` is the big-endian encoding of the value. -/
theorem store_hton (v : CInt) :
    store v.type.width.bytes (v.type.width.unsigned (v.type.hton v.val)) = v.bigEndian := by
  rw [IntType.hton_swap, store_swap, bigEndian]

/-- **The encoding is read as the value.** -/
theorem ntoh_load (v : CInt) : v.type.ntoh (v.type.conv (load v.bigEndian)) = v.val := by
  have hswap := swap_load v.bigEndian
  rw [length_bigEndian] at hswap
  have hlt := v.type.width.unsigned_lt v.val
  rw [IntType.ntoh_swap, Width.unsigned_natCast, swap_mod, hswap, bigEndian, beNat_beBytes,
    Nat.mod_eq_of_lt hlt, IntType.conv_unsigned, v.inRange]

end CInt

/-! ## Lists -/

/-- The encodings of a list, one after the other. -/
def wire (vs : List CInt) : List UInt8 := vs.flatMap CInt.bigEndian

/-- The widths of a list, added up. -/
def wireSize (vs : List CInt) : Nat := (vs.map fun v => v.type.width.bytes).sum

theorem length_wire (vs : List CInt) : (wire vs).length = wireSize vs := by
  rw [wire, List.length_flatMap, wireSize]
  congr 1
  exact List.map_congr_left fun v _ => v.length_bigEndian

namespace CVBuffer

variable {b : CVBuffer}

theorem length_content_nat (b : CVBuffer) : b.content.length = b.uOffset - b.uGetOffset :=
  length_read _ _ _

/-- A value is never empty, so `Append` does not refuse it for that. -/
theorem append_bigEndian (b : CVBuffer) (v : CInt) : b.append v.bigEndian = b.set v.bigEndian := by
  have hpos := v.type.width.bytes_pos
  rw [append, v.length_bigEndian, if_neg (Nat.ne_of_gt hpos)]

/-- `operator<<` is a `Set` of the encoding. -/
theorem shl_eq (b : CVBuffer) (v : CInt) : b.shl v = (b.set v.bigEndian).2 := by
  rw [shl, v.store_hton, append_bigEndian]

theorem shl_uGetOffset (b : CVBuffer) (v : CInt) : (b.shl v).uGetOffset = b.uGetOffset := by
  rw [shl_eq, set]
  split
  · rfl
  · rfl

/-- **A value is appended** in its encoding. -/
theorem shl_content (h : b.Cursors) {v : CInt}
    (hle : b.uOffset + v.type.width.bytes ≤ maxCVBufferSize) :
    (b.shl v).content = b.content ++ v.bigEndian ∧ (b.shl v).Cursors := by
  have hlen := v.length_bigEndian
  obtain ⟨b', hset, hcontent, hcur⟩ := set_of_le h (hlen ▸ hle)
  rw [shl_eq, hset]
  exact ⟨hcontent, hcur⟩

theorem shlAll_content {vs : List CInt} (h : b.Cursors) (hget : b.uGetOffset = 0)
    (hle : b.uOffset + wireSize vs ≤ maxCVBufferSize) :
    (b.shlAll vs).content = b.content ++ wire vs ∧ (b.shlAll vs).Cursors := by
  induction vs generalizing b with
  | nil => exact ⟨(List.append_nil _).symm, h⟩
  | cons v vs ih =>
    rw [wireSize, List.map_cons, List.sum_cons, ← wireSize] at hle
    obtain ⟨hcontent, hcur⟩ := shl_content h (v := v) (Nat.le_trans (by omega) hle)
    have hget' : (b.shl v).uGetOffset = 0 := (shl_uGetOffset b v).trans hget
    -- with nothing taken, the size of the content is the cursor
    have hlen := congrArg List.length hcontent
    rw [List.length_append, length_content_nat, length_content_nat, v.length_bigEndian] at hlen
    obtain ⟨hrest, hcur'⟩ := ih hcur hget' (by omega)
    rw [hcontent, List.append_assoc] at hrest
    exact ⟨hrest, hcur'⟩

/-- **A value is read back** from its encoding. -/
theorem shr_content (h : b.Cursors) {v : CInt} {rest : List UInt8}
    (hb : b.content = v.bigEndian ++ rest) :
    ∃ b', b.shr v.type = (v.val, b') ∧ b'.content = rest ∧ b'.Cursors := by
  have hlen := congrArg List.length hb
  have ho := h.order
  rw [List.length_append, v.length_bigEndian, length_content_nat] at hlen
  obtain ⟨out, b', hexec, hmeaning, hcur⟩ :=
    serves_getType h (n := v.type.width.bytes) (by omega)
  obtain ⟨rfl, hcontent⟩ := Prod.mk.inj hmeaning
  have hpos := v.type.width.bytes_pos
  have hget : b.get v.type.width.bytes = (some v.bigEndian, b') := by
    rw [get, if_neg (by omega)]
    refine hexec.trans ?_
    rw [hb, List.take_left' v.length_bigEndian]
  refine ⟨b', ?_, ?_, hcur⟩
  · simp only [shr, hget, v.ntoh_load]
  · rw [← hcontent, hb, List.drop_left' v.length_bigEndian]

theorem shrAll_content {vs : List CInt} {rest : List UInt8} (h : b.Cursors)
    (hb : b.content = wire vs ++ rest) :
    ∃ b', b.shrAll (vs.map CInt.type) = (vs.map CInt.val, b') ∧ b'.content = rest ∧
      b'.Cursors := by
  induction vs generalizing b with
  | nil => exact ⟨b, rfl, hb, h⟩
  | cons v vs ih =>
    rw [wire, List.flatMap_cons, ← wire, List.append_assoc] at hb
    obtain ⟨b₁, hshr, hrest, hcur⟩ := shr_content h hb
    obtain ⟨b₂, hall, hend, hcur'⟩ := ih hcur hrest
    refine ⟨b₂, ?_, hend, hcur'⟩
    rw [List.map_cons, List.map_cons, shrAll, hshr, hall]

/-- **What was written is read back.** Into a cleared buffer any list of integers whose widths fit
    is written as its encodings one after the other; read at the same types it is the same list, and
    nothing remains. -/
theorem round_trip (b : CVBuffer) (vs : List CInt) (hsize : wireSize vs ≤ maxCVBufferSize) :
    (b.clear.shlAll vs).content = wire vs ∧
      ∃ b', (b.clear.shlAll vs).shrAll (vs.map CInt.type) = (vs.map CInt.val, b') ∧
        b'.remainSize = 0 := by
  have hclear : b.clear.Cursors := ⟨Nat.le_refl _, Nat.zero_le _⟩
  have hfits : b.clear.uOffset + wireSize vs ≤ maxCVBufferSize := by
    rw [clear_uOffset, Nat.zero_add]
    exact hsize
  obtain ⟨hcontent, hcur⟩ := shlAll_content hclear rfl hfits
  have hempty : b.clear.content = [] := rfl
  rw [hempty, List.nil_append] at hcontent
  have hwire : (b.clear.shlAll vs).content = wire vs ++ [] := by rw [hcontent, List.append_nil]
  obtain ⟨b', hall, hend, hcur'⟩ := shrAll_content hcur hwire
  refine ⟨hcontent, b', hall, ?_⟩
  rw [hcur'.length_content, hend]
  rfl

/-- A `short` and an `unsigned int`. -/
theorem round_trip_short_unsigned :
    ∃ vs : List CInt, vs.map CInt.val = [-2, 4000000000] ∧
      ((new fun _ => 0).clear.shlAll vs).content = [0xff, 0xfe, 0xee, 0x6b, 0x28, 0x00] ∧
      ∃ b', ((new fun _ => 0).clear.shlAll vs).shrAll [⟨.two, true⟩, ⟨.four, false⟩] =
        ([-2, 4000000000], b') ∧ b'.remainSize = 0 := by
  obtain ⟨hcontent, b', hall, hremain⟩ := round_trip (new fun _ => 0)
    [⟨⟨.two, true⟩, -2, rfl⟩, ⟨⟨.four, false⟩, 4000000000, rfl⟩] (by decide)
  exact ⟨_, rfl, hcontent.trans (by decide), b', hall, hremain⟩

/-! ## The operators for an `unsigned short` -/

/-- `unsigned short`. -/
def ushort : IntType := ⟨.two, false⟩

theorem ushort_conv {n : Nat} (hn : n < 65536) : ushort.conv n = n := by
  show (n : Int) % (65536 : Nat) = n
  omega

end CVBuffer

end WebsocketTest
