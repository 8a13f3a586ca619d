import WebsocketTest.Buffer.Typed
import WebsocketTest.Lib.Packing

/-!
# A chain of `operator<<` that runs out of room

`operator<<` does not look at what `Append` answers, so the values of `b << v₁ << v₂ …` are offered
to the buffer one after the other, and the ones that do not fit are left out. That is
`Lib.Packing.pack`, with the free bytes for the room (`shlAll_pack`).

**`writesPrefix_iff`** — what is written is a prefix of the chain exactly if everything behind the
first value that does not fit is wider than the room that is left. Otherwise a field is missing in
the middle, and whoever reads the buffer takes the next one for it.

The condition is on the sizes and the room before the chain. A chain of values of one size meets it
always; it takes a narrower value behind a wider one to slip through.
-/

set_option autoImplicit false

namespace WebsocketTest

open Lib.Memory Lib.Integers Lib.ByteOrder Lib.Packing

/-- `sizeof(type)`. -/
def CInt.size (v : CInt) : Nat := v.type.width.bytes

theorem CInt.size_pos (v : CInt) : 0 < v.size := v.type.width.bytes_pos

theorem length_wire_total (vs : List CInt) : (wire vs).length = total CInt.size vs := by
  rw [length_wire]
  induction vs with
  | nil => rfl
  | cons v vs ih =>
    rw [wireSize, List.map_cons, List.sum_cons, ← wireSize, ih, total_cons, CInt.size]

namespace CVBuffer

/-- What `Append` answers to each value of `b << v₁ << v₂ …`. -/
def stored (b : CVBuffer) : List CInt → List Bool
  | [] => []
  | v :: vs =>
    let w := v.type.width
    (b.append (store w.bytes (w.unsigned (v.type.hton v.val)))).1 :: (b.shl v).stored vs

/-- The bytes added are the encodings of a prefix of the chain, and once a value is not stored no
    later one is. -/
structure WritesPrefix (b : CVBuffer) (vs : List CInt) : Prop where
  added : ∃ k, (b.shlAll vs).content = b.content ++ wire (vs.take k)
  order : (b.stored vs).Pairwise fun earlier later => earlier = false → later = false

/-- The room that is left: what `Append` compares with. -/
def room (b : CVBuffer) : Nat := maxCVBufferSize - b.uOffset

variable {b : CVBuffer} {v : CInt} {vs : List CInt}

/-! ## One value -/

/-- A value that fits is appended, and takes its size of the room. -/
theorem shl_of_fits (h : b.Cursors) (hv : v.size ≤ b.room) :
    (b.append (store v.size (v.type.width.unsigned (v.type.hton v.val)))).1 = true ∧
      (b.shl v).content = b.content ++ v.bigEndian ∧ (b.shl v).Cursors ∧
      (b.shl v).room = b.room - v.size := by
  have hz := h.size
  have hlen := v.length_bigEndian
  have hle : b.uOffset + v.type.width.bytes ≤ maxCVBufferSize := by
    unfold room CInt.size at hv
    omega
  obtain ⟨hcontent, hcur⟩ := shl_content h hle
  have hset := set_eq_of_le (hlen ▸ hle)
  refine ⟨?_, hcontent, hcur, ?_⟩
  · rw [CInt.size, v.store_hton, append_bigEndian, hset]
  · rw [shl_eq, hset]
    simp only [room, CInt.size, hlen]
    omega

/-- A value that does not fit is not, and nothing else happens. -/
theorem shl_of_not_fits (h : b.Cursors) (hv : ¬ v.size ≤ b.room) :
    (b.append (store v.size (v.type.width.unsigned (v.type.hton v.val)))).1 = false ∧
      b.shl v = b := by
  have hlen := v.length_bigEndian
  have hw : v.type.width.bytes ≤ maxCVBufferSize := by
    cases v.type.width with
    | _ => decide
  have hgt : maxCVBufferSize < b.uOffset + v.bigEndian.length := by
    unfold room CInt.size at hv
    omega
  have hset := set_of_gt h (hlen ▸ hw) hgt
  constructor
  · rw [CInt.size, v.store_hton, append_bigEndian, hset]
  · rw [shl_eq, hset]

/-! ## The chain -/

/-- **A chain packs the buffer.** The induction is on the chain, from any buffer. -/
theorem shlAll_pack (h : b.Cursors) (vs : List CInt) :
    (b.shlAll vs).content = b.content ++ wire (pack CInt.size b.room vs) ∧
      b.stored vs = answers CInt.size b.room vs := by
  induction vs generalizing b with
  | nil => exact ⟨(List.append_nil _).symm, rfl⟩
  | cons v vs ih =>
    by_cases hv : v.size ≤ b.room
    · obtain ⟨hans, hcontent, hcur, hroom⟩ := shl_of_fits h hv
      obtain ⟨hrest, hstored⟩ := ih hcur
      rw [hroom] at hrest hstored
      constructor
      · rw [hcontent, List.append_assoc] at hrest
        rw [pack_of_fits hv]
        exact hrest
      · rw [answers, if_pos hv, ← hstored, ← hans]
        rfl
    · obtain ⟨hans, hsame⟩ := shl_of_not_fits h hv
      obtain ⟨hrest, hstored⟩ := ih h
      constructor
      · rw [pack_of_not_fits hv, ← hrest]
        exact congrArg (fun c => (shlAll c vs).content) hsame
      · rw [answers, if_neg hv, ← hstored, ← hans, stored, hsame]
        rfl

/-- The number of bytes added tells whether there was a skip. -/
theorem noSkip_of_added (h : b.Cursors) {k : Nat}
    (hk : (b.shlAll vs).content = b.content ++ wire (vs.take k)) :
    NoSkip CInt.size b.room vs := by
  have hwire := List.append_cancel_left ((shlAll_pack h vs).1.symm.trans hk)
  have hlen := congrArg List.length hwire
  rw [length_wire_total, length_wire_total] at hlen
  exact noSkip_of_total CInt.size_pos hlen

/-- **When a chain writes a prefix of itself**: exactly if every value behind the first one that
    does not fit is wider than the room that is left. -/
theorem writesPrefix_iff (h : b.Cursors) (vs : List CInt) :
    b.WritesPrefix vs ↔ NoSkip CInt.size (maxCVBufferSize - b.uOffset) vs := by
  constructor
  · rintro ⟨⟨k, hk⟩, -⟩
    exact noSkip_of_added h hk
  · intro hskip
    obtain ⟨hcontent, hstored⟩ := shlAll_pack h vs
    obtain ⟨⟨k, hk⟩, horder⟩ := pack_of_noSkip hskip
    exact ⟨⟨k, hk ▸ hcontent⟩, hstored ▸ horder⟩

/-- A buffer with one byte free. -/
def nearlyFull : CVBuffer := ⟨fun _ => 0, 65535, 65535⟩

/-- Two values of two bytes, of which neither fits. -/
theorem writesPrefix_iff_two_shorts :
    ∃ vs : List CInt, vs.map CInt.val = [1, 2] ∧ nearlyFull.WritesPrefix vs :=
  ⟨[⟨⟨.two, false⟩, 1, rfl⟩, ⟨⟨.two, false⟩, 2, rfl⟩], rfl,
    (writesPrefix_iff ⟨by decide, by decide⟩ _).mpr (by decide)⟩

/-- A `short` that does not fit and a `char` that does. -/
theorem short_skipped :
    ∃ vs : List CInt, vs.map CInt.val = [1, 2] ∧ nearlyFull.Cursors ∧
      (nearlyFull.shlAll vs).content = [2] ∧ ¬ nearlyFull.WritesPrefix vs := by
  refine ⟨[⟨⟨.two, false⟩, 1, rfl⟩, ⟨⟨.one, false⟩, 2, rfl⟩], rfl, ⟨by decide, by decide⟩,
    by decide, ?_⟩
  rintro ⟨⟨k, hk⟩, -⟩
  have hskip := noSkip_of_added ⟨by decide, by decide⟩ hk
  exact absurd hskip (by decide)

end CVBuffer

end WebsocketTest
