import WebsocketTest.Lib.Framing

/-!
# Taking a byte string apart into frames

The reverse of `stream`, for a byte string that need not be one. `split` takes whole frames off the
front for as long as there is one and leaves the rest, which is empty, or too short for a prefix,
or shorter than its prefix says, or begins with a prefix that does not even count itself.

`split` loses nothing (`stream_split`). `prefixes` are the lengths it came across, with the one in
front of the rest if there is one.

It is defined by recursion on the length of what is left, and used through `split_induction`, which
has its two cases and no lengths. Whether the rest will ever become a frame is not asked; that a
stream arrives in pieces is a matter for who keeps the rest.
-/

set_option autoImplicit false

namespace Lib.Framing

/-- The length that the first `w` bytes of `bs` state. -/
def stated (w : Nat) (bs : List UInt8) : Nat := beNat (bs.take w)

/-- A whole frame is in front of `bs`. -/
def Whole (w : Nat) (bs : List UInt8) : Prop :=
  0 < stated w bs ∧ w ≤ stated w bs ∧ stated w bs ≤ bs.length

instance (w : Nat) (bs : List UInt8) : Decidable (Whole w bs) := inferInstanceAs (Decidable (_ ∧ _))

/-- The payload of the frame in front of `bs`. -/
def payload (w : Nat) (bs : List UInt8) : List UInt8 := (bs.take (stated w bs)).drop w

variable {w : Nat} {bs : List UInt8}

theorem Whole.drop_lt (h : Whole w bs) : (bs.drop (stated w bs)).length < bs.length := by
  obtain ⟨hpos, -, hle⟩ := h
  rw [List.length_drop]
  omega

theorem Whole.length_payload (h : Whole w bs) : w + (payload w bs).length = stated w bs := by
  obtain ⟨-, hw, hle⟩ := h
  rw [payload, List.length_drop, List.length_take_of_le hle]
  omega

/-- The payloads of the whole frames at the front, and the rest. -/
def split (w : Nat) (bs : List UInt8) : List (List UInt8) × List UInt8 :=
  if _h : Whole w bs then
    (payload w bs :: (split w (bs.drop (stated w bs))).1,
      (split w (bs.drop (stated w bs))).2)
  else ([], bs)
termination_by bs.length
decreasing_by all_goals exact Whole.drop_lt ‹_›

/-- The lengths that `split` comes across: those of the frames, and the one that it stops at. -/
def prefixes (w : Nat) (bs : List UInt8) : List Nat :=
  (split w bs).1.map (w + ·.length) ++
    if w ≤ (split w bs).2.length then [stated w (split w bs).2] else []

theorem split_of_whole (h : Whole w bs) :
    split w bs = (payload w bs :: (split w (bs.drop (stated w bs))).1,
      (split w (bs.drop (stated w bs))).2) := by
  rw [split, dif_pos h]

theorem split_of_not_whole (h : ¬ Whole w bs) : split w bs = ([], bs) := by
  rw [split, dif_neg h]

theorem prefixes_of_whole (h : Whole w bs) :
    prefixes w bs = stated w bs :: prefixes w (bs.drop (stated w bs)) := by
  rw [prefixes, split_of_whole h, List.map_cons, h.length_payload, List.cons_append, prefixes]

theorem prefixes_of_not_whole (h : ¬ Whole w bs) :
    prefixes w bs = if w ≤ bs.length then [stated w bs] else [] := by
  rw [prefixes, split_of_not_whole h, List.map_nil, List.nil_append]

/-- **Induction along `split`**: over a byte string without a whole frame in front, and from behind
    a whole frame to the frame. -/
theorem split_induction {w : Nat} {P : List UInt8 → Prop} (stuck : ∀ bs, ¬ Whole w bs → P bs)
    (whole : ∀ bs, Whole w bs → P (bs.drop (stated w bs)) → P bs) (bs : List UInt8) : P bs := by
  fun_induction split w bs with
  | case1 bs h ih => exact whole bs h ih
  | case2 bs h => exact stuck bs h

/-- The frame in front is the frame of its payload. -/
theorem frame_payload (h : Whole w bs) : frame w (payload w bs) = bs.take (stated w bs) := by
  have htake : (bs.take (stated w bs)).take w = bs.take w := by
    rw [List.take_take, Nat.min_eq_left h.2.1]
  have hlen : (bs.take w).length = w :=
    List.length_take_of_le (Nat.le_trans h.2.1 h.2.2)
  have hstated : beBytes w (stated w bs) = bs.take w := by
    have hdigits := beBytes_beNat (bs.take w)
    rwa [hlen] at hdigits
  calc frame w (payload w bs)
      = beBytes w (stated w bs) ++ payload w bs := by rw [frame, h.length_payload]
    _ = (bs.take (stated w bs)).take w ++ (bs.take (stated w bs)).drop w := by
        rw [hstated, htake, payload]
    _ = bs.take (stated w bs) := List.take_append_drop _ _

/-- **Nothing is lost**: the frames and the rest are what was taken apart. -/
theorem stream_split (w : Nat) (bs : List UInt8) :
    stream w (split w bs).1 ++ (split w bs).2 = bs := by
  induction bs using split_induction with
  | stuck bs h => rw [split_of_not_whole h, stream_nil, List.nil_append]
  | whole bs h ih =>
    rw [split_of_whole h, stream_cons, frame_payload h, List.append_assoc, ih,
      List.take_append_drop]

/-- In front of the rest there is no whole frame. -/
theorem not_whole_split (w : Nat) (bs : List UInt8) : ¬ Whole w (split w bs).2 := by
  induction bs using split_induction with
  | stuck bs h => rwa [split_of_not_whole h]
  | whole bs h ih => rwa [split_of_whole h]

end Lib.Framing
