import Mathlib.Algebra.Ring.Nat
import Mathlib.Tactic.Common
import Mathlib.Data.List.Basic
import Mathlib.Data.List.Induction

/-!
# Length-prefixed framing

Big-endian numbers, and the framing that puts one in front of every payload: a frame is the
length of the whole frame (prefix included) in `w` big-endian bytes, then the payload. Nothing
here says how a receiver works; this is the wire format that a sender and a receiver are
compared against.

The prefix counts itself. That is a property of this format and the reason why a prefix below `w` is
the prefix of no frame. A payload whose frame has `256 ^ w` bytes or more has none either: `frame`
is defined on it, and its prefix states another length.

`cut` and `Aligned` are about a stream that comes in pieces. They know the sizes only, because
whether a piece ends where a frame ends does not depend on any byte.
-/

set_option autoImplicit false

namespace Lib.Framing

/-! ## Big-endian numbers -/

/-- The number whose big-endian digits (base 256) are `bs`. -/
def beNat (bs : List UInt8) : Nat := bs.foldl (fun n b => n * 256 + b.toNat) 0

/-- The last `w` big-endian digits of `n`. -/
def beBytes : Nat → Nat → List UInt8
  | 0, _ => []
  | w + 1, n => beBytes w (n / 256) ++ [UInt8.ofNat n]

@[simp] theorem length_beBytes (w n : Nat) : (beBytes w n).length = w := by
  induction w generalizing n with
  | zero => rfl
  | succ w ih => simp [beBytes, ih]

theorem beNat_append_singleton (bs : List UInt8) (b : UInt8) :
    beNat (bs ++ [b]) = beNat bs * 256 + b.toNat := by
  simp [beNat]

/-- Decoding what was encoded gives the number back, up to the width. -/
theorem beNat_beBytes (w n : Nat) : beNat (beBytes w n) = n % 256 ^ w := by
  induction w generalizing n with
  | zero => simp [beBytes, beNat, Nat.mod_one]
  | succ w ih =>
    have hb : (UInt8.ofNat n).toNat = n % 256 := by simp
    have hmod : n % (256 * 256 ^ w) = n % 256 + 256 * (n / 256 % 256 ^ w) := Nat.mod_mul
    rw [beBytes, beNat_append_singleton, ih, hb, Nat.pow_succ, Nat.mul_comm (256 ^ w) 256, hmod]
    omega

theorem beNat_beBytes_of_lt {w n : Nat} (h : n < 256 ^ w) : beNat (beBytes w n) = n := by
  rw [beNat_beBytes, Nat.mod_eq_of_lt h]

theorem beNat_lt (bs : List UInt8) : beNat bs < 256 ^ bs.length := by
  induction bs using List.reverseRecOn with
  | nil => simp [beNat]
  | append_singleton bs b ih =>
    have hb : b.toNat < 256 := b.toNat_lt
    rw [beNat_append_singleton, List.length_append, List.length_singleton, Nat.pow_succ]
    omega

/-- Encoding what was decoded gives the digits back. -/
theorem beBytes_beNat (bs : List UInt8) : beBytes bs.length (beNat bs) = bs := by
  induction bs using List.reverseRecOn with
  | nil => rfl
  | append_singleton bs b ih =>
    have hb : b.toNat < 256 := b.toNat_lt
    have hdiv : (beNat bs * 256 + b.toNat) / 256 = beNat bs := by omega
    have hlast : UInt8.ofNat (beNat bs * 256 + b.toNat) = b := by
      refine UInt8.toNat_inj.mp ?_
      simp only [UInt8.toNat_ofNat']
      omega
    rw [List.length_append, List.length_singleton, beNat_append_singleton, beBytes, hdiv, ih, hlast]

/-- Two bytes are a 16-bit number, the first of them its high byte. -/
theorem beNat_pair (a b : UInt8) : beNat [a, b] = a.toNat * 256 + b.toNat := by
  simp [beNat]

/-! ## Frames -/

/-- One payload behind its prefix, which counts both. -/
def frame (w : Nat) (p : List UInt8) : List UInt8 := beBytes w (w + p.length) ++ p

/-- The byte stream of a list of payloads. -/
def stream (w : Nat) (ps : List (List UInt8)) : List UInt8 := (ps.map (frame w)).flatten

@[simp] theorem length_frame (w : Nat) (p : List UInt8) : (frame w p).length = w + p.length := by
  simp [frame]

@[simp] theorem stream_nil (w : Nat) : stream w [] = [] := rfl

@[simp] theorem stream_cons (w : Nat) (p : List UInt8) (ps : List (List UInt8)) :
    stream w (p :: ps) = frame w p ++ stream w ps := rfl

theorem stream_append (w : Nat) (ps qs : List (List UInt8)) :
    stream w (ps ++ qs) = stream w ps ++ stream w qs := by
  simp [stream]

theorem length_stream_pos {w : Nat} (hw : 0 < w) {ps : List (List UInt8)} (h : ps ≠ []) :
    0 < (stream w ps).length := by
  cases ps with
  | nil => exact absurd rfl h
  | cons p ps =>
    rw [stream_cons, List.length_append, length_frame]
    omega

/-- The prefix of a frame tells the frame's length. -/
theorem beNat_take_frame {w : Nat} {p : List UInt8} (h : w + p.length < 256 ^ w)
    (rest : List UInt8) : beNat ((frame w p ++ rest).take w) = w + p.length := by
  rw [frame, List.append_assoc, List.take_left' (length_beBytes w _), beNat_beBytes_of_lt h]

/-! ## Sizes and cuts -/

/-- The number of bytes a stream of payloads of these lengths has. -/
def streamSize (w : Nat) (ls : List Nat) : Nat := (ls.map (w + ·)).sum

@[simp] theorem streamSize_nil (w : Nat) : streamSize w [] = 0 := rfl

@[simp] theorem streamSize_cons (w l : Nat) (ls : List Nat) :
    streamSize w (l :: ls) = w + l + streamSize w ls := by
  simp [streamSize]

theorem streamSize_append (w : Nat) (ls ms : List Nat) :
    streamSize w (ls ++ ms) = streamSize w ls + streamSize w ms := by
  simp [streamSize]

theorem length_stream (w : Nat) (ps : List (List UInt8)) :
    (stream w ps).length = streamSize w (ps.map List.length) := by
  induction ps with
  | nil => rfl
  | cons p ps ih => simp [ih]

theorem streamSize_take (w : Nat) (ls : List Nat) {m m' : Nat} (h : m ≤ m') :
    streamSize w (ls.take m') =
      streamSize w (ls.take m) + streamSize w ((ls.drop m).take (m' - m)) := by
  obtain ⟨j, rfl⟩ := Nat.exists_eq_add_of_le h
  rw [Nat.add_sub_cancel_left, ← streamSize_append, List.take_add]

/-- A position in a stream is the end of a frame or inside one. -/
theorem exists_split_of_le {w : Nat} {ls : List Nat} {k : Nat} (h : k ≤ streamSize w ls) :
    ∃ g rest, ls = g ++ rest ∧ (streamSize w g = k ∨ ∃ l ls', rest = l :: ls' ∧
      streamSize w g < k ∧ k < streamSize w g + (w + l)) := by
  induction ls generalizing k with
  | nil => exact ⟨[], [], rfl, .inl (Nat.le_zero.mp h).symm⟩
  | cons l ls ih =>
    by_cases h₀ : k = 0
    · exact ⟨[], l :: ls, rfl, .inl (by simp [h₀])⟩
    by_cases hk : k < w + l
    · exact ⟨[], l :: ls, rfl, .inr ⟨l, ls, rfl, by simp; omega, by simpa using hk⟩⟩
    rw [streamSize_cons] at h
    obtain ⟨g, rest, rfl, hg⟩ := ih (k := k - (w + l)) (by omega)
    refine ⟨l :: g, rest, rfl, ?_⟩
    rcases hg with hg | ⟨l', ls', rfl, h₁, h₂⟩
    · exact .inl (by rw [streamSize_cons]; omega)
    · exact .inr ⟨l', ls', rfl, by rw [streamSize_cons]; omega, by rw [streamSize_cons]; omega⟩

/-- A byte string cut into pieces of the given sizes. -/
def cut : List Nat → List UInt8 → List (List UInt8)
  | [], _ => []
  | k :: ks, bs => bs.take k :: cut ks (bs.drop k)

theorem flatten_cut (ks : List Nat) (bs : List UInt8) : (cut ks bs).flatten = bs.take ks.sum := by
  induction ks generalizing bs with
  | nil => simp [cut]
  | cons k ks ih => rw [cut, List.flatten_cons, ih, List.sum_cons, List.take_add]

/-- Every piece ends where a frame ends. -/
def Aligned (w : Nat) (ls ks : List Nat) : Prop :=
  ∀ n, ∃ m, (ks.take n).sum = streamSize w (ls.take m)

theorem aligned_nil (w : Nat) (ls : List Nat) : Aligned w ls [] := fun _ => ⟨0, by simp⟩

theorem Aligned.head {w k : Nat} {ls ks : List Nat} (h : Aligned w ls (k :: ks)) :
    ∃ m, k = streamSize w (ls.take m) := by
  obtain ⟨m, hm⟩ := h 1
  exact ⟨m, by simpa using hm⟩

theorem Aligned.tail {w k m : Nat} {ls ks : List Nat} (h : Aligned w ls (k :: ks))
    (hm : k = streamSize w (ls.take m)) : Aligned w (ls.drop m) ks := by
  intro n
  obtain ⟨m', hm'⟩ := h (n + 1)
  rw [List.take_succ_cons, List.sum_cons] at hm'
  by_cases hle : m ≤ m'
  · rw [streamSize_take w ls hle] at hm'
    exact ⟨m' - m, by omega⟩
  · -- An earlier end of a frame is no further than `k`, so nothing follows it.
    have := streamSize_take w ls (Nat.le_of_not_le hle)
    exact ⟨0, by rw [List.take_zero, streamSize_nil]; omega⟩

theorem Aligned.cons {w : Nat} {g ls ks : List Nat} (h : Aligned w ls ks) :
    Aligned w (g ++ ls) (streamSize w g :: ks) := by
  intro n
  cases n with
  | zero => exact ⟨0, by simp⟩
  | succ n =>
    obtain ⟨m, hm⟩ := h n
    refine ⟨g.length + m, ?_⟩
    rw [List.take_succ_cons, List.sum_cons, hm, List.take_length_add_append, streamSize_append]

end Lib.Framing
