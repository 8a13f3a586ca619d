import Mathlib.Tactic.Common
import Mathlib.Data.List.Basic

/-!
# UTF-8, one byte at a time

`encode` is the bytes of a text, by `String.utf8EncodeChar`. A reader that looks at one byte at a
time has to remember how many bytes of a character are still to come and which ones the next may
be: `State`. The range of the second byte is narrower than that of the others where a character
would have a shorter encoding, be a surrogate, or lie above the last one: `lead`.

`run_eq_start_iff` says that the reader ends between characters exactly on an `encode`, and
`exists_run_iff` that it goes on exactly as long as there is an `encode` that begins with what it
has seen.

So the reader is not the definition of UTF-8. What is well formed is said by `encode`, which comes
from Lean's own strings, and the reader is measured against that. `OneChar` lies between the two:
the four forms by the number they encode, which is what both sides can be compared with by
arithmetic.

The state holds ranges and not counts alone. It is what makes a byte be refused as soon as no
character can begin so, and not when the character is complete.
-/

set_option autoImplicit false

namespace Lib.Utf8

def encode (cs : List Char) : List UInt8 := cs.flatMap String.utf8EncodeChar

@[simp] theorem encode_nil : encode [] = [] := rfl

@[simp] theorem encode_cons (c : Char) (cs : List Char) :
    encode (c :: cs) = String.utf8EncodeChar c ++ encode cs := List.flatMap_cons

/-- Between characters, or inside one: the next byte is one of `low` to `high`, and `more` are to
    come after it. -/
inductive State
  | start
  | inside (more low high : Nat)
  deriving DecidableEq, Repr

namespace State

/-- The state in which so many bytes from `0x80` to `0xBF` are to come, and no other condition. -/
def tails : Nat → State
  | 0 => start
  | n + 1 => inside n 0x80 0xBF

/-- How many bytes of the character are to come. -/
def left : State → Nat
  | start => 0
  | inside more _ _ => more + 1

@[simp] theorem left_tails (n : Nat) : (tails n).left = n := by cases n <;> rfl

end State

open State

/-- What the first byte of a character says about the others. -/
def lead (b : Nat) : Option State :=
  if b ≤ 0x7F then some (tails 0)
  else if b < 0xC2 then none
  else if b ≤ 0xDF then some (tails 1)
  else if b = 0xE0 then some (inside 1 0xA0 0xBF)
  else if b = 0xED then some (inside 1 0x80 0x9F)
  else if b ≤ 0xEF then some (tails 2)
  else if b = 0xF0 then some (inside 2 0x90 0xBF)
  else if b ≤ 0xF3 then some (tails 3)
  else if b = 0xF4 then some (inside 2 0x80 0x8F)
  else none

/-- What one byte does to the reader, which refuses it with `none`. -/
def step : State → UInt8 → Option State
  | start, b => lead b.toNat
  | inside more low high, b =>
    if low ≤ b.toNat ∧ b.toNat ≤ high then some (tails more) else none

/-- What many bytes do, up to the first that is refused. -/
def run : State → List UInt8 → Option State
  | q, [] => some q
  | q, b :: bs => (step q b).bind fun q' => run q' bs

@[simp] theorem run_nil (q : State) : run q [] = some q := rfl

theorem run_cons (q : State) (b : UInt8) (bs : List UInt8) :
    run q (b :: bs) = (step q b).bind fun q' => run q' bs := rfl

theorem run_append (q : State) (bs cs : List UInt8) :
    run q (bs ++ cs) = (run q bs).bind fun q' => run q' cs := by
  induction bs generalizing q with
  | nil => rfl
  | cons b bs ih =>
    rw [List.cons_append, run_cons, run_cons]
    cases step q b with
    | none => rfl
    | some q' => exact ih q'

/-! ## One character -/

/-- The numbers that are characters: all below `0x110000` but the surrogates. -/
def Scalar (v : Nat) : Prop := v < 0xD800 ∨ 0xDFFF < v ∧ v < 0x110000

theorem exists_char {v : Nat} (h : Scalar v) : ∃ c : Char, c.val.toNat = v :=
  ⟨Char.ofNatAux v h, rfl⟩

/-- **The forms that a character takes**, by the length. -/
inductive OneChar (v : Nat) : List UInt8 → Prop
  | one {b : UInt8} : v ≤ 0x7F → b.toNat = v → OneChar v [b]
  | two {b x : UInt8} : 0x7F < v → v ≤ 0x7FF → b.toNat = v / 64 + 0xC0 → x.toNat = v % 64 + 0x80 →
      OneChar v [b, x]
  | three {b x y : UInt8} : 0x7FF < v → v ≤ 0xFFFF → b.toNat = v / 4096 + 0xE0 →
      x.toNat = v / 64 % 64 + 0x80 → y.toNat = v % 64 + 0x80 → OneChar v [b, x, y]
  | four {b x y z : UInt8} : 0xFFFF < v → b.toNat = v / 262144 + 0xF0 →
      x.toNat = v / 4096 % 64 + 0x80 → y.toNat = v / 64 % 64 + 0x80 → z.toNat = v % 64 + 0x80 →
      OneChar v [b, x, y, z]

theorem toNat_ofNat {n : Nat} (h : n < 256) : (UInt8.ofNat n).toNat = n := by
  rw [UInt8.toNat_ofNat', Nat.mod_eq_of_lt h]

theorem oneChar_utf8EncodeChar (c : Char) : OneChar c.val.toNat (String.utf8EncodeChar c) := by
  have hv : Scalar c.val.toNat := c.valid
  unfold Scalar at hv
  unfold String.utf8EncodeChar
  dsimp only
  generalize c.val.toNat = v at hv ⊢
  split
  · next h => exact .one h (toNat_ofNat (by omega))
  · split
    · apply OneChar.two
      all_goals first | omega | (rw [toNat_ofNat] <;> omega)
    · split
      · apply OneChar.three
        all_goals first | omega | (rw [toNat_ofNat] <;> omega)
      · apply OneChar.four
        all_goals first | omega | (rw [toNat_ofNat] <;> omega)

/-- There is one form for each character. -/
theorem OneChar.unique {v : Nat} {bs cs : List UInt8} (hb : OneChar v bs) (hc : OneChar v cs) :
    bs = cs := by
  cases hb <;> cases hc <;> first | omega | skip
  all_goals
    simp only [List.cons.injEq, ← UInt8.toNat_inj, and_true]
    omega

theorem utf8EncodeChar_eq_iff {c : Char} {bs : List UInt8} :
    String.utf8EncodeChar c = bs ↔ OneChar c.val.toNat bs := by
  constructor
  · rintro rfl
    exact oneChar_utf8EncodeChar c
  · intro h
    exact (oneChar_utf8EncodeChar c).unique h

/-! ## What the reader makes of it -/

theorem lead_eq_some_iff {b : Nat} {q : State} :
    lead b = some q ↔
      b ≤ 0x7F ∧ q = tails 0 ∨
      0xC2 ≤ b ∧ b ≤ 0xDF ∧ q = inside 0 0x80 0xBF ∨
      b = 0xE0 ∧ q = inside 1 0xA0 0xBF ∨
      b = 0xED ∧ q = inside 1 0x80 0x9F ∨
      0xE1 ≤ b ∧ b ≤ 0xEF ∧ b ≠ 0xED ∧ q = inside 1 0x80 0xBF ∨
      b = 0xF0 ∧ q = inside 2 0x90 0xBF ∨
      0xF1 ≤ b ∧ b ≤ 0xF3 ∧ q = inside 2 0x80 0xBF ∨
      b = 0xF4 ∧ q = inside 2 0x80 0x8F := by
  unfold lead
  grind [tails]

theorem run_inside_iff {more low high : Nat} {b : UInt8} {bs : List UInt8} :
    run (inside more low high) (b :: bs) = some start ↔
      (low ≤ b.toNat ∧ b.toNat ≤ high) ∧ run (tails more) bs = some start := by
  rw [run_cons, step]
  by_cases h : low ≤ b.toNat ∧ b.toNat ≤ high
  · simp [h]
  · simp [h]

theorem run_tails_iff {n : Nat} {b : UInt8} {bs : List UInt8} :
    run (tails (n + 1)) (b :: bs) = some start ↔
      (0x80 ≤ b.toNat ∧ b.toNat ≤ 0xBF) ∧ run (tails n) bs = some start := run_inside_iff

/-- From its first byte the reader follows a character to its end. -/
theorem OneChar.exists_lead {v : Nat} (hv : Scalar v) {b : UInt8} {bs : List UInt8}
    (h : OneChar v (b :: bs)) :
    ∃ q, lead b.toNat = some q ∧ bs.length = q.left ∧ run q bs = some start := by
  unfold Scalar at hv
  simp only [lead_eq_some_iff]
  cases h with
  | one hle hb => exact ⟨tails 0, .inl ⟨by omega, rfl⟩, rfl, rfl⟩
  | @two _ x hlt hle hb hx =>
    refine ⟨inside 0 0x80 0xBF, .inr (.inl ⟨by omega, by omega, rfl⟩), rfl, ?_⟩
    rw [run_inside_iff]
    exact ⟨by omega, rfl⟩
  | @three _ x y hlt hle hb hx hy =>
    -- A shorter form would do below `0xA0`, and from `0xA0` on there are the surrogates.
    have hclass : b.toNat = 0xE0 ∧ 0xA0 ≤ x.toNat ∨ b.toNat = 0xED ∧ x.toNat ≤ 0x9F ∨
        0xE1 ≤ b.toNat ∧ b.toNat ≤ 0xEF ∧ b.toNat ≠ 0xED := by omega
    rcases hclass with ⟨he, hlow⟩ | ⟨he, hhigh⟩ | ⟨hge, hle', hne⟩
    · refine ⟨inside 1 0xA0 0xBF, .inr (.inr (.inl ⟨he, rfl⟩)), rfl, ?_⟩
      rw [run_inside_iff, run_tails_iff]
      exact ⟨by omega, by omega, rfl⟩
    · refine ⟨inside 1 0x80 0x9F, .inr (.inr (.inr (.inl ⟨he, rfl⟩))), rfl, ?_⟩
      rw [run_inside_iff, run_tails_iff]
      exact ⟨by omega, by omega, rfl⟩
    · refine ⟨inside 1 0x80 0xBF, .inr (.inr (.inr (.inr (.inl ⟨hge, hle', hne, rfl⟩)))), rfl, ?_⟩
      rw [run_inside_iff, run_tails_iff]
      exact ⟨by omega, by omega, rfl⟩
  | @four _ x y z hlt hb hx hy hz =>
    have hclass : b.toNat = 0xF0 ∧ 0x90 ≤ x.toNat ∨ b.toNat = 0xF4 ∧ x.toNat ≤ 0x8F ∨
        0xF1 ≤ b.toNat ∧ b.toNat ≤ 0xF3 := by omega
    rcases hclass with ⟨hf, hlow⟩ | ⟨hf, hhigh⟩ | ⟨hge, hle⟩
    · refine ⟨inside 2 0x90 0xBF, .inr (.inr (.inr (.inr (.inr (.inl ⟨hf, rfl⟩))))), rfl, ?_⟩
      rw [run_inside_iff, run_tails_iff, run_tails_iff]
      exact ⟨by omega, by omega, by omega, rfl⟩
    · refine ⟨inside 2 0x80 0x8F,
        .inr (.inr (.inr (.inr (.inr (.inr (.inr ⟨hf, rfl⟩)))))), rfl, ?_⟩
      rw [run_inside_iff, run_tails_iff, run_tails_iff]
      exact ⟨by omega, by omega, by omega, rfl⟩
    · refine ⟨inside 2 0x80 0xBF,
        .inr (.inr (.inr (.inr (.inr (.inr (.inl ⟨hge, hle, rfl⟩)))))), rfl, ?_⟩
      rw [run_inside_iff, run_tails_iff, run_tails_iff]
      exact ⟨by omega, by omega, by omega, rfl⟩

/-- Two bytes that the reader takes for a character are one, in the form of two bytes. -/
theorem exists_oneChar_two {b : UInt8} {bs : List UInt8} {low high : Nat}
    (hlen : bs.length = 1) (hrun : run (inside 0 low high) bs = some start)
    (hlow : 0x80 ≤ low) (hhigh : high ≤ 0xBF) (hb : 0xC2 ≤ b.toNat ∧ b.toNat ≤ 0xDF) :
    ∃ v, Scalar v ∧ OneChar v (b :: bs) := by
  match bs, hlen with
  | [x], _ =>
    rw [run_inside_iff] at hrun
    obtain ⟨hx, -⟩ := hrun
    exact ⟨(b.toNat - 0xC0) * 64 + (x.toNat - 0x80), .inl (by omega),
      .two (by omega) (by omega) (by omega) (by omega)⟩

/-- Three bytes that the reader takes for a character are one. The second byte keeps to the range
    that the first one gives, which leaves out what is too short and the surrogates. -/
theorem exists_oneChar_three {b : UInt8} {bs : List UInt8} {low high : Nat}
    (hlen : bs.length = 2) (hrun : run (inside 1 low high) bs = some start)
    (hlow : 0x80 ≤ low) (hhigh : high ≤ 0xBF) (hb : 0xE0 ≤ b.toNat ∧ b.toNat ≤ 0xEF)
    (hshort : b.toNat = 0xE0 → 0xA0 ≤ low) (hsurrogate : b.toNat = 0xED → high ≤ 0x9F) :
    ∃ v, Scalar v ∧ OneChar v (b :: bs) := by
  match bs, hlen with
  | [x, y], _ =>
    rw [run_inside_iff, run_tails_iff] at hrun
    obtain ⟨hx, hy, -⟩ := hrun
    refine ⟨(b.toNat - 0xE0) * 4096 + (x.toNat - 0x80) * 64 + (y.toNat - 0x80), ?_,
      .three (by omega) (by omega) (by omega) (by omega) (by omega)⟩
    unfold Scalar
    omega

/-- Four bytes that the reader takes for a character are one. Here the range leaves out what is too
    short and what lies above the last character. -/
theorem exists_oneChar_four {b : UInt8} {bs : List UInt8} {low high : Nat}
    (hlen : bs.length = 3) (hrun : run (inside 2 low high) bs = some start)
    (hlow : 0x80 ≤ low) (hhigh : high ≤ 0xBF) (hb : 0xF0 ≤ b.toNat ∧ b.toNat ≤ 0xF4)
    (hshort : b.toNat = 0xF0 → 0x90 ≤ low) (hlast : b.toNat = 0xF4 → high ≤ 0x8F) :
    ∃ v, Scalar v ∧ OneChar v (b :: bs) := by
  match bs, hlen with
  | [x, y, z], _ =>
    rw [run_inside_iff, run_tails_iff, run_tails_iff] at hrun
    obtain ⟨hx, hy, hz, -⟩ := hrun
    refine ⟨(b.toNat - 0xF0) * 262144 + (x.toNat - 0x80) * 4096 + (y.toNat - 0x80) * 64 +
      (z.toNat - 0x80), ?_, .four (by omega) (by omega) (by omega) (by omega) (by omega)⟩
    unfold Scalar
    omega

/-- **One character**: what the reader takes for one is one. -/
theorem exists_char_of_run {b : UInt8} {bs : List UInt8} {q : State}
    (hlead : lead b.toNat = some q) (hlen : bs.length = q.left) (hrun : run q bs = some start) :
    ∃ c, String.utf8EncodeChar c = b :: bs := by
  suffices hone : ∃ v, Scalar v ∧ OneChar v (b :: bs) by
    obtain ⟨v, hv, h⟩ := hone
    obtain ⟨c, rfl⟩ := exists_char hv
    exact ⟨c, utf8EncodeChar_eq_iff.mpr h⟩
  rcases lead_eq_some_iff.mp hlead with
    ⟨hb, rfl⟩ | ⟨hge, hle, rfl⟩ | ⟨hb, rfl⟩ | ⟨hb, rfl⟩ | ⟨hge, hle, hne, rfl⟩ | ⟨hb, rfl⟩ |
      ⟨hge, hle, rfl⟩ | ⟨hb, rfl⟩
  · rw [left_tails, List.length_eq_zero_iff] at hlen
    subst hlen
    exact ⟨b.toNat, .inl (by omega), .one hb rfl⟩
  · exact exists_oneChar_two hlen hrun (by omega) (by omega) ⟨hge, hle⟩
  · apply exists_oneChar_three hlen hrun <;> omega
  · apply exists_oneChar_three hlen hrun <;> omega
  · apply exists_oneChar_three hlen hrun <;> omega
  · apply exists_oneChar_four hlen hrun <;> omega
  · apply exists_oneChar_four hlen hrun <;> omega
  · apply exists_oneChar_four hlen hrun <;> omega

/-! ## Many characters -/

/-- A character takes the reader from between characters to between characters. -/
@[simp] theorem run_utf8EncodeChar (c : Char) :
    run start (String.utf8EncodeChar c) = some start := by
  cases h : String.utf8EncodeChar c with
  | nil => exact absurd h String.utf8EncodeChar_ne_nil
  | cons b bs =>
    obtain ⟨q, hlead, -, hrun⟩ := (utf8EncodeChar_eq_iff.mp h).exists_lead c.valid
    rw [run_cons, step, hlead]
    exact hrun

@[simp] theorem run_encode (cs : List Char) : run start (encode cs) = some start := by
  induction cs with
  | nil => rfl
  | cons c cs ih =>
    rw [encode_cons, run_append, run_utf8EncodeChar]
    exact ih

/-- A way back to between characters begins with the bytes that are left of the character. -/
theorem exists_rest {q : State} {bs : List UInt8} (h : run q bs = some start) :
    ∃ cs ds, bs = cs ++ ds ∧ cs.length = q.left ∧ run q cs = some start ∧
      run start ds = some start := by
  induction bs generalizing q with
  | nil =>
    cases h
    exact ⟨[], [], rfl, rfl, rfl, rfl⟩
  | cons b bs ih =>
    cases q with
    | start => exact ⟨[], b :: bs, rfl, rfl, rfl, h⟩
    | inside more low high =>
      obtain ⟨hb, hrest⟩ := run_inside_iff.mp h
      obtain ⟨cs, ds, rfl, hlen, hcs, hds⟩ := ih hrest
      refine ⟨b :: cs, ds, rfl, ?_, run_inside_iff.mpr ⟨hb, hcs⟩, hds⟩
      rw [List.length_cons, hlen, left_tails, left]

/-- **Whole texts**: the reader ends between characters exactly on the bytes of a text. -/
theorem run_eq_start_iff {bs : List UInt8} :
    run start bs = some start ↔ ∃ cs, bs = encode cs := by
  constructor
  · intro h
    induction hn : bs.length using Nat.strongRecOn generalizing bs with
    | ind n ih =>
      cases bs with
      | nil => exact ⟨[], rfl⟩
      | cons b bs =>
        rw [run_cons, step, Option.bind_eq_some_iff] at h
        obtain ⟨q, hlead, hrun⟩ := h
        obtain ⟨us, rest, rfl, hlen, hus, hrest⟩ := exists_rest hrun
        obtain ⟨c, hc⟩ := exists_char_of_run hlead hlen hus
        have hlt : rest.length < n := by
          simp only [← hn, List.length_cons, List.length_append]
          omega
        obtain ⟨cs, rfl⟩ := ih rest.length hlt hrest rfl
        exact ⟨c :: cs, by rw [encode_cons, hc, List.cons_append]⟩
  · rintro ⟨cs, rfl⟩
    exact run_encode cs

/-! ## Texts that are not whole yet -/

/-- There is a byte that may come next. -/
def Open : State → Prop
  | start => True
  | inside _ low high => low ≤ high ∧ high < 256

theorem open_tails (n : Nat) : Open (tails n) := by
  cases n with
  | zero => trivial
  | succ n => exact ⟨by decide, by decide⟩

theorem open_of_step {q q' : State} {b : UInt8} (h : step q b = some q') : Open q' := by
  cases q with
  | start =>
    rcases lead_eq_some_iff.mp h with
      ⟨-, rfl⟩ | ⟨-, -, rfl⟩ | ⟨-, rfl⟩ | ⟨-, rfl⟩ | ⟨-, -, -, rfl⟩ | ⟨-, rfl⟩ | ⟨-, -, rfl⟩ |
        ⟨-, rfl⟩
    · exact open_tails 0
    all_goals exact ⟨by decide, by decide⟩
  | inside more low high =>
    rw [step] at h
    split at h
    · cases h
      exact open_tails more
    · cases h

theorem open_of_run {q q' : State} {bs : List UInt8} (hq : Open q) (h : run q bs = some q') :
    Open q' := by
  induction bs generalizing q with
  | nil =>
    cases h
    exact hq
  | cons b bs ih =>
    rw [run_cons, Option.bind_eq_some_iff] at h
    obtain ⟨q₁, hstep, hrun⟩ := h
    exact ih (open_of_step hstep) hrun

theorem exists_run_tails (n : Nat) : ∃ bs, run (tails n) bs = some start := by
  induction n with
  | zero => exact ⟨[], rfl⟩
  | succ n ih =>
    obtain ⟨bs, hbs⟩ := ih
    exact ⟨0x80 :: bs, run_tails_iff.mpr ⟨by decide, hbs⟩⟩

/-- There is a way back to between characters. -/
theorem exists_run_of_open {q : State} (h : Open q) : ∃ bs, run q bs = some start := by
  cases q with
  | start => exact ⟨[], rfl⟩
  | inside more low high =>
    obtain ⟨bs, hbs⟩ := exists_run_tails more
    refine ⟨UInt8.ofNat low :: bs, run_inside_iff.mpr ⟨?_, hbs⟩⟩
    rw [toNat_ofNat (Nat.lt_of_le_of_lt h.1 h.2)]
    exact ⟨Nat.le_refl low, h.1⟩

/-- **Beginnings of texts**: the reader goes on as long as what it has seen is one. -/
theorem exists_run_iff {bs : List UInt8} :
    (∃ q, run start bs = some q) ↔ ∃ rest cs, bs ++ rest = encode cs := by
  constructor
  · rintro ⟨q, hq⟩
    have hopen : Open q := open_of_run (q := start) trivial hq
    obtain ⟨rest, hrest⟩ := exists_run_of_open hopen
    refine ⟨rest, run_eq_start_iff.mp ?_⟩
    rw [run_append, hq]
    exact hrest
  · rintro ⟨rest, cs, h⟩
    have hrun : run start (bs ++ rest) = some start := run_eq_start_iff.mpr ⟨cs, h⟩
    rw [run_append, Option.bind_eq_some_iff] at hrun
    obtain ⟨q, hq, -⟩ := hrun
    exact ⟨q, hq⟩

end Lib.Utf8
