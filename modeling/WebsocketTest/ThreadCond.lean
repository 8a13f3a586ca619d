import WebsocketTest.Lib.Integers

/-!
# `CThreadCond` (`threadmutex.h`)

A mutex and a condition variable behind two flags: `_is_init`, that there is something to lock, and
`_is_create`, that this object is the one to destroy it. A method is the list of the `pthread` calls
it makes; what those return, and the clock, are inputs. Of the three that work under the mutex the
timed wait is here: the other two compute nothing.

`WaitCondTimeOut` adds the clock in microseconds to `msec * 1000` and splits the sum into a
`timespec`. The product is an `int`, and its sum with a `long` comes too late to widen it.

**`deadline_iff`** — the `timespec` is the moment `msec` milliseconds from now exactly if the
product is an `int`, whatever stands in its place when it is not: an `int` that overflows is
undefined, so that its value is a parameter of everything here, and nothing is asked of it but to be
an `int`.

The clock is bounded (`FarFromLimit`), because the sum is computed in microseconds, in 64 bits, and
a clock near their end would overflow it whatever `msec` is. It is 292000 years away.

Only the deadline is settled here. That a wait ends at it, and that the mutex is held again, is what
`pthread_cond_timedwait` does with it.
-/

set_option autoImplicit false

namespace WebsocketTest

open Lib.Integers

/-- `struct timeval`, as `gettimeofday` fills it. -/
structure Timeval where
  tvSec : Int
  tvUsec : Int
  sec_nonneg : 0 ≤ tvSec
  usec_nonneg : 0 ≤ tvUsec
  usec_lt : tvUsec < 1000000

/-- `struct timespec`. -/
structure Timespec where
  tvSec : Int
  tvNsec : Int
  deriving DecidableEq

/-- The moment that a `timeval` is, in nanoseconds. -/
def Timeval.nanos (tm : Timeval) : Int := tm.tvSec * 1000000000 + tm.tvUsec * 1000

/-- The moment that a `timespec` is, in nanoseconds. -/
def Timespec.nanos (ts : Timespec) : Int := ts.tvSec * 1000000000 + ts.tvNsec

/-- What `pthread_cond_timedwait` asks of its last argument. -/
def Timespec.Normal (ts : Timespec) : Prop := 0 ≤ ts.tvNsec ∧ ts.tvNsec < 1000000000

/-- Far from the 64-bit limit: the longest wait from `tm` on ends, in microseconds, within a
    `long`. -/
def Timeval.FarFromLimit (tm : Timeval) : Prop :=
  tm.tvSec * 1000000 + tm.tvUsec + 2147483647 * 1000 < 9223372036854775808

/-- A call into `pthread`, on `_mutex` and `_cond`. -/
inductive PthreadCall
  | mutexInit | condInit
  | lock | unlock
  | timedwait (abstime : Timespec)
  deriving DecidableEq

/-- The flags of a `CThreadCond`. -/
structure CThreadCond where
  isInit : Bool
  isCreate : Bool

namespace CThreadCond

/-- `CThreadCond()`. -/
def new : CThreadCond := ⟨false, false⟩

def init (_ : CThreadCond) : CThreadCond × List PthreadCall :=
  (⟨true, true⟩, [.mutexInit, .condInit])

/-- The `timespec` of `tmp` microseconds. Its members are `long`, `tmp` an `unsigned long long`. -/
def timespecOf (overflowed : Int → Int) (tmp : Nat) : Timespec :=
  let tvSec := toS64 (tmp / 1000000)
  let rest := toU64 (tmp - longResult overflowed (tvSec * 1000000))
  ⟨tvSec, toS64 (toU64 (rest * 1000))⟩

/-- `to` in `WaitCondTimeOut`. -/
def deadline (overflowed : Int → Int) (tm : Timeval) (msec : Int) : Timespec :=
  let now := longResult overflowed (longResult overflowed (tm.tvSec * 1000000) + tm.tvUsec)
  let tmp := toU64 (longResult overflowed (now + intResult overflowed (msec * 1000)))
  timespecOf overflowed tmp

/-- `ret` is what `pthread_cond_timedwait` returns. -/
def waitCondTimeOut (overflowed : Int → Int) (c : CThreadCond) (tm : Timeval) (ret : Int)
    (msec : Int) : Int × List PthreadCall :=
  if c.isInit then (ret, [.lock, .timedwait (deadline overflowed tm msec), .unlock]) else (2, [])

/-! ## The deadline -/

theorem nanos_timespecOf (overflowed : Int → Int) {tmp : Nat} (h : tmp < 9223372036854775808) :
    (timespecOf overflowed tmp).Normal ∧ (timespecOf overflowed tmp).nanos = tmp * 1000 := by
  have hsec : toS64 ((tmp : Int) / 1000000) = (tmp : Int) / 1000000 :=
    toS64_eq (by omega) (by omega)
  have hmul : longResult overflowed ((tmp : Int) / 1000000 * 1000000) =
      (tmp : Int) / 1000000 * 1000000 := longResult_eq (by omega) (by omega)
  have hrest : (toU64 ((tmp : Int) - (tmp : Int) / 1000000 * 1000000) : Int) =
      (tmp : Int) % 1000000 := by
    rw [toU64_eq (by omega) (by omega)]
    omega
  have hnano : (toU64 ((tmp : Int) % 1000000 * 1000) : Int) = (tmp : Int) % 1000000 * 1000 :=
    toU64_eq (by omega) (by omega)
  simp only [Timespec.Normal, Timespec.nanos, timespecOf, hsec, hmul, hrest, hnano]
  rw [toS64_eq (by omega) (by omega)]
  omega

/-- A deadline from the 64-bit limit on is later than any that can be asked for. -/
theorem late_timespecOf {overflowed : Int → Int} {tmp : Nat} (h : 9223372036854775808 ≤ tmp)
    (hlt : tmp < 18446744073709551616) (hn : (timespecOf overflowed tmp).Normal) :
    9223372036854000000000 ≤ (timespecOf overflowed tmp).nanos := by
  have hsec : (timespecOf overflowed tmp).tvSec = (tmp : Int) / 1000000 :=
    toS64_eq (by omega) (by omega)
  simp only [Timespec.nanos, hsec]
  have := hn.1
  omega

variable {tm : Timeval} {msec : Int}

/-- Of the sum only `msec * 1000` can fail to be what it says. -/
theorem deadline_eq (overflowed : Int → Int) (hfar : tm.FarFromLimit) :
    deadline overflowed tm msec = timespecOf overflowed (toU64 (tm.tvSec * 1000000 + tm.tvUsec +
      intResult overflowed (msec * 1000))) := by
  have hm := intResult_isInt overflowed (msec * 1000)
  have hs := tm.sec_nonneg
  have hu := tm.usec_nonneg
  unfold Timeval.FarFromLimit at hfar
  have hsec : longResult overflowed (tm.tvSec * 1000000) = tm.tvSec * 1000000 :=
    longResult_eq (by omega) (by omega)
  have hnow : longResult overflowed (tm.tvSec * 1000000 + tm.tvUsec) =
      tm.tvSec * 1000000 + tm.tvUsec := longResult_eq (by omega) (by omega)
  simp only [deadline, hsec, hnow]
  rw [longResult_eq (by omega) (by omega)]

/-- The sum of two numbers that may be negative, as an `unsigned long long`: the time itself, or one
    from the 64-bit limit on. -/
theorem micros_cases {z : Int} (h₁ : -9223372036854775808 ≤ z) (h₂ : z < 9223372036854775808) :
    ((toU64 z : Int) = z ∧ toU64 z < 9223372036854775808) ∨
      (z < 0 ∧ 9223372036854775808 ≤ toU64 z ∧ toU64 z < 18446744073709551616) := by
  rcases Int.lt_or_le z 0 with hz | hz
  · have := toU64_of_neg h₁ hz
    omega
  · have := toU64_eq hz (by omega)
    omega

/-- The deadline is right exactly if the product is. -/
theorem deadline_right_iff (overflowed : Int → Int) (hfar : tm.FarFromLimit) (h₀ : 0 ≤ msec)
    (h₁ : msec < 2147483648) :
    ((deadline overflowed tm msec).Normal ∧
        (deadline overflowed tm msec).nanos = tm.nanos + msec * 1000000) ↔
      intResult overflowed (msec * 1000) = msec * 1000 := by
  have hm := intResult_isInt overflowed (msec * 1000)
  have hs := tm.sec_nonneg
  have hu := tm.usec_nonneg
  rw [deadline_eq overflowed hfar]
  unfold Timeval.FarFromLimit at hfar
  unfold Timeval.nanos
  rcases micros_cases (z := tm.tvSec * 1000000 + tm.tvUsec + intResult overflowed (msec * 1000))
    (by omega) (by omega) with ⟨heq, hlt⟩ | ⟨hneg, hge, hlt⟩
  · obtain ⟨hn, hval⟩ := nanos_timespecOf overflowed hlt
    rw [hval, heq]
    constructor
    · rintro ⟨-, h⟩
      omega
    · intro h
      exact ⟨hn, by omega⟩
  · constructor
    · rintro ⟨hn, h⟩
      have := late_timespecOf hge hlt hn
      omega
    · intro h
      omega

theorem intResult_msec_iff (overflowed : Int → Int) (h₀ : 0 ≤ msec) :
    intResult overflowed (msec * 1000) = msec * 1000 ↔ msec ≤ 2147483 := by
  constructor
  · intro h
    have := intResult_isInt overflowed (msec * 1000)
    omega
  · intro h
    exact intResult_eq ⟨by omega, by omega⟩

/-- What `WaitCondTimeOut` passes to `pthread_cond_timedwait`: the deadline, if it waits at all. -/
theorem timedwait_mem_iff (overflowed : Int → Int) (c : CThreadCond) (ret : Int)
    (abstime : Timespec) :
    .timedwait abstime ∈ (c.waitCondTimeOut overflowed tm ret msec).2 ↔
      c.isInit = true ∧ abstime = deadline overflowed tm msec := by
  unfold waitCondTimeOut
  split <;> rename_i h <;> simp [h]

/-- **Timed waits compute the right absolute deadline exactly while `msec * 1000` is an `int`.** -/
theorem deadline_iff (overflowed : Int → Int) (c : CThreadCond) (tm : Timeval) (ret msec : Int)
    (hfar : tm.FarFromLimit) (h₀ : 0 ≤ msec) (h₁ : msec < 2147483648) :
    (∀ abstime, .timedwait abstime ∈ (c.waitCondTimeOut overflowed tm ret msec).2 →
        abstime.Normal ∧ abstime.nanos = tm.nanos + msec * 1000000) ↔
      (c.isInit = true → msec ≤ 2147483) := by
  rw [← intResult_msec_iff overflowed h₀, ← deadline_right_iff overflowed hfar h₀ h₁]
  constructor
  · intro h hinit
    exact h _ ((timedwait_mem_iff overflowed c ret _).mpr ⟨hinit, rfl⟩)
  · intro h abstime hmem
    obtain ⟨hinit, rfl⟩ := (timedwait_mem_iff overflowed c ret abstime).mp hmem
    exact h hinit

/-- The longest wait for which it is. -/
theorem deadline_iff_longest :
    ∃ abstime, .timedwait abstime ∈
        ((new.init.1).waitCondTimeOut id ⟨1700000000, 999999, by decide, by decide, by decide⟩
          0 2147483).2 ∧
      abstime.Normal ∧ abstime.nanos = 1700000000999999000 + 2147483 * 1000000 :=
  ⟨⟨1700002148, 482999000⟩, by decide,
    (deadline_iff id new.init.1 ⟨1700000000, 999999, by decide, by decide, by decide⟩ 0 2147483
      (by unfold Timeval.FarFromLimit; decide) (by decide) (by decide)).mpr
      (fun _ => Int.le_refl _) _ (by decide)⟩

/-- The next one ends 35 minutes before it begins. -/
theorem deadline_past : ¬ ∀ abstime, .timedwait abstime ∈
        ((new.init.1).waitCondTimeOut id ⟨1700000000, 0, by decide, by decide, by decide⟩
          0 2147484).2 →
      abstime.Normal ∧ abstime.nanos = 1700000000000000000 + 2147484 * 1000000 := by
  intro h
  have hdue := (h ⟨1699997852, 516704000⟩ (by decide)).2
  exact absurd hdue (by decide)

end CThreadCond

end WebsocketTest
