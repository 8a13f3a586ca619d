import Mathlib.Data.List.Basic
import Mathlib.Data.List.Perm.Basic
import WebsocketTest.Queue.SynQueue

/-!
# Priorities: which `put`s lose a message

One caller after another, each operation run to its end. `run` is the queue, and `specRun` what it
is for: a line in which `put` goes to the end, `put` with `CQUE_PRI_HIGH` to the front, `put` with
any other priority to the end, and `get` takes the first.

The code's `put` with a priority stores at the front or not at all, and announces an element in
either case. **`priority_iff`** is what follows: over all runs that stay within the capacity, the
queue answers as the line does, however far it is then emptied, exactly when every priority was
`CQUE_PRI_HIGH`.

One caller is enough to see it, and in its runs a call that would wait is not made: the run is over
there, since nobody else would end the wait. Elements are messages, which are not `NULL`, so that a
`NULL` that comes out is one that `get` made up.

The harder direction is a count. An element that was announced and not stored leaves a semaphore one
too high, for good; and as long as that is so, the queue can be emptied beyond its last element. So
a loss shows at the latest when everything is fetched, which is why the statement empties the queue.
-/

set_option autoImplicit false

namespace WebsocketTest

universe u

/-- The operations, on messages that are not `NULL`. -/
inductive QueueOp (α : Type u)
  | put (pMsg : α)
  | putPri (pMsg : α) (pri : Int)
  | get

/-- What an operation returns: a status, or a message. -/
inductive Ret (α : Type u)
  | status (ret : Int)
  | msg (pMsg : Option α)

namespace CSynQueue

variable {α : Type u}

/-- One operation; `none` if it would wait. -/
def exec (q : CSynQueue α) : QueueOp α → Option (Ret α × CSynQueue α)
  | .put pMsg => (q.put (some pMsg)).map fun r => (.status r.1, r.2)
  | .putPri pMsg pri => (q.putPri (some pMsg) pri).map fun r => (.status r.1, r.2)
  | .get => q.get.map fun r => (.msg r.1, r.2)

/-- A run that never waits, with everything returned. -/
def run (q : CSynQueue α) : List (QueueOp α) → Option (List (Ret α) × CSynQueue α)
  | [] => some ([], q)
  | op :: ops => (q.exec op).bind fun r => (run r.2 ops).map fun s => (r.1 :: s.1, s.2)

/-! ## The line

The purpose of the queue, with no semaphores and no capacity. -/

def specExec (line : List α) : QueueOp α → Ret α × List α
  | .put pMsg => (.status 0, line ++ [pMsg])
  | .putPri pMsg pri => (.status 0, if pri = cquePriHigh then pMsg :: line else line ++ [pMsg])
  | .get => (.msg line.head?, line.tail)

def specRun (line : List α) : List (QueueOp α) → List (Ret α) × List α
  | [] => ([], line)
  | op :: ops =>
    let s := specRun (specExec line op).2 ops
    ((specExec line op).1 :: s.1, s.2)

/-- The messages of the `put`s, and those the `get`s returned. -/
def putMsgs (ops : List (QueueOp α)) : List (Option α) :=
  ops.filterMap fun op => match op with
    | .put pMsg | .putPri pMsg _ => some (some pMsg)
    | .get => none

def gotMsgs (rs : List (Ret α)) : List (Option α) :=
  rs.filterMap fun r => match r with
    | .msg pMsg => some pMsg
    | .status _ => none

/-! ## One operation

Between calls the semaphores tell how full the queue is. Where a message was announced and not
stored they tell it wrongly. -/

/-- How full the queue is: the semaphores make up the capacity between calls. -/
structure Idle (q : CSynQueue α) : Prop where
  size : q.maxsize = maxQueueSize
  places : q.semRead + q.semWrite = maxQueueSize - 1

variable {q q' : CSynQueue α}

theorem new_idle : (new : CSynQueue α).Idle := ⟨rfl, Nat.zero_add _⟩

theorem Idle.postRead (h : q.Idle) {v : CSynQueue α} (hv : v.semRead = q.semRead) :
    v.postRead = (0, { v with semRead := q.semRead + 1 }) := by
  have hp : q.semRead + q.semWrite = 511999 := h.places
  rw [postRead_of_lt (by simp only [semValueMax]; omega), hv]

theorem Idle.postWrite (h : q.Idle) {v : CSynQueue α} (hv : v.semWrite = q.semWrite) :
    v.postWrite = (0, { v with semWrite := q.semWrite + 1 }) := by
  have hp : q.semRead + q.semWrite = 511999 := h.places
  rw [postWrite_of_lt (by simp only [semValueMax]; omega), hv]

/-- A `get` on a queue that has announced an element does not wait. -/
theorem exec_get (h : q.Idle) (hr : 0 < q.semRead) : q.exec .get =
    some (.msg q.queue.head?.join, { q with
      semWrite := q.semWrite + 1, semRead := q.semRead - 1, queue := q.queue.tail }) := by
  have hpost := h.postWrite (v := ⟨q.maxsize, q.semRead - 1, q.semWrite, q.queue.tail⟩) rfl
  rw [exec, get, waitRead_eq_some.mpr ⟨hr, rfl⟩, Option.map_some, Option.map_some, popFront_eq]
  simp only [hpost]

/-- **What an operation does when it does not wait.** -/
theorem exec_cases (h : q.Idle) {op : QueueOp α} {r : Ret α} (he : q.exec op = some (r, q')) :
    q'.Idle ∧
      ((∃ m, op = .put m ∧ r = .status 0 ∧ q'.semRead = q.semRead + 1 ∧
          q'.queue = q.queue ++ [some m]) ∨
        (∃ m pri, op = .putPri m pri ∧ r = .status 0 ∧ q'.semRead = q.semRead + 1 ∧
          q'.queue = if pri = cquePriHigh then some m :: q.queue else q.queue) ∨
        (op = .get ∧ r = .msg q.queue.head?.join ∧ q.semRead = q'.semRead + 1 ∧
          q'.queue = q.queue.tail)) := by
  have hp : q.semRead + q.semWrite = 511999 := h.places
  cases op with
  | put m =>
    simp only [exec, put, Option.map_map, Option.map_eq_some_iff] at he
    obtain ⟨v, hv, he⟩ := he
    obtain ⟨hpos, rfl⟩ := waitWrite_eq_some.mp hv
    have hpost := h.postRead
      (v := pushBack (some m) ⟨q.maxsize, q.semRead, q.semWrite - 1, q.queue⟩) rfl
    rw [Function.comp_apply, hpost] at he
    cases he
    exact ⟨⟨h.size, show q.semRead + 1 + (q.semWrite - 1) = 511999 by omega⟩,
      .inl ⟨m, rfl, rfl, rfl, rfl⟩⟩
  | putPri m pri =>
    simp only [exec, putPri, Option.map_map, Option.map_eq_some_iff] at he
    obtain ⟨v, hv, he⟩ := he
    obtain ⟨hpos, rfl⟩ := waitWrite_eq_some.mp hv
    have hpri : pushPri (some m) pri ⟨q.maxsize, q.semRead, q.semWrite - 1, q.queue⟩ =
        ⟨q.maxsize, q.semRead, q.semWrite - 1,
          if pri = cquePriHigh then some m :: q.queue else q.queue⟩ := by
      unfold pushPri
      by_cases hpri : pri = cquePriHigh
      · rw [if_pos hpri.symm, if_pos hpri]
      · rw [if_neg (Ne.symm hpri), if_neg hpri]
    have hpost := h.postRead (v := ⟨q.maxsize, q.semRead, q.semWrite - 1,
      if pri = cquePriHigh then some m :: q.queue else q.queue⟩) rfl
    rw [Function.comp_apply, hpri, hpost] at he
    cases he
    exact ⟨⟨h.size, show q.semRead + 1 + (q.semWrite - 1) = 511999 by omega⟩,
      .inr (.inl ⟨m, pri, rfl, rfl, rfl, rfl⟩)⟩
  | get =>
    have hpos : 0 < q.semRead := by
      simp only [exec, get, Option.map_map, Option.map_eq_some_iff] at he
      obtain ⟨v, hv, -⟩ := he
      exact (waitRead_eq_some.mp hv).1
    rw [exec_get h hpos] at he
    cases he
    exact ⟨⟨h.size, show q.semRead - 1 + (q.semWrite + 1) = 511999 by omega⟩,
      .inr (.inr ⟨rfl, rfl, show q.semRead = q.semRead - 1 + 1 by omega, rfl⟩)⟩

/-! ## Runs -/

theorem run_cons {op : QueueOp α} {ops : List (QueueOp α)} {rs : List (Ret α)}
    (h : q.run (op :: ops) = some (rs, q')) :
    ∃ r rs' q₁, q.exec op = some (r, q₁) ∧ q₁.run ops = some (rs', q') ∧ rs = r :: rs' := by
  rw [run] at h
  obtain ⟨⟨r, q₁⟩, he, h⟩ := Option.bind_eq_some_iff.mp h
  obtain ⟨⟨rs', q₂⟩, hr, h⟩ := Option.map_eq_some_iff.mp h
  cases h
  exact ⟨r, rs', q₁, he, hr, rfl⟩

theorem run_append {ops : List (QueueOp α)} (ops' : List (QueueOp α)) {rs : List (Ret α)}
    {q₁ : CSynQueue α} (h : q.run ops = some (rs, q₁)) :
    q.run (ops ++ ops') = (q₁.run ops').map fun s => (rs ++ s.1, s.2) := by
  induction ops generalizing q rs with
  | nil =>
    cases h
    simp
  | cons op ops ih =>
    obtain ⟨r, rs', q₂, he, hr, rfl⟩ := run_cons h
    rw [List.cons_append, run, he, Option.bind_some, ih hr, Option.map_map]
    rfl

theorem run_idle {ops : List (QueueOp α)} {rs : List (Ret α)} (h : q.Idle)
    (hr : q.run ops = some (rs, q')) : q'.Idle := by
  induction ops generalizing q rs with
  | nil =>
    cases hr
    exact h
  | cons op ops ih =>
    obtain ⟨r, rs', q₁, he, hr', rfl⟩ := run_cons hr
    exact ih (exec_cases h he).1 hr'

/-- A queue can be emptied, by as many `get`s as were announced. -/
theorem run_drain (h : q.Idle) :
    ∃ rs q', q.run (List.replicate q.semRead .get) = some (rs, q') ∧ q'.semRead = 0 := by
  induction hn : q.semRead generalizing q with
  | zero => exact ⟨[], q, rfl, hn⟩
  | succ n ih =>
    have he := exec_get h (by omega)
    obtain ⟨rs, q', hr, hz⟩ := ih (exec_cases h he).1 (show q.semRead - 1 = n by omega)
    refine ⟨.msg q.queue.head?.join :: rs, q', ?_, hz⟩
    rw [List.replicate_succ, run, he, Option.bind_some, hr]
    rfl

/-! ## Without other priorities, the queue is the line -/

def AllHigh (ops : List (QueueOp α)) : Prop :=
  ∀ pMsg pri, .putPri pMsg pri ∈ ops → pri = cquePriHigh

/-- The queue holds the line, all of it announced. -/
structure Holds (q : CSynQueue α) (line : List α) : Prop where
  idle : q.Idle
  queue : q.queue = line.map some
  items : q.semRead = line.length

theorem exec_holds {line : List α} (h : q.Holds line) {op : QueueOp α} {r : Ret α}
    (hop : ∀ pMsg pri, op = .putPri pMsg pri → pri = cquePriHigh)
    (he : q.exec op = some (r, q')) : r = (specExec line op).1 ∧ q'.Holds (specExec line op).2 := by
  have hitems := h.items
  obtain ⟨hidle, ⟨m, rfl, rfl, hs, hq⟩ | ⟨m, pri, rfl, rfl, hs, hq⟩ | ⟨rfl, rfl, hs, hq⟩⟩ :=
    exec_cases h.idle he
  · exact ⟨rfl, hidle, by simp [specExec, hq, h.queue], by simp [specExec, hs, hitems]⟩
  · have hpri := hop m pri rfl
    exact ⟨rfl, hidle, by simp [specExec, hq, h.queue, hpri], by simp [specExec, hs, hitems, hpri]⟩
  · cases line with
    | nil =>
      rw [hitems] at hs
      cases hs
    | cons m line =>
      rw [hitems] at hs
      refine ⟨by simp [specExec, h.queue], hidle, by simp [specExec, hq, h.queue], ?_⟩
      exact (Nat.succ.inj hs).symm

theorem run_holds {line : List α} {ops : List (QueueOp α)} {rs : List (Ret α)}
    (h : q.Holds line) (hall : AllHigh ops) (hr : q.run ops = some (rs, q')) :
    rs = (specRun line ops).1 ∧ q'.Holds (specRun line ops).2 := by
  induction ops generalizing q line rs with
  | nil =>
    cases hr
    exact ⟨rfl, h⟩
  | cons op ops ih =>
    obtain ⟨r, rs', q₁, he, hr', rfl⟩ := run_cons hr
    obtain ⟨rfl, h₁⟩ := exec_holds h
      (fun m pri hop => hall m pri (hop ▸ List.mem_cons_self)) he
    obtain ⟨rfl, h₂⟩ := ih h₁ (fun m pri hm => hall m pri (List.mem_cons_of_mem op hm)) hr'
    exact ⟨rfl, h₂⟩

/-! ## With one, it runs out of messages before it runs out of `get`s -/

/-- `put`s that announce an element and store none. -/
def dropped (ops : List (QueueOp α)) : Nat :=
  ops.countP fun op => match op with
    | .putPri _ pri => decide (pri ≠ cquePriHigh)
    | _ => false

def nulls (rs : List (Ret α)) : Nat := rs.countP fun r => r matches .msg none

/-- **Announced and not stored**: every element announced is in the deque, or was never stored, or
    was fetched as `NULL`. -/
theorem run_nulls {ops : List (QueueOp α)} {rs : List (Ret α)} (h : q.Idle)
    (hne : ∀ m ∈ q.queue, m ≠ none) (hr : q.run ops = some (rs, q')) :
    q'.queue.length + q.semRead + dropped ops = q.queue.length + q'.semRead + nulls rs := by
  induction ops generalizing q rs with
  | nil =>
    cases hr
    rfl
  | cons op ops ih =>
    obtain ⟨r, rs', q₁, he, hr', rfl⟩ := run_cons hr
    obtain ⟨hidle, ⟨m, rfl, rfl, hs, hq⟩ | ⟨m, pri, rfl, rfl, hs, hq⟩ | ⟨rfl, rfl, hs, hq⟩⟩ :=
      exec_cases h he
    · have hne' : ∀ m' ∈ q₁.queue, m' ≠ none := by
        rw [hq]
        exact List.forall_mem_append.mpr ⟨hne, by simp⟩
      have hih := ih hidle hne' hr'
      simp [dropped, nulls, hs, hq] at hih ⊢
      omega
    · by_cases hpri : pri = cquePriHigh
      · have hih := ih hidle (by simpa [hq, hpri] using hne) hr'
        simp [dropped, nulls, hs, hq, hpri] at hih ⊢
        omega
      · have hih := ih hidle (by simpa [hq, hpri] using hne) hr'
        simp [dropped, nulls, hs, hq, hpri] at hih ⊢
        omega
    · cases hqueue : q.queue with
      | nil =>
        have hih := ih hidle (by simp [hq, hqueue]) hr'
        simp [dropped, nulls, hs, hq, hqueue] at hih ⊢
        omega
      | cons m rest =>
        obtain ⟨a, rfl⟩ := Option.ne_none_iff_exists'.mp (hne m (by simp [hqueue]))
        have hih := ih hidle (fun m hm => hne m (by simp_all)) hr'
        simp [dropped, nulls, hs, hq, hqueue] at hih ⊢
        omega

/-- The line never answers `NULL` in a run of the queue: it is as long as what was announced. -/
theorem spec_nulls (line : List α) {ops : List (QueueOp α)} {rs : List (Ret α)} (h : q.Idle)
    (hlen : q.semRead = line.length) (hr : q.run ops = some (rs, q')) :
    nulls (specRun line ops).1 = 0 := by
  induction ops generalizing q line rs with
  | nil => rfl
  | cons op ops ih =>
    obtain ⟨r, rs', q₁, he, hr', rfl⟩ := run_cons hr
    obtain ⟨hidle, ⟨m, rfl, rfl, hs, -⟩ | ⟨m, pri, rfl, rfl, hs, -⟩ | ⟨rfl, rfl, hs, -⟩⟩ :=
      exec_cases h he
    · have hih := ih (line ++ [m]) hidle (by simp [hs, hlen]) hr'
      simpa [specRun, specExec, nulls] using hih
    · have hih := ih (specExec line (.putPri m pri)).2 hidle
        (by simp only [specExec]; split <;> simp [hs, hlen]) hr'
      simpa [specRun, specExec, nulls] using hih
    · cases line with
      | nil =>
        rw [hlen] at hs
        cases hs
      | cons m line =>
        have hih := ih line hidle (Nat.succ.inj (hs.symm.trans hlen)) hr'
        simpa [specRun, specExec, nulls] using hih

/-! ## What the line promises -/

/-- Nothing is lost or made up in the line: what `get` returned and what is left is what was put. -/
theorem specRun_perm (line : List α) {ops : List (QueueOp α)}
    (h : nulls (specRun line ops).1 = 0) :
    (gotMsgs (specRun line ops).1 ++ (specRun line ops).2.map some).Perm
      (line.map some ++ putMsgs ops) := by
  induction ops generalizing line with
  | nil => simp [specRun, gotMsgs, putMsgs]
  | cons op ops ih =>
    cases op with
    | put m =>
      have hih := ih (line ++ [m]) (by simpa [specRun, specExec, nulls] using h)
      simpa [specRun, specExec, gotMsgs, putMsgs] using hih
    | putPri m pri =>
      have hih := ih (specExec line (.putPri m pri)).2
        (by simpa [specRun, specExec, nulls] using h)
      refine (show List.Perm _ _ from hih).trans ?_
      by_cases hpri : pri = cquePriHigh
      · simp only [specExec, if_pos hpri, putMsgs, List.filterMap_cons, List.map_cons]
        exact List.perm_middle.symm
      · simp [specExec, if_neg hpri, putMsgs]
    | get =>
      cases line with
      | nil => simp [specRun, specExec, nulls] at h
      | cons m line =>
        have hih := ih line (by simpa [specRun, specExec, nulls] using h)
        simpa [specRun, specExec, gotMsgs, putMsgs] using hih.cons (some m)

/-- **Priorities.** Over every run that stays within the capacity, followed by any number of
    `get`s: what is returned is what the line returns, and once everything put was fetched it is
    what was put, exactly when every priority was `CQUE_PRI_HIGH`. -/
theorem priority_iff {ops : List (QueueOp α)} (hrun : ((new : CSynQueue α).run ops).isSome) :
    (∀ n rs q', new.run (ops ++ List.replicate n .get) = some (rs, q') →
      rs = (specRun [] (ops ++ List.replicate n .get)).1 ∧
        (q'.semRead = 0 → (gotMsgs rs).Perm (putMsgs ops))) ↔ AllHigh ops := by
  have hempty : (new : CSynQueue α).Holds [] := ⟨new_idle, rfl, rfl⟩
  constructor
  · intro h
    obtain ⟨⟨rs, q⟩, hq⟩ := Option.isSome_iff_exists.mp hrun
    obtain ⟨rs', q', hdrain, hz⟩ := run_drain (run_idle new_idle hq)
    have hall := run_append (List.replicate q.semRead .get) hq
    rw [hdrain, Option.map_some] at hall
    have hspec := (h _ _ _ hall).1
    have hnone := spec_nulls [] new_idle rfl hall
    rw [← hspec] at hnone
    have hcount := run_nulls new_idle (by simp [new]) hall
    have hdropped : dropped (ops ++ List.replicate q.semRead .get) = 0 := by
      simp only [hnone, hz] at hcount
      simp [new] at hcount
      omega
    intro m pri hm
    by_contra hpri
    have hzero := List.countP_eq_zero.mp hdropped _ (List.mem_append_left _ hm)
    simp [hpri] at hzero
  · intro h n rs q' hr
    have hall : AllHigh (ops ++ List.replicate n .get) := by
      intro m pri hm
      rcases List.mem_append.mp hm with hm | hm
      · exact h m pri hm
      · exact absurd (List.mem_replicate.mp hm).2 (by simp)
    obtain ⟨hrs, hq'⟩ := run_holds hempty hall hr
    refine ⟨hrs, ?_⟩
    intro hz
    have hperm := specRun_perm [] (spec_nulls [] new_idle rfl hr)
    have hrest : (specRun [] (ops ++ List.replicate n .get)).2 = [] :=
      List.length_eq_zero_iff.mp (hq'.items.symm.trans hz)
    have hput : putMsgs (ops ++ List.replicate n .get) = putMsgs ops := by
      simp [putMsgs, List.filterMap_append]
    rwa [hrest, ← hrs, hput, List.map_nil, List.append_nil, List.nil_append] at hperm

/-- A message with priority 0 is announced, and a `NULL` is fetched in its place. -/
theorem priority_zero_lost :
    ((new : CSynQueue Nat).run [.putPri 7 0, .get]).map (fun s => gotMsgs s.1) = some [none] ∧
      putMsgs [QueueOp.putPri 7 0, .get] = [some 7] :=
  ⟨rfl, rfl⟩

theorem priority_iff_high_first :
    (∀ n rs q', (new : CSynQueue Nat).run ([.put 1, .putPri 2 1] ++ List.replicate n .get) =
        some (rs, q') →
      rs = (specRun [] ([.put 1, .putPri 2 1] ++ List.replicate n .get)).1 ∧
        (q'.semRead = 0 → (gotMsgs rs).Perm (putMsgs [.put 1, .putPri 2 1]))) ↔
      AllHigh [.put 1, .putPri 2 1] :=
  priority_iff rfl

end CSynQueue

end WebsocketTest
