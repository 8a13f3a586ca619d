import WebsocketTest.Lib.Run
import WebsocketTest.Lib.Threads
import WebsocketTest.Queue.SynQueue

/-!
# `CSynQueue` under any interleaving

Any number of threads, each calling `put` and `get` as often as it likes, one atomic step at a
time. `Pc` is where a thread stands in its call; `World` is the queue, the threads, and the
elements pushed and popped so far in the order the locked sections ran.

Between its steps a thread holds something the semaphores do not show: a place it has not filled
or not given back, an element it has not announced or not fetched. `Balanced` adds these up. Both
of its equations are linear in the two counts, so a step is `count_update` and arithmetic
(`Balanced.goto`), and **`bounded_fifo`** reads off the facts.

## Atomic steps

A semaphore operation is atomic by what it is, and a locked section because every access to the
deque is inside one. The mutex itself is left out on that ground: two locked sections never overlap,
so each is one step, and the order of the steps is the order in which they were entered.

Threads are any finite type. Finite, because the invariant counts them. Nothing is assumed about
fairness: a thread may stand at a step for ever, and a thread that waits in `sem_wait` has no step
to take. So the result is about what holds in every state and not about what happens in the end.
-/

set_option autoImplicit false

namespace WebsocketTest

open Lib.Run Lib.Threads

universe u v

/-- Where a thread stands: outside, or in front of the next step of its call. -/
inductive Pc (α : Type u)
  | idle
  /-- in `put`, in front of `sem_wait(&m_sem_write)` -/
  | putting (pMsg : Option α)
  /-- in `put`, past it -/
  | hasPlace (pMsg : Option α)
  /-- in `put`, in front of `sem_post(&m_sem_read)` -/
  | pushed
  /-- in `get`, in front of `sem_wait(&m_sem_read)` -/
  | getting
  /-- in `get`, past it -/
  | hasItem
  /-- in `get`, in front of `sem_post(&m_sem_write)`, about to return `pMsg` -/
  | popped (pMsg : Option α)

namespace Pc

variable {α : Type u}

/-- It holds a place: one to fill, or one to give back. -/
def holdsPlace : Pc α → Bool
  | hasPlace _ | popped _ => true
  | _ => false

/-- It holds an element: one to announce, or one to fetch. -/
def holdsItem : Pc α → Bool
  | pushed | hasItem => true
  | _ => false

end Pc

structure World (ι : Type v) (α : Type u) where
  q : CSynQueue α
  pc : ι → Pc α
  pushed : List (Option α)
  popped : List (Option α)

/-- What a thread can do next: call, or take the next step of its call. -/
inductive Act (α : Type u)
  | callPut (pMsg : Option α)
  | callGet
  | next

namespace World

variable {ι : Type v} {α : Type u} [DecidableEq ι]

def new : World ι α := ⟨.new, fun _ => .idle, [], []⟩

def goto (w : World ι α) (i : ι) (p : Pc α) : World ι α :=
  { w with pc := Function.update w.pc i p }

/-- One step of thread `i`; `none` if it cannot take it now. -/
def move (w : World ι α) (i : ι) (a : Act α) : Option (World ι α) :=
  match a, w.pc i with
  | .callPut pMsg, .idle => some (w.goto i (.putting pMsg))
  | .callGet, .idle => some (w.goto i .getting)
  | .next, .putting pMsg => w.q.waitWrite.map fun q => { w with q := q }.goto i (.hasPlace pMsg)
  | .next, .hasPlace pMsg =>
    some ({ w with q := w.q.pushBack pMsg, pushed := w.pushed ++ [pMsg] }.goto i .pushed)
  | .next, .pushed => some ({ w with q := w.q.postRead.2 }.goto i .idle)
  | .next, .getting => w.q.waitRead.map fun q => { w with q := q }.goto i .hasItem
  | .next, .hasItem =>
    let (pMsg, q) := w.q.popFront
    some ({ w with q := q, popped := w.popped ++ [pMsg] }.goto i (.popped pMsg))
  | .next, .popped _ => some ({ w with q := w.q.postWrite.2 }.goto i .idle)
  | _, _ => none

def step : World ι α → ι × Act α → World ι α → Prop := ofFn fun w l => w.move l.1 l.2

/-- The steps, with what holds of the queue when each is taken. -/
theorem move_cases {w w' : World ι α} {i : ι} {a : Act α} (h : w.move i a = some w') :
    (∃ p, w.pc i = .idle ∧ (∀ m, p ≠ .popped m) ∧ p.holdsPlace = false ∧ p.holdsItem = false ∧
      w' = w.goto i p) ∨
    (∃ pMsg, w.pc i = .putting pMsg ∧ 0 < w.q.semWrite ∧
      w' = { w with q := { w.q with semWrite := w.q.semWrite - 1 } }.goto i (.hasPlace pMsg)) ∨
    (∃ pMsg, w.pc i = .hasPlace pMsg ∧
      w' = { w with q := w.q.pushBack pMsg, pushed := w.pushed ++ [pMsg] }.goto i .pushed) ∨
    (w.pc i = .pushed ∧ w' = { w with q := w.q.postRead.2 }.goto i .idle) ∨
    (w.pc i = .getting ∧ 0 < w.q.semRead ∧
      w' = { w with q := { w.q with semRead := w.q.semRead - 1 } }.goto i .hasItem) ∨
    (w.pc i = .hasItem ∧
      w' = { w with q := w.q.popFront.2, popped := w.popped ++ [w.q.popFront.1] }.goto i
        (.popped w.q.popFront.1)) ∨
    (∃ pMsg, w.pc i = .popped pMsg ∧ w' = { w with q := w.q.postWrite.2 }.goto i .idle) := by
  unfold move at h
  split at h
  · rename_i pMsg hpc
    exact .inl ⟨.putting pMsg, hpc, by simp, rfl, rfl, (Option.some.inj h).symm⟩
  · rename_i hpc
    exact .inl ⟨.getting, hpc, by simp, rfl, rfl, (Option.some.inj h).symm⟩
  · rename_i pMsg hpc
    obtain ⟨q, hq, rfl⟩ := Option.map_eq_some_iff.mp h
    obtain ⟨hpos, rfl⟩ := CSynQueue.waitWrite_eq_some.mp hq
    exact .inr (.inl ⟨pMsg, hpc, hpos, rfl⟩)
  · rename_i pMsg hpc
    exact .inr (.inr (.inl ⟨pMsg, hpc, (Option.some.inj h).symm⟩))
  · rename_i hpc
    exact .inr (.inr (.inr (.inl ⟨hpc, (Option.some.inj h).symm⟩)))
  · rename_i hpc
    obtain ⟨q, hq, rfl⟩ := Option.map_eq_some_iff.mp h
    obtain ⟨hpos, rfl⟩ := CSynQueue.waitRead_eq_some.mp hq
    exact .inr (.inr (.inr (.inr (.inl ⟨hpc, hpos, rfl⟩))))
  · rename_i hpc
    exact .inr (.inr (.inr (.inr (.inr (.inl ⟨hpc, (Option.some.inj h).symm⟩)))))
  · rename_i pMsg hpc
    exact .inr (.inr (.inr (.inr (.inr (.inr ⟨pMsg, hpc, (Option.some.inj h).symm⟩)))))
  · cases h

/-! ## The invariant

Two equations and one about order. The places: those the semaphore counts, those the threads hold
and those the deque fills make up the capacity. The elements likewise. -/

end World

variable {ι : Type v} {α : Type u} [Fintype ι]

structure World.Balanced (w : World ι α) : Prop where
  size : w.q.maxsize = maxQueueSize
  /-- Every place is free, filled, or held by a thread. -/
  places : w.q.semWrite + w.q.queue.length + count Pc.holdsPlace w.pc = w.q.maxsize - 1
  /-- Every element is announced, or held by a thread. -/
  items : w.q.queue.length = w.q.semRead + count Pc.holdsItem w.pc
  order : w.pushed = w.popped ++ w.q.queue
  fetched : ∀ i pMsg, w.pc i = .popped pMsg → pMsg ∈ w.popped

namespace World

theorem new_balanced : (new : World ι α).Balanced where
  size := rfl
  places := by
    rw [count_eq_zero fun _ => rfl]
    rfl
  items := by
    rw [count_eq_zero fun _ => rfl]
    rfl
  order := rfl
  fetched := fun _ _ h => nomatch h

variable {w w' : World ι α}

/-- A thread that has passed `sem_wait(&m_sem_read)` finds something. -/
theorem Balanced.queue_ne_nil (h : w.Balanced) {i : ι} (hi : w.pc i = .hasItem) :
    w.q.queue ≠ [] := by
  have hpos : 0 < count Pc.holdsItem w.pc := count_pos (i := i) (by rw [hi]; rfl)
  have hlen := h.items
  exact List.length_pos_iff.mp (by omega)

theorem Balanced.length_le (h : w.Balanced) : w.q.queue.length ≤ w.q.maxsize - 1 := by
  have := h.places
  omega

/-- Neither semaphore is near its top, so that no post fails. -/
theorem Balanced.sem_lt (h : w.Balanced) :
    w.q.semRead < semValueMax ∧ w.q.semWrite < semValueMax := by
  have h₁ := h.places
  have h₂ := h.items
  have h₃ : w.q.maxsize = 512000 := h.size
  simp only [semValueMax]
  omega

variable [DecidableEq ι]

/-- **What a step must show**: that it moves places and elements between the semaphores, the deque
    and its thread, and keeps the order. -/
theorem Balanced.goto {v : World ι α} {i : ι} {p : Pc α} (h : w.Balanced) (hpc : v.pc = w.pc)
    (hsize : v.q.maxsize = w.q.maxsize)
    (hplaces : v.q.semWrite + v.q.queue.length + (if p.holdsPlace then 1 else 0) =
      w.q.semWrite + w.q.queue.length + if (w.pc i).holdsPlace then 1 else 0)
    (hitems : v.q.queue.length + w.q.semRead + (if (w.pc i).holdsItem then 1 else 0) =
      w.q.queue.length + v.q.semRead + if p.holdsItem then 1 else 0)
    (horder : v.pushed = v.popped ++ v.q.queue) (hpop : w.popped ⊆ v.popped)
    (hfetched : ∀ pMsg, p = .popped pMsg → pMsg ∈ v.popped) : (v.goto i p).Balanced := by
  have c₁ := count_update Pc.holdsPlace w.pc i p
  have c₂ := count_update Pc.holdsItem w.pc i p
  have hp := h.places
  have hi := h.items
  refine ⟨hsize.trans h.size, ?_, ?_, horder, ?_⟩
  · simp only [World.goto, hpc, hsize]
    omega
  · simp only [World.goto, hpc]
    omega
  · intro j pMsg hj
    simp only [World.goto, hpc] at hj
    by_cases hji : j = i
    · subst hji
      rw [Function.update_self] at hj
      exact hfetched pMsg hj
    · rw [Function.update_of_ne hji] at hj
      exact hpop (h.fetched j pMsg hj)

/-- **The invariant is kept by every step of every thread.** -/
theorem step_balanced {l : ι × Act α} (h : w.Balanced) (hs : step w l w') : w'.Balanced := by
  obtain ⟨i, a⟩ := l
  obtain ⟨hread, hwrite⟩ := h.sem_lt
  rcases move_cases hs with ⟨p, hpc, hne, h₁, h₂, rfl⟩ | ⟨m, hpc, hpos, rfl⟩ | ⟨m, hpc, rfl⟩ |
    ⟨hpc, rfl⟩ | ⟨hpc, hpos, rfl⟩ | ⟨hpc, rfl⟩ | ⟨m, hpc, rfl⟩
  · -- a call: nothing is held yet
    exact h.goto rfl rfl (by rw [hpc, h₁]; rfl) (by rw [hpc, h₂]; rfl) h.order
      (List.Subset.refl _) fun m hm => absurd hm (hne m)
  · -- a free place is taken
    exact h.goto rfl rfl (by simp [hpc, Pc.holdsPlace]; omega) (by simp [hpc, Pc.holdsItem])
      h.order (List.Subset.refl _) (by simp)
  · -- the place is filled, and there is an element to announce
    refine h.goto rfl rfl (by simp [hpc, Pc.holdsPlace, CSynQueue.pushBack]; omega)
      (by simp [hpc, Pc.holdsItem, CSynQueue.pushBack]; omega) ?_ (List.Subset.refl _) (by simp)
    simp [CSynQueue.pushBack, h.order]
  · -- the element is announced
    rw [CSynQueue.postRead_of_lt hread]
    exact h.goto rfl rfl (by simp [hpc, Pc.holdsPlace]) (by simp [hpc, Pc.holdsItem]; omega)
      h.order (List.Subset.refl _) (by simp)
  · -- an element is promised
    exact h.goto rfl rfl (by simp [hpc, Pc.holdsPlace]) (by simp [hpc, Pc.holdsItem]; omega)
      h.order (List.Subset.refl _) (by simp)
  · -- it is fetched, and its place is to be given back
    obtain ⟨m, rest, hq⟩ := List.exists_cons_of_ne_nil (h.queue_ne_nil hpc)
    rw [CSynQueue.popFront_eq, hq]
    exact h.goto rfl rfl (by simp [hpc, hq, Pc.holdsPlace]; omega)
      (by simp [hpc, hq, Pc.holdsItem]; omega) (by simp [h.order, hq])
      (List.subset_append_left _ _) (by simp)
  · -- the place is given back
    rw [CSynQueue.postWrite_of_lt hwrite]
    exact h.goto rfl rfl (by simp [hpc, Pc.holdsPlace]; omega) (by simp [hpc, Pc.holdsItem])
      h.order (List.Subset.refl _) (by simp)

/-- **A bounded FIFO.** Whatever the threads do: the deque never holds more than `m_maxsize - 1`
    elements, a `get` that has passed its wait finds one, what it is about to return is not `NULL`
    unless somebody put `NULL`, and elements leave in the order they came. -/
theorem bounded_fifo {ls : List (ι × Act α)} (h : Steps step (new : World ι α) ls w) :
    w.q.queue.length ≤ w.q.maxsize - 1 ∧
      (∀ i, w.pc i = .hasItem → w.q.queue ≠ []) ∧
      ((∀ pMsg ∈ w.pushed, pMsg ≠ none) → ∀ i pMsg, w.pc i = .popped pMsg → pMsg ≠ none) ∧
      w.popped <+: w.pushed := by
  have hb : w.Balanced := h.invariant (fun _ _ _ hv hs => step_balanced hv hs) new_balanced
  have hprefix : w.popped <+: w.pushed := ⟨w.q.queue, hb.order.symm⟩
  exact ⟨hb.length_le, fun i hi => hb.queue_ne_nil hi,
    fun hput i m hm => hput m (List.IsPrefix.subset hprefix (hb.fetched i m hm)), hprefix⟩

/-- Two threads: one waits in `get` while the other puts 7. -/
theorem bounded_fifo_two_threads :
    ∃ w : World Bool Nat, Steps step new
        [(true, .callGet), (false, .callPut (some 7)), (false, .next), (false, .next),
          (false, .next), (true, .next), (true, .next)] w ∧
      w.pc true = .popped (some 7) ∧ w.popped <+: w.pushed := by
  have hrun : Steps step (new : World Bool Nat)
      [(true, .callGet), (false, .callPut (some 7)), (false, .next), (false, .next),
        (false, .next), (true, .next), (true, .next)] _ :=
    .cons rfl (.cons rfl (.cons rfl (.cons rfl (.cons rfl (.cons rfl (.single rfl))))))
  exact ⟨_, hrun, rfl, (bounded_fifo hrun).2.2.2⟩

end World

end WebsocketTest
