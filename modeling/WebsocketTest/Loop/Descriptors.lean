import WebsocketTest.Lib.Ownership
import WebsocketTest.Loop.Registration

/-!
# Every open descriptor is some task's

The tasks are the holders and the descriptors that `accept` and `socket` returned the resources of
a `Lib.Exclusive`: open means held by one task. `Exclusive.acquire` is a set-up, a `Connect` or an
accepted connection, `Exclusive.release` is `CloseConnect` or a destructor, and nothing else
touches either side.

What does not fit the rules is what `KeepsDescriptors` excludes: a task given a second descriptor
(an accepted one whose `m_iTimeOut` happens not to be negative, so that `Init` connects it
elsewhere; a set-up done twice), and a descriptor given to no task (`listen` fails; a descriptor
that is 0 and taken for none).

**`descriptors_of_run`** is the result, `accepted_not_registered` a run on which it fails.

A leak and a double close are the same mistake seen from two sides. Where a task's descriptor is
written over, the old one is open with nobody to close it; where two tasks hold one descriptor, the
second `close` hits whatever has got the number since. Ownership says that neither can be: each open
descriptor has one holder, and every holder's is open. It is a statement about all tasks and
all descriptors at once, and a step changes it at one place, so that the general lemmas about such a
relation do the work and an operation has only to say which of the two rules it is.

The condition on `Init` is on its task: that it has no descriptor yet, or that it does not connect.
The program breaks it where an accepted connection happens to find a time-out of 0 or more in its
memory, which its constructor does not set.
-/

set_option autoImplicit false

namespace WebsocketTest

open Lib Lib.Run

/-- The descriptor a task holds. -/
def LoopTask.held (task : LoopTask) : Option Int :=
  if task.iSocket = -1 then none else some task.iSocket

namespace EventLoop

variable {w w' : EventLoop} {pTask : Nat}

/-- An open descriptor is the `m_iSocket` of one live task, none was closed that was not open, and
    an accepted connection is registered with the descriptor that was accepted. -/
structure Descriptors (w : EventLoop) : Prop where
  owner : ∀ fd, w.opened fd = true → ∃! pTask, w.Live pTask ∧ w.socketOf pTask = fd
  closed : w.badCloses = []
  registered : ∀ pTask task fd, w.tasks.cell pTask = some task → task.accepted = some fd →
    task.iSocket = fd ∧ w.epoll fd = some pTask

/-- The step gives each descriptor to a task, and no task a second one. -/
def KeepsDescriptors (w : EventLoop) : LoopOp → Prop
  | .call c => SetsUpEmpty w c ∧ ∀ pTask r, c = .createListenSocket pTask r →
      0 ≤ r.iSocket → r.bound = true → r.iSocket ≠ 0 ∧ r.listening = true
  | .epollWait _ => True
  | .dispatch o => ∀ e rest, w.batch = e :: rest → w.classOf e.1 = some .acceptTask →
      e.2.epollin = true → ∀ r ∈ o.accepts, r.iSocket ≠ 0 ∧ (0 < r.iSocket → r.iTimeOut < 0)

/-! ## Who holds what

The function from tasks to descriptors, and how each operation changes it: not at all, or at one
task. -/

def holds (w : EventLoop) (pTask : Nat) : Option Int := (w.tasks.cell pTask).bind LoopTask.held

def acceptedOf (w : EventLoop) (pTask : Nat) : Option Int :=
  (w.tasks.cell pTask).bind (·.accepted)

theorem holds_of_cell {c : Option LoopTask}
    (h : w'.tasks.cell = Function.update w.tasks.cell pTask c) :
    w'.holds = Function.update w.holds pTask (c.bind LoopTask.held) := by
  funext p
  unfold holds
  rw [h, Function.update_apply, Function.update_apply]
  split <;> rfl

theorem acceptedOf_of_cell {c : Option LoopTask}
    (h : w'.tasks.cell = Function.update w.tasks.cell pTask c) :
    w'.acceptedOf = Function.update w.acceptedOf pTask (c.bind (·.accepted)) := by
  funext p
  unfold acceptedOf
  rw [h, Function.update_apply, Function.update_apply]
  split <;> rfl

theorem holds_eq_some {fd : Int} : w.holds pTask = some fd ↔ fd ≠ -1 ∧ w.socketOf pTask = fd := by
  unfold holds socketOf
  cases w.tasks.cell pTask with
  | none => exact ⟨nofun, fun h => absurd h.2.symm h.1⟩
  | some task =>
    simp only [Option.bind_some, LoopTask.held]
    split
    · rename_i hs
      exact ⟨nofun, fun h => absurd (h.2.symm.trans hs) h.1⟩
    · rename_i hs
      refine ⟨?_, fun h => congrArg some h.2⟩
      intro h
      obtain rfl := Option.some.inj h
      exact ⟨hs, rfl⟩

theorem holds_eq_none (h : w.socketOf pTask = -1) : w.holds pTask = none := by
  cases hh : w.holds pTask with
  | none => rfl
  | some fd =>
    obtain ⟨hne, hs⟩ := holds_eq_some.mp hh
    exact absurd (hs.symm.trans h) hne

/-! ## The invariant -/

structure Owned (w : EventLoop) : Prop where
  exclusive : Exclusive w.holds fun fd => w.opened fd = true
  closed : w.badCloses = []
  accepted : ∀ pTask fd, w.acceptedOf pTask = some fd → w.epoll fd = some pTask

theorem owned_start : Owned start where
  exclusive := ⟨nofun, nofun, nofun⟩
  closed := rfl
  accepted := nofun

namespace Owned

theorem descriptors (h : Owned w) (hr : Registered w) : Descriptors w where
  owner fd hfd := by
    obtain ⟨p, hp, honly⟩ := h.exclusive.existsUnique hfd
    obtain ⟨hne, hs⟩ := holds_eq_some.mp hp
    refine ⟨p, ⟨live_of_socketOf (hs ▸ hne), hs⟩, fun q hq => honly q ?_⟩
    exact holds_eq_some.mpr ⟨hne, hq.2⟩
  closed := h.closed
  registered p task fd hc ha := by
    have he := h.accepted p fd (by rw [acceptedOf, hc, Option.bind_some, ha])
    refine ⟨?_, he⟩
    have hs := (hr.socket fd p he).2
    rwa [socketOf, hc] at hs

/-- What a task holds is open, so that it is no stranger's that is closed. -/
theorem opened (h : Owned w) (hs : w.socketOf pTask ≠ -1) : w.opened (w.socketOf pTask) = true :=
  h.exclusive.opened_of_holds pTask _ (holds_eq_some.mpr ⟨hs, rfl⟩)

/-- What a task holds is held by no other: two tasks with one descriptor are one task. -/
theorem eq_of_socketOf (h : Owned w) {p : Nat} (hs : w.socketOf pTask ≠ -1)
    (heq : w.socketOf p = w.socketOf pTask) : p = pTask :=
  h.exclusive.unique p pTask _ (holds_eq_some.mpr ⟨hs, heq⟩) (holds_eq_some.mpr ⟨hs, rfl⟩)

theorem acceptedOf_eq_none (h : Owned w) (hr : Registered w) (hs : w.socketOf pTask = -1) :
    w.acceptedOf pTask = none := by
  cases ha : w.acceptedOf pTask with
  | none => rfl
  | some fd => exact absurd (h.accepted pTask fd ha) (hr.unregistered hs fd)

/-- Nothing changes hands where the holders and the open descriptors are the same. -/
theorem congr (h : Owned w) (hh : w'.holds = w.holds) (ho : w'.opened = w.opened)
    (hc : w'.badCloses = w.badCloses) (ha : w'.acceptedOf = w.acceptedOf)
    (he : ∀ fd pTask, w.epoll fd = some pTask → w'.epoll fd = some pTask) : Owned w' where
  exclusive := by
    rw [hh, ho]
    exact h.exclusive
  closed := hc.trans h.closed
  accepted p fd hp := by
    rw [ha] at hp
    exact he fd p (h.accepted p fd hp)

/-- A task lets go of its descriptor, which is closed. -/
theorem release (h : Owned w) (hr : Registered w) (hs : w.socketOf pTask ≠ -1)
    {c : Option LoopTask} (hcell : w'.tasks.cell = Function.update w.tasks.cell pTask c)
    (hheld : c.bind LoopTask.held = none) (hacc : c.bind (·.accepted) = none)
    (ho : w'.opened = Function.update w.opened (w.socketOf pTask) false)
    (hc : w'.badCloses = w.badCloses)
    (he : ∀ fd, fd ≠ w.socketOf pTask → w'.epoll fd = w.epoll fd) : Owned w' where
  exclusive := by
    rw [holds_of_cell hcell, hheld, ho]
    refine h.exclusive.release (holds_eq_some.mpr ⟨hs, rfl⟩) ?_
    intro fd
    rw [Function.update_apply]
    split
    · rename_i heq
      exact ⟨nofun, fun hne => absurd heq hne.1⟩
    · rename_i hne
      exact ⟨fun hopen => ⟨hne, hopen⟩, fun hopen => hopen.2⟩
  closed := hc.trans h.closed
  accepted p fd hp := by
    rw [acceptedOf_of_cell hcell, hacc, Function.update_apply] at hp
    split at hp
    · cases hp
    · rename_i hne
      have hreg := h.accepted p fd hp
      rw [he fd fun heq => hne (h.eq_of_socketOf hs ((hr.socket fd p hreg).2.trans heq)), hreg]

/-- A task without a descriptor gets the one just opened. -/
theorem acquire (h : Owned w) {fd : Int} (hs : w.socketOf pTask = -1)
    (hclosed : w.opened fd = false) (hh : w'.holds = Function.update w.holds pTask (some fd))
    (ho : w'.opened = Function.update w.opened fd true) (hc : w'.badCloses = w.badCloses)
    (ha : ∀ p fd', w'.acceptedOf p = some fd' → w.acceptedOf p = some fd' ∨ w'.epoll fd' = some p)
    (he : ∀ fd' p, w.epoll fd' = some p → w'.epoll fd' = some p) : Owned w' where
  exclusive := by
    rw [hh, ho]
    refine h.exclusive.acquire (holds_eq_none hs) (by rw [hclosed]; exact Bool.false_ne_true) ?_
    intro fd'
    rw [Function.update_apply]
    split
    · rename_i heq
      exact ⟨fun _ => .inl heq, fun _ => rfl⟩
    · rename_i hne
      exact ⟨.inr, fun hor => hor.resolve_left hne⟩
  closed := hc.trans h.closed
  accepted p fd' hp := (ha p fd' hp).elim (fun hp => he fd' p (h.accepted p fd' hp)) id

/-! ## The operations -/

theorem newTask (h : Owned w) (cls : TaskClass) : Owned (w.newTask ⟨cls, -1, none⟩) := by
  have hcell : (w.newTask ⟨cls, -1, none⟩).tasks.cell =
      Function.update w.tasks.cell w.tasks.next (some ⟨cls, -1, none⟩) := rfl
  have hnone : w.tasks.cell w.tasks.next = none := Heap.cell_next
  refine h.congr ?_ rfl rfl ?_ fun _ _ he => he
  · rw [holds_of_cell hcell, Function.update_eq_self_iff, holds, hnone]
    rfl
  · rw [acceptedOf_of_cell hcell, Function.update_eq_self_iff, acceptedOf, hnone]
    rfl

theorem addToEpoll (h : Owned w) (pTask : Nat) : Owned (w.addToEpoll pTask) := by
  rcases addToEpoll_cases w pTask with heq | ⟨-, hnone, heq⟩
  · rw [heq]
    exact h
  · rw [heq]
    refine h.congr rfl rfl rfl rfl ?_
    intro fd p he
    have hne : fd ≠ w.socketOf pTask := by
      intro heq
      rw [heq, hnone] at he
      cases he
    exact (Function.update_of_ne hne ..).trans he

/-- The task that is registered with a descriptor is the one that modifies it. -/
theorem modifyFromEpoll (h : Owned w) (hr : Registered w) (pTask : Nat) :
    Owned (w.modifyFromEpoll pTask) := by
  unfold EventLoop.modifyFromEpoll
  split
  · rename_i hsome
    obtain ⟨q, hq⟩ := Option.isSome_iff_exists.mp hsome
    obtain ⟨ho, hs⟩ := hr.socket _ q hq
    have hne : w.socketOf pTask ≠ -1 := by
      have := hr.nonneg _ ho
      omega
    -- The entry is this task's already.
    rw [h.eq_of_socketOf hne hs] at hq
    refine h.congr rfl rfl rfl rfl ?_
    intro fd p he
    by_cases heq : fd = w.socketOf pTask
    · rw [heq] at he ⊢
      exact (Function.update_self ..).trans (hq.symm.trans he)
    · exact (Function.update_of_ne heq ..).trans he
  · exact h

theorem closeConnect (h : Owned w) (hr : Registered w) (pTask : Nat) :
    Owned (w.closeConnect pTask) := by
  by_cases hs : w.socketOf pTask = -1
  · rw [closeConnect_eq, if_pos hs]
    exact h
  obtain ⟨task, htask⟩ := Option.isSome_iff_exists.mp (live_of_socketOf hs)
  rw [closeConnect_of_opened hs (h.opened hs)]
  exact h.release hr hs (Heap.cell_modify _) (by rw [htask]; rfl) (by rw [htask]; rfl) rfl rfl
    fun fd hne => (Function.update_of_ne hne ..).trans (Function.update_of_ne hne ..)

theorem delete (h : Owned w) (hr : Registered w) (pTask : Nat) : Owned (w.delete pTask) := by
  rcases delete_cases w pTask with ⟨-, heq⟩ | ⟨-, tasks, hcell, heq⟩
  · rw [heq]
    exact h.congr rfl rfl rfl rfl fun _ _ he => he
  rw [heq, destruct]
  by_cases hs : w.socketOf pTask = -1
  · rw [if_pos hs]
    refine h.congr ?_ rfl rfl ?_ fun _ _ he => he
    · rw [holds_of_cell hcell, Function.update_eq_self_iff, holds_eq_none hs]
      rfl
    · rw [acceptedOf_of_cell hcell, Function.update_eq_self_iff, h.acceptedOf_eq_none hr hs]
      rfl
  · rw [if_neg hs, close_of_opened (h.opened hs)]
    exact h.release hr hs hcell rfl rfl rfl rfl fun fd hne => Function.update_of_ne hne ..

theorem destroySelf (h : Owned w) (hr : Registered w) (pTask : Nat) :
    Owned (w.destroySelf pTask) :=
  (h.closeConnect hr pTask).delete (hr.closeConnect pTask) pTask

theorem setInstance (h : Owned w) (hr : Registered w) (pTask : Nat) :
    Owned (w.setInstance pTask) := by
  unfold EventLoop.setInstance
  split
  · rename_i old _
    exact (h.delete hr old).congr rfl rfl rfl rfl fun _ _ he => he
  · exact h.congr rfl rfl rfl rfl fun _ _ he => he

/-! ### Functions that set a socket -/

/-- The descriptor just opened becomes `m_iSocket`, or there is none and `m_iSocket` stays -1. -/
theorem openFd_setSocket (h : Owned w) (hl : w.Live pTask) (hs : w.socketOf pTask = -1) {fd : Int}
    (ho : w.openFd fd = some w') : Owned (w'.setSocket pTask fd) := by
  obtain ⟨task, htask⟩ := Option.isSome_iff_exists.mp hl
  have hcell : (w'.setSocket pTask fd).tasks.cell =
      Function.update w.tasks.cell pTask (some { task with iSocket := fd }) := by
    rw [EventLoop.setSocket, openFd_tasks ho, Heap.cell_modify, htask]
    rfl
  have hacc : (w'.setSocket pTask fd).acceptedOf = w.acceptedOf := by
    rw [acceptedOf_of_cell hcell, Function.update_eq_self_iff, acceptedOf, htask]
    rfl
  have hholds := holds_of_cell hcell
  rw [Option.bind_some, LoopTask.held] at hholds
  rcases openFd_cases ho with ⟨hfd, rfl⟩ | ⟨hfd, hclosed, rfl⟩
  · rw [if_pos hfd, Function.update_eq_self_iff.mpr (holds_eq_none hs).symm] at hholds
    exact h.congr hholds rfl rfl hacc fun _ _ he => he
  · rw [if_neg (by show fd ≠ -1; omega)] at hholds
    refine h.acquire hs hclosed hholds rfl rfl (fun p fd' hp => .inl ?_) fun _ _ he => he
    rwa [hacc] at hp

/-- A set-up that fails closes what it opened, and leaves no trace. -/
theorem close_openFd (hr : Registered w) {fd : Int} (hfd : 0 ≤ fd) (ho : w.openFd fd = some w') :
    w'.close fd = w := by
  rcases openFd_cases ho with ⟨heq, -⟩ | ⟨-, hclosed, rfl⟩
  · omega
  · rw [close_of_opened (Function.update_self ..)]
    simp only [Function.update_idem]
    rw [Function.update_eq_self_iff.mpr hclosed.symm,
      Function.update_eq_self_iff.mpr (hr.epoll_of_closed hclosed).symm]

theorem longConInit (h : Owned w) (hl : w.Live pTask) {iTimeOut socket : Int}
    (hs : 0 ≤ iTimeOut → w.socketOf pTask = -1)
    (hc : w.longConInit pTask iTimeOut socket = some w') : Owned w' := by
  rcases Int.lt_or_le iTimeOut 0 with hneg | hpos
  · rw [longConInit_of_neg hneg] at hc
    cases hc
    exact h.addToEpoll pTask
  · obtain ⟨w₁, hconn, rfl⟩ := Option.map_eq_some_iff.mp hc
    rw [connect, if_neg (by omega)] at hconn
    obtain ⟨w₂, ho, rfl⟩ := Option.map_eq_some_iff.mp hconn
    exact (h.openFd_setSocket hl (hs hpos) ho).addToEpoll pTask

theorem createListenSocket (h : Owned w) (hr : Registered w) (hl : w.Live pTask) {r : SetUp}
    (hempty : SetsUpEmpty w (.createListenSocket pTask r))
    (hok : 0 ≤ r.iSocket → r.bound = true → r.iSocket ≠ 0 ∧ r.listening = true)
    (hc : w.createListenSocket pTask r = some w') : Owned w' := by
  obtain ⟨w₁, ho, rfl⟩ := Option.map_eq_some_iff.mp hc
  by_cases hneg : r.iSocket < 0
  · rw [if_pos hneg]
    rcases openFd_cases ho with ⟨-, rfl⟩ | ⟨hfd, -⟩
    · exact h
    · omega
  by_cases hbound : r.bound = true
  · obtain ⟨hzero, hlisten⟩ := hok (by omega) hbound
    rw [if_neg hneg, if_neg (not_not.mpr hbound), if_neg (not_not.mpr hlisten), if_neg hzero]
    have hs := hempty (by omega) hbound hlisten
    exact (h.openFd_setSocket hl hs ho).addToEpoll pTask
  · rw [if_neg hneg, if_pos hbound, close_openFd hr (by omega) ho]
    exact h

theorem createBindSocket (h : Owned w) (hr : Registered w) (hl : w.Live pTask) {r : SetUp}
    (hempty : SetsUpEmpty w (.createBindSocket pTask r))
    (hc : w.createBindSocket pTask r = some w') : Owned w' := by
  obtain ⟨w₁, ho, rfl⟩ := Option.map_eq_some_iff.mp hc
  by_cases hneg : r.iSocket < 0
  · rw [if_pos hneg]
    rcases openFd_cases ho with ⟨-, rfl⟩ | ⟨hfd, -⟩
    · exact h
    · omega
  by_cases hbound : r.bound = true
  · rw [if_neg hneg, if_neg (not_not.mpr hbound)]
    have hset := h.openFd_setSocket hl (hempty (by omega) hbound) ho
    split
    · exact hset
    · exact hset.addToEpoll pTask
  · rw [if_neg hneg, if_pos hbound, close_openFd hr (by omega) ho]
    exact h

/-! ### Accepting -/

/-- The new task is registered with the descriptor that was accepted: `Init` does not connect. -/
theorem newTask_addToEpoll (h : Owned w) (hr : Registered w) {r : Accepted} (hfd : 0 < r.iSocket)
    (ho : w.openFd r.iSocket = some w') :
    Owned ((w'.newTask ⟨.longConTask r.iTimeOut, r.iSocket, some r.iSocket⟩).addToEpoll
      w'.tasks.next) := by
  rcases openFd_cases ho with ⟨heq, -⟩ | ⟨-, hclosed, rfl⟩
  · omega
  -- Nothing is registered with a descriptor that was not open, so `EPOLL_CTL_ADD` succeeds.
  have hnone := hr.epoll_of_closed hclosed
  have hs := socketOf_of_not_live (not_live_next w)
  rw [EventLoop.addToEpoll, socketOf_newTask_self, if_pos ⟨Function.update_self .., hnone⟩]
  refine h.acquire hs hclosed (holds_of_cell rfl |>.trans ?_) rfl rfl ?_ ?_
  · rw [Option.bind_some, LoopTask.held, if_neg (by show r.iSocket ≠ -1; omega)]
    rfl
  · intro p fd hp
    rw [acceptedOf_of_cell rfl, Function.update_apply] at hp
    split at hp
    · rename_i heq
      obtain rfl := Option.some.inj hp
      rw [heq]
      exact .inr (Function.update_self ..)
    · exact .inl hp
  · intro fd p he
    have hne : fd ≠ r.iSocket := by
      intro heq
      rw [heq, hnone] at he
      cases he
    exact (Function.update_of_ne hne ..).trans he

theorem acceptOne {w₁ : EventLoop} (h : Owned w) (hr : Registered w) {r : Accepted}
    (hfd : 0 < r.iSocket) (hneg : r.iTimeOut < 0) (ho : w.openFd r.iSocket = some w₁)
    (hc : w₁.acceptOne r = some w') : Owned w' := by
  obtain ⟨w₂, hi, rfl⟩ := Option.map_eq_some_iff.mp hc
  rw [longConInit_of_neg hneg] at hi
  cases hi
  exact (h.newTask_addToEpoll hr hfd ho).setInstance
    (((hr.openFd ho).newTask _).addToEpoll _) _

/-- All connections that one loop accepts, by induction on its turns. -/
theorem acceptLoop (h : Owned w) (hr : Registered w) {rs : List Accepted}
    (hok : ∀ r ∈ rs, r.iSocket ≠ 0 ∧ (0 < r.iSocket → r.iTimeOut < 0))
    (hc : w.acceptLoop rs = some w') : Owned w' := by
  induction rs generalizing w with
  | nil =>
    cases hc
    exact h
  | cons r rs ih =>
    obtain ⟨hzero, hneg⟩ := hok r List.mem_cons_self
    rcases acceptLoop_cases hc with ⟨w₁, ho, hfd, w₂, hone, hrest⟩ | ⟨ho, hfd⟩
    · have h₂ := h.acceptOne hr hfd (hneg hfd) ho hone
      rcases hrest with ⟨-, rfl⟩ | ⟨-, hrest⟩
      · exact h₂
      · refine ih h₂ (hr.acceptTurn ho hfd hone) (fun r' hr' => hok r' ?_) hrest
        exact List.mem_cons_of_mem r hr'
    · rcases openFd_cases ho with ⟨-, rfl⟩ | ⟨hfd', -⟩
      · exact h
      · omega

theorem runCall (h : Owned w) (hr : Registered w) {c : LoopCall}
    (hok : KeepsDescriptors w (.call c)) (hc : w.runCall c = some w') : Owned w' := by
  obtain ⟨hempty, hlisten⟩ := hok
  cases c with
  | newTask cls =>
    cases hc
    exact h.newTask cls
  | createListenSocket p r =>
    obtain ⟨hcls, hc⟩ := runCall_createListenSocket hc
    exact h.createListenSocket hr (live_of_classOf hcls) hempty (hlisten p r rfl) hc
  | createBindSocket p r =>
    obtain ⟨hcls, hc⟩ := runCall_createBindSocket hc
    exact h.createBindSocket hr (live_of_classOf hcls) hempty hc
  | init p socket =>
    rcases runCall_init hc with ⟨iTimeOut, hcls, hi⟩ | ⟨-, rfl⟩
    · exact h.longConInit (live_of_classOf hcls) (hempty iTimeOut hcls) hi
    · exact h.addToEpoll p
  | closeConnect p =>
    rw [(runCall_closeConnect hc).2]
    exact h.closeConnect hr p
  | destroySelf p =>
    rw [(runCall_destroySelf hc).2]
    exact h.destroySelf hr p
  | delete p =>
    rw [(runCall_delete hc).2]
    exact h.delete hr p

theorem dispatch (h : Owned w) (hr : Registered w) {e : Nat × Events}
    {rest : List (Nat × Events)} {o : Outcome}
    (hok : w.classOf e.1 = some .acceptTask → e.2.epollin = true →
      ∀ r ∈ o.accepts, r.iSocket ≠ 0 ∧ (0 < r.iSocket → r.iTimeOut < 0))
    (hc : EventLoop.handleProcess { w with batch := rest } e.1 e.2 o = some w') : Owned w' := by
  have hrest : Owned { w with batch := rest } := h.congr rfl rfl rfl rfl fun _ _ he => he
  have hreg : Registered { w with batch := rest } := ⟨hr.nonneg, hr.socket⟩
  rcases handleProcess_cases hc with ⟨hcls, hin, hl⟩ | ⟨-, -, rfl⟩ | ⟨-, -, rfl⟩ | ⟨-, rfl⟩
  · exact hrest.acceptLoop hreg (hok hcls hin) hl
  · exact hrest
  · rcases baseHandleProcess_cases { w with batch := rest } e.1 e.2 o with ⟨-, heq⟩ |
      ⟨-, heq | heq⟩
    · rw [heq]
      exact hrest.destroySelf hreg e.1
    · rw [heq]
      exact hrest.modifyFromEpoll hreg e.1
    · rw [heq]
      exact hrest
  · exact hrest.congr rfl rfl rfl rfl fun _ _ he => he

theorem step (h : Owned w) (hr : Registered w) {op : LoopOp} (hok : KeepsDescriptors w op)
    (hc : w.step op = some w') : Owned w' := by
  rcases step_cases hc with ⟨c, rfl, -, hcall⟩ | ⟨ready, rfl, -, -, -, rfl⟩ |
    ⟨o, e, rest, rfl, hbatch, hp⟩
  · exact h.runCall hr hok hcall
  · exact h.congr rfl rfl rfl rfl fun _ _ he => he
  · exact h.dispatch hr (hok e rest hbatch) hp

end Owned

/-! ## Runs -/

theorem owned_step (w : EventLoop) (op : LoopOp) (w' : EventLoop) (h : Registered w ∧ Owned w)
    (hstep : guard KeepsDescriptors (ofFn step) w op w') : Registered w' ∧ Owned w' := by
  refine ⟨h.1.step ?_ hstep.2, h.2.step h.1 hstep.1 hstep.2⟩
  intro c heq
  have hok := hstep.1
  rw [heq] at hok
  exact hok.1

/-- **If every step gives each descriptor to a task and no task a second one, then none is leaked
and none is closed twice, and accepted connections are registered.** -/
theorem descriptors_of_run {ops : List LoopOp}
    (h : Steps (guard KeepsDescriptors (ofFn step)) start ops w) : Descriptors w := by
  have hinv := Steps.invariant owned_step h ⟨registered_start, owned_start⟩
  exact hinv.2.descriptors hinv.1

/-- A listening task accepts a connection, which then fails to read and destroys itself. -/
def acceptAndFail : List LoopOp :=
  [.call (.newTask .acceptTask), .call (.createListenSocket 0 ⟨3, true, true⟩),
    .epollWait [(3, Events.readable)], .dispatch ⟨[⟨4, -1, -1⟩], 0, 0⟩,
    .epollWait [(4, Events.readable)], .dispatch ⟨[], -1, 0⟩]

theorem descriptors_of_run_acceptAndFail :
    ∃ w, w.opened 3 = true ∧ w.opened 4 = false ∧ w.tasks.freed = [1] ∧ Descriptors w := by
  have hrun : Steps (guard KeepsDescriptors (ofFn step)) start acceptAndFail _ :=
    .cons ⟨⟨trivial, by rintro p r h; cases h⟩, rfl⟩
      (.cons ⟨⟨fun _ _ _ => rfl, by rintro p r h; cases h; decide⟩, rfl⟩
      (.cons ⟨trivial, rfl⟩ (.cons ⟨by
        intro e rest _ _ _ r hr
        rw [List.mem_singleton.mp hr]
        decide, rfl⟩
      (.cons ⟨trivial, rfl⟩ (.single ⟨by
        intro e rest _ _ _ r hr
        exact absurd hr List.not_mem_nil, rfl⟩)))))
  exact ⟨_, rfl, rfl, rfl, descriptors_of_run hrun⟩

/-- `m_iTimeOut` happens to be 0: `Init` connects the accepted connection elsewhere. -/
theorem accepted_not_registered : ¬ ∀ ops w, Steps (ofFn step) start ops w → Descriptors w := by
  intro h
  have hrun : Steps (ofFn step) start
      [.call (.newTask .acceptTask), .call (.createListenSocket 0 ⟨3, true, true⟩),
        .epollWait [(3, Events.readable)], .dispatch ⟨[⟨4, 0, 6⟩], 0, 0⟩] _ :=
    .cons rfl (.cons rfl (.cons rfl (.single rfl)))
  obtain ⟨hsocket, -⟩ := (h _ _ hrun).registered 1 ⟨.longConTask 0, 6, some 4⟩ 4 rfl rfl
  exact absurd hsocket (by decide)

end EventLoop

end WebsocketTest
