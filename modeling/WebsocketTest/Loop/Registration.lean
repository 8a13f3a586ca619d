import Mathlib.Data.List.Nodup
import WebsocketTest.Loop.Steps

/-!
# What the kernel knows of the tasks

`Registered`: the open descriptors are no negative numbers, and every entry of the epoll table is
an open descriptor with the task whose `m_iSocket` it is. **`Registered.step`**: every step keeps
it, if a task that is given a descriptor has none. A descriptor overwritten without that stays in
the table with its task, and is reported for it after the task is gone.

The kernel hands the pointer of a task back as it was given it, and cannot know whether it is still
good. That it is good rests on two habits of the program: a task is registered under its own socket,
and its destructor closes that socket, which takes the entry out of the table. Both are about the
socket that the task has *now*. So the condition is on the calls that set one (`SetsUpEmpty`), and
of an accepted connection nothing has to be asked, since what `accept` returns was not open before
and cannot be in the table.

It is the first of the three invariants, because the other two use it: a batch is fetched from the
table, and what is closed is what the table says.
-/

set_option autoImplicit false

namespace WebsocketTest

open Lib

namespace EventLoop

variable {w w' : EventLoop} {pTask : Nat}

/-- The epoll table holds open descriptors only, each with the task whose socket it is. -/
structure Registered (w : EventLoop) : Prop where
  nonneg : ∀ fd, w.opened fd = true → 0 ≤ fd
  socket : ∀ fd pTask, w.epoll fd = some pTask → w.opened fd = true ∧ w.socketOf pTask = fd

theorem registered_start : Registered start := by
  refine ⟨?_, ?_⟩
  · intro fd h
    cases h
  · intro fd pTask h
    cases h

namespace Registered

theorem live (h : Registered w) {fd : Int} (he : w.epoll fd = some pTask) : w.Live pTask := by
  obtain ⟨ho, hs⟩ := h.socket fd pTask he
  refine live_of_socketOf ?_
  have := h.nonneg fd ho
  omega

/-- Different descriptors belong to different tasks. -/
theorem nodup_tasks (h : Registered w) {fds : List Int} (hnodup : fds.Nodup) :
    (fds.filterMap w.epoll).Nodup := by
  refine List.Nodup.filterMap ?_ hnodup
  intro fd fd' p hp hp'
  rw [← (h.socket fd p hp).2, (h.socket fd' p hp').2]

/-- A task that has no socket is not in the table, since it would be there under its socket. -/
theorem unregistered (h : Registered w) (hs : w.socketOf pTask = -1) (fd : Int) :
    w.epoll fd ≠ some pTask := by
  intro he
  obtain ⟨ho, hfd⟩ := h.socket fd pTask he
  have := h.nonneg fd ho
  omega

/-- A task whose own descriptor is not in the table is not there under another. -/
theorem unregistered_of_none (h : Registered w) (hs : w.epoll (w.socketOf pTask) = none)
    (fd : Int) : w.epoll fd ≠ some pTask := by
  intro he
  rw [(h.socket fd pTask he).2, he] at hs
  cases hs

theorem epoll_of_closed (h : Registered w) {fd : Int} (hc : w.opened fd = false) :
    w.epoll fd = none := by
  cases he : w.epoll fd with
  | none => rfl
  | some pTask =>
    rw [(h.socket fd pTask he).1] at hc
    cases hc

/-- What happens to the members of a task that is not in the table does not matter to it. -/
theorem of_unregistered (h : Registered w) {p : Nat} (hun : ∀ fd, w.epoll fd ≠ some p)
    (ho : w'.opened = w.opened) (he : w'.epoll = w.epoll)
    (hs : ∀ pTask, pTask ≠ p → w'.socketOf pTask = w.socketOf pTask) : Registered w' := by
  refine ⟨by rw [ho]; exact h.nonneg, ?_⟩
  intro fd pTask hreg
  rw [he] at hreg
  have hne : pTask ≠ p := fun heq => hun fd (heq ▸ hreg)
  rw [ho, hs pTask hne]
  exact h.socket fd pTask hreg

theorem newTask (h : Registered w) (task : LoopTask) : Registered (w.newTask task) :=
  h.of_unregistered (h.unregistered (socketOf_of_not_live (not_live_next w))) rfl rfl
    fun _ => socketOf_newTask_of_ne

theorem setSocket (h : Registered w) (hun : ∀ fd, w.epoll fd ≠ some pTask) (iSocket : Int) :
    Registered (w.setSocket pTask iSocket) :=
  h.of_unregistered hun rfl rfl fun _ => socketOf_setSocket_of_ne

theorem openFd (h : Registered w) {fd : Int} (ho : w.openFd fd = some w') : Registered w' := by
  rcases openFd_cases ho with ⟨-, rfl⟩ | ⟨hfd, hc, rfl⟩
  · exact h
  · refine ⟨?_, ?_⟩
    · intro fd' hfd'
      by_cases heq : fd' = fd
      · rw [heq]
        exact hfd
      · exact h.nonneg fd' ((Function.update_of_ne heq ..).symm.trans hfd')
    · intro fd' pTask he
      obtain ⟨ho', hs⟩ := h.socket fd' pTask he
      have hne : fd' ≠ fd := by
        intro heq
        rw [heq, hc] at ho'
        cases ho'
      exact ⟨(Function.update_of_ne hne ..).trans ho', hs⟩

theorem close (h : Registered w) (fd : Int) : Registered (w.close fd) := by
  unfold EventLoop.close
  split
  · refine ⟨?_, ?_⟩
    · intro fd' hfd'
      by_cases heq : fd' = fd
      · rw [heq] at hfd'
        exact absurd ((Function.update_self ..).symm.trans hfd') Bool.false_ne_true
      · exact h.nonneg fd' ((Function.update_of_ne heq ..).symm.trans hfd')
    · intro fd' pTask he
      by_cases heq : fd' = fd
      · rw [heq] at he
        exact absurd ((Function.update_self ..).symm.trans he) (by simp)
      · obtain ⟨ho, hs⟩ := h.socket fd' pTask ((Function.update_of_ne heq ..).symm.trans he)
        exact ⟨(Function.update_of_ne heq ..).trans ho, hs⟩
  · exact ⟨h.nonneg, h.socket⟩

/-- Registering a task under its own open descriptor. -/
theorem update_epoll (h : Registered w) (ho : w.opened (w.socketOf pTask) = true) :
    Registered { w with epoll := Function.update w.epoll (w.socketOf pTask) (some pTask) } := by
  refine ⟨h.nonneg, ?_⟩
  intro fd p he
  by_cases heq : fd = w.socketOf pTask
  · rw [heq] at he
    have hp := Option.some.inj
      ((Function.update_self (w.socketOf pTask) (some pTask) w.epoll).symm.trans he)
    rw [heq, ← hp]
    exact ⟨ho, rfl⟩
  · exact h.socket fd p ((Function.update_of_ne heq ..).symm.trans he)

theorem addToEpoll (h : Registered w) (pTask : Nat) : Registered (w.addToEpoll pTask) := by
  rcases addToEpoll_cases w pTask with heq | ⟨ho, -, heq⟩
  · rw [heq]
    exact h
  · rw [heq]
    exact h.update_epoll ho

theorem modifyFromEpoll (h : Registered w) (pTask : Nat) :
    Registered (w.modifyFromEpoll pTask) := by
  unfold EventLoop.modifyFromEpoll
  split
  · rename_i hsome
    obtain ⟨p, hp⟩ := Option.isSome_iff_exists.mp hsome
    exact h.update_epoll (h.socket _ p hp).1
  · exact h

theorem delFromEpoll (h : Registered w) (pTask : Nat) : Registered (w.delFromEpoll pTask) := by
  unfold EventLoop.delFromEpoll
  split
  · exact h
  · refine ⟨h.nonneg, ?_⟩
    intro fd p he
    by_cases heq : fd = w.socketOf pTask
    · rw [heq] at he
      exact absurd ((Function.update_self ..).symm.trans he) (by simp)
    · exact h.socket fd p ((Function.update_of_ne heq ..).symm.trans he)

/-- After its descriptor is closed a task is not in the table. -/
theorem unregistered_close (h : Registered w) (pTask : Nat) (fd : Int) :
    (w.close (w.socketOf pTask)).epoll fd ≠ some pTask := by
  refine (h.close _).unregistered_of_none ?_ fd
  rw [socketOf_close]
  unfold EventLoop.close
  split
  · exact Function.update_self ..
  · rename_i hc
    exact h.epoll_of_closed (Bool.eq_false_iff.mpr hc)

theorem closeConnect (h : Registered w) (pTask : Nat) : Registered (w.closeConnect pTask) := by
  rw [closeConnect_eq]
  split
  · exact h
  · have hd := h.delFromEpoll pTask
    refine (hd.close _).of_unregistered (p := pTask) ?_ rfl rfl fun p hp => socketOf_congr ?_
    · have hun := hd.unregistered_close pTask
      rwa [socketOf_delFromEpoll] at hun
    · rw [close_tasks, delFromEpoll_tasks]
      exact Heap.cell_modify_of_ne hp

theorem destruct (h : Registered w) (pTask : Nat) : Registered (w.destruct pTask) := by
  unfold EventLoop.destruct
  split
  · exact h
  · exact h.close _

theorem unregistered_destruct (h : Registered w) (pTask : Nat) (fd : Int) :
    (w.destruct pTask).epoll fd ≠ some pTask := by
  unfold EventLoop.destruct
  split
  · exact h.unregistered ‹_› fd
  · exact h.unregistered_close pTask fd

theorem delete (h : Registered w) (pTask : Nat) : Registered (w.delete pTask) := by
  rcases delete_cases w pTask with ⟨-, heq⟩ | ⟨-, tasks, hcell, heq⟩
  · rw [heq]
    exact ⟨h.nonneg, h.socket⟩
  · rw [heq]
    refine (h.destruct pTask).of_unregistered (h.unregistered_destruct pTask) rfl rfl
      fun p hp => socketOf_congr ?_
    rw [show ({ w.destruct pTask with tasks := tasks } : EventLoop).tasks = tasks from rfl, hcell,
      Function.update_of_ne hp, destruct_tasks]

theorem destroySelf (h : Registered w) (pTask : Nat) : Registered (w.destroySelf pTask) :=
  (h.closeConnect pTask).delete pTask

theorem setInstance (h : Registered w) (pTask : Nat) : Registered (w.setInstance pTask) := by
  unfold EventLoop.setInstance
  split
  · have hd := h.delete ‹_›
    exact ⟨hd.nonneg, hd.socket⟩
  · exact ⟨h.nonneg, h.socket⟩

/-! ### Functions that set a socket

These are the ones that need their task to be out of the table. A `connect` in `Init` registers the
task again, under the new socket. -/

theorem connect (h : Registered w) (hun : ∀ fd, w.epoll fd ≠ some pTask) {nTimeOut socket : Int}
    (hc : w.connect pTask nTimeOut socket = some w') : Registered w' := by
  unfold EventLoop.connect at hc
  split at hc
  · cases hc
    exact h
  · obtain ⟨w₁, ho, rfl⟩ := Option.map_eq_some_iff.mp hc
    refine (h.openFd ho).setSocket ?_ socket
    rw [openFd_epoll ho]
    exact hun

theorem longConInit (h : Registered w) (hun : ∀ fd, w.epoll fd ≠ some pTask)
    {iTimeOut socket : Int} (hc : w.longConInit pTask iTimeOut socket = some w') :
    Registered w' := by
  obtain ⟨w₁, ho, rfl⟩ := Option.map_eq_some_iff.mp hc
  exact (h.connect hun ho).addToEpoll pTask

theorem createListenSocket (h : Registered w) {r : SetUp}
    (hempty : SetsUpEmpty w (.createListenSocket pTask r))
    (hc : w.createListenSocket pTask r = some w') : Registered w' := by
  obtain ⟨w₁, ho, rfl⟩ := Option.map_eq_some_iff.mp hc
  have h₁ := h.openFd ho
  split
  · exact h₁
  split
  · exact h₁.close _
  split
  · exact h₁
  split
  · exact h₁
  · rename_i hfd hbound hlisten hzero
    have hs := hempty (by omega) (not_not.mp hbound) (not_not.mp hlisten)
    refine (h₁.setSocket ?_ _).addToEpoll pTask
    rw [openFd_epoll ho]
    exact h.unregistered hs

theorem createBindSocket (h : Registered w) {r : SetUp}
    (hempty : SetsUpEmpty w (.createBindSocket pTask r))
    (hc : w.createBindSocket pTask r = some w') : Registered w' := by
  obtain ⟨w₁, ho, rfl⟩ := Option.map_eq_some_iff.mp hc
  have h₁ := h.openFd ho
  split
  · exact h₁
  split
  · exact h₁.close _
  rename_i hfd hbound
  have hset : Registered (w₁.setSocket pTask r.iSocket) := by
    refine h₁.setSocket ?_ _
    rw [openFd_epoll ho]
    exact h.unregistered (hempty (by omega) (not_not.mp hbound))
  split
  · exact hset
  · exact hset.addToEpoll pTask

/-- The new connection's descriptor is not in the table yet, so that it does not matter here
    whether `Init` replaces it. -/
theorem acceptOne (h : Registered w) {r : Accepted} (hr : w.epoll r.iSocket = none)
    (hc : w.acceptOne r = some w') : Registered w' := by
  obtain ⟨w₁, hi, rfl⟩ := Option.map_eq_some_iff.mp hc
  have hn := h.newTask ⟨.longConTask r.iTimeOut, r.iSocket, some r.iSocket⟩
  refine (hn.longConInit (hn.unregistered_of_none ?_) hi).setInstance _
  rw [socketOf_newTask_self]
  exact hr

/-- What `accept` returns was not open, so it is not in the table. -/
theorem acceptTurn {w₁ : EventLoop} (h : Registered w) {r : Accepted}
    (ho : w.openFd r.iSocket = some w₁) (hfd : 0 < r.iSocket)
    (hone : w₁.acceptOne r = some w') : Registered w' := by
  refine (h.openFd ho).acceptOne ?_ hone
  rcases openFd_cases ho with ⟨heq, -⟩ | ⟨-, hclosed, -⟩
  · omega
  · rw [openFd_epoll ho]
    exact h.epoll_of_closed hclosed

/-- All connections that one loop accepts, by induction on its turns. -/
theorem acceptLoop (h : Registered w) {rs : List Accepted} (hc : w.acceptLoop rs = some w') :
    Registered w' := by
  induction rs generalizing w with
  | nil =>
    cases hc
    exact h
  | cons r rs ih =>
    rcases acceptLoop_cases hc with ⟨w₁, ho, hfd, w₂, hone, hrest⟩ | ⟨ho, -⟩
    · have h₂ := h.acceptTurn ho hfd hone
      rcases hrest with ⟨-, rfl⟩ | ⟨-, hrest⟩
      · exact h₂
      · exact ih h₂ hrest
    · exact h.openFd ho

theorem baseHandleProcess (h : Registered w) (events : Events) (o : Outcome) :
    Registered (w.baseHandleProcess pTask events o) := by
  rcases baseHandleProcess_cases w pTask events o with ⟨-, heq⟩ | ⟨-, heq | heq⟩
  · rw [heq]
    exact h.destroySelf pTask
  · rw [heq]
    exact h.modifyFromEpoll pTask
  · rw [heq]
    exact h

theorem handleProcess (h : Registered w) {events : Events} {o : Outcome}
    (hc : w.handleProcess pTask events o = some w') : Registered w' := by
  rcases handleProcess_cases hc with ⟨-, -, hl⟩ | ⟨-, -, rfl⟩ | ⟨-, -, rfl⟩ | ⟨-, rfl⟩
  · exact h.acceptLoop hl
  · exact h
  · exact h.baseHandleProcess events o
  · exact ⟨h.nonneg, h.socket⟩

theorem runCall (h : Registered w) {c : LoopCall} (hempty : SetsUpEmpty w c)
    (hc : w.runCall c = some w') : Registered w' := by
  cases c with
  | newTask cls =>
    cases hc
    exact h.newTask _
  | createListenSocket p r => exact h.createListenSocket hempty (runCall_createListenSocket hc).2
  | createBindSocket p r => exact h.createBindSocket hempty (runCall_createBindSocket hc).2
  | init p socket =>
    rcases runCall_init hc with ⟨iTimeOut, hcls, hi⟩ | ⟨-, rfl⟩
    · rcases Int.lt_or_le iTimeOut 0 with hneg | hpos
      · rw [longConInit_of_neg hneg] at hi
        cases hi
        exact h.addToEpoll p
      · exact h.longConInit (h.unregistered (hempty iTimeOut hcls hpos)) hi
    · exact h.addToEpoll p
  | closeConnect p =>
    rw [(runCall_closeConnect hc).2]
    exact h.closeConnect p
  | destroySelf p =>
    rw [(runCall_destroySelf hc).2]
    exact h.destroySelf p
  | delete p =>
    rw [(runCall_delete hc).2]
    exact h.delete p

/-- **Every step keeps the table**, if descriptors are only given to tasks without one. -/
theorem step (h : Registered w) {op : LoopOp} (hempty : ∀ c, op = .call c → SetsUpEmpty w c)
    (hc : w.step op = some w') : Registered w' := by
  rcases step_cases hc with ⟨c, rfl, -, hcall⟩ | ⟨ready, -, -, -, -, rfl⟩ | ⟨o, e, rest, -, -, hp⟩
  · exact h.runCall (hempty c rfl) hcall
  · exact ⟨h.nonneg, h.socket⟩
  · have hrest : Registered { w with batch := rest } := ⟨h.nonneg, h.socket⟩
    exact hrest.handleProcess hp

end Registered

end EventLoop

end WebsocketTest
