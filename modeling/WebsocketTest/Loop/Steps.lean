import WebsocketTest.Loop.EventLoop

/-!
# What each operation of the loop can do

One lemma for each operation: what it changes, as an update of the state, or the ways it can go
(`_cases`). The arguments on top use these and look into no definition.

Three invariants are proved over the same steps: what the kernel knows (`Registered`), that no task
is used after it is gone (`Sound`), and who holds which descriptor (`Owned`). Each would have to
split the same branches of the same nine operations. They are split here, and a lemma says
everything its operation does, the guards included: which of them an invariant needs differs from
one to the next.

The operations that are built from others (`Init`, the set-ups, an accept) have no lemma of their
own where their definition is short enough to be read as one.
-/

set_option autoImplicit false

namespace WebsocketTest

open Lib

namespace EventLoop

variable {w w' : EventLoop} {pTask : Nat}

/-! ## `GetSocket`

There is a socket where there is a task that has one. Everything that is asked about a task's
descriptor goes through this, so that it need not be said each time that the task is live. -/

theorem live_of_socketOf (h : w.socketOf pTask ≠ -1) : w.Live pTask := by
  unfold socketOf at h
  unfold Live
  cases hc : w.tasks.cell pTask with
  | none => rw [hc] at h; exact absurd rfl h
  | some task => rfl

theorem socketOf_of_not_live (h : ¬ w.Live pTask) : w.socketOf pTask = -1 := by
  by_contra hne
  exact h (live_of_socketOf hne)

theorem live_of_classOf {cls : TaskClass} (h : w.classOf pTask = some cls) : w.Live pTask := by
  obtain ⟨task, hc, -⟩ := Option.map_eq_some_iff.mp h
  exact Option.isSome_of_eq_some hc

theorem not_live_of_classOf (h : w.classOf pTask = none) : ¬ w.Live pTask := by
  unfold Live
  rw [Option.map_eq_none_iff.mp h]
  exact Bool.false_ne_true

theorem not_live_next (w : EventLoop) : ¬ w.Live w.tasks.next := by
  unfold Live
  rw [Heap.cell_next]
  exact Bool.false_ne_true

theorem socketOf_congr (h : w'.tasks.cell pTask = w.tasks.cell pTask) :
    w'.socketOf pTask = w.socketOf pTask := by
  simp only [socketOf, h]

@[simp] theorem socketOf_newTask_self (task : LoopTask) :
    (w.newTask task).socketOf w.tasks.next = task.iSocket := by
  simp only [socketOf, newTask, Heap.cell_alloc_self]

theorem socketOf_newTask_of_ne {task : LoopTask} (h : pTask ≠ w.tasks.next) :
    (w.newTask task).socketOf pTask = w.socketOf pTask :=
  socketOf_congr (Heap.cell_alloc_of_ne h)

theorem socketOf_setSocket_of_ne {p : Nat} {iSocket : Int} (h : pTask ≠ p) :
    (w.setSocket p iSocket).socketOf pTask = w.socketOf pTask :=
  socketOf_congr (Heap.cell_modify_of_ne h)

/-! ## What the kernel calls change

The simp lemmas are about what stays: a `close` touches the descriptors and the table, and a call on
the table nothing else. -/

theorem openFd_cases {fd : Int} (h : w.openFd fd = some w') :
    (fd = -1 ∧ w' = w) ∨ (0 ≤ fd ∧ w.opened fd = false ∧
      w' = { w with opened := Function.update w.opened fd true }) := by
  unfold openFd at h
  split at h
  · rename_i hfd
    exact .inl ⟨hfd, (Option.some.inj h).symm⟩
  · split at h
    · rename_i hfd
      exact .inr ⟨hfd.1, hfd.2, (Option.some.inj h).symm⟩
    · cases h

theorem openFd_epoll {fd : Int} (h : w.openFd fd = some w') : w'.epoll = w.epoll := by
  rcases openFd_cases h with ⟨-, rfl⟩ | ⟨-, -, rfl⟩
  · rfl
  · rfl

theorem openFd_tasks {fd : Int} (h : w.openFd fd = some w') : w'.tasks = w.tasks := by
  rcases openFd_cases h with ⟨-, rfl⟩ | ⟨-, -, rfl⟩
  · rfl
  · rfl

/-- A descriptor that was open is closed, and unregistered. -/
theorem close_of_opened {fd : Int} (h : w.opened fd = true) :
    w.close fd = { w with
      opened := Function.update w.opened fd false
      epoll := Function.update w.epoll fd none } := by
  rw [close, if_pos h]

@[simp] theorem close_tasks (w : EventLoop) (fd : Int) : (w.close fd).tasks = w.tasks := by
  unfold close
  split <;> rfl

@[simp] theorem close_batch (w : EventLoop) (fd : Int) : (w.close fd).batch = w.batch := by
  unfold close
  split <;> rfl

@[simp] theorem close_pInstance (w : EventLoop) (fd : Int) :
    (w.close fd).pInstance = w.pInstance := by
  unfold close
  split <;> rfl

@[simp] theorem close_fault (w : EventLoop) (fd : Int) : (w.close fd).fault = w.fault := by
  unfold close
  split <;> rfl

@[simp] theorem socketOf_close (w : EventLoop) (fd : Int) :
    (w.close fd).socketOf pTask = w.socketOf pTask :=
  socketOf_congr (by rw [close_tasks])

theorem addToEpoll_cases (w : EventLoop) (pTask : Nat) :
    w.addToEpoll pTask = w ∨
      (w.opened (w.socketOf pTask) = true ∧ w.epoll (w.socketOf pTask) = none ∧
        w.addToEpoll pTask = { w with
          epoll := Function.update w.epoll (w.socketOf pTask) (some pTask) }) := by
  unfold addToEpoll
  split
  · rename_i h
    exact .inr ⟨h.1, h.2, rfl⟩
  · exact .inl rfl

@[simp] theorem destruct_tasks (w : EventLoop) (pTask : Nat) :
    (w.destruct pTask).tasks = w.tasks := by
  unfold destruct
  split
  · rfl
  · exact close_tasks ..

@[simp] theorem delFromEpoll_tasks (w : EventLoop) (p : Nat) :
    (w.delFromEpoll p).tasks = w.tasks := by
  unfold delFromEpoll
  split <;> rfl

@[simp] theorem socketOf_delFromEpoll (w : EventLoop) (p : Nat) :
    (w.delFromEpoll p).socketOf pTask = w.socketOf pTask :=
  socketOf_congr (by rw [delFromEpoll_tasks])

theorem closeConnect_eq (w : EventLoop) (pTask : Nat) :
    w.closeConnect pTask = if w.socketOf pTask = -1 then w else
      { (w.delFromEpoll pTask).close (w.socketOf pTask) with
        tasks := w.tasks.modify pTask fun task => ⟨task.cls, -1, none⟩ } := by
  simp only [closeConnect, socketOf_delFromEpoll, close_tasks]
  by_cases h : w.socketOf pTask = -1
  · rw [if_pos h, if_pos h, delFromEpoll, if_pos h]
  · rw [if_neg h, if_neg h, delFromEpoll, if_neg h]

/-- A task closes the open descriptor it holds. -/
theorem closeConnect_of_opened (hs : w.socketOf pTask ≠ -1)
    (ho : w.opened (w.socketOf pTask) = true) :
    w.closeConnect pTask = { w with
      tasks := w.tasks.modify pTask fun task => ⟨task.cls, -1, none⟩
      opened := Function.update w.opened (w.socketOf pTask) false
      epoll := Function.update (Function.update w.epoll (w.socketOf pTask) none)
        (w.socketOf pTask) none } := by
  rw [closeConnect_eq, if_neg hs, delFromEpoll, if_neg hs, close, if_pos ho]

/-- A task that is not there is not deleted; one that is there is gone, and nothing else is. -/
theorem delete_cases (w : EventLoop) (pTask : Nat) :
    (¬ w.Live pTask ∧ w.delete pTask = { w with fault := some (.delete pTask) }) ∨
      (w.Live pTask ∧ ∃ tasks, tasks.cell = Function.update w.tasks.cell pTask none ∧
        w.delete pTask = { w.destruct pTask with tasks := tasks }) := by
  unfold delete Live
  rw [destruct_tasks]
  rcases Heap.free_cases w.tasks pTask with ⟨hc, hf⟩ | ⟨hc, tasks, hf, hcell⟩
  · rw [hf, hc]
    exact .inl ⟨Bool.false_ne_true, rfl⟩
  · rw [hf]
    exact .inr ⟨hc, tasks, hcell, rfl⟩

theorem delete_batch (w : EventLoop) (pTask : Nat) : (w.delete pTask).batch = w.batch := by
  rcases delete_cases w pTask with ⟨-, heq⟩ | ⟨-, tasks, -, heq⟩
  · rw [heq]
  · rw [heq]
    unfold destruct
    split
    · rfl
    · exact close_batch ..

theorem setInstance_batch (w : EventLoop) (pTask : Nat) :
    (w.setInstance pTask).batch = w.batch := by
  unfold setInstance
  split
  · exact delete_batch ..
  · rfl

/-- A turn of the accept loop: it has a descriptor, and goes on or dies, or it is the last. -/
theorem acceptLoop_cases {r : Accepted} {rs : List Accepted}
    (h : w.acceptLoop (r :: rs) = some w') :
    (∃ w₁, w.openFd r.iSocket = some w₁ ∧ 0 < r.iSocket ∧ ∃ w₂, w₁.acceptOne r = some w₂ ∧
      ((w₂.fault.isSome ∧ w' = w₂) ∨ (w₂.fault = none ∧ w₂.acceptLoop rs = some w'))) ∨
    (w.openFd r.iSocket = some w' ∧ r.iSocket ≤ 0) := by
  unfold acceptLoop at h
  split at h
  · cases h
  rename_i w₁ ho
  split at h
  · rename_i hfd
    split at h
    · cases h
    rename_i w₂ hone
    refine .inl ⟨w₁, ho, hfd, w₂, hone, ?_⟩
    split at h
    · rename_i hf
      exact .inl ⟨hf, (Option.some.inj h).symm⟩
    · rename_i hf
      exact .inr ⟨Option.not_isSome_iff_eq_none.mp hf, h⟩
  · split at h
    · cases h
      exact .inr ⟨ho, by omega⟩
    · cases h

theorem baseHandleProcess_cases (w : EventLoop) (pTask : Nat) (events : Events) (o : Outcome) :
    (Destroys events o ∧ w.baseHandleProcess pTask events o = w.destroySelf pTask) ∨
    (¬ Destroys events o ∧ (w.baseHandleProcess pTask events o = w.modifyFromEpoll pTask ∨
      w.baseHandleProcess pTask events o = w)) := by
  by_cases hin : events.widen.epollin = true ∧ o.recvRet = -1
  · exact .inl ⟨.inl hin, if_pos hin⟩
  by_cases hout : events.widen.epollout = true
  · by_cases hret : o.sendRet = -1
    · refine .inl ⟨.inr ⟨hout, hret⟩, ?_⟩
      rw [baseHandleProcess, if_neg hin, if_pos hout, if_pos hret]
    · refine .inr ⟨fun hd => hd.elim hin fun hd => hret hd.2, ?_⟩
      rw [baseHandleProcess, if_neg hin, if_pos hout, if_neg hret]
      by_cases htwo : o.sendRet = 2
      · exact .inl (if_pos htwo)
      · exact .inr (if_neg htwo)
  · refine .inr ⟨fun hd => hd.elim hin fun hd => hout hd.1, .inr ?_⟩
    rw [baseHandleProcess, if_neg hin, if_neg hout]

theorem handleProcess_cases {events : Events} {o : Outcome}
    (h : w.handleProcess pTask events o = some w') :
    (w.classOf pTask = some .acceptTask ∧ events.epollin = true ∧
      w.acceptLoop o.accepts = some w') ∨
    (w.classOf pTask = some .acceptTask ∧ events.epollin = false ∧ w' = w) ∨
    (w.Live pTask ∧ w.classOf pTask ≠ some .acceptTask ∧
      w' = w.baseHandleProcess pTask events o) ∨
    (¬ w.Live pTask ∧ w' = { w with fault := some (.handleProcess pTask) }) := by
  unfold handleProcess at h
  split at h
  · rename_i hcls
    split at h
    · rename_i hin
      exact .inl ⟨hcls, hin, h⟩
    · rename_i hin
      exact .inr (.inl ⟨hcls, Bool.eq_false_iff.mpr hin, (Option.some.inj h).symm⟩)
  · rename_i cls hne hcls
    refine .inr (.inr (.inl ⟨live_of_classOf hcls, ?_, (Option.some.inj h).symm⟩))
    rw [hcls]
    exact fun heq => hne (Option.some.inj heq)
  · rename_i hcls
    exact .inr (.inr (.inr ⟨not_live_of_classOf hcls, (Option.some.inj h).symm⟩))

theorem longConInit_of_neg {iTimeOut socket : Int} (h : iTimeOut < 0) :
    w.longConInit pTask iTimeOut socket = some (w.addToEpoll pTask) := by
  rw [longConInit, connect, if_pos h, Option.map_some]

theorem runCall_createListenSocket {r : SetUp}
    (h : w.runCall (.createListenSocket pTask r) = some w') :
    w.classOf pTask = some .acceptTask ∧ w.createListenSocket pTask r = some w' :=
  Option.ite_none_right_eq_some.mp h

theorem runCall_createBindSocket {r : SetUp}
    (h : w.runCall (.createBindSocket pTask r) = some w') :
    w.classOf pTask = some .udpTask ∧ w.createBindSocket pTask r = some w' :=
  Option.ite_none_right_eq_some.mp h

theorem runCall_init {socket : Int} (h : w.runCall (.init pTask socket) = some w') :
    (∃ iTimeOut, w.classOf pTask = some (.longConTask iTimeOut) ∧
      w.longConInit pTask iTimeOut socket = some w') ∨
    (w.Live pTask ∧ w' = w.addToEpoll pTask) := by
  simp only [runCall] at h
  split at h
  · exact .inl ⟨_, ‹_›, h⟩
  · exact .inr ⟨live_of_classOf ‹_›, (Option.some.inj h).symm⟩
  · cases h

theorem runCall_closeConnect (h : w.runCall (.closeConnect pTask) = some w') :
    w.Live pTask ∧ w' = w.closeConnect pTask := by
  obtain ⟨hl, heq⟩ := Option.ite_none_right_eq_some.mp h
  exact ⟨hl, (Option.some.inj heq).symm⟩

theorem runCall_destroySelf (h : w.runCall (.destroySelf pTask) = some w') :
    w.Live pTask ∧ w' = w.destroySelf pTask := by
  obtain ⟨hl, heq⟩ := Option.ite_none_right_eq_some.mp h
  exact ⟨hl, (Option.some.inj heq).symm⟩

theorem runCall_delete (h : w.runCall (.delete pTask) = some w') :
    w.Live pTask ∧ w' = w.delete pTask := by
  obtain ⟨hl, heq⟩ := Option.ite_none_right_eq_some.mp h
  exact ⟨hl, (Option.some.inj heq).symm⟩

theorem step_cases {op : LoopOp} (h : w.step op = some w') :
    (∃ c, op = .call c ∧ w.batch = [] ∧ w.runCall c = some w') ∨
    (∃ ready : List (Int × Events), op = .epollWait ready ∧ w.batch = [] ∧
      (ready.map (·.1)).Nodup ∧ (∀ e ∈ ready, (w.epoll e.1).isSome) ∧
      w' = { w with
        batch := ready.filterMap fun e => (w.epoll e.1).map fun pTask => (pTask, e.2) }) ∨
    (∃ o e rest, op = .dispatch o ∧ w.batch = e :: rest ∧
      EventLoop.handleProcess { w with batch := rest } e.1 e.2 o = some w') := by
  unfold step at h
  split at h
  · cases h
  split at h
  · exact .inl ⟨_, rfl, ‹_›, h⟩
  · obtain ⟨⟨hnodup, hreg⟩, heq⟩ := Option.ite_none_right_eq_some.mp h
    exact .inr (.inl ⟨_, rfl, ‹_›, hnodup, hreg, (Option.some.inj heq).symm⟩)
  · exact .inr (.inr ⟨_, _, _, rfl, ‹_›, h⟩)
  · cases h

end EventLoop

end WebsocketTest
