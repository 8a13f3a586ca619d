import WebsocketTest.Loop.Registration

/-!
# No task is used after it is gone

A task has two owners. A connection destroys itself when reading or writing fails, and
`SetInstance` deletes the connection before when the next one is accepted; neither tells the other,
or the batch that `EpollWait` is working through.

**`safe_of_run`**: a run is safe if no step of it deletes a task the other owner still points to,
which is what `KeepsInstance` says of a step. `instance_in_batch_called` is a run that is not:
the connection accepted first and the listening socket are ready at once, and the listening socket
comes first.

The argument needs two facts about a batch, that its tasks are live and all different. Both come
from the table (`Registered`) when the batch is fetched, and are lost again only through a
deletion.

## Which deletions there are

An entry of the batch that is dispatched may delete its own task, which is in no later entry,
because the tasks are different. It may delete the connection before, in `SetInstance`, which may
well be in a later entry: nothing looks. And between two batches a task may be deleted through a
pointer that somebody kept. The condition on a step excludes exactly what goes wrong: that the
singleton's connection is deleted by anybody but `SetInstance`, which leaves `GetInstance` dangling,
and that `SetInstance` deletes one that is further down in the batch.

The result is one direction. A run with a step that breaks the condition need not end badly, for the
pointer that dangles may never be used; that it can is what the run at the end shows.
-/

set_option autoImplicit false

namespace WebsocketTest

open Lib Lib.Run

namespace EventLoop

variable {w w' : EventLoop} {pTask : Nat}

/-- `HandleProcess` is called on tasks that were not destroyed, no task is destroyed twice, and
    `GetInstance` is `NULL` or a task that was not destroyed. -/
structure Safe (w : EventLoop) : Prop where
  handled : ∀ pTask, w.fault ≠ some (.handleProcess pTask)
  deleted : ∀ pTask, w.fault ≠ some (.delete pTask)
  getInstance : ∀ pTask, w.pInstance = some pTask → w.Live pTask ∧ pTask ∉ w.tasks.freed

/-- The listening task accepts at least one connection. -/
def Accepts (w : EventLoop) (e : Nat × Events) (o : Outcome) : Prop :=
  w.classOf e.1 = some .acceptTask ∧ e.2.epollin = true ∧
    ∃ r rs, o.accepts = r :: rs ∧ 0 < r.iSocket

/-- The step does not destroy the singleton's connection, other than in `SetInstance`, and does not
    accept while that connection is further down in the batch. -/
def KeepsInstance (w : EventLoop) : LoopOp → Prop
  | .call c => SetsUpEmpty w c ∧
      ∀ pTask, c = .destroySelf pTask ∨ c = .delete pTask → w.pInstance ≠ some pTask
  | .epollWait _ => True
  | .dispatch o => ∀ e rest, w.batch = e :: rest →
      (Accepts w e o → ∀ old, w.pInstance = some old → old ∉ rest.map (·.1)) ∧
      (w.pInstance = some e.1 → ¬ Destroys e.2 o)

/-! ## What operations leave alone

`Keeps` is a relation between two states and composes, so that an operation that is a sequence of
others is done when its parts are. Only `delete` has a task in the place of `gone`. -/

/-- No task is gone but `gone`, and the loop's own variables are as they were. -/
structure Keeps (gone : Option Nat) (w w' : EventLoop) : Prop where
  fault : w'.fault = w.fault
  pInstance : w'.pInstance = w.pInstance
  batch : w'.batch = w.batch
  live : ∀ p, gone ≠ some p → w.Live p → w'.Live p

namespace Keeps

theorem refl (w : EventLoop) : Keeps none w w := ⟨rfl, rfl, rfl, fun _ _ h => h⟩

theorem trans {gone : Option Nat} {w₁ w₂ w₃ : EventLoop} (h₁ : Keeps none w₁ w₂)
    (h₂ : Keeps gone w₂ w₃) : Keeps gone w₁ w₃ where
  fault := h₂.fault.trans h₁.fault
  pInstance := h₂.pInstance.trans h₁.pInstance
  batch := h₂.batch.trans h₁.batch
  live p hp hl := h₂.live p hp (h₁.live p (nofun) hl)

theorem openFd {fd : Int} (h : w.openFd fd = some w') : Keeps none w w' := by
  rcases openFd_cases h with ⟨-, rfl⟩ | ⟨-, -, rfl⟩
  · exact refl _
  · exact ⟨rfl, rfl, rfl, fun _ _ h => h⟩

theorem close (w : EventLoop) (fd : Int) : Keeps none w (w.close fd) := by
  refine ⟨by simp, by simp, by simp, ?_⟩
  intro p _ hl
  unfold Live
  rwa [close_tasks]

theorem addToEpoll (w : EventLoop) (pTask : Nat) : Keeps none w (w.addToEpoll pTask) := by
  rcases addToEpoll_cases w pTask with heq | ⟨-, -, heq⟩
  · rw [heq]
    exact refl _
  · rw [heq]
    exact ⟨rfl, rfl, rfl, fun _ _ h => h⟩

theorem modifyFromEpoll (w : EventLoop) (pTask : Nat) :
    Keeps none w (w.modifyFromEpoll pTask) := by
  unfold EventLoop.modifyFromEpoll
  split
  · exact ⟨rfl, rfl, rfl, fun _ _ h => h⟩
  · exact refl _

theorem newTask (w : EventLoop) (task : LoopTask) : Keeps none w (w.newTask task) := by
  refine ⟨rfl, rfl, rfl, ?_⟩
  intro p _ hl
  unfold Live EventLoop.newTask
  rw [Heap.cell_alloc_of_isSome hl]
  exact hl

theorem modify (w : EventLoop) (p : Nat) (f : LoopTask → LoopTask) :
    Keeps none w { w with tasks := w.tasks.modify p f } :=
  ⟨rfl, rfl, rfl, fun _ _ hl => Heap.isSome_modify.trans hl⟩

theorem setSocket (w : EventLoop) (pTask : Nat) (iSocket : Int) :
    Keeps none w (w.setSocket pTask iSocket) := modify w pTask _

theorem delFromEpoll (w : EventLoop) (pTask : Nat) : Keeps none w (w.delFromEpoll pTask) := by
  unfold EventLoop.delFromEpoll
  split
  · exact refl _
  · exact ⟨rfl, rfl, rfl, fun _ _ h => h⟩

theorem closeConnect (w : EventLoop) (pTask : Nat) : Keeps none w (w.closeConnect pTask) := by
  unfold EventLoop.closeConnect
  have hd := delFromEpoll w pTask
  by_cases hs : (w.delFromEpoll pTask).socketOf pTask = -1
  · simpa only [if_pos hs] using hd
  · simp only [if_neg hs]
    exact hd.trans ((close _ _).trans (modify _ pTask _))

theorem destruct (w : EventLoop) (pTask : Nat) : Keeps none w (w.destruct pTask) := by
  unfold EventLoop.destruct
  split
  · exact refl w
  · exact close w _

/-- A live task can be deleted, and is the only one gone. -/
theorem delete (hl : w.Live pTask) : Keeps (some pTask) w (w.delete pTask) := by
  rcases delete_cases w pTask with ⟨hdead, -⟩ | ⟨-, tasks, hcell, heq⟩
  · exact absurd hl hdead
  · rw [heq]
    have hd := destruct w pTask
    refine ⟨hd.fault, hd.pInstance, hd.batch, ?_⟩
    intro p hp hlp
    unfold Live
    rw [show ({ w.destruct pTask with tasks := tasks } : EventLoop).tasks = tasks from rfl, hcell,
      Function.update_of_ne fun h => hp (congrArg some h.symm)]
    exact hlp

theorem destroySelf (hl : w.Live pTask) : Keeps (some pTask) w (w.destroySelf pTask) :=
  have hc := closeConnect w pTask
  hc.trans (delete (hc.live pTask (nofun) hl))

theorem connect {nTimeOut socket : Int} (h : w.connect pTask nTimeOut socket = some w') :
    Keeps none w w' := by
  unfold EventLoop.connect at h
  split at h
  · cases h
    exact refl w
  · obtain ⟨w₁, ho, rfl⟩ := Option.map_eq_some_iff.mp h
    exact (openFd ho).trans (setSocket w₁ pTask socket)

theorem longConInit {iTimeOut socket : Int} (h : w.longConInit pTask iTimeOut socket = some w') :
    Keeps none w w' := by
  obtain ⟨w₁, hc, rfl⟩ := Option.map_eq_some_iff.mp h
  exact (connect hc).trans (addToEpoll w₁ pTask)

theorem createListenSocket {r : SetUp} (h : w.createListenSocket pTask r = some w') :
    Keeps none w w' := by
  obtain ⟨w₁, ho, rfl⟩ := Option.map_eq_some_iff.mp h
  refine (openFd ho).trans ?_
  split
  · exact refl w₁
  split
  · exact close w₁ _
  split
  · exact refl w₁
  split
  · exact refl w₁
  · exact (setSocket w₁ pTask _).trans (addToEpoll _ pTask)

theorem createBindSocket {r : SetUp} (h : w.createBindSocket pTask r = some w') :
    Keeps none w w' := by
  obtain ⟨w₁, ho, rfl⟩ := Option.map_eq_some_iff.mp h
  refine (openFd ho).trans ?_
  split
  · exact refl w₁
  split
  · exact close w₁ _
  split
  · exact setSocket w₁ pTask _
  · exact (setSocket w₁ pTask _).trans (addToEpoll _ pTask)

end Keeps

/-! ## The invariant

It is about the rest of the batch that is being worked through, which is empty between two calls of
`EpollWait`. -/

/-- Nothing went wrong, the singleton's task is live, and those of the batch are live and differ. -/
structure Sound (w : EventLoop) : Prop where
  fault : w.fault = none
  getInstance : ∀ pTask, w.pInstance = some pTask → w.Live pTask
  batch_live : ∀ e ∈ w.batch, w.Live e.1
  batch_nodup : (w.batch.map (·.1)).Nodup

theorem sound_start : Sound start where
  fault := rfl
  getInstance _ h := by cases h
  batch_live _ h := absurd h List.not_mem_nil
  batch_nodup := List.nodup_nil

namespace Sound

theorem safe (h : Sound w) : Safe w where
  handled pTask hf := by rw [h.fault] at hf; cases hf
  deleted pTask hf := by rw [h.fault] at hf; cases hf
  getInstance pTask hi := by
    refine ⟨h.getInstance pTask hi, ?_⟩
    intro hfreed
    have hl : (w.tasks.cell pTask).isSome := h.getInstance pTask hi
    rw [w.tasks.dead pTask hfreed] at hl
    cases hl

/-- The invariant does not look further than `Keeps`. -/
theorem of_keeps {gone : Option Nat} (h : Sound w) (hk : Keeps gone w w')
    (hi : ∀ p, gone = some p → w.pInstance ≠ some p)
    (hb : ∀ p, gone = some p → p ∉ w.batch.map (·.1)) : Sound w' where
  fault := hk.fault.trans h.fault
  getInstance p hp := by
    rw [hk.pInstance] at hp
    exact hk.live p (fun hgone => hi p hgone hp) (h.getInstance p hp)
  batch_live e he := by
    rw [hk.batch] at he
    exact hk.live e.1 (fun hgone => hb e.1 hgone (List.mem_map_of_mem he)) (h.batch_live e he)
  batch_nodup := by
    rw [hk.batch]
    exact h.batch_nodup

theorem keeps (h : Sound w) (hk : Keeps none w w') : Sound w' :=
  h.of_keeps hk (fun _ hp => nomatch hp) (fun _ hp => nomatch hp)

/-- The connection before goes, unless the batch still has it. -/
theorem setInstance (h : Sound w) (hl : w.Live pTask) (hne : w.pInstance ≠ some pTask)
    (hb : ∀ old, w.pInstance = some old → old ∉ w.batch.map (·.1)) :
    Sound (w.setInstance pTask) := by
  unfold EventLoop.setInstance
  cases hi : w.pInstance with
  | none =>
    exact ⟨h.fault, fun p hp => Option.some.inj hp ▸ hl, h.batch_live, h.batch_nodup⟩
  | some old =>
    have hk := Keeps.delete (h.getInstance old hi)
    -- The old task is none of those the invariant speaks of afterwards.
    have hold : old ≠ pTask := fun heq => hne (heq ▸ hi)
    refine ⟨hk.fault.trans h.fault, ?_, ?_, ?_⟩
    · intro p hp
      obtain rfl := Option.some.inj hp
      exact hk.live _ (fun heq => hold (Option.some.inj heq)) hl
    · intro e he
      have he : e ∈ w.batch := hk.batch ▸ he
      refine hk.live e.1 (fun heq => hb old hi ?_) (h.batch_live e he)
      rw [Option.some.inj heq]
      exact List.mem_map_of_mem he
    · exact (congrArg (fun b : List (Nat × Events) => (b.map (·.1)).Nodup) hk.batch).mpr
        h.batch_nodup

/-- A new connection is in no batch that was fetched before it. -/
theorem acceptOne (h : Sound w) {r : Accepted}
    (hb : ∀ old, w.pInstance = some old → old ∉ w.batch.map (·.1))
    (hc : w.acceptOne r = some w') :
    Sound w' ∧ ∀ new, w'.pInstance = some new → new ∉ w'.batch.map (·.1) := by
  obtain ⟨w₁, hi, rfl⟩ := Option.map_eq_some_iff.mp hc
  have hn := Keeps.newTask w ⟨.longConTask r.iTimeOut, r.iSocket, some r.iSocket⟩
  have hk := hn.trans (Keeps.longConInit hi)
  have hl : w₁.Live w.tasks.next := by
    refine (Keeps.longConInit hi).live _ (nofun) ?_
    unfold Live EventLoop.newTask
    rw [Heap.cell_alloc_self]
    rfl
  -- Everything in the batch is older than the task.
  have hfresh : w.tasks.next ∉ w.batch.map (·.1) := by
    intro hmem
    obtain ⟨e, he, heq⟩ := List.mem_map.mp hmem
    exact not_live_next w (heq ▸ h.batch_live e he)
  have hne : w₁.pInstance ≠ some w.tasks.next := fun heq =>
    not_live_next w (h.getInstance _ (hk.pInstance.symm.trans heq))
  refine ⟨(h.keeps hk).setInstance hl hne ?_, ?_⟩
  · rw [hk.pInstance, hk.batch]
    exact hb
  · intro new hnew
    obtain rfl := Option.some.inj hnew
    rw [setInstance_batch, hk.batch]
    exact hfresh

/-- All connections that one loop accepts, by induction on its turns; after the first one the
    singleton's task is in no batch. -/
theorem acceptLoop (h : Sound w) {rs : List Accepted}
    (hb : ∀ r rs', rs = r :: rs' → 0 < r.iSocket →
      ∀ old, w.pInstance = some old → old ∉ w.batch.map (·.1))
    (hc : w.acceptLoop rs = some w') : Sound w' := by
  induction rs generalizing w with
  | nil =>
    cases hc
    exact h
  | cons r rs ih =>
    rcases acceptLoop_cases hc with ⟨w₁, ho, hfd, w₂, hone, hrest⟩ | ⟨ho, -⟩
    · have hk := Keeps.openFd ho
      have hb₁ : ∀ old, w₁.pInstance = some old → old ∉ w₁.batch.map (·.1) := by
        rw [hk.pInstance, hk.batch]
        exact hb r rs rfl hfd
      obtain ⟨h₂, hnew⟩ := (h.keeps hk).acceptOne hb₁ hone
      rcases hrest with ⟨-, rfl⟩ | ⟨-, hrest⟩
      · exact h₂
      · exact ih h₂ (fun _ _ _ _ => hnew) hrest
    · exact h.keeps (Keeps.openFd ho)

theorem runCall (h : Sound w) (hbatch : w.batch = []) {c : LoopCall}
    (hi : ∀ p, c = .destroySelf p ∨ c = .delete p → w.pInstance ≠ some p)
    (hc : w.runCall c = some w') : Sound w' := by
  have hb : ∀ p, p ∉ w.batch.map (·.1) := by
    rw [hbatch]
    exact fun _ => List.not_mem_nil
  cases c with
  | newTask cls =>
    cases hc
    exact h.keeps (Keeps.newTask w _)
  | createListenSocket p r =>
    exact h.keeps (Keeps.createListenSocket (runCall_createListenSocket hc).2)
  | createBindSocket p r =>
    exact h.keeps (Keeps.createBindSocket (runCall_createBindSocket hc).2)
  | init p socket =>
    rcases runCall_init hc with ⟨iTimeOut, -, hinit⟩ | ⟨-, rfl⟩
    · exact h.keeps (Keeps.longConInit hinit)
    · exact h.keeps (Keeps.addToEpoll w p)
  | closeConnect p =>
    rw [(runCall_closeConnect hc).2]
    exact h.keeps (Keeps.closeConnect w p)
  | destroySelf p =>
    obtain ⟨hl, rfl⟩ := runCall_destroySelf hc
    refine h.of_keeps (Keeps.destroySelf hl) ?_ fun q _ => hb q
    intro q hq
    exact hi q (.inl (congrArg _ (Option.some.inj hq)))
  | delete p =>
    obtain ⟨hl, rfl⟩ := runCall_delete hc
    refine h.of_keeps (Keeps.delete hl) ?_ fun q _ => hb q
    intro q hq
    exact hi q (.inr (congrArg _ (Option.some.inj hq)))

/-- A batch is fetched from the table: two entries for one task would be two sockets of it. -/
theorem epollWait (h : Sound w) (hr : Registered w) {ready : List (Int × Events)}
    (hnodup : (ready.map (·.1)).Nodup) :
    Sound { w with
      batch := ready.filterMap fun e => (w.epoll e.1).map fun p => (p, e.2) } := by
  refine ⟨h.fault, h.getInstance, ?_, ?_⟩
  · intro e he
    obtain ⟨⟨fd, ev⟩, -, heq⟩ := List.mem_filterMap.mp he
    obtain ⟨p, hp, rfl⟩ := Option.map_eq_some_iff.mp heq
    exact hr.live hp
  · have htasks := hr.nodup_tasks hnodup
    rw [List.filterMap_map] at htasks
    rw [List.map_filterMap]
    simpa only [Option.map_map, Function.comp_def, Option.map_id'] using htasks

/-- The entry that is handled is not in the rest of its batch, so its task may go. -/
theorem dispatch (h : Sound w) {e : Nat × Events} {rest : List (Nat × Events)} {o : Outcome}
    (hbatch : w.batch = e :: rest)
    (haccepts : Accepts w e o → ∀ old, w.pInstance = some old → old ∉ rest.map (·.1))
    (hdestroys : w.pInstance = some e.1 → ¬ Destroys e.2 o)
    (hc : EventLoop.handleProcess { w with batch := rest } e.1 e.2 o = some w') : Sound w' := by
  have hlive : w.Live e.1 := h.batch_live e (hbatch ▸ List.mem_cons_self)
  -- What is left of the batch does not have this task a second time.
  have hnodup := h.batch_nodup
  rw [hbatch, List.map_cons, List.nodup_cons] at hnodup
  have hrest : Sound { w with batch := rest } :=
    ⟨h.fault, h.getInstance, fun e' he' => h.batch_live e' (hbatch ▸ List.mem_cons_of_mem e he'),
      hnodup.2⟩
  rcases handleProcess_cases hc with ⟨hcls, hin, hl⟩ | ⟨-, -, rfl⟩ | ⟨-, -, rfl⟩ | ⟨hdead, -⟩
  · exact hrest.acceptLoop (fun r rs hrs hfd => haccepts ⟨hcls, hin, r, rs, hrs, hfd⟩) hl
  · exact hrest
  · rcases baseHandleProcess_cases { w with batch := rest } e.1 e.2 o with ⟨hd, heq⟩ |
      ⟨-, heq | heq⟩
    · rw [heq]
      refine hrest.of_keeps (Keeps.destroySelf hlive) ?_ ?_
      · intro p hp hi
        rw [← Option.some.inj hp] at hi
        exact hdestroys hi hd
      · intro p hp
        rw [← Option.some.inj hp]
        exact hnodup.1
    · rw [heq]
      exact hrest.keeps (Keeps.modifyFromEpoll _ e.1)
    · rw [heq]
      exact hrest
  · exact absurd hlive hdead

theorem step (h : Sound w) (hr : Registered w) {op : LoopOp} (hok : KeepsInstance w op)
    (hc : w.step op = some w') : Sound w' := by
  rcases step_cases hc with ⟨c, rfl, hbatch, hcall⟩ | ⟨ready, rfl, -, hnodup, -, rfl⟩ |
    ⟨o, e, rest, rfl, hbatch, hp⟩
  · exact h.runCall hbatch hok.2 hcall
  · exact h.epollWait hr hnodup
  · obtain ⟨haccepts, hdestroys⟩ := hok e rest hbatch
    exact h.dispatch hbatch haccepts hdestroys hp

end Sound

/-! ## Runs -/

theorem sound_step (w : EventLoop) (op : LoopOp) (w' : EventLoop) (h : Registered w ∧ Sound w)
    (hstep : guard KeepsInstance (ofFn step) w op w') : Registered w' ∧ Sound w' := by
  refine ⟨h.1.step ?_ hstep.2, h.2.step h.1 hstep.1 hstep.2⟩
  intro c heq
  have hok := hstep.1
  rw [heq] at hok
  exact hok.1

/-- **A run is safe if its steps keep the singleton's connection.** -/
theorem safe_of_run {ops : List LoopOp}
    (h : Steps (guard KeepsInstance (ofFn step)) start ops w) : Safe w := by
  have hinv := Steps.invariant sound_step h ⟨registered_start, sound_start⟩
  exact hinv.2.safe

/-- A listening task, then two connections, the second accepted while the first has no events. -/
def acceptTwice : List LoopOp :=
  [.call (.newTask .acceptTask), .call (.createListenSocket 0 ⟨3, true, true⟩),
    .epollWait [(3, Events.readable)], .dispatch ⟨[⟨4, -1, -1⟩], 0, 0⟩,
    .epollWait [(3, Events.readable)], .dispatch ⟨[⟨5, -1, -1⟩], 0, 0⟩]

theorem safe_of_run_acceptTwice : ∃ w, w.pInstance = some 2 ∧ w.tasks.freed = [1] ∧ Safe w := by
  have hrun : Steps (guard KeepsInstance (ofFn step)) start acceptTwice _ :=
    .cons ⟨⟨trivial, by rintro p (h | h) <;> cases h⟩, rfl⟩
      (.cons ⟨⟨fun _ _ _ => rfl, by rintro p (h | h) <;> cases h⟩, rfl⟩
      (.cons ⟨trivial, rfl⟩ (.cons ⟨by
        -- there is no connection yet
        intro e rest hbatch
        exact ⟨(fun _ _ hold => nomatch hold), fun hi => nomatch hi⟩, rfl⟩
      (.cons ⟨trivial, rfl⟩ (.single ⟨by
        -- the batch is the listening task alone
        intro e rest hbatch
        cases hbatch
        exact ⟨(fun _ _ _ => List.not_mem_nil), fun hi => nomatch hi⟩, rfl⟩)))))
  exact ⟨_, rfl, rfl, safe_of_run hrun⟩

/-- The connection accepted first and the listening socket are ready at once: `HandleProcess` is
    called on the connection that accepting the next one deleted. -/
theorem instance_in_batch_called : ¬ ∀ ops w, Steps (ofFn step) start ops w → Safe w := by
  intro h
  have hrun : Steps (ofFn step) start
      [.call (.newTask .acceptTask), .call (.createListenSocket 0 ⟨3, true, true⟩),
        .epollWait [(3, Events.readable)], .dispatch ⟨[⟨4, -1, -1⟩], 0, 0⟩,
        .epollWait [(3, Events.readable), (4, Events.readable)], .dispatch ⟨[⟨5, -1, -1⟩], 0, 0⟩,
        .dispatch ⟨[], 0, 0⟩] _ :=
    .cons rfl (.cons rfl (.cons rfl (.cons rfl (.cons rfl (.cons rfl (.single rfl))))))
  exact (h _ _ hrun).handled 1 rfl

end EventLoop

end WebsocketTest
