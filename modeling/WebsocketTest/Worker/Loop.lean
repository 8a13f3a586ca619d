import WebsocketTest.Queue.Concurrent
import Mathlib.Data.Fintype.Option
import Mathlib.Data.List.ReduceOption

/-!
# `CWorkThread::Run` (`work_thread.cpp`)

A worker fetches messages from its queue while `m_nRunFlag` is set, calls `Process` on each and
deletes it. Any number of threads call `PutMsgToInputList` meanwhile. The queue and the threads in
it are a `World` (`Queue/Concurrent.lean`), in which the worker is the thread `none`, so producers
and worker interleave at the atomic steps of `put` and `get`; `LoopPc` is where the worker stands
outside `get`.

The constructor sets `m_nRunFlag` to 0, `Stop` sets it to 0, and nothing sets it to anything else.
**`works_iff`** is about the flag the thread is started with, whatever it is: with any value but 0
the worker stays in its loop and handles the messages in the order they were put, and with 0 it is
gone as soon as it runs.

`Process` is a step of its own here; what it does with a message is `Worker.lean`. `Start` is called
until it succeeds: a second thread on the same object is not modelled.

## What is asked of a run

`works_iff` is about runs in which nobody calls `Stop`. The flag is read between two messages only,
so that a worker which waits in `get` for the next one does not see a `Stop` before a message comes.

The order and the count do not depend on the flag. They are the queue's, and the worker adds that it
has at most one message in hand and no other thread fetches. What the flag decides is whether there
is a worker at all. As long as the thread has not taken its first step it has not left either, which
is the second case of the result.
-/

set_option autoImplicit false

namespace WebsocketTest

open Lib.Run

universe u v

/-- Where the worker thread stands. -/
inductive LoopPc (α : Type u)
  | notStarted
  /-- in front of `while (m_nRunFlag)` -/
  | testing
  /-- in `m_pMsgList.get()` -/
  | getting
  /-- back from `get`, with what it returned -/
  | got (pMsg : Option α)
  /-- behind `Process(pMsg)` -/
  | processed (pMsg : α)
  /-- `Run` has returned -/
  | left

structure WorkThread (ι : Type v) (α : Type u) where
  nRunFlag : Int
  /-- `m_pMsgList`, with the threads that use it -/
  msgList : World (Option ι) α
  pc : LoopPc α
  /-- The messages `Process` was called on, and those that were deleted. -/
  processed : List α
  deleted : List α

inductive WorkOp (ι : Type v) (α : Type u)
  /-- `Start`, where `pthread_create` returns `ret` -/
  | start (ret : Int)
  | stop
  /-- thread `i` calls `PutMsgToInputList(pMsg)` -/
  | put (i : ι) (pMsg : Option α)
  /-- thread `i` goes on with its put -/
  | putNext (i : ι)
  /-- the worker goes on -/
  | work

namespace WorkThread

variable {ι : Type v} {α : Type u} [DecidableEq ι]

/-- The constructor, which leaves the flag at 0. -/
def new : WorkThread ι α := ⟨0, .new, .notStarted, [], []⟩

/-- A step of the worker in `get`, which is over when its thread is idle again. -/
def getStep (w : WorkThread ι α) : Option (WorkThread ι α) :=
  (w.msgList.move none .next).map fun msgList =>
    match w.msgList.pc none with
    | .popped pMsg => { w with msgList := msgList, pc := .got pMsg }
    | _ => { w with msgList := msgList }

/-- The worker's next step, if it has one: it has none before `Start`, and none after `Run`. -/
def workStep (w : WorkThread ι α) : Option (WorkThread ι α) :=
  match w.pc with
  | .notStarted | .left => none
  | .testing =>
    if w.nRunFlag ≠ 0 then
      (w.msgList.move none .callGet).map fun msgList =>
        { w with msgList := msgList, pc := .getting }
    else some { w with pc := .left }
  | .getting => w.getStep
  | .got none => some { w with pc := .testing }
  | .got (some pMsg) =>
    some { w with processed := w.processed ++ [pMsg], pc := .processed pMsg }
  | .processed pMsg => some { w with deleted := w.deleted ++ [pMsg], pc := .testing }

def exec (w : WorkThread ι α) : WorkOp ι α → Option (WorkThread ι α)
  | .start ret =>
    match w.pc with
    | .notStarted => some (if ret ≠ 0 then w else { w with pc := .testing })
    | _ => none
  | .stop => some { w with nRunFlag := 0 }
  | .put i pMsg =>
    (w.msgList.move (some i) (.callPut pMsg)).map fun msgList => { w with msgList := msgList }
  | .putNext i =>
    (w.msgList.move (some i) .next).map fun msgList => { w with msgList := msgList }
  | .work => w.workStep

def step : WorkThread ι α → WorkOp ι α → WorkThread ι α → Prop := ofFn exec

/-- The messages put so far; `NULL` is none. -/
def put (w : WorkThread ι α) : List α := w.msgList.pushed.reduceOption

/-- The thread is in its loop, and handles messages in the order they were put, each once, and
    deletes them afterwards. -/
structure Works (w : WorkThread ι α) : Prop where
  inLoop : w.pc ≠ .left
  inOrder : w.processed <+: w.put
  once : w.put.Nodup → w.processed.Nodup
  afterwards : w.deleted <+: w.processed

end WorkThread

/-! ## One thread in the queue

What the queue's own invariant does not say: which moves are whose. Producers only put and the
worker only fetches, so that the list of what was fetched is the worker's. -/

namespace Pc

variable {α : Type u}

/-- The points of `put`, where a producer stands while it is in the queue. -/
def inPut : Pc α → Bool
  | idle | putting _ | hasPlace _ | pushed => true
  | _ => false

end Pc

namespace World

variable {κ : Type v} {α : Type u} [DecidableEq κ] {w w' : World κ α} {i : κ}

/-- A thread's move is its own: no other thread stands elsewhere after it. -/
theorem move_pc_of_ne {a : Act α} (h : w.move i a = some w') {j : κ} (hj : j ≠ i) :
    w'.pc j = w.pc j := by
  rcases move_cases h with ⟨p, -, -, -, -, rfl⟩ | ⟨m, -, -, rfl⟩ | ⟨m, -, rfl⟩ | ⟨-, rfl⟩ |
    ⟨-, -, rfl⟩ | ⟨-, rfl⟩ | ⟨m, -, rfl⟩
  all_goals exact Function.update_of_ne hj _ _

/-- Who is putting pops nothing, and stays in `put` unless it calls `get`. -/
theorem move_put {a : Act α} (h : w.move i a = some w') (hput : (w.pc i).inPut = true)
    (ha : a ≠ .callGet) : w'.popped = w.popped ∧ (w'.pc i).inPut = true := by
  unfold move at h
  split at h
  · cases h
    exact ⟨rfl, by simp [goto, Pc.inPut]⟩
  · exact absurd rfl ha
  · obtain ⟨q, -, rfl⟩ := Option.map_eq_some_iff.mp h
    exact ⟨rfl, by simp [goto, Pc.inPut]⟩
  · cases h
    exact ⟨rfl, by simp [goto, Pc.inPut]⟩
  · cases h
    exact ⟨rfl, by simp [goto, Pc.inPut]⟩
  · rename_i hpc
    rw [hpc] at hput
    cases hput
  · rename_i hpc
    rw [hpc] at hput
    cases hput
  · rename_i hpc
    rw [hpc] at hput
    cases hput
  · cases h

/-- The moves of who is in `get`. -/
theorem move_get (h : w.move i .next = some w') (hget : (w.pc i).inPut = false) :
    (w.pc i = .getting ∧ w'.pc i = .hasItem ∧ w'.popped = w.popped) ∨
    (w.pc i = .hasItem ∧ ∃ pMsg, w'.pc i = .popped pMsg ∧ w'.popped = w.popped ++ [pMsg]) ∨
    (∃ pMsg, w.pc i = .popped pMsg ∧ w'.pc i = .idle ∧ w'.popped = w.popped) := by
  rcases move_cases h with ⟨p, hpc, -⟩ | ⟨m, hpc, -⟩ | ⟨m, hpc, -⟩ | ⟨hpc, -⟩ | ⟨hpc, -, rfl⟩ |
    ⟨hpc, rfl⟩ | ⟨m, hpc, rfl⟩
  · rw [hpc] at hget
    cases hget
  · rw [hpc] at hget
    cases hget
  · rw [hpc] at hget
    cases hget
  · rw [hpc] at hget
    cases hget
  · exact .inl ⟨hpc, by simp [goto], rfl⟩
  · exact .inr (.inl ⟨hpc, _, by simp [goto], rfl⟩)
  · exact .inr (.inr ⟨m, hpc, by simp [goto], rfl⟩)

theorem move_callGet (h : w.move i .callGet = some w') :
    w'.pc i = .getting ∧ w'.popped = w.popped := by
  cases hpc : w.pc i with
  | idle =>
    simp only [move, hpc] at h
    cases h
    exact ⟨by simp [goto], rfl⟩
  | _ =>
    simp only [move, hpc] at h
    cases h

end World

namespace WorkThread

variable {ι : Type v} {α : Type u} {w w' : WorkThread ι α}

/-! ## Who leaves the loop

The flag is looked at in one place, and a worker that has looked at a set flag is in the loop until
it looks again. -/

section Leaving

variable [DecidableEq ι]

/-- The worker's steps, with what holds when each is taken. -/
theorem workStep_cases (hs : w.workStep = some w') :
    (∃ msgList, w.pc = .testing ∧ w.nRunFlag ≠ 0 ∧ w.msgList.move none .callGet = some msgList ∧
      w' = { w with msgList := msgList, pc := .getting }) ∨
    (w.pc = .testing ∧ w.nRunFlag = 0 ∧ w' = { w with pc := .left }) ∨
    (w.pc = .getting ∧ w.getStep = some w') ∨
    (w.pc = .got none ∧ w' = { w with pc := .testing }) ∨
    (∃ pMsg, w.pc = .got (some pMsg) ∧
      w' = { w with processed := w.processed ++ [pMsg], pc := .processed pMsg }) ∨
    (∃ pMsg, w.pc = .processed pMsg ∧
      w' = { w with deleted := w.deleted ++ [pMsg], pc := .testing }) := by
  unfold workStep at hs
  split at hs
  · cases hs
  · cases hs
  · rename_i hpc
    split at hs
    · rename_i hflag
      obtain ⟨msgList, hm, rfl⟩ := Option.map_eq_some_iff.mp hs
      exact .inl ⟨msgList, hpc, hflag, hm, rfl⟩
    · rename_i hflag
      exact .inr (.inl ⟨hpc, not_not.mp hflag, (Option.some.inj hs).symm⟩)
  · rename_i hpc
    exact .inr (.inr (.inl ⟨hpc, hs⟩))
  · rename_i hpc
    exact .inr (.inr (.inr (.inl ⟨hpc, (Option.some.inj hs).symm⟩)))
  · rename_i pMsg hpc
    exact .inr (.inr (.inr (.inr (.inl ⟨pMsg, hpc, (Option.some.inj hs).symm⟩))))
  · rename_i pMsg hpc
    exact .inr (.inr (.inr (.inr (.inr ⟨pMsg, hpc, (Option.some.inj hs).symm⟩))))

/-- A step in `get` does not look at the flag, and does not end the loop. -/
theorem getStep_flag (hpc : w.pc = .getting) (hs : w.getStep = some w') :
    w'.nRunFlag = w.nRunFlag ∧ w'.pc ≠ .left := by
  obtain ⟨msgList, -, rfl⟩ := Option.map_eq_some_iff.mp hs
  split
  · exact ⟨rfl, fun he => nomatch he⟩
  · refine ⟨rfl, fun he => ?_⟩
    cases hpc.symm.trans he

/-- Nothing but `Stop` touches the flag, and nobody leaves the loop while it is set. -/
theorem step_flag {op : WorkOp ι α} (hs : step w op w') (hop : op ≠ .stop) :
    w'.nRunFlag = w.nRunFlag ∧ (w'.pc = .left → w.pc = .left ∨ (op = .work ∧ w.nRunFlag = 0)) := by
  cases op with
  | start ret =>
    simp only [step, ofFn, exec] at hs
    split at hs
    · cases hs
      split
      · exact ⟨rfl, .inl⟩
      · exact ⟨rfl, fun he => nomatch he⟩
    · cases hs
  | stop => exact absurd rfl hop
  | put i pMsg =>
    obtain ⟨msgList, -, rfl⟩ := Option.map_eq_some_iff.mp hs
    exact ⟨rfl, .inl⟩
  | putNext i =>
    obtain ⟨msgList, -, rfl⟩ := Option.map_eq_some_iff.mp hs
    exact ⟨rfl, .inl⟩
  | work =>
    rcases workStep_cases hs with ⟨msgList, -, -, -, rfl⟩ | ⟨-, hflag, rfl⟩ | ⟨hpc, hget⟩ |
      ⟨-, rfl⟩ | ⟨pMsg, -, rfl⟩ | ⟨pMsg, -, rfl⟩
    · exact ⟨rfl, fun he => nomatch he⟩
    · exact ⟨rfl, fun _ => .inr ⟨rfl, hflag⟩⟩
    · obtain ⟨hflag, hin⟩ := getStep_flag hpc hget
      exact ⟨hflag, fun he => absurd he hin⟩
    · exact ⟨rfl, fun he => nomatch he⟩
    · exact ⟨rfl, fun he => nomatch he⟩
    · exact ⟨rfl, fun he => nomatch he⟩

/-- Where a worker with the flag at 0 can be: not past the test. -/
def Outside (w : WorkThread ι α) : Prop :=
  w.nRunFlag = 0 ∧ (w.pc = .notStarted ∨ w.pc = .testing ∨ w.pc = .left)

/-- With the flag at 0, the worker's first step is out of the loop, and its last. -/
theorem step_outside {op : WorkOp ι α} (h : w.Outside) (hs : step w op w') :
    w'.Outside ∧ (w'.pc = .left ↔ w.pc = .left ∨ op = .work) := by
  obtain ⟨hflag, hpc⟩ := h
  cases op with
  | start ret =>
    simp only [step, ofFn, exec] at hs
    split at hs
    · rename_i hns
      cases hs
      split
      · exact ⟨⟨hflag, hpc⟩, by simp⟩
      · exact ⟨⟨hflag, .inr (.inl rfl)⟩, by simp [hns]⟩
    · cases hs
  | stop =>
    cases hs
    exact ⟨⟨rfl, hpc⟩, by simp⟩
  | put i pMsg =>
    obtain ⟨msgList, -, rfl⟩ := Option.map_eq_some_iff.mp hs
    exact ⟨⟨hflag, hpc⟩, by simp⟩
  | putNext i =>
    obtain ⟨msgList, -, rfl⟩ := Option.map_eq_some_iff.mp hs
    exact ⟨⟨hflag, hpc⟩, by simp⟩
  | work =>
    rcases workStep_cases hs with ⟨msgList, -, hset, -, -⟩ | ⟨-, -, rfl⟩ | ⟨hin, -⟩ | ⟨hin, -⟩ |
      ⟨pMsg, hin, -⟩ | ⟨pMsg, hin, -⟩
    · exact absurd hflag hset
    · exact ⟨⟨hflag, .inr (.inr rfl)⟩, by simp⟩
    -- the others are past the test
    all_goals
      rw [hin] at hpc
      simp at hpc

theorem left_iff {ops : List (WorkOp ι α)} (h : w.Outside) (hrun : Steps step w ops w') :
    w'.pc = .left ↔ w.pc = .left ∨ .work ∈ ops := by
  induction hrun with
  | nil => simp
  | cons head _ ih =>
    obtain ⟨hnext, hiff⟩ := step_outside h head
    rw [ih hnext, hiff, List.mem_cons, or_assoc]
    simp only [eq_comm]

/-- A worker whose flag is set stays in the loop until it is stopped, and so does one that does not
    run. -/
theorem inLoop {ops : List (WorkOp ι α)} (hrun : Steps step w ops w') (hstop : .stop ∉ ops)
    (hpc : w.pc ≠ .left) (h : w.nRunFlag ≠ 0 ∨ .work ∉ ops) : w'.pc ≠ .left := by
  induction hrun with
  | nil => exact hpc
  | cons head _ ih =>
    obtain ⟨hflag, hleft⟩ := step_flag head fun he => hstop (he ▸ List.mem_cons_self)
    refine ih (fun hm => hstop (List.mem_cons_of_mem _ hm)) ?_ ?_
    · intro hl
      rcases hleft hl with hl | ⟨rfl, h₀⟩
      · exact hpc hl
      · exact h.elim (fun hne => hne h₀) fun hm => hm List.mem_cons_self
    · rw [hflag]
      exact h.imp id fun hm hm' => hm (List.mem_cons_of_mem _ hm')

end Leaving

/-! ## What the worker has in hand

Between `get` and `delete` a message is in no list of the queue. At each point of the loop it is
known which message that is, if there is one. -/

/-- Fetched and not processed: at most one, and only between `get` and `Process`. -/
def inHand (w : WorkThread ι α) : List α :=
  match w.pc with
  | .got pMsg => pMsg.toList
  | .getting =>
    match w.msgList.pc none with
    | .popped pMsg => pMsg.toList
    | _ => []
  | _ => []

/-- Processed and not deleted: at most one, and only between `Process` and `delete`. -/
def toDelete (w : WorkThread ι α) : List α :=
  match w.pc with
  | .processed pMsg => [pMsg]
  | _ => []

/-- The run invariant: the worker's thread is in the queue just while `Run` is in `get`, nobody else
    fetches, and what was fetched is what was processed and what is in hand. -/
structure Handling [Fintype ι] (w : WorkThread ι α) : Prop where
  balanced : w.msgList.Balanced
  producers : ∀ i, (w.msgList.pc (some i)).inPut = true
  inside : w.pc = .getting → (w.msgList.pc none).inPut = false
  outside : w.pc ≠ .getting → w.msgList.pc none = .idle
  fetched : w.msgList.popped.reduceOption = w.processed ++ w.inHand
  deletions : w.processed = w.deleted ++ w.toDelete

variable [Fintype ι]

theorem new_handling (f : Int) : ({ new with nRunFlag := f } : WorkThread ι α).Handling where
  balanced := World.new_balanced
  producers := fun _ => rfl
  inside := fun h => nomatch h
  outside := fun _ => rfl
  fetched := rfl
  deletions := rfl

namespace Handling

/-- What was processed is a beginning of what was put. -/
theorem processed_prefix (h : w.Handling) : w.processed <+: w.put := by
  have hfetched : w.processed <+: w.msgList.popped.reduceOption := ⟨_, h.fetched.symm⟩
  have hpopped : w.msgList.popped <+: w.msgList.pushed := ⟨_, h.balanced.order.symm⟩
  exact hfetched.trans hpopped.reduceOption

theorem works (h : w.Handling) (hin : w.pc ≠ .left) : w.Works where
  inLoop := hin
  inOrder := h.processed_prefix
  once := fun hn => hn.sublist h.processed_prefix.sublist
  afterwards := ⟨_, h.deletions.symm⟩

/-- A step of the worker outside `get`: the queue is as it was. -/
theorem elsewhere (h : w.Handling) {p : LoopPc α} (hpc : w.pc = p) (hp : p ≠ .getting)
    {w' : WorkThread ι α} (hqueue : w'.msgList = w.msgList) (hp' : w'.pc ≠ .getting)
    (hf : w'.msgList.popped.reduceOption = w'.processed ++ w'.inHand)
    (hd : w'.processed = w'.deleted ++ w'.toDelete) : w'.Handling := by
  have hidle := h.outside (hpc ▸ hp)
  refine ⟨hqueue ▸ h.balanced, hqueue ▸ h.producers, fun he => absurd he hp', fun _ => ?_, hf, hd⟩
  rw [hqueue, hidle]

variable [DecidableEq ι]

/-- A producer's move keeps the invariant: it fetches nothing and leaves the worker alone. -/
theorem produce (h : w.Handling) {i : ι} {a : Act α} (ha : a ≠ .callGet)
    {msgList : World (Option ι) α} (hm : w.msgList.move (some i) a = some msgList) :
    ({ w with msgList := msgList } : WorkThread ι α).Handling := by
  obtain ⟨hpop, hput⟩ := World.move_put hm (h.producers i) ha
  have hnone : msgList.pc none = w.msgList.pc none := World.move_pc_of_ne hm (by simp)
  refine ⟨World.step_balanced (l := (some i, a)) h.balanced hm, ?_, ?_, ?_, ?_, h.deletions⟩
  · intro j
    by_cases hj : j = i
    · exact hj ▸ hput
    · rw [World.move_pc_of_ne hm (by simpa using hj)]
      exact h.producers j
  · intro hpc
    rw [hnone]
    exact h.inside hpc
  · intro hpc
    rw [hnone]
    exact h.outside hpc
  · simp only [hpop, h.fetched, inHand, hnone]

/-- A move of the worker in the queue leaves the producers where they are. -/
theorem consume (h : w.Handling) {a : Act α} {msgList : World (Option ι) α}
    (hm : w.msgList.move none a = some msgList) :
    msgList.Balanced ∧ ∀ i, (msgList.pc (some i)).inPut = true := by
  refine ⟨World.step_balanced (l := (none, a)) h.balanced hm, ?_⟩
  intro i
  rw [World.move_pc_of_ne hm (by simp)]
  exact h.producers i

/-- A step inside `get` keeps the invariant; the last one is where the message comes to hand. -/
theorem getStep (h : w.Handling) (hpc : w.pc = .getting) (hs : w.getStep = some w') :
    w'.Handling := by
  obtain ⟨msgList, hm, rfl⟩ := Option.map_eq_some_iff.mp hs
  obtain ⟨hbal, hprod⟩ := h.consume hm
  have hf := h.fetched
  have hd := h.deletions
  rcases World.move_get hm (h.inside hpc) with
    ⟨hp, hp', hpop⟩ | ⟨hp, pMsg, hp', hpop⟩ | ⟨pMsg, hp, hp', hpop⟩
  · -- past `sem_wait`
    simp only [hp]
    simp only [inHand, toDelete, hpc, hp] at hf hd
    refine ⟨hbal, hprod, fun _ => by rw [hp']; rfl, fun hne => absurd hpc hne, ?_, ?_⟩
    · simp only [inHand, hpc, hp', hpop, hf]
    · simpa only [toDelete, hpc] using hd
  · -- an element was taken: it is in hand
    simp only [hp]
    simp only [inHand, toDelete, hpc, hp, List.append_nil] at hf hd
    refine ⟨hbal, hprod, fun _ => by rw [hp']; rfl, fun hne => absurd hpc hne, ?_, ?_⟩
    · simp only [inHand, hpc, hp', hpop, List.reduceOption_append, hf]
      cases pMsg <;> rfl
    · simpa only [toDelete, hpc, List.append_nil] using hd
  · -- `get` returns it
    simp only [hp]
    simp only [inHand, toDelete, hpc, hp] at hf hd
    refine ⟨hbal, hprod, (fun he => nomatch he), fun _ => hp', ?_, hd⟩
    simp only [inHand, hpop, hf]

/-- **The worker's step** keeps the invariant, whichever of its points the worker is at. -/
theorem workStep (h : w.Handling) (hs : w.workStep = some w') : w'.Handling := by
  have hf := h.fetched
  have hd := h.deletions
  rcases workStep_cases hs with ⟨msgList, hpc, -, hm, rfl⟩ | ⟨hpc, -, rfl⟩ | ⟨hpc, hget⟩ |
    ⟨hpc, rfl⟩ | ⟨pMsg, hpc, rfl⟩ | ⟨pMsg, hpc, rfl⟩
  · -- into `get`
    simp only [inHand, toDelete, hpc] at hf hd
    obtain ⟨hbal, hprod⟩ := h.consume hm
    obtain ⟨hp', hpop⟩ := World.move_callGet hm
    refine ⟨hbal, hprod, fun _ => by rw [hp']; rfl, fun hne => absurd rfl hne, ?_, hd⟩
    simp only [inHand, hp', hpop, hf]
  · -- out of the loop
    simp only [inHand, toDelete, hpc] at hf hd
    exact h.elsewhere hpc (fun he => nomatch he) rfl (fun he => nomatch he) hf hd
  · exact h.getStep hpc hget
  · -- `NULL` is skipped
    simp only [inHand, toDelete, hpc] at hf hd
    exact h.elsewhere hpc (fun he => nomatch he) rfl (fun he => nomatch he) hf hd
  · -- `Process(pMsg)`
    simp only [inHand, toDelete, hpc, List.append_nil] at hf hd
    refine h.elsewhere hpc (fun he => nomatch he) rfl (fun he => nomatch he) ?_ ?_
    · simp only [inHand, List.append_nil, hf, Option.toList_some]
    · simp only [toDelete, hd]
  · -- `delete pMsg`
    simp only [inHand, toDelete, hpc] at hf hd
    refine h.elsewhere hpc (fun he => nomatch he) rfl (fun he => nomatch he) hf ?_
    simp only [toDelete, List.append_nil, hd]

/-- **Every step keeps the invariant**, `Stop` included. -/
theorem step {op : WorkOp ι α} (h : w.Handling) (hs : step w op w') : w'.Handling := by
  cases op with
  | start ret =>
    simp only [WorkThread.step, ofFn, exec] at hs
    split at hs
    · rename_i hpc
      have hf := h.fetched
      have hd := h.deletions
      simp only [inHand, toDelete, hpc] at hf hd
      cases hs
      split
      · exact h
      · exact ⟨h.balanced, h.producers, (fun he => nomatch he),
          fun _ => h.outside (by rw [hpc]; exact fun he => nomatch he), hf, hd⟩
    · cases hs
  | stop =>
    cases hs
    exact ⟨h.balanced, h.producers, h.inside, h.outside, h.fetched, h.deletions⟩
  | put i pMsg =>
    obtain ⟨msgList, hm, rfl⟩ := Option.map_eq_some_iff.mp hs
    exact h.produce (by simp) hm
  | putNext i =>
    obtain ⟨msgList, hm, rfl⟩ := Option.map_eq_some_iff.mp hs
    exact h.produce (by simp) hm
  | work => exact h.workStep hs

end Handling

/-! ## Runs -/

variable [DecidableEq ι]

/-- **When a started worker works.** In a run without `Stop`, from the constructor on but for the
    value `f` of the flag: the thread is in its loop and handles the messages as it should, exactly
    if `f` is not 0 or the thread has not run yet. The constructor's own `f` is 0. -/
theorem works_iff (f : Int) {ops : List (WorkOp ι α)}
    (hrun : Steps step { new with nRunFlag := f } ops w) (hstop : .stop ∉ ops) :
    w.Works ↔ f ≠ 0 ∨ .work ∉ ops := by
  constructor
  · intro hw
    by_contra hbad
    rw [not_or, not_not, not_not] at hbad
    exact hw.inLoop ((left_iff ⟨hbad.1, .inl rfl⟩ hrun).mpr (.inr hbad.2))
  · intro h
    have hh : w.Handling := hrun.invariant (fun _ _ _ hi hs => hi.step hs) (new_handling f)
    exact hh.works (inLoop hrun hstop (fun he => nomatch he) h)

/-- A worker whose flag was set to 1 takes one message and processes it. -/
theorem works_iff_flag_set :
    ∃ w : WorkThread Bool Nat, w.processed = [7] ∧
      (w.Works ↔ (1 : Int) ≠ 0 ∨ WorkOp.work ∉ [WorkOp.start (α := Nat) 0, .put true (some 7),
        .putNext true, .putNext true, .putNext true, .work, .work, .work, .work, .work]) := by
  have hrun : Steps step ({ new with nRunFlag := 1 } : WorkThread Bool Nat)
      [.start 0, .put true (some 7), .putNext true, .putNext true, .putNext true, .work, .work,
        .work, .work, .work] _ :=
    .cons rfl (.cons rfl (.cons rfl (.cons rfl (.cons rfl (.cons rfl (.cons rfl (.cons rfl
      (.cons rfl (.single rfl)))))))))
  exact ⟨_, rfl, works_iff 1 hrun (by simp)⟩

/-- As the constructor leaves it, a started worker is out of its loop after one step. -/
theorem started_worker_left :
    ∃ w : WorkThread Bool Nat, Steps step new [.start 0, .work] w ∧ w.pc = .left ∧ ¬ w.Works := by
  have hrun : Steps step (new : WorkThread Bool Nat) [.start 0, .work] _ :=
    .cons rfl (.single rfl)
  exact ⟨_, hrun, rfl, fun hw => hw.inLoop rfl⟩

end WorkThread

end WebsocketTest
