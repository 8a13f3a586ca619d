import WebsocketTest.Lib.Ownership
import WebsocketTest.Lib.Run
import WebsocketTest.Redis.Client

/-!
# Who holds a redis client

The blocks of `GPN_OPERATION`, one for each place of each thread that runs one, step by step: the
locked sections of `get` and `giveback` are single steps, and between them a client is created, the
operation runs, is caught, reconnects and runs again, or throws what nobody catches. A client is
known by its number; what is on its connections is the business of `RedisCliMgr`.

Only three steps move a client. `get` moves one out of the list, `create` makes one that was not
there, and the guard's destructor moves one back, in whichever way the block is left. That the log
line of a text it does not know lacks its argument (`catchRedisException`) is no step here: where it
ends the program there is no next state, and where it does not, it moves no client.

**`never_shared`** — in every state of every run each client that was created is in the list, once,
or held by one block.

The lock is held for the two sections only, and not while a client is created or used. Between `get`
and the guard there is a moment in which the client is in a variable and no destructor would give it
back (`got`); nothing can throw there, and the model has no step that does. An exception that nobody
catches is a way to leave the block like any other, as long as somebody further up catches it: the
model lets the block be entered again.
-/

set_option autoImplicit false

namespace WebsocketTest

open Lib Lib.Text Lib.Run

/-! ## A block

Where it stands tells which client it holds. That is a function of the place, so that no step can
forget to say it. -/

/-- How a run of `func` ends: it returns, it throws a `std::exception` with a text, or it throws
    something that is none. -/
inductive FuncEnd
  | returned
  | threw (what : Str)
  | foreign

/-- Where a block stands, with the client in its variable. `creating` is behind the locked section
    of a `get` that found the list empty, `got` in front of the guard, and `leaving` in front of the
    guard's destructor, with or without an exception on its way. -/
inductive BlockPc
  | outside
  | creating
  | got (c : Nat)
  | operating (c : Nat) (retried : Bool)
  | reconnecting (c : Nat)
  | leaving (c : Nat) (thrown : Bool)

/-- The client that the block holds. -/
def BlockPc.client : BlockPc → Option Nat
  | .outside => none
  | .creating => none
  | .got c => some c
  | .operating c _ => some c
  | .reconnecting c => some c
  | .leaving c _ => some c

/-- `CATCH_REDIS_EXCEPTION` behind a run of `func`. The second run is in the handler, where nothing
    catches. -/
def afterFunc (c : Nat) (retried : Bool) : FuncEnd → BlockPc
  | .returned => .leaving c false
  | .threw what =>
    if retried then .leaving c true
    else if connectionText what then .reconnecting c
    else .leaving c false
  | .foreign => .leaving c true

theorem client_afterFunc (c : Nat) (retried : Bool) (e : FuncEnd) :
    (afterFunc c retried e).client = some c := by
  cases e with
  | returned => rfl
  | threw what =>
    rw [afterFunc]
    split
    · rfl
    · split
      · rfl
      · rfl
  | foreign => rfl

/-! ## The blocks and the list

Any number of blocks, known by anything that can be told apart. -/

/-- `m_listCli`, how many clients have been created, and where each block stands. -/
structure Blocks (ι : Type) where
  listCli : List Nat
  created : Nat
  pc : ι → BlockPc

/-- A step of block `i`. A client cannot always be created, and `reconnect` may throw. -/
inductive BlockStep (ι : Type)
  | get (i : ι)
  | create (i : ι) (throws : Bool)
  | enter (i : ι)
  | func (i : ι) (e : FuncEnd)
  | reconnect (i : ι) (throws : Bool)
  | giveback (i : ι)

variable {ι : Type}

namespace Blocks

/-- The constructor makes one client. -/
def new : Blocks ι := ⟨[0], 1, fun _ => .outside⟩

def holds (s : Blocks ι) (i : ι) : Option Nat := (s.pc i).client

variable [DecidableEq ι]

/-- The block goes on to `p`. -/
def goto (s : Blocks ι) (i : ι) (p : BlockPc) : Blocks ι :=
  { s with pc := Function.update s.pc i p }

def step (s : Blocks ι) : BlockStep ι → Option (Blocks ι)
  | .get i =>
    match s.pc i, s.listCli with
    | .outside, c :: cs => some { s.goto i (.got c) with listCli := cs }
    | .outside, [] => some (s.goto i .creating)
    | _, _ => none
  | .create i throws =>
    match s.pc i with
    | .creating =>
      if throws then some (s.goto i .outside)
      else some { s.goto i (.got s.created) with created := s.created + 1 }
    | _ => none
  | .enter i =>
    match s.pc i with
    | .got c => some (s.goto i (.operating c false))
    | _ => none
  | .func i e =>
    match s.pc i with
    | .operating c retried => some (s.goto i (afterFunc c retried e))
    | _ => none
  | .reconnect i throws =>
    match s.pc i with
    | .reconnecting c =>
      some (s.goto i (if throws then .leaving c true else .operating c true))
    | _ => none
  | .giveback i =>
    match s.pc i with
    | .leaving c _ => some { s.goto i .outside with listCli := s.listCli ++ [c] }
    | _ => none

theorem holds_goto (s : Blocks ι) (i : ι) (p : BlockPc) :
    (s.goto i p).holds = Function.update s.holds i p.client := by
  funext j
  by_cases hj : j = i
  · subst hj
    simp [holds, goto]
  · simp [holds, goto, Function.update_of_ne hj]

/-- **All that a step can do** to the clients: nothing, or one is taken from the list, created, or
    put back. -/
theorem step_cases {s s' : Blocks ι} {l : BlockStep ι} (h : s.step l = some s') :
    (s'.listCli = s.listCli ∧ s'.created = s.created ∧ s'.holds = s.holds) ∨
    (∃ i c, s.holds i = none ∧ s.listCli = c :: s'.listCli ∧ s'.created = s.created ∧
      s'.holds = Function.update s.holds i (some c)) ∨
    (∃ i, s.holds i = none ∧ s'.listCli = s.listCli ∧ s'.created = s.created + 1 ∧
      s'.holds = Function.update s.holds i (some s.created)) ∨
    (∃ i c, s.holds i = some c ∧ s'.listCli = s.listCli ++ [c] ∧ s'.created = s.created ∧
      s'.holds = Function.update s.holds i none) := by
  -- a block that goes on with the client it has moves none
  have hkeeps (i : ι) (p : BlockPc) (hp : p.client = s.holds i) :
      (s.goto i p).holds = s.holds := by
    rw [holds_goto, hp, Function.update_eq_self]
  cases l with
  | get i =>
    rw [step] at h
    split at h
    · rename_i c cs hpc hlist
      cases h
      exact .inr (.inl ⟨i, c, by rw [holds, hpc]; rfl, hlist, rfl, holds_goto s i _⟩)
    · rename_i hpc hlist
      cases h
      exact .inl ⟨rfl, rfl, hkeeps i _ (by rw [holds, hpc]; rfl)⟩
    · cases h
  | create i throws =>
    rw [step] at h
    split at h
    · rename_i hpc
      split at h
      · cases h
        exact .inl ⟨rfl, rfl, hkeeps i _ (by rw [holds, hpc]; rfl)⟩
      · cases h
        exact .inr (.inr (.inl ⟨i, by rw [holds, hpc]; rfl, rfl, rfl, holds_goto s i _⟩))
    · cases h
  | enter i =>
    rw [step] at h
    split at h
    · rename_i c hpc
      cases h
      exact .inl ⟨rfl, rfl, hkeeps i _ (by rw [holds, hpc]; rfl)⟩
    · cases h
  | func i e =>
    rw [step] at h
    split at h
    · rename_i c retried hpc
      cases h
      exact .inl ⟨rfl, rfl, hkeeps i _ (by rw [holds, hpc, client_afterFunc]; rfl)⟩
    · cases h
  | reconnect i throws =>
    rw [step] at h
    split at h
    · rename_i c hpc
      cases h
      refine .inl ⟨rfl, rfl, hkeeps i _ ?_⟩
      rw [holds, hpc]
      cases throws with
      | true => rfl
      | false => rfl
    · cases h
  | giveback i =>
    rw [step] at h
    split at h
    · rename_i c thrown hpc
      cases h
      exact .inr (.inr (.inr ⟨i, c, by rw [holds, hpc]; rfl, rfl, rfl, holds_goto s i _⟩))
    · cases h

/-! ## No client is shared

The model instantiates the general notion of things that are in a store or out with one holder
(`Lib/Ownership`), and a step is one of its three moves. -/

/-- The clients that are out: created, and not in the list. -/
def Out (s : Blocks ι) (c : Nat) : Prop := c < s.created ∧ c ∉ s.listCli

/-- The list holds clients that exist, each once, and those that are out are held, each by one
    block. -/
structure Owned (s : Blocks ι) : Prop where
  nodup : s.listCli.Nodup
  made : ∀ c ∈ s.listCli, c < s.created
  exclusive : Exclusive s.holds s.Out

omit [DecidableEq ι] in
theorem new_owned : (new : Blocks ι).Owned := by
  refine ⟨List.nodup_singleton 0, fun c hc => ?_, fun i c h => ?_, fun c h => ?_, fun i j c h => ?_⟩
  · rw [List.mem_singleton.mp hc]
    exact Nat.one_pos
  · cases h
  · obtain ⟨hlt, hnot⟩ := h
    exact absurd (List.mem_singleton.mpr (Nat.lt_one_iff.mp hlt)) hnot
  · cases h

/-- **A step keeps the clients apart**: each of the three that move one keeps the list without a
    double and the holders different. -/
theorem Owned.step {s s' : Blocks ι} {l : BlockStep ι} (h : s.Owned) (hs : s.step l = some s') :
    s'.Owned := by
  obtain ⟨hnodup, hmade, hexcl⟩ := h
  rcases step_cases hs with ⟨hlist, hcreated, hholds⟩ | ⟨i, c, hi, hlist, hcreated, hholds⟩ |
    ⟨i, hi, hlist, hcreated, hholds⟩ | ⟨i, c, hi, hlist, hcreated, hholds⟩
  · have hout : s'.Out = s.Out := by
      funext c
      rw [Out, Out, hlist, hcreated]
    exact ⟨hlist ▸ hnodup, by rwa [hlist, hcreated], by rwa [hholds, hout]⟩
  · -- the first client of the list
    rw [hlist] at hnodup hmade
    obtain ⟨hc, hnodup⟩ := List.nodup_cons.mp hnodup
    refine ⟨hnodup, fun d hd => hcreated ▸ hmade d (List.mem_cons_of_mem c hd), ?_⟩
    rw [hholds]
    refine hexcl.acquire hi (fun hout => hout.2 (hlist ▸ List.mem_cons_self)) fun d => ?_
    rw [Out, Out, hcreated, hlist, List.mem_cons, not_or]
    constructor
    · rintro ⟨hlt, hnot⟩
      by_cases hd : d = c
      · exact .inl hd
      · exact .inr ⟨hlt, hd, hnot⟩
    · rintro (rfl | ⟨hlt, -, hnot⟩)
      · exact ⟨hmade d List.mem_cons_self, hc⟩
      · exact ⟨hlt, hnot⟩
  · -- a new one
    refine ⟨hlist ▸ hnodup, fun d hd => ?_, ?_⟩
    · have hlt := hmade d (hlist ▸ hd)
      omega
    · rw [hholds]
      refine hexcl.acquire hi (fun hout => Nat.lt_irrefl _ hout.1) fun d => ?_
      rw [Out, Out, hcreated, hlist, Nat.lt_succ_iff_lt_or_eq]
      constructor
      · rintro ⟨hlt | rfl, hnot⟩
        · exact .inr ⟨hlt, hnot⟩
        · exact .inl rfl
      · rintro (rfl | ⟨hlt, hnot⟩)
        · exact ⟨.inr rfl, fun hd => Nat.lt_irrefl _ (hmade _ hd)⟩
        · exact ⟨.inl hlt, hnot⟩
  · -- one that comes back
    have hout := hexcl.opened_of_holds i c hi
    refine ⟨?_, fun d hd => ?_, ?_⟩
    · rw [hlist, ← List.concat_eq_append]
      exact hnodup.concat hout.2
    · rw [hlist] at hd
      rw [hcreated]
      rcases List.mem_append.mp hd with hd | hd
      · exact hmade d hd
      · rw [List.mem_singleton.mp hd]
        exact hout.1
    · rw [hholds]
      refine hexcl.release hi fun d => ?_
      rw [Out, Out, hcreated, hlist, List.mem_append, List.mem_singleton, not_or]
      constructor
      · rintro ⟨hlt, hnot, hne⟩
        exact ⟨hne, hlt, hnot⟩
      · rintro ⟨hne, hlt, hnot⟩
        exact ⟨hlt, hnot, hne⟩

/-- **No client is shared, and none is lost.** -/
theorem never_shared {s : Blocks ι} {ls : List (BlockStep ι)}
    (hrun : Steps (ofFn step) new ls s) :
    (∀ c, c < s.created →
      (s.listCli.count c = 1 ∧ ∀ i, s.holds i ≠ some c) ∨
        (s.listCli.count c = 0 ∧ ∃! i, s.holds i = some c)) ∧
    (∀ i j c, s.holds i = some c → s.holds j = some c → i = j) ∧
    (∀ c, (c ∈ s.listCli ∨ ∃ i, s.holds i = some c) → c < s.created) := by
  have h : s.Owned := hrun.invariant (fun _ _ _ hs => hs.step) new_owned
  refine ⟨fun c hc => ?_, h.exclusive.unique, ?_⟩
  · by_cases hmem : c ∈ s.listCli
    · refine .inl ⟨List.count_eq_one_of_mem h.nodup hmem, fun i hi => ?_⟩
      exact (h.exclusive.opened_of_holds i c hi).2 hmem
    · exact .inr ⟨List.count_eq_zero.mpr hmem, h.exclusive.existsUnique ⟨hc, hmem⟩⟩
  · rintro c (hc | ⟨i, hi⟩)
    · exact h.made c hc
    · exact (h.exclusive.opened_of_holds i c hi).1

/-- Two blocks: the second finds the list empty and creates a client, the operation of the first
    breaks twice, and its client is back in the list. -/
theorem never_shared_two_blocks :
    ∃ s : Blocks Bool, s.listCli = [0] ∧ s.created = 2 ∧ s.holds true = some 1 ∧
      ∀ i j c, s.holds i = some c → s.holds j = some c → i = j := by
  have hrun : Steps (ofFn step) (new : Blocks Bool)
      [.get false, .get true, .enter false, .func false (.threw "Broken pipe".toList),
        .create true false, .reconnect false false, .func false .foreign, .giveback false] _ :=
    .cons rfl (.cons rfl (.cons rfl (.cons rfl (.cons rfl (.cons rfl (.cons rfl (.single rfl)))))))
  exact ⟨_, rfl, rfl, rfl, (never_shared hrun).2.1⟩

end Blocks

end WebsocketTest
