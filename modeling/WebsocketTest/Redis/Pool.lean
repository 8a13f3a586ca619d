import WebsocketTest.Lib.Run
import WebsocketTest.Redis.Client
import Mathlib.Data.List.Sort

/-!
# The pool of redis clients

`RedisCliMgr` keeps the clients that nobody uses. `GPN_OPERATION` takes one, or makes one, and its
guard puts it back whatever happened, so that the next operation starts on what the last one left.
Threads take and give back in any order; between the two a client is one thread's own.

**`idle_execution_iff`** — an execution gives back an idle client exactly if it ends `Tidy`: a
condition on where its last run of the operation stops, and that nothing is logged without its
argument on the way. A refused request that is not the last one is not tidy. What is thrown for it
in the second run leaves the macro, what is thrown in the first one is logged, and the replies
behind it stay.

**`pristine_iff`** — in a run of the pool every client is given back idle, and every operation reads
the replies to its own requests from the first on, exactly if every execution is tidy.

A run ends with an execution that has no result. What leaves the macro is taken to be caught by
somebody, so that the guard's destructor runs.

## Why a client that is not idle goes unnoticed

The pool does not look at what it is given back, and nothing else does. A reply that was left is
read by the next operation on that client, which may be any other and of any thread; it is taken for
the reply to that operation's first request, whose own reply is then the one that is left. So the
damage does not stay where it was done, and does not go away. `Idle` is the one condition under
which an operation reads its own replies, and it has to hold of every client in the pool at any
time.

The condition for it is on executions, since it is there that clients are given back: it says of the
last run of the operation where it stops, and of the connections which of them are new.
-/

set_option autoImplicit false

namespace WebsocketTest

open Lib.Text Lib.Pipeline Lib.Run

variable {n : Nat}

/-! ## Reconnecting

A connection that is made anew owes nothing, whatever the old one did. Those behind a failing one
are not made anew. -/

theorem reconnectFrom_done {init : Fin n → Option Str} {is : List (Fin n)}
    (h : ∀ i ∈ is, init i = none) (c : RedisClient n) :
    (reconnectFrom init is c).2 = none ∧
      ∀ i, i ∈ is ∨ c i = [] → (reconnectFrom init is c).1 i = [] := by
  induction is generalizing c with
  | nil => exact ⟨rfl, fun i hi => hi.resolve_left List.not_mem_nil⟩
  | cons j is ih =>
    rw [reconnectFrom, h j List.mem_cons_self]
    obtain ⟨hnone, hidle⟩ := ih (fun i hi => h i (List.mem_cons_of_mem _ hi)) (clear c j)
    refine ⟨hnone, fun i hi => hidle i ?_⟩
    by_cases hij : i = j
    · subst hij
      exact .inr (Function.update_self _ _ _)
    · rcases hi with hi | hi
      · exact .inl ((List.mem_cons.mp hi).resolve_left hij)
      · exact .inr ((Function.update_of_ne hij _ _).trans hi)

/-- The first connection whose `init` throws. -/
def firstFailing (init : Fin n → Option Str) : Option (Fin n) :=
  (List.finRange n).find? fun i => (init i).isSome

/-- **All connections are new**, if every `init` succeeds. -/
theorem reconnect_done {init : Fin n → Option Str} (h : firstFailing init = none)
    (c : RedisClient n) : reconnect init c = (owed [], none) := by
  have hinit : ∀ i ∈ List.finRange n, init i = none := by
    intro i hi
    simpa using List.find?_eq_none.mp h i hi
  obtain ⟨hnone, hidle⟩ := reconnectFrom_done hinit c
  exact Prod.ext (idle_iff.mp fun i => hidle i (.inl (List.mem_finRange i))) hnone

theorem reconnectFrom_fails {init : Fin n → Option Str} {front : List (Fin n)}
    (rest : List (Fin n)) {r : Fin n} {what : Str} (hfront : ∀ i ∈ front, init i = none)
    (hr : init r = some what) (c : RedisClient n) :
    (reconnectFrom init (front ++ r :: rest) c).2 = some what ∧
      ∀ i, (reconnectFrom init (front ++ r :: rest) c).1 i =
        if i ∈ front ∨ i = r then [] else c i := by
  induction front generalizing c with
  | nil =>
    rw [List.nil_append, reconnectFrom, hr]
    refine ⟨rfl, fun i => ?_⟩
    by_cases hi : i = r
    · subst hi
      simp [clear]
    · simp [clear, hi]
  | cons j front ih =>
    rw [List.cons_append, reconnectFrom, hfront j List.mem_cons_self]
    obtain ⟨hwhat, hclient⟩ := ih (fun i hi => hfront i (List.mem_cons_of_mem _ hi)) (clear c j)
    refine ⟨hwhat, fun i => (hclient i).trans ?_⟩
    by_cases hij : i = j
    · subst hij
      simp [clear]
    · simp [clear, hij]

/-- **The connections up to the failing one are new**, and those behind it the old ones. -/
theorem reconnect_fails {init : Fin n → Option Str} {r : Fin n} (hr : firstFailing init = some r)
    (c : RedisClient n) :
    ∃ c' what, reconnect init c = (c', some what) ∧ ∀ i, c' i = if i ≤ r then [] else c i := by
  obtain ⟨hsome, front, rest, hsplit, hfront⟩ := List.find?_eq_some_iff_append.mp hr
  obtain ⟨what, hwhat⟩ := Option.isSome_iff_exists.mp hsome
  have hnone : ∀ i ∈ front, init i = none := by
    intro i hi
    simpa using hfront i hi
  have hspec := reconnectFrom_fails rest hnone hwhat c
  rw [← hsplit] at hspec
  refine ⟨(reconnect init c).1, what, Prod.ext rfl hspec.1, fun i => (hspec.2 i).trans ?_⟩
  -- the loop goes through the connections in their order
  have hsorted := (List.sortedLT_finRange n).pairwise
  rw [hsplit, List.pairwise_append] at hsorted
  have hle : (i ∈ front ∨ i = r) ↔ i ≤ r := by
    constructor
    · rintro (hi | rfl)
      · exact Fin.le_of_lt (hsorted.2.2 i hi r List.mem_cons_self)
      · exact Fin.le_refl i
    · intro hi
      have hmem := List.mem_finRange i
      rw [hsplit, List.mem_append, List.mem_cons] at hmem
      rcases hmem with hmem | hmem | hmem
      · exact .inl hmem
      · exact .inr hmem
      · exact absurd ((List.pairwise_cons.mp hsorted.2.1).1 i hmem) (Fin.not_lt.mpr hi)
  simp only [hle]

theorem reconnect_idle {init : Fin n → Option Str} {c c' : RedisClient n}
    (h : reconnect init c = (c', none)) : c' = owed [] := by
  cases hfirst : firstFailing init with
  | none =>
    rw [reconnect_done hfirst] at h
    exact (Prod.mk.inj h).1.symm
  | some r =>
    obtain ⟨d, what, hfails, -⟩ := reconnect_fails hfirst c
    rw [hfails] at h
    cases h

/-! ## One execution

`Tidy` is the condition, `GivesBackIdle` what it is for. The two are proved equal here, for a client
that is idle to begin with. -/

/-- The execution leaves nothing to come on any connection. If the first run of the operation
    throws one of the three texts, that is up to the second run, or, if reconnecting fails on the
    way, to what the first run left on the connections behind the failing one. Any other text must
    not be logged besides, since its line has no argument for the `%s`. -/
def Tidy (op : Operation n) (s : Script n) : Prop :=
  match (op.stop s.first).what with
  | none => True
  | some what =>
    if connectionText what then
      match firstFailing s.init with
      | some r => ∀ i, op.Owes (op.stop s.first) i → i ≤ r
      | none => ∀ i, ¬ op.Owes (op.stop s.second) i
    else s.logged = false ∧ ∀ i, ¬ op.Owes (op.stop s.first) i

theorem stop_of_what {stop : Stop} (h : stop.what = none) : stop = .done := by
  cases stop with
  | done => rfl
  | send k what => cases h
  | reply k e => cases h

/-- The execution has a result, and the client is idle in it. -/
def GivesBackIdle (e : Option (Execution n)) : Prop := ∃ r, e = some r ∧ Idle r.client

@[simp]
theorem givesBackIdle_some {r : Execution n} : GivesBackIdle (some r) ↔ Idle r.client := by
  simp [GivesBackIdle]

@[simp]
theorem givesBackIdle_none : ¬ GivesBackIdle (none : Option (Execution n)) := by
  simp [GivesBackIdle]

/-- **When the client is given back idle.** -/
theorem idle_execution_iff (op : Operation n) (owner : Nat) (s : Script n) :
    GivesBackIdle (catchRedisException op owner s (owed [])) ↔ Tidy op s := by
  obtain ⟨hclient, hthrown, -⟩ := op.func_spec owner s.first
  rw [catchRedisException, Tidy]
  simp only [hthrown]
  cases hwhat : (op.stop s.first).what with
  | none =>
    refine iff_of_true (givesBackIdle_some.mpr ?_) trivial
    refine (op.idle_func_iff owner s.first).mpr fun i => ?_
    rw [stop_of_what hwhat]
    exact id
  | some what =>
    simp only
    split
    · cases hfirst : firstFailing s.init with
      | none =>
        simp only [reconnect_done hfirst, givesBackIdle_some]
        exact op.idle_func_iff (owner + 1) s.second
      | some r =>
        obtain ⟨c', err, hfails, hconns⟩ :=
          reconnect_fails hfirst (op.func owner s.first (owed [])).client
        simp only [hfails, givesBackIdle_some]
        refine forall_congr' fun i => ?_
        rw [hconns i, hclient]
        by_cases hi : i ≤ r
        · simp [hi]
        · rw [if_neg hi, owed_eq_nil_iff, ← op.owes_iff owner]
          simp [hi]
    · cases hlogged : s.logged with
      | true => simp
      | false => simp [op.idle_func_iff owner s.first]

/-- **Each run of the operation reads the replies to its own requests**, from the first on. -/
theorem runs_own (op : Operation n) (owner : Nat) (s : Script n) {e : Execution n}
    (he : catchRedisException op owner s (owed []) = some e) {k : Nat}
    {read : List (Option Request)} (hread : e.runs[k]? = some read) :
    read <+: (op.requests (owner + k)).map fun r => some r.2 := by
  have hfirst := (op.func_spec owner s.first).2.2
  have hone {read : List (Option Request)} {k : Nat}
      (h : [(op.func owner s.first (owed [])).read][k]? = some read) :
      read <+: (op.requests (owner + k)).map fun r => some r.2 := by
    cases k with
    | zero =>
      cases h
      exact hfirst
    | succ k => cases h
  rw [catchRedisException] at he
  simp only at he
  split at he
  · cases he
    exact hone hread
  · split at he
    · split at he
      · cases he
        exact hone hread
      · rename_i c hrec
        cases he
        -- the second run is on new connections
        obtain rfl := reconnect_idle hrec
        cases k with
        | zero =>
          cases hread
          exact hfirst
        | succ k =>
          cases k with
          | zero =>
            cases hread
            exact (op.func_spec (owner + 1) s.second).2.2
          | succ k => cases hread
    · split at he
      · cases he
      · cases he
        exact hone hread

/-! ## The pool

A thread that holds a client is the only one that does (`WebsocketTest/Redis/Sharing.lean`), so that
its execution can be one step. -/

/-- `guards` are the clients that the threads' `GiveBackGuard`s hold. `runs` is a ghost: how many
    runs of an operation have been numbered. -/
structure RedisCliMgr (n : Nat) (ι : Type) where
  listCli : List (RedisClient n)
  guards : ι → Option (RedisClient n)
  runs : Nat

/-- `GPN_OPERATION` in thread `i`, in two steps: it gets a client, and then it runs the operation
    and gives the client back. An execution whose `get` throws does neither, and one that has no
    result gives nothing back. -/
inductive PoolOp (n : Nat) (ι : Type)
  | get (i : ι)
  | finish (i : ι) (op : Operation n) (s : Script n)

variable {ι : Type}

namespace RedisCliMgr

/-- The constructor makes one client. -/
def new : RedisCliMgr n ι := ⟨[owed []], fun _ => none, 0⟩

/-- `get`: the first client of the list, or a new one. -/
def get (m : RedisCliMgr n ι) : RedisClient n × RedisCliMgr n ι :=
  match m.listCli with
  | c :: cs => (c, { m with listCli := cs })
  | [] => (owed [], m)

def giveback (m : RedisCliMgr n ι) (c : RedisClient n) : RedisCliMgr n ι :=
  { m with listCli := m.listCli ++ [c] }

def step [DecidableEq ι] (m : RedisCliMgr n ι) : PoolOp n ι → Option (RedisCliMgr n ι)
  | .get i =>
    match m.guards i with
    | some _ => none
    | none =>
      let (c, m) := m.get
      some { m with guards := Function.update m.guards i (some c) }
  | .finish i op s =>
    match m.guards i with
    | none => none
    | some c =>
      (catchRedisException op m.runs s c).map fun e =>
        { m.giveback e.client with
          guards := Function.update m.guards i none
          runs := m.runs + 2 }

/-- No client has a reply to come, whether it is in the list or in the hands of an operation. -/
structure AllIdle (m : RedisCliMgr n ι) : Prop where
  pooled : ∀ c ∈ m.listCli, Idle c
  held : ∀ i c, m.guards i = some c → Idle c

variable {m m' : RedisCliMgr n ι}

theorem new_allIdle : (new : RedisCliMgr n ι).AllIdle :=
  ⟨fun c hc => by rw [List.mem_singleton.mp hc]; exact idle_owed.mpr rfl, fun _ _ h => by cases h⟩

theorem AllIdle.get (h : m.AllIdle) : Idle m.get.1 ∧ m.get.2.AllIdle := by
  rw [RedisCliMgr.get]
  cases hl : m.listCli with
  | nil => exact ⟨idle_owed.mpr rfl, h⟩
  | cons c cs =>
    refine ⟨h.pooled c (by rw [hl]; exact List.mem_cons_self), fun c' hc' => ?_, h.held⟩
    exact h.pooled c' (by rw [hl]; exact List.mem_cons_of_mem _ hc')

/-- What a step should do: the client is given back idle, and each run of the operation read the
    replies to its own requests, from the first on. -/
def Pristine (m : RedisCliMgr n ι) : PoolOp n ι → Prop
  | .get _ => True
  | .finish i op s =>
    ∀ c, m.guards i = some c → ∃ e, catchRedisException op m.runs s c = some e ∧ Idle e.client ∧
      ∀ (k : Nat) (read : List (Option Request)), e.runs[k]? = some read →
        read <+: (op.requests (m.runs + k)).map fun r => some r.2

/-- The condition on a step of a run. -/
def EndsTidy (_ : RedisCliMgr n ι) : PoolOp n ι → Prop
  | .get _ => True
  | .finish _ op s => Tidy op s

variable [DecidableEq ι]

/-- On a pool of idle clients the one is the other. -/
theorem pristine_step_iff (h : m.AllIdle) {l : PoolOp n ι} (hs : m.step l = some m') :
    m.Pristine l ↔ m.EndsTidy l := by
  cases l with
  | get i => exact Iff.rfl
  | finish i op s =>
    cases hc : m.guards i with
    | none =>
      rw [step, hc] at hs
      cases hs
    | some c =>
      obtain rfl := idle_iff.mp (h.held i c hc)
      constructor
      · intro hp
        obtain ⟨e, he, hidle, -⟩ := hp _ hc
        exact (idle_execution_iff op m.runs s).mp ⟨e, he, hidle⟩
      · intro ht c' hc'
        cases hc.symm.trans hc'
        obtain ⟨e, he, hidle⟩ := (idle_execution_iff op m.runs s).mpr ht
        exact ⟨e, he, hidle, fun k read => runs_own op m.runs s he⟩

/-- **A tidy step keeps every client idle.** -/
theorem AllIdle.step (h : m.AllIdle) {l : PoolOp n ι} (ht : m.EndsTidy l)
    (hs : m.step l = some m') : m'.AllIdle := by
  cases l with
  | get i =>
    rw [RedisCliMgr.step] at hs
    split at hs
    · cases hs
    · cases hs
      obtain ⟨hidle, hrest⟩ := h.get
      refine ⟨hrest.pooled, fun j c' hc' => ?_⟩
      by_cases hj : j = i
      · subst hj
        simp only [Function.update_self] at hc'
        cases hc'
        exact hidle
      · simp only [Function.update_of_ne hj] at hc'
        exact hrest.held j c' hc'
  | finish i op s =>
    rw [RedisCliMgr.step] at hs
    split at hs
    · cases hs
    · rename_i c hc
      obtain rfl := idle_iff.mp (h.held i c hc)
      obtain ⟨e, he, hidle⟩ := (idle_execution_iff op m.runs s).mpr ht
      rw [he] at hs
      cases hs
      refine ⟨fun c' hc' => ?_, fun j c' hc' => ?_⟩
      · rcases List.mem_append.mp hc' with hc' | hc'
        · exact h.pooled c' hc'
        · rw [List.mem_singleton.mp hc']
          exact hidle
      · by_cases hj : j = i
        · subst hj
          simp at hc'
        · simp only [Function.update_of_ne hj] at hc'
          exact h.held j c' hc'

/-- **When the clients of the pool are clean.** One execution on an idle client gives it back idle
    exactly if it is tidy. And a run of the pool is one in which every client is given back idle,
    and every operation reads the replies to its own requests from the first on, exactly if every
    execution in it is tidy. -/
theorem pristine_iff (h : m.AllIdle) {ls : List (PoolOp n ι)} :
    (∀ (op : Operation n) owner s c, Idle c →
      ((∃ e, catchRedisException op owner s c = some e ∧ Idle e.client) ↔ Tidy op s)) ∧
    (Steps (guard Pristine (ofFn step)) m ls m' ↔ Steps (guard EndsTidy (ofFn step)) m ls m') ∧
    (Steps (guard EndsTidy (ofFn step)) m ls m' → m'.AllIdle) := by
  refine ⟨?_, ⟨?_, ?_⟩, ?_⟩
  · intro op owner s c hc
    obtain rfl := idle_iff.mp hc
    exact idle_execution_iff op owner s
  · intro hrun
    refine hrun.mono_on (P := AllIdle) (fun s l t hidle hs => ?_) h
    have ht := (pristine_step_iff hidle hs.2).mp hs.1
    exact ⟨⟨ht, hs.2⟩, hidle.step ht hs.2⟩
  · intro hrun
    refine hrun.mono_on (P := AllIdle) (fun s l t hidle hs => ?_) h
    exact ⟨⟨(pristine_step_iff hidle hs.2).mpr hs.1, hs.2⟩, hidle.step hs.1 hs.2⟩
  · intro hrun
    exact hrun.invariant (P := AllIdle) (fun _ _ _ hidle hs => hidle.step hs.1 hs.2) h

/-- A run whose `msetex` of one key finds every reply as it should be up to the `k`-th, which is an
    error. -/
def refusedAt (k : Nat) : RedisWorld :=
  ⟨fun _ => none, fun j => if j = k then .error "OOM".toList else .ok⟩

/-- A run whose first `send_` finds the connection gone. -/
def brokenPipe : RedisWorld := ⟨fun _ => some "Broken pipe".toList, fun _ => .ok⟩

/-- Two `msetex` of one key whose `EXPIRE` is refused, the last of their requests: once in the first
    run, with `ERROR` lines off, and once in the run after a reconnect, with `ERROR` lines on. -/
theorem pristine_iff_msetex :
    ∃ m : RedisCliMgr 1 Unit, m.listCli.length = 1 ∧ m.runs = 4 ∧ m.AllIdle := by
  have hrun : Steps (guard EndsTidy (ofFn step)) (new : RedisCliMgr 1 Unit)
      [.get (), .finish () (msetex [(0, 1)] (by decide))
          ⟨refusedAt 1, false, fun _ => none, refusedAt 1⟩,
        .get (), .finish () (msetex [(0, 1)] (by decide))
          ⟨brokenPipe, true, fun _ => none, refusedAt 1⟩] _ :=
    .cons ⟨trivial, rfl⟩ (.cons ⟨⟨rfl, fun i => List.not_mem_nil⟩, rfl⟩
      (.cons ⟨trivial, rfl⟩ (.single ⟨fun i => List.not_mem_nil, rfl⟩)))
  exact ⟨_, rfl, rfl, (pristine_iff new_allIdle).2.2 hrun⟩

/-- The connection is gone and comes back, and then the `MSET` of a `msetex` is refused, which
    leaves the reply to its `EXPIRE`. The client is given out again, and the next `msetex` takes
    that reply for the one to its own `MSET`. -/
theorem refused_mset :
    ∃ m : RedisCliMgr 1 Unit,
      Steps (ofFn step) new
        [.get (), .finish () (msetex [(0, 1)] (by decide))
          ⟨brokenPipe, true, fun _ => none, refusedAt 0⟩, .get ()] m ∧
      ∃ c, m.guards () = some c ∧ c 0 = [⟨1, 0, 1⟩] ∧
        ((msetex [(0, 1)] (by decide)).func m.runs ⟨fun _ => none, fun _ => .ok⟩ c).read =
          [some ⟨1, 0, 1⟩, some ⟨2, 0, 0⟩] := by
  have hrun : Steps (ofFn step) (new : RedisCliMgr 1 Unit)
      [.get (), .finish () (msetex [(0, 1)] (by decide))
        ⟨brokenPipe, true, fun _ => none, refusedAt 0⟩, .get ()] _ :=
    .cons rfl (.cons rfl (.single rfl))
  exact ⟨_, hrun, _, rfl, rfl, rfl⟩

end RedisCliMgr

end WebsocketTest
