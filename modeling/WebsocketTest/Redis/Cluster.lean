import WebsocketTest.Redis.Server

/-!
# Runs on a cluster

`runAll` is a run of operations, each in its own `try`. A client that keeps its servers as one map
over one operation keeps them so over any run of them (`comes_runAll`).

There are two functions `mset`. The one that takes the keys and the values apart asks for the socket
of *all* keys where the other asks for that of one, and gets -1 if they do not belong together; what
becomes of that is `comes_msetVectors`.

Every message must be `IntSized`. The five values of 512 megabytes that one server is to set at once
are each within what it takes, and their message is not: the count is negative, and nothing is set.

In the run each operation is in its own `try`, and what it throws is among the results. That is how
a caller goes on after an exception: the operations here leave nothing behind when they throw, so
the next one finds the client as it was. It is different with `exec`, whose commands may be answered
with what its reader gives up in the middle.

Of the two `mset`s the one for vectors fails for a reason that its interface does not show. Two keys
belong to one server or they do not, and that is for the hasher to say: with one server it works for
all keys, and with a second one it stops to work for most.
-/

set_option autoImplicit false

namespace WebsocketTest.Redis

open Std Lib.Text Lib.Outcome Lib.Stream Lib.Resp Lib.Pipeline Lib.SortedMap Lib.Integers

variable {σ : Type}

section Code

variable (lexicalCast : Str → Option Int) (serve : σ → List Str → σ × Value) (c : BaseClient)

def runAll : List KvOp → Op σ (List (Except Thrown KvResult))
  | [] => pure []
  | op :: ops => do
    let r ← attempt (op.run lexicalCast serve c)
    pure (r :: (← runAll ops))

/-- `mset`, of keys and of as many values. -/
def msetVectors (keys values : List Str) : Op σ Unit := do
  let socketCommands : Sockets MakeCmd := collectFrom (fun _ => c.getSocketOf keys)
    (fun cmd p => ((cmd.getD (MakeCmd.new "MSET".toList)).append p.1).append p.2) ∅
    (keys.zip values)
  sendAll serve c (socketCommands.toList.map fun sp => (sp.1, sp.2.str))
  recvLoop recvOkReply (fun _ _ _ => ()) () socketCommands.toList

end Code

/-- The operations, on one map. -/
def specAll : List KvOp → Strings → List (Except Thrown KvResult) × Strings
  | [], m => ([], m)
  | op :: ops, m =>
    let rest := specAll ops (op.spec m).2
    ((op.spec m).1 :: rest.1, rest.2)

section Proofs

variable {lexicalCast : Str → Option Int} {serve : σ → List Str → σ × Value} {c : BaseClient}
  {lookup : σ → Strings} {m : Strings}

/-- **A run on the servers is a run on the map.** -/
theorem comes_runAll (hk : KeepsStrings serve lookup) (hcast : ReadsLongs lexicalCast)
    {ops : List KvOp} (hops : ∀ op ∈ ops, op.Sound c) (m : Strings) :
    Comes (Cluster c lookup) (runAll lexicalCast serve c ops) m (.ok (specAll ops m).1)
      (specAll ops m).2 := by
  induction ops generalizing m with
  | nil => exact Comes.pure []
  | cons op ops ih =>
    rw [List.forall_mem_cons] at hops
    exact (comes_spec hk hcast hops.1 m).attempt.bind ((ih hops.2 _).bind (Comes.pure _))

/-- The servers of an idle client, as one map. -/
theorem cluster_quietNet (server : Int → σ) :
    Cluster c lookup (quietNet server) fun k => lookup (server (c.getSocket k)) k :=
  ⟨server, quiet_quietNet server, fun _ => rfl⟩

/-- **The servers together are one map**: a run of any operations, from any state, gives the
    results that it gives on the map, and ends in a state that shows the map at its end. -/
theorem runAll_spec (hk : KeepsStrings serve lookup) (hcast : ReadsLongs lexicalCast)
    {ops : List KvOp} (hops : ∀ op ∈ ops, op.Sound c) {w : Net σ} (hw : Cluster c lookup w m) :
    ∃ w', (runAll lexicalCast serve c ops).run.run w = (.ok (specAll ops m).1, w') ∧
      Cluster c lookup w' (specAll ops m).2 :=
  comes_runAll hk hcast hops m w hw

/-- Three keys on two servers, and each kind of operation. -/
def tour : List KvOp :=
  [.mset [("a".toList, "1".toList), ("long".toList, "2".toList), ("a".toList, "3".toList)],
    .append "long".toList "\r\n".toList, .mget ["long".toList, "none".toList, "a".toList],
    .setnx "a".toList "4".toList, .delRange ["none".toList, "a".toList], .exists_ "a".toList]

theorem runAll_spec_tour : ∃ w',
    (runAll readInt StringStore.answer twoServers tour).run.run
        (quietNet fun _ => StringStore.empty) =
      (.ok [.ok .done, .ok (.size 3),
        .ok (.vec ["2\r\n".toList, "**nonexistent-key**".toList, "3".toList]),
        .ok (.bool false), .ok (.bool true), .ok (.bool false)], w') ∧
      Cluster twoServers (fun s => s.1) w' (specAll tour fun _ => none).2 := by
  have hops : ∀ op ∈ tour, op.Sound twoServers := by decide +kernel
  have hresults : (specAll tour fun _ => none).1 = [.ok .done, .ok (.size 3),
      .ok (.vec ["2\r\n".toList, "**nonexistent-key**".toList, "3".toList]),
      .ok (.bool false), .ok (.bool true), .ok (.bool false)] := by decide +kernel
  rw [← hresults]
  exact runAll_spec StringStore.keepsStrings_answer readsLongs_readInt hops
    (cluster_quietNet fun _ => StringStore.empty)

/-! ## `mset`, of vectors

The socket -1 is what `get_socket` returns for keys that do not belong together. A `write` to it
fails before any server gets a byte. -/

/-- The keys belong to one server, which none and one always do. -/
def Together (c : BaseClient) (keys : List Str) : Prop :=
  ∀ k ∈ keys, ∀ k' ∈ keys, c.getSocket k = c.getSocket k'

instance (c : BaseClient) (keys : List Str) : Decidable (Together c keys) :=
  inferInstanceAs (Decidable (∀ k ∈ keys, ∀ k' ∈ keys, _))

theorem sameSocket_eq (socket : Int) (keys : List Str) :
    c.sameSocket socket keys = if ∀ k ∈ keys, c.getSocket k = socket then socket else -1 := by
  induction keys generalizing socket with
  | nil => simp [BaseClient.sameSocket]
  | cons key keys ih =>
    rw [BaseClient.sameSocket, ih]
    simp only [List.forall_mem_cons]
    by_cases hkey : socket = c.getSocket key
    · rw [if_neg (not_not_intro hkey), ← hkey]
      simp only [true_and]
    · rw [if_pos hkey, if_neg fun h => hkey h.1.symm]

/-- **The socket of several keys** is that of each of them, or none. -/
theorem getSocketOf_eq (key : Str) (keys : List Str) :
    c.getSocketOf (key :: keys) =
      if Together c (key :: keys) then c.getSocket key else -1 := by
  have htogether : Together c (key :: keys) ↔ ∀ k ∈ keys, c.getSocket k = c.getSocket key := by
    constructor
    · intro h k hk
      exact h k (List.mem_cons_of_mem _ hk) key List.mem_cons_self
    · intro h
      have heq : ∀ k ∈ key :: keys, c.getSocket k = c.getSocket key := by
        rw [List.forall_mem_cons]
        exact ⟨rfl, h⟩
      exact fun k hk k' hk' => (heq k hk).trans (heq k' hk').symm
  rw [BaseClient.getSocketOf]
  split
  · rename_i hone
    have hall (k : Str) : c.getSocket k = c.connections.getD 0 (-1) := by
      rw [BaseClient.getSocket, if_pos hone]
    have hone' : Together c (key :: keys) := fun k _ k' _ => (hall k).trans (hall k').symm
    rw [if_pos hone', hall]
  · simp only [sameSocket_eq, htogether]

/-- The pairs of keys that belong together all go to their server. -/
theorem msetVectors_together {keys values : List Str} (h : Together c keys) :
    msetVectors serve c keys values = mset serve c (keys.zip values) := by
  have hcollect : (collectFrom (fun _ => c.getSocketOf keys)
      (fun cmd p => ((cmd.getD (MakeCmd.new "MSET".toList)).append p.1).append p.2) ∅
      (keys.zip values) : Sockets MakeCmd) = collectPairs c (keys.zip values) := by
    refine List.foldl_ext _ _ _ fun t p hp => ?_
    have hmem : p.1 ∈ keys := (List.of_mem_zip hp).1
    have hsocket : c.getSocketOf keys = c.getSocket p.1 := by
      cases keys with
      | nil => cases hmem
      | cons key keys =>
        rw [getSocketOf_eq, if_pos h]
        exact h key List.mem_cons_self p.1 hmem
    rw [hsocket]
  rw [msetVectors, hcollect, mset]

/-- What is sent to no socket is not sent, unless its size wraps to zero. -/
theorem comes_sendAll_closed {l : List (Int × Str)} (hne : l ≠ [])
    (hl : ∀ p ∈ l, p.1 = -1 ∧ p.2 ≠ [] ∧ IntSized p.2) {A : Type} {R : Net σ → A → Prop} {a : A} :
    Comes R (sendAll serve c l) a (.error (.connection "Bad file descriptor".toList)) a := by
  cases l with
  | nil => exact absurd rfl hne
  | cons p l =>
    obtain ⟨hsocket, hmsg, hsize⟩ := hl p List.mem_cons_self
    have hclosed : p.1 ∉ c.connections := fun hmem => by
      have := c.positive _ hmem
      omega
    have hcount : ¬ toS32 p.2.length = 0 := by
      have := List.length_pos_iff.mpr hmsg
      rw [hsize.count]
      omega
    have hsend : Comes R (send_ serve c p.1 p.2) a
        (.error (.connection "Bad file descriptor".toList)) a := by
      intro w hw
      refine ⟨w, ?_, hw⟩
      rw [send_, run_program]
      simp only [if_neg hclosed, if_neg hcount]
    exact hsend.bind_error

/-- What `mset` of vectors sends, to the one socket it asks for. -/
def msetMessage (keys values : List Str) : Str :=
  request ("MSET".toList :: (keys.zip values).flatMap fun p => [p.1, p.2])

/-- The part of the pairs that is for one server is no longer than the whole. -/
theorem intSized_filter {keys values : List Str} (h : IntSized (msetMessage keys values))
    (htogether : Together c keys) (s : Int) :
    IntSized (request ((KvOp.mset (keys.zip values)).lines c s)) := by
  have hall : ∀ p ∈ keys.zip values, ∀ q ∈ keys.zip values, c.getSocket p.1 = c.getSocket q.1 :=
    fun p hp q hq => htogether p.1 (List.of_mem_zip hp).1 q.1 (List.of_mem_zip hq).1
  rw [KvOp.lines]
  by_cases hnil : (keys.zip values).filter (c.getSocket ·.1 = s) = []
  · rw [hnil]
    decide
  · obtain ⟨p, hp⟩ := List.exists_mem_of_ne_nil _ hnil
    obtain ⟨hp, hs⟩ := List.mem_filter.mp hp
    have hself : (keys.zip values).filter (c.getSocket ·.1 = s) = keys.zip values :=
      List.filter_eq_self.mpr fun q hq => decide_eq_true
        ((hall q hq p hp).trans (of_decide_eq_true hs))
    rw [hself]
    exact h

/-- **`mset` of vectors** sets the keys if they belong to one server, and otherwise none of them. -/
theorem comes_msetVectors (hk : KeepsStrings serve lookup) {keys values : List Str}
    (hlen : keys.length = values.length) (hvalues : ∀ v ∈ values, Fits v)
    (hsize : IntSized (msetMessage keys values)) :
    Comes (Cluster c lookup) (msetVectors serve c keys values) m
      (if Together c keys then .ok ()
        else .error (.connection "Bad file descriptor".toList))
      (if Together c keys then setAll m (keys.zip values) else m) := by
  by_cases h : Together c keys
  · rw [if_pos h, if_pos h, msetVectors_together h]
    exact comes_mset hk (fun p hp => hvalues _ (List.of_mem_zip hp).2)
      fun s _ => intSized_filter hsize h s
  · rw [if_neg h, if_neg h]
    have hsocket : c.getSocketOf keys = -1 := by
      cases keys with
      | nil => exact absurd (fun k hk => absurd hk List.not_mem_nil) h
      | cons key keys => rw [getSocketOf_eq, if_neg h]
    have hzip : keys.zip values ≠ [] := by
      rintro hnil
      have hzero := congrArg List.length hnil
      rw [List.length_zip, ← hlen, Nat.min_self, List.length_nil,
        List.length_eq_zero_iff] at hzero
      rw [hzero] at h
      exact h fun k hk => absurd hk List.not_mem_nil
    -- one command, for the socket that is none
    have hget (s : Int) : (collectFrom (fun _ => c.getSocketOf keys)
        (fun cmd p => ((cmd.getD (MakeCmd.new "MSET".toList)).append p.1).append p.2) ∅
        (keys.zip values) : Sockets MakeCmd)[s]? =
        if s = -1 then
          some ⟨"MSET".toList :: (keys.zip values).flatMap fun p => [p.1, p.2]⟩
        else none := by
      rw [hsocket, getElem?_collectFrom]
      by_cases hs : s = -1
      · rw [if_pos hs, List.filter_eq_self.mpr (by simp [hs])]
        cases hz : keys.zip values with
        | nil => exact absurd hz hzip
        | cons p ps =>
          change List.foldl _ (some (((MakeCmd.new "MSET".toList).append p.1).append p.2)) ps = _
          rw [foldl_appendPair]
          simp [MakeCmd.append, MakeCmd.new]
      · rw [if_neg hs, List.filter_eq_nil_iff.mpr fun _ _ => by simpa using Ne.symm hs]
        rfl
    rw [msetVectors]
    generalize (collectFrom (fun _ => c.getSocketOf keys)
      (fun cmd p => ((cmd.getD (MakeCmd.new "MSET".toList)).append p.1).append p.2) ∅
      (keys.zip values) : Sockets MakeCmd) = t at hget
    refine (comes_sendAll_closed (fun hnil => ?_) fun q hq => ?_).bind_error
    · rw [List.map_eq_nil_iff] at hnil
      have hmem := ExtTreeMap.mem_toList_iff_getElem?_eq_some.mpr ((hget (-1)).trans (if_pos rfl))
      rw [hnil] at hmem
      cases hmem
    · obtain ⟨p, hp, rfl⟩ := List.mem_map.mp hq
      obtain ⟨s, cmd⟩ := p
      have hcmd := ExtTreeMap.mem_toList_iff_getElem?_eq_some.mp hp
      rw [hget] at hcmd
      split at hcmd
      · rename_i hs
        cases hcmd
        rw [MakeCmd.str_eq]
        exact ⟨hs, List.cons_ne_nil _ _, hsize⟩
      · cases hcmd

/-- **`mset` of vectors**, from any state: it does what the other `mset` does if the keys belong to
    one server. Otherwise it throws and sets none of them. -/
theorem msetVectors_spec (hk : KeepsStrings serve lookup) {keys values : List Str}
    (hlen : keys.length = values.length) (hvalues : ∀ v ∈ values, Fits v)
    (hsize : IntSized (msetMessage keys values)) {w : Net σ} (hw : Cluster c lookup w m) :
    ∃ w', (msetVectors serve c keys values).run.run w =
        (if Together c keys then .ok ()
          else .error (.connection "Bad file descriptor".toList), w') ∧
      Cluster c lookup w' (if Together c keys then setAll m (keys.zip values) else m) :=
  comes_msetVectors hk hlen hvalues hsize w hw

/-- Two keys on two servers. -/
theorem msetVectors_spec_apart : ∃ w',
    (msetVectors StringStore.answer twoServers ["a".toList, "long".toList]
        ["1".toList, "2".toList]).run.run (quietNet fun _ => StringStore.empty) =
      (.error (.connection "Bad file descriptor".toList), w') ∧
      Cluster twoServers (fun s => s.1) w' fun _ => none := by
  have hapart : ¬ Together twoServers ["a".toList, "long".toList] := by decide
  have hvalues : ∀ v ∈ ["1".toList, "2".toList], Fits v := by decide
  have hlen : ["a".toList, "long".toList].length = ["1".toList, "2".toList].length := rfl
  have hsize : IntSized (msetMessage ["a".toList, "long".toList] ["1".toList, "2".toList]) := by
    decide +kernel
  obtain ⟨w', hrun, hw'⟩ := msetVectors_spec StringStore.keepsStrings_answer hlen hvalues hsize
    (cluster_quietNet (c := twoServers) fun _ => StringStore.empty)
  rw [if_neg hapart] at hrun hw'
  exact ⟨w', hrun, hw'⟩

end Proofs

end WebsocketTest.Redis
