import Mathlib.Data.List.Dedup
import WebsocketTest.Redis.Exec

/-!
# Many servers as one map

The operations of `redis::base_client` on strings. A key belongs to the server that the hasher
picks, and operations on several keys are cut up: `mset`, `mget` and `del` make one request for each
server that has some of the keys, and put the replies together again.

Of the servers only what they say of strings is assumed (`KeepsStrings`). `KvOp.spec` is what each
operation does to *one* map.

**`comes_spec`** — to the client, the servers together are that map.

`KvOp.Sound` is what an operation needs for that: that no value is longer than a server takes, and
that no message is longer than `anetWrite` can be told (`IntSized`). An operation on several keys
sends one message to each server, so that it is the part for one server that must not be too long.

## How one map comes out of many

A `Cluster` is a client that owes nothing, whose servers have of each key what the map has of it.
The servers may have more: what one of them keeps for keys that belong elsewhere is never asked for.
So an operation on one key is one request to one server (`comes_key`), and the others keep what they
have.

An operation on several keys goes through three loops: the keys are collected by socket, each socket
is sent its request, and each is read from. The loops are those of `exec`, over a map from sockets,
and `comes_group` is the lemma for all three operations: it needs what is collected for a socket,
and what its server answers to that. What differs is how the answers are put together again: `mset`
has nothing to put together, `del` adds numbers, and `mget` puts each value at the place of its key
(`scatter_all`). That a key may come twice makes the last two less plain than they look; it is why
`deleted` counts each key once, and why `scatter` goes by places and not by keys.
-/

set_option autoImplicit false

namespace WebsocketTest.Redis

open Std Lib.Text Lib.Outcome Lib.Stream Lib.Resp Lib.Pipeline Lib.SortedMap Lib.Integers

variable {σ : Type}

section Code

variable (lexicalCast : Str → Option Int) (serve : σ → List Str → σ × Value) (c : BaseClient)

def set (key value : Str) : Op σ Unit := do
  send_ serve c (c.getSocket key) ((MakeCmd.new "SET".toList).append key |>.append value).str
  recvFrom (c.getSocket key) recvOkReply

def get (key : Str) : Op σ Str := do
  send_ serve c (c.getSocket key) ((MakeCmd.new "GET".toList).append key).str
  recvFrom (c.getSocket key) (recvBulkReply lexicalCast)

def getset (key value : Str) : Op σ Str := do
  send_ serve c (c.getSocket key) ((MakeCmd.new "GETSET".toList).append key |>.append value).str
  recvFrom (c.getSocket key) (recvBulkReply lexicalCast)

def setnx (key value : Str) : Op σ Bool := do
  send_ serve c (c.getSocket key) ((MakeCmd.new "SETNX".toList).append key |>.append value).str
  let reply ← recvFrom (c.getSocket key) (recvIntReply lexicalCast)
  pure (reply == 1)

/-- `append`, of which the reply is kept in an `int`. -/
def append (key value : Str) : Op σ Int := do
  send_ serve c (c.getSocket key) ((MakeCmd.new "APPEND".toList).append key |>.append value).str
  let res := toS32 (← recvFrom (c.getSocket key) (recvIntReply lexicalCast))
  if res < 0 then throw (.protocol "expected value size".toList) else pure res

def exists_ (key : Str) : Op σ Bool := do
  send_ serve c (c.getSocket key) ((MakeCmd.new "EXISTS".toList).append key).str
  let reply ← recvFrom (c.getSocket key) (recvIntReply lexicalCast)
  pure (reply == 1)

def del (key : Str) : Op σ Bool := do
  send_ serve c (c.getSocket key) ((MakeCmd.new "DEL".toList).append key).str
  let reply ← recvFrom (c.getSocket key) (recvIntReply lexicalCast)
  pure (reply != 0)

/-- A loop over sockets that reads a reply from each and goes on with what it makes of it. -/
def recvLoop {α β τ : Type} (m : Recv β) (step : τ → α → β → τ) :
    τ → List (Int × α) → Op σ τ
  | t, [] => pure t
  | t, (socket, a) :: sps => do
    let reply ← recvFrom socket m
    recvLoop m step (step t a reply) sps

/-- The map of `mset`: the command for each socket. -/
def collectPairs (keyValuePairs : List (Str × Str)) : Sockets MakeCmd :=
  collectFrom (fun p => c.getSocket p.1)
    (fun cmd p => ((cmd.getD (MakeCmd.new "MSET".toList)).append p.1).append p.2) ∅ keyValuePairs

/-- `mset`, of pairs. -/
def mset (keyValuePairs : List (Str × Str)) : Op σ Unit := do
  let socketCommands := collectPairs c keyValuePairs
  sendAll serve c (socketCommands.toList.map fun sp => (sp.1, sp.2.str))
  recvLoop recvOkReply (fun _ _ _ => ()) () socketCommands.toList

/-- `connection_keys`: the command, and the places of its keys among all keys. -/
structure ConnectionKeys where
  cmd : MakeCmd
  indices : List Nat

/-- What a server answers is put at the places of its keys. -/
def scatter (out : List Str) (indices : List Nat) (curOut : List Str) : List Str :=
  (indices.zip curOut).foldl (fun out p => out.set p.1 p.2) out

/-- The map of `mget`. -/
def collectKeys (keys : List Str) : Sockets ConnectionKeys :=
  collectFrom (fun p => c.getSocket p.1)
    (fun conKeys p =>
      ⟨((conKeys.map ConnectionKeys.cmd).getD (MakeCmd.new "MGET".toList)).append p.1,
        ((conKeys.map ConnectionKeys.indices).getD []) ++ [p.2]⟩) ∅ keys.zipIdx

def mget (keys : List Str) : Op σ (List Str) := do
  let socketCommands := collectKeys c keys
  sendAll serve c (socketCommands.toList.map fun sp => (sp.1, sp.2.cmd.str))
  recvLoop (recvMultiBulkReply lexicalCast [])
    (fun out conKeys reply => scatter out conKeys.indices reply.2)
    (List.replicate keys.length []) socketCommands.toList

/-- The map of `del`: the keys for each socket. -/
def collectDel (keys : List Str) : Sockets (List Str) :=
  collectFrom (fun key => c.getSocket key) (fun ks key => ks.getD [] ++ [key]) ∅ keys

/-- `del`, of a range. -/
def delRange (keys : List Str) : Op σ Bool := do
  let sockKeyMap := collectDel c keys
  sendAll serve c (sockKeyMap.toList.map fun p =>
    (p.1, ((MakeCmd.new "DEL".toList).appendAll p.2).str))
  let res ← recvLoop (recvIntReply lexicalCast) (fun res _ reply => res + reply) 0 sockKeyMap.toList
  pure (res != 0)

end Code

/-! ## What the servers promise

A server is anything that keeps this promise. It is about strings only: nothing is said of other
commands, or of how the strings are kept. -/

/-- The strings of a server. -/
abbrev Strings := Str → Option Str

/-- A string is at most 512 megabytes long. -/
def Fits (value : Str) : Prop := value.length ≤ 536870912

instance (value : Str) : Decidable (Fits value) := inferInstanceAs (Decidable (_ ≤ _))

/-- A string, or that there is none. -/
def valueOf : Option Str → Value
  | some value => .bulk value
  | none => .nil

/-- Several keys are set, one after the other. -/
def setAll (m : Strings) (pairs : List (Str × Str)) : Strings :=
  pairs.foldl (fun m p => Function.update m p.1 (some p.2)) m

def deleteAll (m : Strings) (keys : List Str) : Strings := fun k => if k ∈ keys then none else m k

/-- A server keeps strings: what it answers to each command, and what it keeps after it. -/
structure KeepsStrings (serve : σ → List Str → σ × Value) (lookup : σ → Strings) : Prop where
  fits : ∀ s k v, lookup s k = some v → Fits v
  get : ∀ s k, lookup (serve s ["GET".toList, k]).1 = lookup s ∧
    (serve s ["GET".toList, k]).2 = valueOf (lookup s k)
  set : ∀ s k v, Fits v →
    lookup (serve s ["SET".toList, k, v]).1 = Function.update (lookup s) k (some v) ∧
      (serve s ["SET".toList, k, v]).2 = .status "OK".toList
  getset : ∀ s k v, Fits v →
    lookup (serve s ["GETSET".toList, k, v]).1 = Function.update (lookup s) k (some v) ∧
      (serve s ["GETSET".toList, k, v]).2 = valueOf (lookup s k)
  setnx : ∀ s k v, Fits v →
    lookup (serve s ["SETNX".toList, k, v]).1 =
        (if (lookup s k).isSome then lookup s else Function.update (lookup s) k (some v)) ∧
      (serve s ["SETNX".toList, k, v]).2 = .int (if (lookup s k).isSome then 0 else 1)
  append : ∀ s k v, Fits ((lookup s k).getD [] ++ v) →
    lookup (serve s ["APPEND".toList, k, v]).1 =
        Function.update (lookup s) k (some ((lookup s k).getD [] ++ v)) ∧
      (serve s ["APPEND".toList, k, v]).2 = .int ((lookup s k).getD [] ++ v).length
  append_over : ∀ s k v, ¬ Fits ((lookup s k).getD [] ++ v) →
    lookup (serve s ["APPEND".toList, k, v]).1 = lookup s ∧
      ∃ text, OneLine text ∧ (serve s ["APPEND".toList, k, v]).2 = .error text
  exists_ : ∀ s k, lookup (serve s ["EXISTS".toList, k]).1 = lookup s ∧
    (serve s ["EXISTS".toList, k]).2 = .int (if (lookup s k).isSome then 1 else 0)
  del : ∀ s ks, ks ≠ [] → lookup (serve s ("DEL".toList :: ks)).1 = deleteAll (lookup s) ks ∧
    (serve s ("DEL".toList :: ks)).2 = .int (ks.dedup.filter fun k => (lookup s k).isSome).length
  mset : ∀ s ps, ps ≠ [] → (∀ p ∈ ps, Fits p.2) →
    lookup (serve s ("MSET".toList :: ps.flatMap fun p => [p.1, p.2])).1 = setAll (lookup s) ps ∧
      (serve s ("MSET".toList :: ps.flatMap fun p => [p.1, p.2])).2 = .status "OK".toList
  mget : ∀ s ks, ks ≠ [] → lookup (serve s ("MGET".toList :: ks)).1 = lookup s ∧
    (serve s ("MGET".toList :: ks)).2 = .array (ks.map fun k => valueOf (lookup s k))

/-! ## One map

The specification. It knows neither servers nor requests. Where a server has no string for a key the
client is told `missingValue`, so that a client cannot tell a key that is not there from one that
has this text. -/

inductive KvOp
  | set (key value : Str)
  | get (key : Str)
  | getset (key value : Str)
  | setnx (key value : Str)
  | append (key value : Str)
  | exists_ (key : Str)
  | del (key : Str)
  | mset (pairs : List (Str × Str))
  | mget (keys : List Str)
  | delRange (keys : List Str)

inductive KvResult
  | done
  | str (value : Str)
  | bool (b : Bool)
  | size (n : Int)
  | vec (values : List Str)
  deriving DecidableEq

/-- What a client gets for a string that may not be there. -/
def shown (value : Option Str) : Str := value.getD missingValue

namespace KvOp

/-- An operation, on a map. -/
def spec : KvOp → Strings → Except Thrown KvResult × Strings
  | .set k v, m => (.ok .done, Function.update m k (some v))
  | .get k, m => (.ok (.str (shown (m k))), m)
  | .getset k v, m => (.ok (.str (shown (m k))), Function.update m k (some v))
  | .setnx k v, m =>
    if (m k).isSome then (.ok (.bool false), m)
    else (.ok (.bool true), Function.update m k (some v))
  | .append k v, m =>
    let value := (m k).getD [] ++ v
    if Fits value then (.ok (.size value.length), Function.update m k (some value))
    else (.error (.protocol "unexpected prefix for integer reply".toList), m)
  | .exists_ k, m => (.ok (.bool (m k).isSome), m)
  | .del k, m => (.ok (.bool (m k).isSome), deleteAll m [k])
  | .mset ps, m => (.ok .done, setAll m ps)
  | .mget ks, m => (.ok (.vec (ks.map fun k => shown (m k))), m)
  | .delRange ks, m => (.ok (.bool (ks.any fun k => (m k).isSome)), deleteAll m ks)

/-- An operation, on the servers. -/
def run (lexicalCast : Str → Option Int) (serve : σ → List Str → σ × Value) (c : BaseClient) :
    KvOp → Op σ KvResult
  | .set k v => do
    Redis.set serve c k v
    pure .done
  | .get k => KvResult.str <$> Redis.get lexicalCast serve c k
  | .getset k v => KvResult.str <$> Redis.getset lexicalCast serve c k v
  | .setnx k v => KvResult.bool <$> Redis.setnx lexicalCast serve c k v
  | .append k v => KvResult.size <$> Redis.append lexicalCast serve c k v
  | .exists_ k => KvResult.bool <$> Redis.exists_ lexicalCast serve c k
  | .del k => KvResult.bool <$> Redis.del lexicalCast serve c k
  | .mset ps => do
    Redis.mset serve c ps
    pure .done
  | .mget ks => KvResult.vec <$> Redis.mget lexicalCast serve c ks
  | .delRange ks => KvResult.bool <$> Redis.delRange lexicalCast serve c ks

/-- The values that are to be set. -/
def values : KvOp → List Str
  | .set _ v | .getset _ v | .setnx _ v => [v]
  | .mset ps => ps.map Prod.snd
  | _ => []

/-- What is sent to a socket that is concerned, as the lines of one request. It is here for the
    bound on its length. -/
def lines (c : BaseClient) (s : Int) : KvOp → List Str
  | .set k v => ["SET".toList, k, v]
  | .get k => ["GET".toList, k]
  | .getset k v => ["GETSET".toList, k, v]
  | .setnx k v => ["SETNX".toList, k, v]
  | .append k v => ["APPEND".toList, k, v]
  | .exists_ k => ["EXISTS".toList, k]
  | .del k => ["DEL".toList, k]
  | .mset ps => "MSET".toList :: (ps.filter (c.getSocket ·.1 = s)).flatMap fun p => [p.1, p.2]
  | .mget ks => "MGET".toList :: ks.filter (c.getSocket · = s)
  | .delRange ks => "DEL".toList :: ks.filter (c.getSocket · = s)

/-- What is to be set is no longer than a string can be, and the size of each message an `int`. -/
def Sound (c : BaseClient) (op : KvOp) : Prop :=
  (∀ v ∈ op.values, Fits v) ∧ ∀ s ∈ c.connections, IntSized (request (op.lines c s))

instance (c : BaseClient) (op : KvOp) : Decidable (op.Sound c) :=
  inferInstanceAs (Decidable (_ ∧ ∀ s ∈ c.connections, _))

end KvOp

/-! ## One key

Each operation is a request and a reader, and what is left to show is that the reader makes of the
answer what the specification says. -/

section Proofs

variable {lexicalCast : Str → Option Int} {serve : σ → List Str → σ × Value} {c : BaseClient}
  {lookup : σ → Strings} {m : Strings}

/-- No reply is owed, and each key is in the map what it is at its server. -/
def Cluster (c : BaseClient) (lookup : σ → Strings) (w : Net σ) (m : Strings) : Prop :=
  ∃ server, Shows w (.whole server (owed [])) ∧ ∀ k, m k = lookup (server (c.getSocket k)) k

theorem comes_cluster {β : Type} {op : Op σ β} {r : Except Thrown β} {m' : Strings}
    (h : ∀ server, (∀ k, m k = lookup (server (c.getSocket k)) k) →
      ∃ server', Comes Shows op (.whole server (owed [])) r (.whole server' (owed [])) ∧
        ∀ k, m' k = lookup (server' (c.getSocket k)) k) :
    Comes (Cluster c lookup) op m r m' := by
  rintro w ⟨server, hw, hm⟩
  obtain ⟨server', hop, hm'⟩ := h server hm
  obtain ⟨w', hrun, hw'⟩ := hop w hw
  exact ⟨w', hrun, server', hw', hm'⟩

/-- **A request about one key**: what it does to the key at its server, it does to it in the map. -/
theorem comes_key {β : Type} {reader : Recv β} {r : Except Thrown β} {key : Str}
    {args : List Str} (hsize : IntSized (request args)) {x : Option Str}
    (hlookup : ∀ s, lookup s key = m key →
      lookup (serve s args).1 = Function.update (lookup s) key x)
    (hreads : ∀ s, lookup s key = m key →
      ∀ ending rest, Reads ending reader (encode (serve s args).2 ++ rest) r rest) :
    Comes (Cluster c lookup)
      (send_ serve c (c.getSocket key) (request args) >>= fun _ =>
        recvFrom (c.getSocket key) reader)
      m r (Function.update m key x) := by
  refine comes_cluster fun server hm => ?_
  refine ⟨_, comes_single server (c.getSocket_mem key) hsize (hreads _ (hm key).symm), fun k => ?_⟩
  by_cases hk : c.getSocket k = c.getSocket key
  · rw [hk, Function.update_self, hlookup _ (hm key).symm, Function.update_apply,
      Function.update_apply, hm k, hk]
  · have hne : k ≠ key := fun h => hk (congrArg c.getSocket h)
    rw [Function.update_of_ne hk, Function.update_of_ne hne, hm k]

theorem Fits.isLong {value : Str} (h : Fits value) : IsLong (value.length + 2) := by
  unfold Fits at h
  exact ⟨by omega, by omega⟩

theorem reads_valueOf (hcast : ReadsLongs lexicalCast) {o : Option Str}
    (ho : ∀ value, o = some value → Fits value) (ending : Option Str) (rest : Str) :
    Reads ending (recvBulkReply lexicalCast) (encode (valueOf o) ++ rest) (.ok (shown o)) rest := by
  cases o with
  | none => exact reads_bulkReply_nil hcast
  | some value => exact reads_bulkReply hcast (ho value rfl).isLong

theorem reads_okReply (ending : Option Str) (rest : Str) :
    Reads ending recvOkReply (encode (.status "OK".toList) ++ rest) (.ok ()) rest := by
  have hline : Reads ending recvSingleLineReply (encode (.status "OK".toList) ++ rest)
      (.ok "OK".toList) rest := by
    refine (reads_status (by decide)).bind ?_
    rw [if_neg (by decide), if_neg (by decide), if_neg (by decide)]
    exact reads_substr (by decide)
  refine hline.bind ?_
  rw [if_neg (by decide)]
  exact Comes.pure ()

/-- A request that is answered with a number, and what is made of the number. -/
theorem comes_int {β : Type} (hcast : ReadsLongs lexicalCast) {key : Str} {args : List Str}
    (hsize : IntSized (request args)) {x : Option Str} {z : Int} {next : Int → Op σ β}
    {r : Except Thrown β}
    (hlookup : ∀ s, lookup s key = m key →
      lookup (serve s args).1 = Function.update (lookup s) key x)
    (hreply : ∀ s, lookup s key = m key → (serve s args).2 = .int z) (hz : IsLong z)
    (hnext : ∀ m', Comes (Cluster c lookup) (next z) m' r m') :
    Comes (Cluster c lookup)
      (send_ serve c (c.getSocket key) (request args) >>= fun _ =>
        recvFrom (c.getSocket key) (recvIntReply lexicalCast) >>= next)
      m r (Function.update m key x) := by
  rw [← bind_assoc]
  refine (comes_key hsize hlookup fun s hs ending rest => ?_).bind (hnext _)
  rw [hreply s hs]
  exact reads_intReply hcast hz

theorem deleteAll_singleton (m : Strings) (key : Str) :
    deleteAll m [key] = Function.update m key none := by
  funext k
  simp only [deleteAll, List.mem_singleton, Function.update_apply]

/-- An error, where a number is expected. -/
theorem reads_intReply_error {text : Str} (h : OneLine text) (ending : Option Str) (rest : Str) :
    Reads ending (recvIntReply lexicalCast) (encode (.error text) ++ rest)
      (.error (.protocol "unexpected prefix for integer reply".toList)) rest := by
  refine (reads_error h).bind ?_
  rw [if_neg (List.cons_ne_nil _ _), if_pos (by simp)]
  exact Comes.throw _

section OneKey

variable (hk : KeepsStrings serve lookup) (hcast : ReadsLongs lexicalCast) (key value : Str)
include hk

theorem comes_set (hv : Fits value) (hsize : IntSized (request ["SET".toList, key, value])) :
    Comes (Cluster c lookup) (set serve c key value) m (.ok ())
      (Function.update m key (some value)) := by
  rw [set, MakeCmd.str_eq]
  refine comes_key hsize (fun s _ => (hk.set s key value hv).1) ?_
  intro s _ ending rest
  rw [(hk.set s key value hv).2]
  exact reads_okReply ending rest

include hcast

theorem comes_get (hsize : IntSized (request ["GET".toList, key])) :
    Comes (Cluster c lookup) (get lexicalCast serve c key) m (.ok (shown (m key))) m := by
  have h : Comes (Cluster c lookup) (get lexicalCast serve c key) m (.ok (shown (m key)))
      (Function.update m key (m key)) := by
    rw [get, MakeCmd.str_eq]
    refine comes_key hsize ?_ ?_
    · intro s hs
      rw [(hk.get s key).1, ← hs, Function.update_eq_self]
    · intro s hs ending rest
      rw [(hk.get s key).2, ← hs]
      exact reads_valueOf hcast (hk.fits s key) ending rest
  rwa [Function.update_eq_self] at h

theorem comes_getset (hv : Fits value)
    (hsize : IntSized (request ["GETSET".toList, key, value])) :
    Comes (Cluster c lookup) (getset lexicalCast serve c key value) m (.ok (shown (m key)))
      (Function.update m key (some value)) := by
  rw [getset, MakeCmd.str_eq]
  refine comes_key hsize (fun s _ => (hk.getset s key value hv).1) ?_
  intro s hs ending rest
  rw [(hk.getset s key value hv).2, ← hs]
  exact reads_valueOf hcast (hk.fits s key) ending rest

theorem comes_setnx (hv : Fits value) (hsize : IntSized (request ["SETNX".toList, key, value])) :
    Comes (Cluster c lookup) (setnx lexicalCast serve c key value) m (.ok !(m key).isSome)
      (if (m key).isSome then m else Function.update m key (some value)) := by
  have h : Comes (Cluster c lookup) (setnx lexicalCast serve c key value) m (.ok !(m key).isSome)
      (Function.update m key (if (m key).isSome then m key else some value)) := by
    rw [setnx, MakeCmd.str_eq]
    refine comes_int hcast hsize (z := if (m key).isSome then 0 else 1)
      (fun s hs => ?_) (fun s hs => ?_) (by split <;> decide) fun _ => ?_
    · rw [(hk.setnx s key value hv).1, hs]
      split
      · rw [← hs, Function.update_eq_self]
      · rfl
    · rw [(hk.setnx s key value hv).2, hs]
    · cases m key with
      | none => exact Comes.pure _
      | some old => exact Comes.pure _
  split at h
  · rename_i hsome
    rwa [Function.update_eq_self, if_pos hsome] at *
  · rename_i hnone
    rwa [if_neg hnone]

theorem comes_exists (hsize : IntSized (request ["EXISTS".toList, key])) :
    Comes (Cluster c lookup) (exists_ lexicalCast serve c key) m (.ok (m key).isSome) m := by
  have h : Comes (Cluster c lookup) (exists_ lexicalCast serve c key) m (.ok (m key).isSome)
      (Function.update m key (m key)) := by
    rw [exists_, MakeCmd.str_eq]
    refine comes_int hcast hsize (z := if (m key).isSome then 1 else 0)
      (fun s hs => ?_) (fun s hs => ?_) (by split <;> decide) fun _ => ?_
    · rw [(hk.exists_ s key).1, ← hs, Function.update_eq_self]
    · rw [(hk.exists_ s key).2, hs]
    · cases m key with
      | none => exact Comes.pure _
      | some value => exact Comes.pure _
  rwa [Function.update_eq_self] at h

theorem comes_del (hsize : IntSized (request ["DEL".toList, key])) :
    Comes (Cluster c lookup) (del lexicalCast serve c key) m (.ok (m key).isSome)
      (deleteAll m [key]) := by
  rw [del, MakeCmd.str_eq, deleteAll_singleton]
  refine comes_int hcast hsize (z := if (m key).isSome then 1 else 0)
    (fun s hs => ?_) (fun s hs => ?_) (by split <;> decide) fun _ => ?_
  · rw [(hk.del s [key] (List.cons_ne_nil _ _)).1, deleteAll_singleton]
  · rw [(hk.del s [key] (List.cons_ne_nil _ _)).2, (List.nodup_singleton key).dedup, ← hs]
    cases hkey : lookup s key <;> simp [hkey]
  · cases m key with
    | none => exact Comes.pure _
    | some value => exact Comes.pure _

theorem comes_append (hsize : IntSized (request ["APPEND".toList, key, value])) :
    Comes (Cluster c lookup) (append lexicalCast serve c key value) m
      (if Fits ((m key).getD [] ++ value) then .ok (((m key).getD [] ++ value).length : Int)
        else .error (.protocol "unexpected prefix for integer reply".toList))
      (if Fits ((m key).getD [] ++ value) then
        Function.update m key (some ((m key).getD [] ++ value)) else m) := by
  rw [append, MakeCmd.str_eq]
  split
  · rename_i hfits
    have hlen : toS32 (((m key).getD [] ++ value).length : Int) =
        (((m key).getD [] ++ value).length : Int) := by
      unfold Fits at hfits
      exact toS32_eq (by omega) (by omega)
    refine comes_int hcast hsize (z := (((m key).getD [] ++ value).length : Int))
      (fun s hs => ?_) (fun s hs => ?_) ?_
      fun _ => ?_
    · rw [(hk.append s key value (hs ▸ hfits)).1, hs]
    · rw [(hk.append s key value (hs ▸ hfits)).2, hs]
    · have := hfits.isLong
      exact ⟨by omega, by omega⟩
    · simp only [hlen]
      rw [if_neg (by omega)]
      exact Comes.pure _
  · rename_i hover
    have h : Comes (Cluster c lookup) (send_ serve c (c.getSocket key)
          (request ["APPEND".toList, key, value]) >>= fun _ =>
          recvFrom (c.getSocket key) (recvIntReply lexicalCast)) m
        (.error (.protocol "unexpected prefix for integer reply".toList))
        (Function.update m key (m key)) := by
      refine comes_key hsize (fun s hs => ?_) fun s hs ending rest => ?_
      · rw [(hk.append_over s key value (hs ▸ hover)).1, ← hs, Function.update_eq_self]
      · obtain ⟨-, text, htext, hreply⟩ := hk.append_over s key value (hs ▸ hover)
        rw [hreply]
        exact reads_intReply_error htext ending rest
    rw [Function.update_eq_self] at h
    have hthrow := h.bind_error (f := fun reply =>
      if toS32 reply < 0 then throw (.protocol "expected value size".toList)
      else pure (toS32 reply))
    rwa [bind_assoc] at hthrow

end OneKey

/-! ## Many keys

What is collected for a socket depends only on the keys that belong to it, and a socket gets a
request exactly if there are some. -/

theorem comes_recvLoop {α β τ : Type} {reader : Recv β} {step : τ → α → β → τ}
    {val : Int → Value} {got : Int → β} (server : Int → σ) (l : List (Int × α))
    (hreads : ∀ p ∈ l, ∀ ending rest,
      Reads ending reader (encode (val p.1) ++ rest) (.ok (got p.1)) rest) (t : τ) :
    Comes Shows (recvLoop reader step t l)
      (.whole server (owed ((l.map Prod.fst).map fun s => (s, val s))))
      (.ok (l.foldl (fun t p => step t p.2 (got p.1)) t)) (.whole server (owed [])) := by
  induction l generalizing t with
  | nil => exact Comes.pure t
  | cons p l ih =>
    rw [List.forall_mem_cons] at hreads
    exact (comes_oldest server _ hreads.1).bind (ih hreads.2 _)

/-- **One request to each server that is concerned**, and its answer. -/
theorem comes_group {α β τ : Type} {reader : Recv β} {step : τ → α → β → τ} {t : Sockets α}
    {render : α → Str} (args : Int → List Str) (got : Int → β) (server : Int → σ)
    (hsome : ∀ s a, t[s]? = some a → s ∈ c.connections ∧ render a = request (args s))
    (hsize : ∀ s ∈ c.connections, IntSized (request (args s)))
    (hreads : ∀ s a, t[s]? = some a → ∀ ending rest,
      Reads ending reader (encode (serve (server s) (args s)).2 ++ rest) (.ok (got s)) rest)
    (x : τ) :
    Comes Shows
      (sendAll serve c (t.toList.map fun p => (p.1, render p.2)) >>= fun _ =>
        recvLoop reader step x t.toList)
      (.whole server (owed [])) (.ok (t.toList.foldl (fun x p => step x p.2 (got p.1)) x))
      (.whole (fun s => if s ∈ t then (serve (server s) (args s)).1 else server s)
        (owed [])) := by
  -- First all requests are written, one to each server, and then each of these owes one answer.
  have hsend : Comes Shows (sendAll serve c (t.toList.map fun p => (p.1, render p.2)))
      (.whole server (owed [])) (.ok ()) _ :=
    comes_sendAll (f := fun s => if s ∈ t then [args s] else []) (fun s a ha => ?_)
      (fun s hs => ?_) (fun s hs => ?_) _
  · have hstate : Queues.requestEach serve (.whole server (owed []))
        (fun s => if s ∈ t then [args s] else []) =
        .whole (fun s => if s ∈ t then (serve (server s) (args s)).1 else server s)
          (owed ((t.toList.map Prod.fst).map fun s => (s, (serve (server s) (args s)).2))) := by
      rw [ExtTreeMap.map_fst_toList_eq_keys, Queues.requestEach, Queues.whole, Queues.whole,
        Queues.mk.injEq]
      refine ⟨?_, rfl, ?_⟩
      · funext s
        split <;> rfl
      · funext s
        rw [owed_of_nodup ExtTreeMap.nodup_keys]
        simp only [ExtTreeMap.mem_keys]
        split <;> rfl
    rw [hstate] at hsend
    refine hsend.bind (comes_recvLoop _ t.toList (fun p hp => ?_) x)
    exact hreads p.1 p.2 (ExtTreeMap.mem_toList_iff_getElem?_eq_some.mp hp)
  · obtain ⟨hsocket, hrender⟩ := hsome s a ha
    have hmem : s ∈ t := by
      rw [ExtTreeMap.mem_iff_isSome_getElem?, ha]
      rfl
    rw [if_pos hmem, List.flatMap_cons, List.flatMap_nil, List.append_nil]
    exact ⟨hsocket, hrender⟩
  · rw [if_neg]
    rw [ExtTreeMap.mem_iff_isSome_getElem?, hs]
    simp
  · split
    · rw [List.flatMap_cons, List.flatMap_nil, List.append_nil]
      exact hsize s hs
    · exact Nat.succ_pos _

/-- The entries of a key are among those of its server. -/
theorem filter_socket {α : Type} (key : α → Str) (xs : List α) (k : Str) :
    (xs.filter fun x => c.getSocket (key x) = c.getSocket k).filter (fun x => key x = k) =
      xs.filter fun x => key x = k := by
  rw [List.filter_filter]
  refine List.filter_congr fun x _ => ?_
  by_cases hx : key x = k
  · simp [hx]
  · simp [hx]

/-- A socket is in a map that is filled from a list if something in the list is for it. -/
theorem mem_of_ite {α : Type} {t : Sockets α} {s : Int} {p : Prop} [Decidable p] {a : α}
    (h : t[s]? = if p then none else some a) : s ∈ t ↔ ¬ p := by
  rw [ExtTreeMap.mem_iff_isSome_getElem?, h]
  split <;> simp_all

theorem eq_of_ite {α : Type} {t : Sockets α} {s : Int} {p : Prop} [Decidable p] {a b : α}
    (h : t[s]? = if p then none else some a) (hb : t[s]? = some b) : ¬ p ∧ a = b := by
  rw [hb] at h
  split at h
  · cases h
  · rename_i hp
    exact ⟨hp, (Option.some.inj h).symm⟩

/-- A socket that something is for is one of the client's. -/
theorem socket_mem {α : Type} {key : α → Str} {xs : List α} {s : Int}
    (h : xs.filter (fun x => c.getSocket (key x) = s) ≠ []) : s ∈ c.connections := by
  obtain ⟨x, hx⟩ := List.exists_mem_of_ne_nil _ h
  rw [List.mem_filter, decide_eq_true_iff] at hx
  exact hx.2 ▸ c.getSocket_mem (key x)

/-! ### `mset`

Where a key comes twice its last value wins, on the map because the pairs are set in order, and on
its server because the command keeps the order of the pairs. -/

/-- What a key has after pairs were set depends on the pairs of that key only. -/
theorem setAll_apply (m : Strings) (ps : List (Str × Str)) (k : Str) :
    setAll m ps k = (ps.filter (·.1 = k)).foldl (fun _ p => some p.2) (m k) := by
  induction ps generalizing m with
  | nil => rfl
  | cons p ps ih =>
    rw [setAll, List.foldl_cons, ← setAll, ih, Function.update_apply]
    by_cases hp : p.1 = k
    · rw [if_pos hp.symm, List.filter_cons_of_pos (by simpa using hp), List.foldl_cons]
    · rw [if_neg (Ne.symm hp), List.filter_cons_of_neg (by simpa using hp)]

theorem foldl_appendPair (ps : List (Str × Str)) (cmd : MakeCmd) :
    ps.foldl (fun cmd p => some (((cmd.getD (MakeCmd.new "MSET".toList)).append p.1).append p.2))
      (some cmd) = some { cmd with lines := cmd.lines ++ ps.flatMap fun p => [p.1, p.2] } := by
  induction ps generalizing cmd with
  | nil => simp
  | cons p ps ih =>
    rw [List.foldl_cons, Option.getD_some, ih]
    simp [MakeCmd.append]

/-- The command for a socket has the pairs whose keys belong there. -/
theorem getElem?_collectPairs (ps : List (Str × Str)) (s : Int) :
    (collectPairs c ps)[s]? =
      if ps.filter (c.getSocket ·.1 = s) = [] then none
      else some ⟨"MSET".toList ::
        (ps.filter (c.getSocket ·.1 = s)).flatMap fun p => [p.1, p.2]⟩ := by
  rw [collectPairs, getElem?_collectFrom]
  change List.foldl _ none _ = _
  cases ps.filter (c.getSocket ·.1 = s) with
  | nil => rfl
  | cons p ps =>
    rw [List.foldl_cons, foldl_appendPair, if_neg (List.cons_ne_nil _ _)]
    simp [MakeCmd.append, MakeCmd.new]

theorem comes_mset (hk : KeepsStrings serve lookup) {ps : List (Str × Str)}
    (hps : ∀ p ∈ ps, Fits p.2)
    (hsize : ∀ s ∈ c.connections, IntSized (request ((KvOp.mset ps).lines c s))) :
    Comes (Cluster c lookup) (mset serve c ps) m (.ok ()) (setAll m ps) := by
  refine comes_cluster fun server hm => ?_
  have hfits (s : Int) : ∀ p ∈ ps.filter (c.getSocket ·.1 = s), Fits p.2 :=
    fun p hp => hps p (List.mem_filter.mp hp).1
  have hsome (s : Int) (cmd : MakeCmd) (hcmd : (collectPairs c ps)[s]? = some cmd) :
      s ∈ c.connections ∧ cmd.str = request ("MSET".toList ::
        (ps.filter (c.getSocket ·.1 = s)).flatMap fun p => [p.1, p.2]) := by
    obtain ⟨hne, rfl⟩ := eq_of_ite (getElem?_collectPairs ps s) hcmd
    exact ⟨socket_mem hne, MakeCmd.str_eq _⟩
  have hreads (s : Int) (cmd : MakeCmd) (hcmd : (collectPairs c ps)[s]? = some cmd)
      (ending : Option Str) (rest : Str) : Reads ending recvOkReply
        (encode (serve (server s) ("MSET".toList ::
          (ps.filter (c.getSocket ·.1 = s)).flatMap fun p => [p.1, p.2])).2 ++ rest)
        (.ok ()) rest := by
    obtain ⟨hne, -⟩ := eq_of_ite (getElem?_collectPairs ps s) hcmd
    rw [(hk.mset (server s) _ hne (hfits s)).2]
    exact reads_okReply ending rest
  refine ⟨_, comes_group _ (fun _ => ()) server hsome hsize hreads (), fun k => ?_⟩
  have hkey := filter_socket (c := c) Prod.fst ps k
  rw [setAll_apply, hm k]
  by_cases hnil : ps.filter (c.getSocket ·.1 = c.getSocket k) = []
  · rw [hnil] at hkey
    rw [← hkey, if_neg fun h => (mem_of_ite (getElem?_collectPairs ps _)).mp h hnil]
    rfl
  · rw [if_pos ((mem_of_ite (getElem?_collectPairs ps _)).mpr hnil),
      (hk.mset (server (c.getSocket k)) _ hnil (hfits _)).1, setAll_apply, hkey]

/-! ### `del`

The client is told whether anything was deleted: whether the sum of what the servers say is not
zero. A number of deleted keys is never negative, so nothing cancels. -/

theorem foldl_appendKey (ks ls : List Str) :
    ks.foldl (fun ks key => some (ks.getD [] ++ [key])) (some ls) = some (ls ++ ks) := by
  induction ks generalizing ls with
  | nil => simp
  | cons k ks ih =>
    rw [List.foldl_cons, Option.getD_some, ih, List.append_assoc, List.singleton_append]

theorem getElem?_collectDel (ks : List Str) (s : Int) :
    (collectDel c ks)[s]? = if ks.filter (c.getSocket · = s) = [] then none
      else some (ks.filter (c.getSocket · = s)) := by
  rw [collectDel, getElem?_collectFrom]
  change List.foldl _ none _ = _
  cases ks.filter (c.getSocket · = s) with
  | nil => rfl
  | cons k ks =>
    rw [List.foldl_cons, Option.getD_none, foldl_appendKey, if_neg (List.cons_ne_nil _ _),
      List.nil_append, List.singleton_append]

/-- A sum of numbers that are not negative is zero if they all are. -/
theorem foldl_add_ne_zero {α : Type} {got : α → Int} {l : List α} (h : ∀ a ∈ l, 0 ≤ got a)
    {x : Int} (hx : 0 ≤ x) :
    l.foldl (fun x a => x + got a) x ≠ 0 ↔ x ≠ 0 ∨ ∃ a ∈ l, got a ≠ 0 := by
  induction l generalizing x with
  | nil => simp
  | cons a l ih =>
    rw [List.forall_mem_cons] at h
    rw [List.foldl_cons, ih h.2 (Int.add_nonneg hx h.1), List.exists_mem_cons_iff, ← or_assoc]
    have : x + got a ≠ 0 ↔ x ≠ 0 ∨ got a ≠ 0 := by omega
    rw [this]

/-- How many of these keys are deleted. -/
def deleted (m : Strings) (ks : List Str) : Int := (ks.dedup.filter fun k => (m k).isSome).length

theorem deleted_nonneg (m : Strings) (ks : List Str) : 0 ≤ deleted m ks := Int.natCast_nonneg _

theorem deleted_ne_zero (m : Strings) (ks : List Str) :
    deleted m ks ≠ 0 ↔ ∃ k ∈ ks, (m k).isSome := by
  rw [deleted, Ne, Int.natCast_eq_zero, List.length_eq_zero_iff, List.filter_eq_nil_iff]
  simp [Option.isSome_iff_ne_none]

theorem deleted_le (m : Strings) (ks : List Str) : deleted m ks ≤ ks.length :=
  Int.ofNat_le.mpr (Nat.le_trans (List.length_filter_le _ _) (List.dedup_sublist ks).length_le)

/-- The servers have deleted something if there was something to delete. -/
theorem sum_deleted {server : Int → σ} (hm : ∀ k, m k = lookup (server (c.getSocket k)) k)
    (ks : List Str) :
    ((collectDel c ks).toList.foldl (fun res p =>
      res + deleted (lookup (server p.1)) (ks.filter (c.getSocket · = p.1))) 0 != 0) =
      ks.any fun k => (m k).isSome := by
  rw [Bool.eq_iff_iff, bne_iff_ne,
    foldl_add_ne_zero (fun p _ => deleted_nonneg _ _) (Int.le_refl 0), List.any_eq_true]
  constructor
  · rintro (h | ⟨p, -, h⟩)
    · exact absurd rfl h
    · obtain ⟨k, hk, hsome⟩ := (deleted_ne_zero _ _).mp h
      rw [List.mem_filter, decide_eq_true_iff] at hk
      exact ⟨k, hk.1, by rw [hm k, hk.2, hsome]⟩
  · rintro ⟨k, hk, hsome⟩
    have hmem : k ∈ ks.filter (c.getSocket · = c.getSocket k) := by simpa using hk
    have hget := getElem?_collectDel (c := c) ks (c.getSocket k)
    rw [if_neg (List.ne_nil_of_mem hmem)] at hget
    exact .inr ⟨_, ExtTreeMap.mem_toList_iff_getElem?_eq_some.mpr hget,
      (deleted_ne_zero _ _).mpr ⟨k, hmem, by rw [← hm k, hsome]⟩⟩

/-- Each of the lines of a request is at least a character of it. -/
theorem length_le_request (args : List Str) : args.length ≤ (request args).length := by
  have hbulks : args.length ≤ (args.flatMap bulk).length := by
    induction args with
    | nil => exact Nat.le_refl _
    | cons data args ih =>
      rw [List.flatMap_cons, List.length_append, List.length_cons, bulk, line, List.cons_append,
        List.cons_append, List.length_cons]
      omega
  rw [request, List.length_append]
  omega

/-- There are not so many keys in a message that their number would be no `long`. -/
theorem IntSized.keys {cmd : Str} {ks : List Str} (h : IntSized (request (cmd :: ks))) :
    ks.length < 2147483648 :=
  Nat.lt_of_le_of_lt (Nat.le_trans (Nat.le_succ _) (length_le_request (cmd :: ks))) h

/-- There are no more of them than there are keys. -/
theorem isLong_deleted (m : Strings) {ks : List Str} (hks : ks.length < 2147483648) :
    IsLong (deleted m ks) := by
  have h₁ := deleted_nonneg m ks
  have h₂ := deleted_le m ks
  exact ⟨by omega, by omega⟩

theorem comes_delRange (hk : KeepsStrings serve lookup) (hcast : ReadsLongs lexicalCast)
    {ks : List Str}
    (hsize : ∀ s ∈ c.connections, IntSized (request ((KvOp.delRange ks).lines c s))) :
    Comes (Cluster c lookup) (delRange lexicalCast serve c ks) m
      (.ok (ks.any fun k => (m k).isSome)) (deleteAll m ks) := by
  refine comes_cluster fun server hm => ?_
  have hsome (s : Int) (keys : List Str) (hkeys : (collectDel c ks)[s]? = some keys) :
      s ∈ c.connections ∧ ((MakeCmd.new "DEL".toList).appendAll keys).str =
        request ("DEL".toList :: ks.filter (c.getSocket · = s)) := by
    obtain ⟨hne, rfl⟩ := eq_of_ite (getElem?_collectDel ks s) hkeys
    exact ⟨socket_mem hne, MakeCmd.str_eq _⟩
  have hreads (s : Int) (keys : List Str) (hkeys : (collectDel c ks)[s]? = some keys)
      (ending : Option Str) (rest : Str) : Reads ending (recvIntReply lexicalCast)
        (encode (serve (server s) ("DEL".toList :: ks.filter (c.getSocket · = s))).2 ++ rest)
        (.ok (deleted (lookup (server s)) (ks.filter (c.getSocket · = s)))) rest := by
    obtain ⟨hne, -⟩ := eq_of_ite (getElem?_collectDel ks s) hkeys
    rw [(hk.del (server s) _ hne).2]
    exact reads_intReply hcast (isLong_deleted _ (hsize s (socket_mem hne)).keys)
  rw [delRange, ← bind_assoc, ← sum_deleted hm]
  refine ⟨_, (comes_group _ _ server hsome hsize hreads 0).bind (Comes.pure _), fun k => ?_⟩
  by_cases hnil : ks.filter (c.getSocket · = c.getSocket k) = []
  · have hnot : k ∉ ks := fun h => by simpa using List.filter_eq_nil_iff.mp hnil k h
    rw [if_neg fun h => (mem_of_ite (getElem?_collectDel ks _)).mp h hnil, deleteAll,
      if_neg hnot, hm k]
  · rw [if_pos ((mem_of_ite (getElem?_collectDel ks _)).mpr hnil),
      (hk.del (server (c.getSocket k)) _ hnil).1, deleteAll, deleteAll, hm k]
    simp

/-! ### `mget`

The values of a server come in the order in which its keys were collected, and the places were
collected with them. Every place belongs to one socket, so each is written once. -/

/-- Writing the elements of a list at their places gives the list, if no place is left out. -/
theorem foldl_set {α : Type} (ps : List (Nat × α)) (out vals : List α)
    (hlen : out.length = vals.length) (hps : ∀ p ∈ ps, vals[p.1]? = some p.2)
    (hall : ∀ i, out[i]? = vals[i]? ∨ i ∈ ps.map Prod.fst) :
    ps.foldl (fun out p => out.set p.1 p.2) out = vals := by
  induction ps generalizing out with
  | nil =>
    refine List.ext_getElem? fun i => ?_
    obtain h | h := hall i
    · exact h
    · cases h
  | cons p ps ih =>
    rw [List.forall_mem_cons] at hps
    refine ih (out.set p.1 p.2) (by rwa [List.length_set]) hps.2 fun i => ?_
    by_cases hi : p.1 = i
    · subst hi
      have hlt : p.1 < out.length := by
        rw [hlen]
        exact (List.getElem?_eq_some_iff.mp hps.1).1
      exact .inl (by rw [List.getElem?_set_self hlt, hps.1])
    · rw [List.getElem?_set_ne hi]
      obtain h | h := hall i
      · exact .inl h
      · rw [List.map_cons, List.mem_cons] at h
        obtain rfl | h := h
        · exact absurd rfl hi
        · exact .inr h

theorem foldl_appendIndex (zs : List (Str × Nat)) (ck : ConnectionKeys) :
    zs.foldl (fun conKeys p => some
      ⟨((conKeys.map ConnectionKeys.cmd).getD (MakeCmd.new "MGET".toList)).append p.1,
        ((conKeys.map ConnectionKeys.indices).getD []) ++ [p.2]⟩) (some ck) =
      some ⟨{ ck.cmd with lines := ck.cmd.lines ++ zs.map Prod.fst },
        ck.indices ++ zs.map Prod.snd⟩ := by
  induction zs generalizing ck with
  | nil => simp
  | cons z zs ih =>
    rw [List.foldl_cons, ih]
    simp [MakeCmd.append]

/-- The keys for a socket, with their places. -/
def keysOf (c : BaseClient) (ks : List Str) (s : Int) : List (Str × Nat) :=
  ks.zipIdx.filter fun z => c.getSocket z.1 = s

theorem getElem?_collectKeys (ks : List Str) (s : Int) :
    (collectKeys c ks)[s]? = if keysOf c ks s = [] then none
      else some ⟨⟨"MGET".toList :: (keysOf c ks s).map Prod.fst⟩,
        (keysOf c ks s).map Prod.snd⟩ := by
  rw [collectKeys, getElem?_collectFrom]
  change List.foldl _ none (keysOf c ks s) = _
  cases keysOf c ks s with
  | nil => rfl
  | cons z zs =>
    rw [List.foldl_cons, foldl_appendIndex, if_neg (List.cons_ne_nil _ _)]
    simp [MakeCmd.append, MakeCmd.new]

theorem receivedElems_valueOf (vs : List (Option Str)) :
    receivedElems (vs.map valueOf) = .ok (vs.map shown) ∧ unreadElems (vs.map valueOf) = [] := by
  induction vs with
  | nil => exact ⟨rfl, rfl⟩
  | cons v vs ih =>
    cases v with
    | none | some =>
      simp only [List.map_cons, valueOf, receivedElems, unreadElems, ih.1, ih.2, Except.map, shown,
        Option.getD, and_self]

theorem lineOk_valueOf {o : Option Str} (ho : ∀ value, o = some value → Fits value) :
    LineOk (valueOf o) := by
  cases o with
  | none => trivial
  | some value => exact (ho value rfl).isLong

theorem reads_mget (hcast : ReadsLongs lexicalCast) {vs : List (Option Str)}
    (hvs : ∀ o ∈ vs, ∀ value, o = some value → Fits value) (hlen : vs.length < 2147483648)
    (ending : Option Str) (rest : Str) :
    Reads ending (recvMultiBulkReply lexicalCast []) (encode (.array (vs.map valueOf)) ++ rest)
      (.ok ((vs.length : Int), vs.map shown)) rest := by
  have h : Reads ending _ (encode (.array (vs.map valueOf)) ++ rest) _ _ :=
    reads_multiBulkReply hcast [] (by simp [maxStrings]; omega) fun e he => by
      obtain ⟨o, ho, rfl⟩ := List.mem_map.mp he
      exact lineOk_valueOf (hvs o ho)
  obtain ⟨hreceived, hunread⟩ := receivedElems_valueOf vs
  rwa [hreceived, hunread, List.length_map, List.nil_append] at h

/-- **What the servers answer is put together** to what the keys have. -/
theorem scatter_all (m : Strings) (ks : List Str) :
    (collectKeys c ks).toList.foldl (fun out p => scatter out p.2.indices
      ((keysOf c ks p.1).map fun z => shown (m z.1))) (List.replicate ks.length []) =
      ks.map fun k => shown (m k) := by
  have hset : (collectKeys c ks).toList.foldl (fun out p => scatter out p.2.indices
        ((keysOf c ks p.1).map fun z => shown (m z.1))) (List.replicate ks.length []) =
      ((collectKeys c ks).toList.flatMap fun p =>
        (keysOf c ks p.1).map fun z => (z.2, shown (m z.1))).foldl
        (fun out p => out.set p.1 p.2) (List.replicate ks.length []) := by
    rw [List.foldl_flatMap]
    refine List.foldl_ext _ _ _ fun out p hp => ?_
    obtain ⟨-, hck⟩ := eq_of_ite (getElem?_collectKeys ks p.1)
      (ExtTreeMap.mem_toList_iff_getElem?_eq_some.mp hp)
    rw [← hck, scatter, List.zip_map']
  rw [hset]
  refine foldl_set _ _ _ (by simp) (fun q hq => ?_) fun i => ?_
  · obtain ⟨p, -, hq⟩ := List.mem_flatMap.mp hq
    obtain ⟨z, hz, rfl⟩ := List.mem_map.mp hq
    have hget := List.mem_zipIdx_iff_getElem?.mp (List.mem_filter.mp hz).1
    rw [List.getElem?_map, hget]
    rfl
  · cases hi : ks[i]? with
    | none =>
      rw [List.getElem?_eq_none_iff] at hi
      exact .inl (by rw [List.getElem?_eq_none (by simpa), List.getElem?_eq_none (by simpa)])
    | some k =>
      have hz : (k, i) ∈ keysOf c ks (c.getSocket k) :=
        List.mem_filter.mpr ⟨List.mem_zipIdx_iff_getElem?.mpr hi, by simp⟩
      have hget := getElem?_collectKeys (c := c) ks (c.getSocket k)
      rw [if_neg (List.ne_nil_of_mem hz)] at hget
      refine .inr (List.mem_map.mpr ⟨(i, shown (m k)), List.mem_flatMap.mpr ⟨_,
        ExtTreeMap.mem_toList_iff_getElem?_eq_some.mpr hget, List.mem_map.mpr ⟨_, hz, rfl⟩⟩, rfl⟩)

theorem keysOf_keys (ks : List Str) (s : Int) :
    (keysOf c ks s).map Prod.fst = ks.filter (c.getSocket · = s) := by
  have h := List.filter_map (f := Prod.fst) (p := fun k => decide (c.getSocket k = s))
    (l := ks.zipIdx)
  rw [List.zipIdx_map_fst] at h
  exact h.symm

theorem comes_mget (hk : KeepsStrings serve lookup) (hcast : ReadsLongs lexicalCast)
    {ks : List Str} (hsize : ∀ s ∈ c.connections, IntSized (request ((KvOp.mget ks).lines c s))) :
    Comes (Cluster c lookup) (mget lexicalCast serve c ks) m (.ok (ks.map fun k => shown (m k)))
      m := by
  refine comes_cluster fun server hm => ?_
  have hne (s : Int) (h : keysOf c ks s ≠ []) : ks.filter (c.getSocket · = s) ≠ [] := by
    rw [← keysOf_keys]
    simpa using h
  have hsome (s : Int) (ck : ConnectionKeys) (hck : (collectKeys c ks)[s]? = some ck) :
      s ∈ c.connections ∧
        ck.cmd.str = request ("MGET".toList :: ks.filter (c.getSocket · = s)) := by
    obtain ⟨h, rfl⟩ := eq_of_ite (getElem?_collectKeys ks s) hck
    rw [← keysOf_keys]
    exact ⟨socket_mem h, MakeCmd.str_eq _⟩
  have hvalues (s : Int) : (keysOf c ks s).map (fun z => shown (m z.1)) =
      ((ks.filter (c.getSocket · = s)).map (lookup (server s))).map shown := by
    rw [← keysOf_keys, List.map_map, List.map_map]
    refine List.map_congr_left fun z hz => ?_
    have hs := of_decide_eq_true (List.mem_filter.mp hz).2
    rw [hm z.1, hs]
    rfl
  have hreads (s : Int) (ck : ConnectionKeys) (hck : (collectKeys c ks)[s]? = some ck)
      (ending : Option Str) (rest : Str) : Reads ending (recvMultiBulkReply lexicalCast [])
        (encode (serve (server s) ("MGET".toList :: ks.filter (c.getSocket · = s))).2 ++ rest)
        (.ok (((ks.filter (c.getSocket · = s)).length : Int),
          (keysOf c ks s).map fun z => shown (m z.1))) rest := by
    obtain ⟨h, -⟩ := eq_of_ite (getElem?_collectKeys ks s) hck
    have hlen := (hsize s (socket_mem h)).keys
    have hread : Reads ending (recvMultiBulkReply lexicalCast []) (encode (.array
        (((ks.filter (c.getSocket · = s)).map (lookup (server s))).map valueOf)) ++ rest) _ rest :=
      reads_mget hcast (fun o ho value hvalue => ?_) (by rwa [List.length_map]) ending rest
    · rw [← hvalues, List.length_map, List.map_map] at hread
      rw [(hk.mget (server s) _ (hne s h)).2]
      exact hread
    · obtain ⟨k, -, rfl⟩ := List.mem_map.mp ho
      exact hk.fits _ _ _ hvalue
  rw [mget, ← scatter_all (c := c)]
  refine ⟨_, comes_group _ _ server hsome hsize hreads (List.replicate ks.length []),
    fun k => ?_⟩
  rw [hm k]
  by_cases hmem : c.getSocket k ∈ collectKeys c ks
  · have h := (mem_of_ite (getElem?_collectKeys ks _)).mp hmem
    rw [if_pos hmem, (hk.mget (server (c.getSocket k)) _ (hne _ h)).1]
  · rw [if_neg hmem]

/-! ## All operations -/

/-- **Each operation does to the servers what it does to the map.** -/
theorem comes_spec (hk : KeepsStrings serve lookup) (hcast : ReadsLongs lexicalCast) {op : KvOp}
    (hop : op.Sound c) (m : Strings) :
    Comes (Cluster c lookup) (op.run lexicalCast serve c) m (op.spec m).1 (op.spec m).2 := by
  obtain ⟨hvalues, hsize⟩ := hop
  -- a message about one key goes to its server
  have hkey (k : Str) := hsize (c.getSocket k) (c.getSocket_mem k)
  cases op with
  | set k v => exact (comes_set hk k v (hvalues v List.mem_cons_self) (hkey k)).bind (Comes.pure _)
  | get k => exact (comes_get hk hcast k (hkey k)).map
  | getset k v => exact (comes_getset hk hcast k v (hvalues v List.mem_cons_self) (hkey k)).map
  | setnx k v =>
    have h := (comes_setnx hk hcast (c := c) (m := m) k v (hvalues v List.mem_cons_self)
      (hkey k)).map (g := KvResult.bool)
    rw [KvOp.spec]
    split
    · rename_i hsome
      rwa [hsome, if_pos rfl] at h
    · rename_i hnone
      have hfalse : (m k).isSome = false := by simpa using hnone
      rwa [if_neg hnone, hfalse] at h
  | append k v =>
    have h := comes_append hk hcast (c := c) (m := m) k v (hkey k)
    rw [KvOp.spec]
    split
    · rename_i hfits
      rw [if_pos hfits, if_pos hfits] at h
      exact h.map
    · rename_i hover
      rw [if_neg hover, if_neg hover] at h
      exact h.map_error
  | exists_ k => exact (comes_exists hk hcast k (hkey k)).map
  | del k => exact (comes_del hk hcast k (hkey k)).map
  | mset ps =>
    have hps : ∀ p ∈ ps, Fits p.2 := fun p hp => hvalues p.2 (List.mem_map_of_mem hp)
    exact (comes_mset hk hps hsize).bind (Comes.pure _)
  | mget ks => exact (comes_mget hk hcast hsize).map
  | delRange ks => exact (comes_delRange hk hcast hsize).map

end Proofs

end WebsocketTest.Redis
