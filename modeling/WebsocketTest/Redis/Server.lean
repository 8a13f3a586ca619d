import WebsocketTest.Redis.Store

/-!
# A server of strings

The simplest server that does what `KeepsStrings` asks for: it keeps a map of strings, none of them
longer than a string can be, and answers the commands that the client makes
(`keepsStrings_answer`).

It is here so that the results on clusters are about something: there are servers that keep the
promise, with the order of the lines as the client writes them and the answers as it reads them.
What it cannot do it refuses with an error, as the real one does for commands that are not there.
-/

set_option autoImplicit false

namespace WebsocketTest.Redis

open Lib.Text Lib.Resp

/-- The strings of a server. -/
abbrev StringStore := { m : Strings // ∀ k v, m k = some v → Fits v }

namespace StringStore

/-- A key is set, unless to what is too long. -/
def put (s : StringStore) (k v : Str) : StringStore :=
  if h : Fits v then
    ⟨Function.update s.1 k (some v), fun k' v' hv' => by
      rw [Function.update_apply] at hv'
      split at hv'
      · cases hv'
        exact h
      · exact s.2 k' v' hv'⟩
  else s

def erase (s : StringStore) (ks : List Str) : StringStore :=
  ⟨deleteAll s.1 ks, fun k v hv => by
    rw [deleteAll] at hv
    split at hv
    · cases hv
    · exact s.2 k v hv⟩

def empty : StringStore := ⟨fun _ => none, fun _ _ h => by cases h⟩

theorem put_val {s : StringStore} {k v : Str} (h : Fits v) :
    (s.put k v).1 = Function.update s.1 k (some v) := by
  rw [put, dif_pos h]

/-- What cannot be done is refused, and changes nothing. -/
def refused : Value := .error "ERR".toList

/-- Keys and values by turns. -/
def putAll (s : StringStore) : List Str → StringStore
  | k :: v :: rest => putAll (s.put k v) rest
  | _ => s

/-- What is done and answered for a command. -/
def answer (s : StringStore) : List Str → StringStore × Value
  | [] => (s, refused)
  | cmd :: args =>
    if cmd = "MGET".toList then (s, .array (args.map fun k => valueOf (s.1 k)))
    else if cmd = "MSET".toList then (s.putAll args, .status "OK".toList)
    else if cmd = "DEL".toList then
      (s.erase args, .int (args.dedup.filter fun k => (s.1 k).isSome).length)
    else
      match args with
      | [k] =>
        if cmd = "GET".toList then (s, valueOf (s.1 k))
        else if cmd = "EXISTS".toList then (s, .int (if (s.1 k).isSome then 1 else 0))
        else (s, refused)
      | [k, v] =>
        if cmd = "SET".toList then (s.put k v, .status "OK".toList)
        else if cmd = "GETSET".toList then (s.put k v, valueOf (s.1 k))
        else if cmd = "SETNX".toList then
          (if (s.1 k).isSome then s else s.put k v, .int (if (s.1 k).isSome then 0 else 1))
        else if cmd = "APPEND".toList then
          let value := (s.1 k).getD [] ++ v
          if Fits value then (s.put k value, .int value.length) else (s, refused)
        else (s, refused)
      | _ => (s, refused)

theorem putAll_val {ps : List (Str × Str)} (hps : ∀ p ∈ ps, Fits p.2) (s : StringStore) :
    (s.putAll (ps.flatMap fun p => [p.1, p.2])).1 = setAll s.1 ps := by
  induction ps generalizing s with
  | nil => rfl
  | cons p ps ih =>
    rw [List.forall_mem_cons] at hps
    change ((s.put p.1 p.2).putAll (ps.flatMap fun p => [p.1, p.2])).1 = _
    rw [ih hps.2, put_val hps.1]
    rfl

/-- **The server keeps strings**, for every command that the operations of the client send. -/
theorem keepsStrings_answer : KeepsStrings answer fun s => s.1 where
  fits s := s.2
  get s k := ⟨rfl, rfl⟩
  set s k v hv := ⟨put_val hv, rfl⟩
  getset s k v hv := ⟨put_val hv, rfl⟩
  setnx s k v hv := by
    refine ⟨?_, rfl⟩
    change (if (s.1 k).isSome then s else s.put k v).1 = _
    split
    · rfl
    · exact put_val hv
  append s k v hv := by
    have h : s.answer ["APPEND".toList, k, v] =
        (s.put k ((s.1 k).getD [] ++ v), .int ((s.1 k).getD [] ++ v).length) := if_pos hv
    rw [h]
    exact ⟨put_val hv, rfl⟩
  append_over s k v hv := by
    have h : s.answer ["APPEND".toList, k, v] = (s, refused) := if_neg hv
    rw [h]
    exact ⟨rfl, "ERR".toList, by decide, rfl⟩
  exists_ s k := ⟨rfl, rfl⟩
  del s ks _ := ⟨rfl, rfl⟩
  mset s ps _ hps := ⟨putAll_val hps s, rfl⟩
  mget s ks _ := ⟨rfl, rfl⟩

end StringStore

end WebsocketTest.Redis
