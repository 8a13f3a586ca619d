import WebsocketTest.Zoo.HostInfo
import Mathlib.Logic.Function.Basic

/-!
# `zookClient`, and who subscribes to it

`updateServer(path)` reads the children of a watched path, compares them with the list it remembers
for that path, calls back what came and what went, and remembers the new list. The read is an input
of the model: what `::zoo_wget_children` returns, and the names. Callbacks are taken to return, and
not to use the client.

Two loops count with a `uint8_t`, so that 256 names or more keep them going for ever
(`forByte_endless`); up to 255 they are what they look like (`forByte_short`).

**`getServerList_eq_ok_iff`** is what the list read is, **`report_delta`** what is called back for
it, and **`updateServer_watched`** all that a call on a watched path can do.

## What a call has to be good for

A subscriber keeps a set of hosts and gets two kinds of messages about it, hosts to add and hosts to
take away. The client keeps a list. So a callback is judged by what it does to a set (`delta`), and
the list by which hosts are in it. That a host may be twice in a list, or that the order changes, is
nothing the subscriber sees.

All results here are about a call that returns. Two things may keep it from that, an assertion and a
counter that never gets to the end, and when they do is the subject of `Listing.lean`.
-/

set_option autoImplicit false

namespace WebsocketTest

open Lib.Text Lib.Replica

/-! ## The client -/

inductive EOPT
  | add
  | del
  deriving DecidableEq

/-- What a `zookCallBack` is called with. -/
structure Callback where
  vecInfo : List HostInfo
  opt : EOPT
  deriving DecidableEq

/-- `func` says whether the callback's `boost::function` holds one. -/
structure TCallBackObj where
  func : Bool
  vecHost : List HostInfo

/-- `operator()`. -/
def TCallBackObj.callBack (o : TCallBackObj) (vecInfo : List HostInfo) (opt : EOPT) :
    List Callback :=
  if o.func then [⟨vecInfo, opt⟩] else []

/-- The one member of a `zookClient` that `updateServer` uses. -/
structure ZookClient where
  mapCallBack : Str → Option TCallBackObj

/-- What `::zoo_wget_children` returns, and the names in `vecStr`. -/
structure ChildrenRead where
  ret : Int
  data : List Str

/-- `for (uint8_t i = 0; i < xs.size(); i++)` with `body` on `xs[i]`, from `i` on. The fuel is a
    bound on the rounds. -/
def forByte {α β : Type} (xs : List β) (body : α → β → Except Halt α) :
    Nat → Nat → α → Except Halt α
  | 0, _, _ => .error .endless
  | fuel + 1, i, a =>
    match xs[i]? with
    | none => .ok a
    | some x =>
      match body a x with
      | .error e => .error e
      | .ok a => forByte xs body fuel ((i + 1) % 256) a

namespace ZookClient

/-- The loop body of `getServerList`. -/
def pushHost (path : Str) (vecInfo : List HostInfo) (name : Str) : Except Halt (List HostInfo) :=
  match parseHostInfo (path ++ '/' :: name) with
  | .error e => .error e
  | .ok temInfo => .ok (vecInfo ++ [temInfo])

/-- `zookClient::zoo_wget_children`: the return value, and `node_list`. -/
def zooWgetChildren (r : ChildrenRead) (nodeList : List Str) : Except Halt (Int × List Str) :=
  if r.ret = 0 then
    match forByte r.data (fun list s => .ok (list ++ [s])) 257 0 nodeList with
    | .error e => .error e
    | .ok nodeList => .ok (r.ret, nodeList)
  else .ok (r.ret, nodeList)

def getServerList (serverName : Str) (r : ChildrenRead) (vecInfo : List HostInfo) :
    Except Halt (List HostInfo) :=
  match zooWgetChildren r [] with
  | .error e => .error e
  -- the return value is dropped here
  | .ok (_, temVecStr) => forByte temVecStr (pushHost serverName) 257 0 vecInfo

/-- What `updateServer` calls back, with the new list in `vecInfo`. -/
def report (itor : TCallBackObj) (vecInfo : List HostInfo) : List Callback :=
  if vecInfo.length ≠ 0 then
    let (addlist, dellist) := compareHostInfo vecInfo itor.vecHost [] []
    (if addlist.length ≠ 0 then itor.callBack addlist .add else []) ++
      (if dellist.length ≠ 0 then itor.callBack dellist .del else [])
  else if itor.vecHost.length ≠ 0 then itor.callBack itor.vecHost .del
  else []

/-- `itor->second.vecHost.swap(vecInfo)`, with `itor` at `path`. -/
def swap (c : ZookClient) (path : Str) (itor : TCallBackObj) (vecInfo : List HostInfo) :
    ZookClient :=
  ⟨Function.update c.mapCallBack path (some ⟨itor.func, vecInfo⟩)⟩

/-- The client after the call, and what was called back. -/
def updateServer (c : ZookClient) (path : Str) (r : ChildrenRead) :
    Except Halt (ZookClient × List Callback) :=
  match c.mapCallBack path with
  | none => .ok (c, [])
  | some itor =>
    match getServerList path r [] with
    | .error e => .error e
    | .ok vecInfo => .ok (c.swap path itor vecInfo, report itor vecInfo)

end ZookClient

/-! ## The loops

The counter goes from 255 back to 0. A list that it can get to the end of is gone through once, as a
`foldlM` would. -/

section Loops

variable {α β : Type} {xs : List β} {body : α → β → Except Halt α}

theorem forByte_short (hlen : xs.length < 256) {fuel i : Nat} (hi : i ≤ xs.length)
    (hfuel : xs.length - i < fuel) (a : α) :
    forByte xs body fuel i a = (xs.drop i).foldlM body a := by
  induction fuel generalizing i a with
  | zero => omega
  | succ fuel ih =>
    rw [forByte]
    rcases Nat.lt_or_eq_of_le hi with hlt | rfl
    · rw [List.getElem?_eq_getElem hlt, List.drop_eq_getElem_cons hlt, List.foldlM_cons]
      simp only [Nat.mod_eq_of_lt (show i + 1 < 256 by omega)]
      cases body a xs[i] with
      | error e => rfl
      | ok b => exact ih (by omega) (by omega) b
    · rw [List.getElem?_eq_none (le_refl _), List.drop_length]
      rfl

/-- With 256 elements or more the counter never reaches their number, and no fuel is enough. -/
theorem forByte_endless (hlen : 256 ≤ xs.length) {fuel i : Nat} (hi : i < 256) (a b : α) :
    forByte xs body fuel i a ≠ .ok b := by
  induction fuel generalizing i a with
  | zero => rintro ⟨⟩
  | succ fuel ih =>
    rw [forByte, List.getElem?_eq_getElem (by omega)]
    simp only
    cases body a xs[i] with
    | error e => rintro ⟨⟩
    | ok c => exact ih (Nat.mod_lt _ (by decide)) c

end Loops

/-! ## A call -/

/-- The names a read leaves in `temVecStr`. -/
def ChildrenRead.names (r : ChildrenRead) : List Str := if r.ret = 0 then r.data else []

/-- The hosts of these names, in order, as the parser has them. -/
def Hosts (path : Str) (names : List Str) (infos : List HostInfo) : Prop :=
  List.Forall₂ (fun name info => parseHostInfo (path ++ '/' :: name) = .ok info) names infos

/-- A child of this name is parsed into this host. -/
def Lists (path : Str) (names : List Str) (info : HostInfo) : Prop :=
  ∃ name ∈ names, parseHostInfo (path ++ '/' :: name) = .ok info

theorem Hosts.mem_iff {path : Str} {names : List Str} {infos : List HostInfo}
    (h : Hosts path names infos) (info : HostInfo) : info ∈ infos ↔ Lists path names info := by
  induction h with
  | nil => simp [Lists]
  | @cons name parsed names infos hparse _ ih =>
    rw [List.mem_cons, ih]
    constructor
    · rintro (rfl | ⟨n, hn, heq⟩)
      · exact ⟨name, List.mem_cons_self, hparse⟩
      · exact ⟨n, List.mem_cons_of_mem _ hn, heq⟩
    · rintro ⟨n, hn, heq⟩
      rcases List.mem_cons.mp hn with rfl | hn
      · exact .inl (Except.ok.inj (heq.symm.trans hparse))
      · exact .inr ⟨n, hn, heq⟩

/-- The hosts of addresses, under a path that the parser can take. -/
theorem hosts_addrs {path comp : Str} (hpath : OneComponent path comp) (as : List Addr) :
    Hosts path (as.map Addr.name) (as.map (Addr.host comp)) := by
  induction as with
  | nil => exact .nil
  | cons a as ih => exact .cons (parseHostInfo_child hpath a) ih

/-- `E_ADD` is a union, `E_DEL` a difference. -/
def Callback.delta (cb : Callback) : Delta HostInfo :=
  match cb.opt with
  | .add => .add cb.vecInfo
  | .del => .del cb.vecInfo

theorem callBack_delta (o : TCallBackObj) (infos : List HostInfo) (opt : EOPT) :
    (o.callBack infos opt).map Callback.delta =
      if o.func then [(Callback.mk infos opt).delta] else [] := by
  rw [TCallBackObj.callBack]
  split
  · rfl
  · rfl

namespace ZookClient

theorem foldlM_push (xs list : List Str) :
    xs.foldlM (fun list s => (.ok (list ++ [s]) : Except Halt (List Str))) list =
      .ok (list ++ xs) := by
  induction xs generalizing list with
  | nil => rw [List.append_nil]; rfl
  | cons x xs ih =>
    rw [List.foldlM_cons, List.append_cons list x xs]
    exact ih (list ++ [x])

theorem foldlM_pushHost {path : Str} {names : List Str} {infos res : List HostInfo} :
    names.foldlM (pushHost path) infos = .ok res ↔
      ∃ new, Hosts path names new ∧ res = infos ++ new := by
  induction names generalizing infos with
  | nil =>
    rw [List.foldlM_nil]
    constructor
    · rintro ⟨⟩
      exact ⟨[], .nil, (List.append_nil _).symm⟩
    · rintro ⟨new, hnew, rfl⟩
      cases hnew
      rw [List.append_nil]
      rfl
  | cons name names ih =>
    rw [List.foldlM_cons, pushHost]
    cases hparse : parseHostInfo (path ++ '/' :: name) with
    | error e =>
      constructor
      · rintro ⟨⟩
      · rintro ⟨new, hnew, -⟩
        cases hnew with
        | cons hhost _ => cases hparse.symm.trans hhost
    | ok info =>
      refine (@ih (infos ++ [info])).trans ?_
      constructor
      · rintro ⟨new, hnew, rfl⟩
        exact ⟨info :: new, .cons hparse hnew, by rw [List.append_assoc, List.singleton_append]⟩
      · rintro ⟨new, hnew, rfl⟩
        cases hnew with
        | @cons _ host _ new hhost hrest =>
          cases hparse.symm.trans hhost
          exact ⟨new, hrest, by rw [List.append_assoc, List.singleton_append]⟩

theorem zooWgetChildren_eq_ok_iff {r : ChildrenRead} {res : Int × List Str} :
    zooWgetChildren r [] = .ok res ↔ r.names.length < 256 ∧ res = (r.ret, r.names) := by
  rw [zooWgetChildren, ChildrenRead.names]
  split
  · rcases Nat.lt_or_ge r.data.length 256 with hlen | hlen
    · rw [forByte_short hlen (Nat.zero_le _) (by omega), List.drop_zero, foldlM_push,
        List.nil_append]
      simp [hlen, eq_comm]
    · cases hloop : forByte r.data (fun list s => .ok (list ++ [s])) 257 0 [] with
      | error e => simp [hlen]
      | ok list => exact absurd hloop (forByte_endless hlen (by decide) _ _)
  · simp [eq_comm]

/-- **What `getServerList` appends**: the hosts of the names it read. -/
theorem getServerList_append_iff {path : Str} {r : ChildrenRead} {vecInfo res : List HostInfo} :
    getServerList path r vecInfo = .ok res ↔
      r.names.length < 256 ∧ ∃ infos, Hosts path r.names infos ∧ res = vecInfo ++ infos := by
  rw [getServerList]
  cases hread : zooWgetChildren r [] with
  | error e =>
    have hlen : ¬ r.names.length < 256 := fun hlen => by
      rw [zooWgetChildren_eq_ok_iff.mpr ⟨hlen, rfl⟩] at hread
      cases hread
    simp [hlen]
  | ok res =>
    obtain ⟨hlen, rfl⟩ := zooWgetChildren_eq_ok_iff.mp hread
    simp only [hlen, true_and]
    rw [forByte_short hlen (Nat.zero_le _) (by omega), List.drop_zero, foldlM_pushHost]

/-- What it returns, from the empty list that `updateServer` gives it. -/
theorem getServerList_eq_ok_iff {path : Str} {r : ChildrenRead} {infos : List HostInfo} :
    getServerList path r [] = .ok infos ↔ r.names.length < 256 ∧ Hosts path r.names infos := by
  rw [getServerList_append_iff]
  simp

/-- **What is called back** is the change from the remembered list to the new one. The branch for an
    empty list is no exception. -/
theorem report_delta {o : TCallBackObj} (hfunc : o.func = true) (infos : List HostInfo) :
    (report o infos).map Callback.delta = changes o.vecHost infos := by
  rw [report, changes]
  cases infos with
  | nil =>
    rw [if_neg (by simp), diff_nil_left, diff_nil_right, if_pos rfl, List.nil_append]
    cases o.vecHost with
    | nil => rfl
    | cons info vecHost =>
      rw [if_pos (by simp), if_neg (by simp), callBack_delta, if_pos hfunc]
      rfl
  | cons info infos =>
    rw [if_pos (by simp), compareHostInfo_eq]
    simp only [List.map_append, apply_ite (List.map Callback.delta), callBack_delta, hfunc, if_true,
      List.map_nil, ne_eq, List.length_eq_zero_iff, ite_not]
    rfl

theorem report_nil (o : TCallBackObj) :
    report o [] = if o.vecHost = [] then [] else o.callBack o.vecHost .del := by
  obtain ⟨func, vecHost⟩ := o
  cases vecHost with
  | nil => rfl
  | cons info vecHost => rfl

/-- Without a function in the callback nothing is said. -/
theorem report_unset {o : TCallBackObj} (hfunc : o.func ≠ true) (infos : List HostInfo) :
    report o infos = [] := by
  have hcall (xs : List HostInfo) (opt : EOPT) : o.callBack xs opt = [] := if_neg hfunc
  rw [report]
  split
  · simp only [hcall, ite_self, List.append_nil]
  · rw [hcall, ite_self]

theorem swap_self (c : ZookClient) (path : Str) (o : TCallBackObj) (infos : List HostInfo) :
    (c.swap path o infos).mapCallBack path = some ⟨o.func, infos⟩ :=
  Function.update_self _ _ _

theorem swap_of_ne (c : ZookClient) {p path : Str} (hne : p ≠ path) (o : TCallBackObj)
    (infos : List HostInfo) : (c.swap path o infos).mapCallBack p = c.mapCallBack p :=
  Function.update_of_ne hne _ _

/-- **All that a call on a watched path can do**, if it returns. -/
theorem updateServer_watched {c : ZookClient} {path : Str} {r : ChildrenRead} {o : TCallBackObj}
    (ho : c.mapCallBack path = some o) {res : ZookClient × List Callback} :
    c.updateServer path r = .ok res ↔
      ∃ infos, r.names.length < 256 ∧ Hosts path r.names infos ∧
        res = (c.swap path o infos, report o infos) := by
  rw [updateServer, ho]
  constructor
  · intro h
    simp only at h
    split at h
    · cases h
    · rename_i infos hlist
      obtain ⟨hlen, hhosts⟩ := getServerList_eq_ok_iff.mp hlist
      exact ⟨infos, hlen, hhosts, (Except.ok.inj h).symm⟩
  · rintro ⟨infos, hlen, hhosts, rfl⟩
    simp only [getServerList_eq_ok_iff.mpr ⟨hlen, hhosts⟩]

theorem updateServer_unwatched {c : ZookClient} {path : Str} {r : ChildrenRead}
    (ho : c.mapCallBack path = none) : c.updateServer path r = .ok (c, []) := by
  rw [updateServer, ho]

end ZookClient

end WebsocketTest
