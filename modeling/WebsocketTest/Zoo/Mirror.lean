import WebsocketTest.Lib.Run
import WebsocketTest.Zoo.Client

/-!
# The registry, the remembered list, and a subscriber's view

Three things that should be one: the children zookeeper has for a path, the hosts `vecHost` that the
client remembers, and what a subscriber holds that starts with nothing and applies the callbacks.
`Subscription` puts them side by side and `step` is one call of `updateServer`, for any path.

**`view_mirrors_registry`** — as long as the reads succeed they are one: `Mirrors` is kept by every
call (`mirrors_step`), so that the view is what the children list says after every run.

A read that fails is another matter. `getServerList` drops its error code, and what is left is the
empty list of a service that is down: every host is reported as gone and forgotten
(`failing_updateServer`). **`honest_iff`** — no harm is done exactly where there is nothing to
forget.

Every path is mirrored for itself, and the invariant is about all of them at once: a call touches
one path, watched or not, and the other ones stay as they are (`step_of_ne`).

A run is one of calls that return. A call that ends in an assertion or in an endless loop has no
state behind it (`Listing.lean`), so that nothing is said of it here but that it is not a step; on a
path of one component, with fewer than 256 children that are addresses, the call does return
(`good_call`).
-/

set_option autoImplicit false

namespace WebsocketTest

open Lib.Text Lib.Replica Lib.Run

/-- A call of `updateServer(path)`: what it read, and what it called back. -/
structure ZooCall where
  path : Str
  read : ChildrenRead
  calls : List Callback

/-- `registry` is a ghost, the names of the latest successful read of each path; `view` is what the
    subscriber to a path holds. -/
structure Subscription where
  client : ZookClient
  registry : Str → List Str
  view : Str → Set HostInfo

namespace Subscription

/-- One call: the client changes, the registry if the read succeeded, and the view by what was
    called back. -/
def step (s : Subscription) (l : ZooCall) (s' : Subscription) : Prop :=
  s.client.updateServer l.path l.read = .ok (s'.client, l.calls) ∧
  s'.registry =
    (if l.read.ret = 0 then Function.update s.registry l.path l.read.data else s.registry) ∧
  s'.view =
    Function.update s.view l.path (replay (l.calls.map Callback.delta) (s.view l.path))

/-- A client as its constructor leaves it, and subscribers that have heard nothing. -/
structure Fresh (s : Subscription) : Prop where
  vecHost : ∀ path o, s.client.mapCallBack path = some o → o.vecHost = []
  registry : ∀ path, s.registry path = []
  view : ∀ path, s.view path = ∅

/-- The client remembers the hosts in the registry, and the subscriber holds them. -/
def Mirrors (s : Subscription) : Prop :=
  ∀ path o, s.client.mapCallBack path = some o → o.func = true →
    Hosts path (s.registry path) o.vecHost ∧ s.view path = {h | h ∈ o.vecHost}

variable {s s' : Subscription}

theorem Fresh.mirrors (h : s.Fresh) : s.Mirrors := by
  intro path o ho _
  rw [h.registry path, h.vecHost path o ho, h.view path]
  exact ⟨.nil, by simp⟩

/-- What a call on a watched path does to the client, and reports. -/
theorem step_watched {l : ZooCall} {o : TCallBackObj} (ho : s.client.mapCallBack l.path = some o)
    (hs : step s l s') :
    ∃ infos, Hosts l.path l.read.names infos ∧ s'.client = s.client.swap l.path o infos ∧
      l.calls = ZookClient.report o infos := by
  obtain ⟨infos, -, hhosts, hres⟩ := (ZookClient.updateServer_watched ho).mp hs.1
  obtain ⟨hclient, hcalls⟩ := Prod.mk.inj hres
  exact ⟨infos, hhosts, hclient, hcalls⟩

/-- A call on a path that is not watched leaves the client as it is and calls nothing back. -/
theorem step_unwatched {l : ZooCall} (ho : s.client.mapCallBack l.path = none)
    (hs : step s l s') : s'.client = s.client ∧ l.calls = [] := by
  have hcall := hs.1
  rw [ZookClient.updateServer_unwatched ho] at hcall
  obtain ⟨hclient, hcalls⟩ := Prod.mk.inj (Except.ok.inj hcall)
  exact ⟨hclient.symm, hcalls.symm⟩

/-- A call does nothing to any other path. -/
theorem step_of_ne {l : ZooCall} (hs : step s l s') {path : Str} (hne : path ≠ l.path) :
    s'.client.mapCallBack path = s.client.mapCallBack path ∧
      s'.registry path = s.registry path ∧ s'.view path = s.view path := by
  refine ⟨?_, ?_, ?_⟩
  · cases hw : s.client.mapCallBack l.path with
    | none => rw [(step_unwatched hw hs).1]
    | some o =>
      obtain ⟨infos, -, hclient, -⟩ := step_watched hw hs
      rw [hclient, ZookClient.swap_of_ne _ hne]
  · rw [hs.2.1]
    split
    · exact Function.update_of_ne hne _ _
    · rfl
  · rw [hs.2.2, Function.update_of_ne hne]

/-- What is not watched is not watched after the call. -/
theorem watched_before {l : ZooCall} (hs : step s l s') {o : TCallBackObj}
    (ho : s'.client.mapCallBack l.path = some o) :
    ∃ o₀, s.client.mapCallBack l.path = some o₀ ∧ o₀.func = o.func := by
  cases hw : s.client.mapCallBack l.path with
  | none =>
    rw [(step_unwatched hw hs).1, hw] at ho
    cases ho
  | some o₀ =>
    obtain ⟨infos, -, hclient, -⟩ := step_watched hw hs
    rw [hclient, ZookClient.swap_self] at ho
    cases ho
    exact ⟨o₀, rfl, rfl⟩

/-- **A call with a successful read** keeps the three together. -/
theorem mirrors_step {l : ZooCall} (h : s.Mirrors) (hread : l.read.ret = 0) (hs : step s l s') :
    s'.Mirrors := by
  intro path o ho hfunc
  by_cases he : path = l.path
  · subst he
    obtain ⟨o₀, hw, hfunc₀⟩ := watched_before hs ho
    rw [hfunc] at hfunc₀
    obtain ⟨infos, hhosts, hclient, hcalls⟩ := step_watched hw hs
    rw [hclient, ZookClient.swap_self] at ho
    cases ho
    rw [hs.2.1, if_pos hread, Function.update_self, hs.2.2, Function.update_self]
    rw [ChildrenRead.names, if_pos hread] at hhosts
    refine ⟨hhosts, ?_⟩
    rw [(h _ o₀ hw hfunc₀).2, hcalls, ZookClient.report_delta hfunc₀, replay_changes]
  · obtain ⟨hclient, hregistry, hview⟩ := step_of_ne hs he
    rw [hclient] at ho
    rw [hregistry, hview]
    exact h path o ho hfunc

/-! ## Good reads -/

/-- A read of fewer than 256 names of the form `ip:port`. -/
def goodRead (as : List Addr) : ChildrenRead := ⟨0, as.map Addr.name⟩

theorem hosts_goodRead {path comp : Str} (hpath : OneComponent path comp) (as : List Addr) :
    Hosts path (goodRead as).names (as.map (Addr.host comp)) := by
  rw [goodRead, ChildrenRead.names, if_pos rfl]
  exact hosts_addrs hpath as

/-- **On a path of one component the call returns**, and the registry is the list of these hosts. -/
theorem good_call (s : Subscription) {path comp : Str} (hpath : OneComponent path comp)
    {as : List Addr} (hlen : as.length < 256) :
    ∃ calls s', step s ⟨path, goodRead as, calls⟩ s' ∧
      ∀ h, Lists path (s'.registry path) h ↔ ∃ a ∈ as, h = a.host comp := by
  have hhosts := hosts_goodRead hpath as
  have hlists (h : HostInfo) :
      Lists path (goodRead as).data h ↔ ∃ a ∈ as, h = a.host comp := by
    refine (hhosts.mem_iff h).symm.trans ?_
    rw [List.mem_map]
    exact ⟨fun ⟨a, ha, he⟩ => ⟨a, ha, he.symm⟩, fun ⟨a, ha, he⟩ => ⟨a, ha, he.symm⟩⟩
  have hcall : ∃ res, s.client.updateServer path (goodRead as) = .ok res := by
    cases hw : s.client.mapCallBack path with
    | none => exact ⟨_, ZookClient.updateServer_unwatched hw⟩
    | some o =>
      have hlen' : (goodRead as).names.length < 256 := by
        rw [goodRead, ChildrenRead.names, if_pos rfl, List.length_map]
        exact hlen
      exact ⟨_, (ZookClient.updateServer_watched hw).mpr ⟨_, hlen', hhosts, rfl⟩⟩
  obtain ⟨⟨client, calls⟩, hcall⟩ := hcall
  refine ⟨calls, ⟨client, Function.update s.registry path (goodRead as).data,
    Function.update s.view path (replay (calls.map Callback.delta) (s.view path))⟩,
    ⟨hcall, (if_pos rfl).symm, rfl⟩, fun h => ?_⟩
  simp only [Function.update_self]
  exact hlists h

/-! ## Runs of successful reads

`Mirrors` is the invariant. That a callback names no host which the subscriber has already, and none
that it has not, follows from it and from what a callback is. -/

theorem mirrors_view_eq (h : s.Mirrors) {path : Str} {o : TCallBackObj}
    (ho : s.client.mapCallBack path = some o) (hfunc : o.func = true) :
    s.view path = {h | Lists path (s.registry path) h} := by
  obtain ⟨hhosts, hview⟩ := h path o ho hfunc
  rw [hview]
  ext info
  exact hhosts.mem_iff info

/-- What the next call reports as added the view has not, and what it reports as gone it has. -/
theorem mirrors_exact (h : s.Mirrors) {l : ZooCall} {o : TCallBackObj}
    (ho : s.client.mapCallBack l.path = some o) (hfunc : o.func = true) (hs : step s l s')
    {cb : Callback} (hcb : cb ∈ l.calls) : cb.delta.Exact (s.view l.path) := by
  obtain ⟨infos, -, -, hcalls⟩ := step_watched ho hs
  have hmem : cb.delta ∈ l.calls.map Callback.delta := List.mem_map_of_mem hcb
  rw [hcalls, ZookClient.report_delta hfunc] at hmem
  rw [(h _ o ho hfunc).2]
  exact exact_changes hmem

/-- The read of this call succeeds, which is the condition on a step. -/
def ReadSucceeds (_ : Subscription) (l : ZooCall) : Prop := l.read.ret = 0

/-- **A subscriber's view mirrors the registry**, after every run of calls whose reads succeed. The
    view is the hosts in the latest children list, and in `vecHost`; the next call reports as added
    what the view has not and as gone what it has; and on a path of one component the next call
    with a good read returns, with the view equal to the hosts of these names. -/
theorem view_mirrors_registry {ls : List ZooCall} (hstart : s.Fresh)
    (hrun : Steps (guard ReadSucceeds step) s ls s') {path : Str} {o : TCallBackObj}
    (ho : s'.client.mapCallBack path = some o) (hfunc : o.func = true) :
    s'.view path = {h | Lists path (s'.registry path) h} ∧ s'.view path = {h | h ∈ o.vecHost} ∧
      (∀ r calls s'', step s' ⟨path, r, calls⟩ s'' →
        ∀ cb ∈ calls, cb.delta.Exact (s'.view path)) ∧
      ∀ comp, OneComponent path comp → ∀ as : List Addr, as.length < 256 →
        ∃ calls s'', step s' ⟨path, goodRead as, calls⟩ s'' ∧
          s''.view path = {h | ∃ a ∈ as, h = a.host comp} := by
  have hm : s'.Mirrors :=
    hrun.invariant (P := Mirrors) (fun _ _ _ h hs => mirrors_step h hs.1 hs.2) hstart.mirrors
  refine ⟨mirrors_view_eq hm ho hfunc, (hm path o ho hfunc).2, ?_, ?_⟩
  · intro r calls s'' hs cb hcb
    exact mirrors_exact hm ho hfunc hs hcb
  · intro comp hpath as hlen
    obtain ⟨calls, s'', hs, hlists⟩ := good_call s' hpath hlen
    obtain ⟨infos, -, hclient, -⟩ := step_watched ho hs
    have ho'' : s''.client.mapCallBack path = some ⟨o.func, infos⟩ := by
      rw [hclient]
      exact ZookClient.swap_self _ _ _ _
    refine ⟨calls, s'', hs, ?_⟩
    rw [mirrors_view_eq (mirrors_step hm rfl hs) ho'' hfunc]
    ext h
    exact hlists h

/-- A path with nothing remembered, and then two servers behind it. -/
theorem view_mirrors_registry_two_servers :
    ∃ s : Subscription,
      s.view ['/', 'a'] = {h | Lists ['/', 'a'] (s.registry ['/', 'a']) h} ∧
      ∃ o, s.client.mapCallBack ['/', 'a'] = some o ∧ o.vecHost.length = 2 := by
  have hfresh : Fresh ⟨⟨fun _ => some ⟨true, []⟩⟩, fun _ => [], fun _ => ∅⟩ :=
    ⟨fun _ _ ho => by cases ho; rfl, fun _ => rfl, fun _ => rfl⟩
  have hrun : Steps (guard ReadSucceeds step) ⟨⟨fun _ => some ⟨true, []⟩⟩, fun _ => [], fun _ => ∅⟩
      [⟨['/', 'a'], ⟨0, [['h', ':', '1'], ['h', ':', '2']]⟩,
        [⟨[⟨['a'], ['h'], 1⟩, ⟨['a'], ['h'], 2⟩], .add⟩]⟩] ⟨_, _, _⟩ :=
    .single ⟨rfl, rfl, rfl, rfl⟩
  exact ⟨_, (view_mirrors_registry hfresh hrun rfl rfl).1, _, rfl, rfl⟩

/-! ## Failed reads

A read that failed has no names. The call goes on as if it had found none. -/

/-- **What a failed read does**: the hosts that were remembered are reported as gone, and
    forgotten. -/
theorem failing_updateServer {c : ZookClient} {path : Str} {o : TCallBackObj}
    (ho : c.mapCallBack path = some o) {r : ChildrenRead} (hr : r.ret ≠ 0) :
    c.updateServer path r =
      .ok (c.swap path o [], if o.vecHost = [] then [] else o.callBack o.vecHost .del) := by
  have hnames : r.names = [] := if_neg hr
  refine (ZookClient.updateServer_watched ho).mpr ⟨[], ?_, ?_, ?_⟩
  · rw [hnames]
    decide
  · rw [hnames]
    exact .nil
  · rw [ZookClient.report_nil]

/-- Nothing is called back for a failed read, and the client is unchanged. -/
def Silent (c : ZookClient) (path : Str) (r : ChildrenRead) : Prop :=
  r.ret ≠ 0 → c.updateServer path r = .ok (c, [])

/-- A failed read finds nothing to forget. -/
def FindsEmpty (c : ZookClient) (path : Str) (r : ChildrenRead) : Prop :=
  r.ret ≠ 0 → ∀ o, c.mapCallBack path = some o → o.vecHost = []

theorem silent_iff (c : ZookClient) (path : Str) (r : ChildrenRead) :
    Silent c path r ↔ FindsEmpty c path r := by
  refine forall_congr' fun hr => ?_
  cases ho : c.mapCallBack path with
  | none =>
    rw [ZookClient.updateServer_unwatched ho]
    simp
  | some o =>
    rw [failing_updateServer ho hr]
    constructor
    · intro h o' ho'
      cases ho'
      obtain ⟨hclient, -⟩ := Prod.mk.inj (Except.ok.inj h)
      have hself := ZookClient.swap_self c path o []
      rw [hclient, ho] at hself
      cases o
      cases hself
      rfl
    · intro h
      have hv := h o rfl
      have hswap : c.swap path o [] = c := by
        obtain ⟨func, vecHost⟩ := o
        cases hv
        rw [ZookClient.swap, ← ho, Function.update_eq_self]
      rw [if_pos hv, hswap]

/-- A host that is reported as gone was not listed by the read, which succeeded. -/
def Justified (l : ZooCall) : Prop :=
  ∀ cb ∈ l.calls, cb.opt = .del → ∀ h ∈ cb.vecInfo,
    l.read.ret = 0 ∧ ¬ Lists l.path l.read.data h

theorem justified_of_success {l : ZooCall} (hread : l.read.ret = 0) (hs : step s l s') :
    Justified l := by
  intro cb hcb hdel h hh
  refine ⟨hread, ?_⟩
  cases ho : s.client.mapCallBack l.path with
  | none =>
    rw [(step_unwatched ho hs).2] at hcb
    cases hcb
  | some o =>
    obtain ⟨infos, hhosts, -, hcalls⟩ := step_watched ho hs
    rw [ChildrenRead.names, if_pos hread] at hhosts
    by_cases hfunc : o.func = true
    · have hmem : cb.delta ∈ l.calls.map Callback.delta := List.mem_map_of_mem hcb
      rw [hcalls, ZookClient.report_delta hfunc, Callback.delta, hdel] at hmem
      exact fun hlists => gone_of_changes hmem hh ((hhosts.mem_iff h).mpr hlists)
    · rw [hcalls, ZookClient.report_unset hfunc] at hcb
      cases hcb

/-- What a call should do about failures: a failed read is silent, and what is reported as gone was
    not listed. -/
def Honest (s : Subscription) (l : ZooCall) : Prop :=
  Silent s.client l.path l.read ∧ Justified l

/-- The condition on a step of a run. -/
def NothingToForget (s : Subscription) (l : ZooCall) : Prop := FindsEmpty s.client l.path l.read

theorem honest_step_iff {l : ZooCall} (hs : step s l s') : Honest s l ↔ NothingToForget s l := by
  constructor
  · rintro ⟨hsilent, -⟩
    exact (silent_iff _ _ _).mp hsilent
  · intro hempty
    have hsilent := (silent_iff _ _ _).mpr hempty
    refine ⟨hsilent, ?_⟩
    by_cases hread : l.read.ret = 0
    · exact justified_of_success hread hs
    · have hcalls := (Prod.mk.inj (Except.ok.inj (hs.1.symm.trans (hsilent hread)))).2
      intro cb hcb
      rw [hcalls] at hcb
      cases hcb

/-- **When a failed read reports nothing as gone.** On a watched path, in any state: exactly when
    nothing is remembered. And a run is one in which every failed read is silent and every host
    reported as gone was missing from a successful read, exactly if every failed read in it found
    nothing to forget. -/
theorem honest_iff (s : Subscription) (ls : List ZooCall) (s' : Subscription) :
    (∀ (c : ZookClient) path (r : ChildrenRead) o, c.mapCallBack path = some o → r.ret ≠ 0 →
      (c.updateServer path r = .ok (c, []) ↔ o.vecHost = [])) ∧
    (Steps (guard Honest step) s ls s' ↔ Steps (guard NothingToForget step) s ls s') := by
  constructor
  · intro c path r o ho hr
    have h := silent_iff c path r
    constructor
    · exact fun hcall => h.mp (fun _ => hcall) hr o ho
    · intro hv
      refine h.mpr (fun _ o' ho' => ?_) hr
      rw [ho] at ho'
      cases ho'
      exact hv
  · constructor
    · intro hrun
      exact hrun.mono fun _ _ _ hs => ⟨(honest_step_iff hs.2).mp hs.1, hs.2⟩
    · intro hrun
      exact hrun.mono fun _ _ _ hs => ⟨(honest_step_iff hs.2).mpr hs.1, hs.2⟩

/-- One server comes up, and then the connection is lost: the read comes back with -4, and the
    server is reported as gone. -/
theorem lost_connection_reported :
    ∃ s : Subscription,
      Steps step ⟨⟨fun _ => some ⟨true, []⟩⟩, fun _ => [], fun _ => ∅⟩
        [⟨['/', 'a'], ⟨0, [['h', ':', '1']]⟩, [⟨[⟨['a'], ['h'], 1⟩], .add⟩]⟩] s ∧
      (∃ s', step s ⟨['/', 'a'], ⟨-4, []⟩, [⟨[⟨['a'], ['h'], 1⟩], .del⟩]⟩ s') ∧
      ¬ Honest s ⟨['/', 'a'], ⟨-4, []⟩, [⟨[⟨['a'], ['h'], 1⟩], .del⟩]⟩ := by
  have hrun : Steps step ⟨⟨fun _ => some ⟨true, []⟩⟩, fun _ => [], fun _ => ∅⟩
      [⟨['/', 'a'], ⟨0, [['h', ':', '1']]⟩, [⟨[⟨['a'], ['h'], 1⟩], .add⟩]⟩] ⟨_, _, _⟩ :=
    .single ⟨rfl, rfl, rfl⟩
  refine ⟨_, hrun, ⟨⟨_, _, _⟩, rfl, rfl, rfl⟩, ?_⟩
  rintro ⟨-, hjustified⟩
  exact absurd (hjustified _ List.mem_cons_self rfl _ List.mem_cons_self).1 (by decide)

end Subscription

end WebsocketTest
