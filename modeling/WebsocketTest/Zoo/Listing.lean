import WebsocketTest.Zoo.Address
import WebsocketTest.Zoo.Client
import Mathlib.Data.List.Forall2
import Mathlib.Data.List.Nodup

/-!
# Listing the servers of a path

`getServerList` copies the names of the children in one loop and parses them in a second one. What
it needs of the registry is more than zookeeper promises.

**`listing_iff`** — the loops count with a `uint8_t`, so that they end exactly if there are fewer
than 256 children. Then every child of a path with one component is appended, in order.

**`foreign_iff`** — a name that is not an address makes the process abort, or is recorded as some
address, so that only genuine names keep the list sound.

The first result is about children that are addresses, in any number; the second is about fewer than
256 children with any names. Neither limit is one of zookeeper's: a node may have more children, and
anybody with access to the registry can create one under another name.
-/

set_option autoImplicit false

namespace WebsocketTest

open Lib.Text

/-! ## Termination -/

/-- The loop over all of `xs` ends, by itself or with the process, in some number of rounds. -/
def Ends {α β : Type} (xs : List β) (body : α → β → Except Halt α) (a : α) : Prop :=
  ∃ fuel, forByte xs body fuel 0 a ≠ .error .endless

section Loops

variable {α β : Type} {xs : List β} {body : α → β → Except Halt α}

theorem foldlM_ok (hok : ∀ a, ∀ x ∈ xs, ∃ b, body a x = .ok b) (a : α) :
    ∃ b, xs.foldlM body a = .ok b := by
  induction xs generalizing a with
  | nil => exact ⟨a, rfl⟩
  | cons x xs ih =>
    obtain ⟨b, hb⟩ := hok a x List.mem_cons_self
    rw [List.foldlM_cons, hb]
    exact ih (fun a y hy => hok a y (List.mem_cons_of_mem x hy)) b

/-- A loop whose body returns has no other way to go wrong. -/
theorem forByte_error (hok : ∀ a, ∀ x ∈ xs, ∃ b, body a x = .ok b) {fuel i : Nat} {a : α}
    {e : Halt} (h : forByte xs body fuel i a = .error e) : e = .endless := by
  induction fuel generalizing i a with
  | zero =>
    cases h
    rfl
  | succ fuel ih =>
    rw [forByte] at h
    split at h
    · cases h
    · rename_i x hx
      obtain ⟨b, hb⟩ := hok a x (List.mem_of_getElem? hx)
      rw [hb] at h
      exact ih h

/-- **A `uint8_t` counts to the end** exactly if there are fewer than 256 elements. -/
theorem ends_iff (hok : ∀ a, ∀ x ∈ xs, ∃ b, body a x = .ok b) (a : α) :
    Ends xs body a ↔ xs.length < 256 := by
  constructor
  · rintro ⟨fuel, hends⟩
    by_contra hlen
    cases hloop : forByte xs body fuel 0 a with
    | error e => exact hends (by rw [hloop, forByte_error hok hloop])
    | ok b => exact forByte_endless (Nat.le_of_not_lt hlen) (by decide) a b hloop
  · intro hlen
    refine ⟨xs.length + 1, ?_⟩
    rw [forByte_short hlen (Nat.zero_le _) (by omega), List.drop_zero]
    obtain ⟨b, hb⟩ := foldlM_ok hok a
    rw [hb]
    exact fun hf => nomatch hf

end Loops

/-- The loop body of `zoo_wget_children`. -/
def pushName (nodeList : List Str) (name : Str) : Except Halt (List Str) := .ok (nodeList ++ [name])

namespace ZookClient

theorem pushName_ok {names : List Str} (list : List Str) (name : Str) (_ : name ∈ names) :
    ∃ list', pushName list name = .ok list' := ⟨_, rfl⟩

theorem pushHost_ok {path : Str} {names : List Str} {infos : List HostInfo}
    (h : Hosts path names infos) (vecInfo : List HostInfo) :
    ∀ name ∈ names, ∃ vecInfo', pushHost path vecInfo name = .ok vecInfo' := by
  intro name hname
  have hlists : ∃ info, parseHostInfo (path ++ '/' :: name) = .ok info := by
    induction h with
    | nil => cases hname
    | cons hparse _ ih =>
      rcases List.mem_cons.mp hname with rfl | hname
      · exact ⟨_, hparse⟩
      · exact ih hname
  obtain ⟨info, hinfo⟩ := hlists
  exact ⟨vecInfo ++ [info], by rw [pushHost, hinfo]⟩

/-- The parser takes the children of this path. It has one component; or there is a NUL in it, which
    hides the children, and an address in front of that. -/
def TakesChildren (path : Str) : Prop :=
  (∃ comp, OneComponent path comp) ∨ ('\x00' ∈ path ∧ ∃ info, parseHostInfo path = .ok info)

/-- Behind a NUL nothing is seen: what follows it in a path makes no difference. -/
theorem parseHostInfo_hidden {path : Str} (hnul : '\x00' ∈ path) (t : Str) :
    parseHostInfo (path ++ t) = parseHostInfo path := by
  have hcut : cString (path ++ t) = cString path := by
    rw [cString, cString, List.takeWhile_append, if_neg]
    intro hall
    have hmem := hnul
    rw [← List.Sublist.eq_of_length (List.takeWhile_prefix _).sublist hall] at hmem
    exact nul_not_mem_cString path hmem
  rw [parseHostInfo, parseHostInfo, splitString, splitString, hcut]

theorem hosts_taken {path : Str} (h : TakesChildren path) (as : List Addr) :
    ∃ infos, Hosts path (as.map Addr.name) infos := by
  rcases h with ⟨comp, hpath⟩ | ⟨hnul, info, hparse⟩
  · exact ⟨_, hosts_addrs hpath as⟩
  · induction as with
    | nil => exact ⟨[], .nil⟩
    | cons a as ih =>
      obtain ⟨infos, hhosts⟩ := ih
      exact ⟨info :: infos, .cons ((parseHostInfo_hidden hnul _).trans hparse) hhosts⟩

/-- Only such a path has children that can be parsed. -/
theorem takesChildren_of_hosts {path : Str} {as : List Addr} {infos : List HostInfo}
    (h : Hosts path (as.map Addr.name) infos) : as = [] ∨ TakesChildren path := by
  cases as with
  | nil => exact .inl rfl
  | cons a as =>
    right
    rw [List.map_cons] at h
    cases h with
    | cons hparse _ =>
      by_cases hnul : '\x00' ∈ path
      · rw [parseHostInfo_hidden hnul] at hparse
        exact .inr ⟨hnul, _, hparse⟩
      · by_contra hno
        have hwords : ∀ comp, words '/' path ≠ [comp] :=
          fun comp hcomp => hno (.inl ⟨comp, hnul, hcomp⟩)
        rw [parseHostInfo_abort hnul hwords] at hparse
        cases hparse

/-- Both loops end, and every child is appended as the host it is parsed into, in order. -/
def ListsAll (path : Str) (as : List Addr) (vecInfo : List HostInfo) : Prop :=
  Ends (as.map Addr.name) pushName [] ∧ Ends (as.map Addr.name) (pushHost path) vecInfo ∧
    ∃ infos, getServerList path ⟨0, as.map Addr.name⟩ vecInfo = .ok (vecInfo ++ infos) ∧
      Hosts path (as.map Addr.name) infos

/-- **When the servers are listed**: exactly if there are fewer than 256 children, and the parser
    takes the children of the path, if there are any. -/
theorem listing_iff (path : Str) (as : List Addr) (vecInfo : List HostInfo) :
    ListsAll path as vecInfo ↔ as.length < 256 ∧ (as = [] ∨ TakesChildren path) := by
  have hnames : (⟨0, as.map Addr.name⟩ : ChildrenRead).names = as.map Addr.name := if_pos rfl
  have hlen : (as.map Addr.name).length = as.length := List.length_map _
  constructor
  · rintro ⟨hcopy, -, infos, -, hhosts⟩
    rw [ends_iff pushName_ok, hlen] at hcopy
    exact ⟨hcopy, takesChildren_of_hosts hhosts⟩
  · rintro ⟨hshort, hpath⟩
    have hhosts : ∃ infos, Hosts path (as.map Addr.name) infos := by
      rcases hpath with rfl | hpath
      · exact ⟨[], .nil⟩
      · exact hosts_taken hpath as
    obtain ⟨infos, hhosts⟩ := hhosts
    refine ⟨(ends_iff pushName_ok _).mpr (hlen ▸ hshort),
      (ends_iff (pushHost_ok hhosts) _).mpr (hlen ▸ hshort), infos, ?_, hhosts⟩
    rw [getServerList_append_iff, hnames, hlen]
    exact ⟨hshort, infos, hhosts, rfl⟩

/-- The server at a port of the host `h`. -/
def server (port : UInt16) : Addr :=
  ⟨['h'], (Nat.toDigits 10 port.toNat).take 15, by decide, (isPort_printed port).plain⟩

theorem server_inj {m n : UInt16} (h : (server m).name = (server n).name) : m = n := by
  have hports : (server m).port = (server n).port := (List.cons.inj (List.cons.inj h).2).2
  have hm : Nat.ofDigitChars 10 (server m).port 0 = m.toNat := (isPort_printed m).2.2.1
  have hn : Nat.ofDigitChars 10 (server n).port 0 = n.toNat := (isPort_printed n).2.2.1
  rw [hports, hn] at hm
  exact UInt16.toNat_inj.mp hm.symm

/-- The servers at the ports from 0 to 255. -/
def servers256 : List Addr := (List.range 256).map fun n => server (UInt16.ofNat n)

theorem nodup_servers256 : (servers256.map Addr.name).Nodup := by
  rw [servers256, List.map_map]
  refine List.nodup_range.map_on fun m hm n hn h => ?_
  have hports := congrArg UInt16.toNat (server_inj h)
  rw [List.mem_range] at hm hn
  rw [UInt16.toNat_ofNat_of_lt' (by rw [UInt16.size]; omega),
    UInt16.toNat_ofNat_of_lt' (by rw [UInt16.size]; omega)] at hports
  exact hports

/-- **256 children**: the counter is back at 0 before it reaches the end. -/
theorem listing_256 :
    (servers256.map Addr.name).Nodup ∧ ¬ Ends (servers256.map Addr.name) pushName [] ∧
      ¬ ListsAll "/s".toList servers256 [] := by
  have hcopy : ¬ Ends (servers256.map Addr.name) pushName [] := by
    rw [ends_iff pushName_ok, servers256, List.length_map, List.length_map, List.length_range]
    exact Nat.lt_irrefl 256
  exact ⟨nodup_servers256, hcopy, fun h => hcopy h.1⟩

/-! ## Foreign names -/

/-- The call returns, and what it records are hosts that some of the names register. -/
def Sound (path : Str) (names : List Str) : Prop :=
  ∃ infos kept, getServerList path ⟨0, names⟩ [] = .ok infos ∧ kept.Sublist names ∧
    List.Forall₂ Registers kept infos

/-- Every name with an entry is an address. -/
theorem genuine_of_registers {names : List Str} {infos : List HostInfo}
    (h : List.Forall₂ Registers names infos) : ∀ name ∈ names, Genuine name := by
  induction h with
  | nil => exact fun _ hname => nomatch hname
  | cons hreg _ ih =>
    intro name hname
    rcases List.mem_cons.mp hname with rfl | hname
    · exact ⟨_, hreg⟩
    · exact ih name hname

theorem hosts_genuine {path comp : Str} (hpath : OneComponent path comp) {names : List Str}
    (hnames : ∀ name ∈ names, ChildName name) (h : ∀ name ∈ names, Genuine name) :
    ∃ infos, Hosts path names infos ∧ List.Forall₂ Registers names infos := by
  induction names with
  | nil => exact ⟨[], .nil, .nil⟩
  | cons name names ih =>
    obtain ⟨info, hparse, hreg⟩ :=
      (h name List.mem_cons_self).parse hpath (hnames name List.mem_cons_self)
    obtain ⟨infos, hhosts, hregs⟩ := ih (fun n hn => hnames n (List.mem_cons_of_mem name hn))
      fun n hn => h n (List.mem_cons_of_mem name hn)
    exact ⟨info :: infos, .cons hparse hhosts, .cons hreg hregs⟩

/-- **When foreign names do no harm**: exactly if every name is an address. -/
theorem foreign_iff {path comp : Str} (hpath : OneComponent path comp) {names : List Str}
    (hnames : ∀ name ∈ names, ChildName name) (hlen : names.length < 256) :
    Sound path names ↔ ∀ name ∈ names, Genuine name := by
  have hread : (⟨0, names⟩ : ChildrenRead).names = names := if_pos rfl
  constructor
  · rintro ⟨infos, kept, hlist, hsub, hregs⟩
    obtain ⟨-, hhosts⟩ := getServerList_eq_ok_iff.mp hlist
    rw [hread] at hhosts
    -- there is an entry for every name, so none was left out
    have hkept : kept = names :=
      hsub.eq_of_length (hregs.length_eq.trans hhosts.length_eq.symm)
    intro name hname
    rw [← hkept] at hname
    exact genuine_of_registers hregs name hname
  · intro h
    obtain ⟨infos, hhosts, hregs⟩ := hosts_genuine hpath hnames h
    refine ⟨infos, names, getServerList_eq_ok_iff.mpr ?_, List.Sublist.refl _, hregs⟩
    rw [hread]
    exact ⟨hlen, hhosts⟩

/-- One name is an address, the other is not. -/
theorem foreign_iff_two_names :
    Sound "/s".toList ["h:80".toList, "::1".toList] ↔
      ∀ name ∈ ["h:80".toList, "::1".toList], Genuine name :=
  have hpath : OneComponent "/s".toList ['s'] := ⟨by decide, by decide⟩
  foreign_iff hpath (by decide) (by decide)

/-- **Names that do harm**: a sequential node makes the assertion fail, and a name with two colons
    is recorded as a host that it does not spell. -/
theorem foreign_names :
    OneComponent "/s".toList ['s'] ∧
      (ChildName "lock-0001".toList ∧
        getServerList "/s".toList ⟨0, ["lock-0001".toList]⟩ [] = .error .assertion ∧
        ¬ Sound "/s".toList ["lock-0001".toList]) ∧
      (ChildName "h::80x".toList ∧
        getServerList "/s".toList ⟨0, ["h::80x".toList]⟩ [] = .ok [⟨['s'], ['h'], 80⟩] ∧
        ¬ Sound "/s".toList ["h::80x".toList]) := by
  have hlock : getServerList "/s".toList ⟨0, ["lock-0001".toList]⟩ [] = .error .assertion := by
    decide
  have htwo : getServerList "/s".toList ⟨0, ["h::80x".toList]⟩ [] = .ok [⟨['s'], ['h'], 80⟩] := by
    decide
  refine ⟨⟨by decide, by decide⟩, ⟨by decide, hlock, ?_⟩, by decide, htwo, ?_⟩
  · rintro ⟨infos, kept, hlist, -, -⟩
    rw [hlock] at hlist
    cases hlist
  · rintro ⟨infos, kept, hlist, hsub, hregs⟩
    rw [htwo] at hlist
    cases hlist
    -- the host would have to be that of the name
    cases hregs with
    | cons hreg hrest =>
      cases hrest
      obtain rfl := List.mem_singleton.mp (hsub.subset List.mem_cons_self)
      obtain ⟨port, hname, -, -, hport⟩ := hreg
      rw [← (List.cons.inj (List.cons.inj hname).2).2] at hport
      exact absurd (hport.2.1 ':' (by decide)) (by decide)

end ZookClient

end WebsocketTest
