import WebsocketTest.Lib.Replica
import WebsocketTest.Lib.Text

/-!
# Hosts, and the names they are registered under

A server registers itself in zookeeper as a child `ip:port` of its module's node `/name`. This is
how `zooClient.cpp` reads such a path back: `SplitString` with `strtok_r`, the two assertions of
`parseHostInfo`, and `compareHostInfo`, two scans of the new list of hosts against the old one and
back.

**`parseHostInfo_child`** is what the parser makes of a child: the one component the path has, and
the two parts of the name. **`compareHostInfo_eq`** is what the two scans compute.

The two assertions end the process where they fail: no makefile of the repository defines `NDEBUG`.
A build without them would go on with what there is, past the end of the vector if there is too
little.
-/

set_option autoImplicit false

namespace WebsocketTest

open Lib.Text Lib.Replica

structure HostInfo where
  name : Str
  ip : Str
  port : UInt16
  deriving DecidableEq

/-- How a call ends that does not return: an assertion fails, or a loop goes on for ever. -/
inductive Halt
  | assertion
  | endless
  deriving DecidableEq

/-! ## Parsing -/

/-- `SplitString` with one delimiter: the words of what `srcStr.c_str()` shows. -/
def splitString (srcStr : Str) (delim : Char) (strList : List Str) : List Str :=
  strList ++ words delim (cString srcStr)

def Digit (c : Char) : Prop := '0' ≤ c ∧ c ≤ '9'

instance (c : Char) : Decidable (Digit c) := inferInstanceAs (Decidable (_ ∧ _))

/-- The number that digits show, in decimal. -/
def digits (s : Str) : Nat :=
  (s.takeWhile fun c => decide (Digit c)).foldl (fun n c => n * 10 + (c.toNat - '0'.toNat)) 0

/-- `LONG_MAX`. -/
def longMax : Nat := 9223372036854775807

/-- `atoi`, which is `strtol`, with its bounds, cut to an `int`; the cut is left to the caller, who
    keeps 16 bits. -/
def atoi (s : Str) : Int :=
  match s.dropWhile (· ∈ [' ', '\t', '\n', '\x0b', '\x0c', '\r']) with
  | '-' :: s => -(min (longMax + 1) (digits s) : Nat)
  | '+' :: s => (min longMax (digits s) : Nat)
  | s => (min longMax (digits s) : Nat)

def parseHostInfo (path : Str) : Except Halt HostInfo :=
  match splitString path '/' [] with
  | [name, hostInfo] =>
    match splitString hostInfo ':' [] with
    | [ip, port] => .ok ⟨name, ip, UInt16.ofInt (atoi port)⟩
    | _ => .error .assertion
  | _ => .error .assertion

/-- What a part of a name may hold. -/
def Plain (s : Str) : Prop := s ≠ [] ∧ '/' ∉ s ∧ ':' ∉ s ∧ '\x00' ∉ s

instance (s : Str) : Decidable (Plain s) := inferInstanceAs (Decidable (_ ∧ _))

/-- A name of the form `ip:port`. -/
structure Addr where
  ip : Str
  port : Str
  plain_ip : Plain ip
  plain_port : Plain port

def Addr.name (a : Addr) : Str := a.ip ++ ':' :: a.port

/-- The host that registers itself so, in the module `comp`. -/
def Addr.host (comp : Str) (a : Addr) : HostInfo := ⟨comp, a.ip, UInt16.ofInt (atoi a.port)⟩

/-- A path that the parser can take: one component, and no NUL, which `c_str()` would stop at. -/
def OneComponent (path comp : Str) : Prop := '\x00' ∉ path ∧ words '/' path = [comp]

namespace Addr

variable (a : Addr)

theorem nul_not_mem : '\x00' ∉ a.name :=
  not_mem_join (by decide) a.plain_ip.2.2.2 a.plain_port.2.2.2

theorem words_name : words '/' a.name = [a.name] :=
  words_word (not_mem_join (by decide) a.plain_ip.2.1 a.plain_port.2.1) (by simp [name])

theorem splitString_name : splitString a.name ':' [] = [a.ip, a.port] := by
  rw [splitString, cString_eq a.nul_not_mem, name, words_sep,
    words_word a.plain_ip.2.2.1 a.plain_ip.1, words_word a.plain_port.2.2.1 a.plain_port.1]
  rfl

theorem splitString_child {path : Str} (hpath : '\x00' ∉ path) :
    splitString (path ++ '/' :: a.name) '/' [] = words '/' path ++ [a.name] := by
  have hnul : '\x00' ∉ path ++ '/' :: a.name := not_mem_join (by decide) hpath a.nul_not_mem
  rw [splitString, cString_eq hnul, words_sep, words_name, List.nil_append]

end Addr

/-- **A child of a one-component path** is parsed into that component and its own two parts. -/
theorem parseHostInfo_child {path comp : Str} (hpath : OneComponent path comp) (a : Addr) :
    parseHostInfo (path ++ '/' :: a.name) = .ok (a.host comp) := by
  rw [parseHostInfo, a.splitString_child hpath.1, hpath.2]
  simp only [List.singleton_append, a.splitString_name]
  rfl

/-- The first assertion fails for every other path. -/
theorem parseHostInfo_abort {path : Str} (hnul : '\x00' ∉ path)
    (hpath : ∀ comp, words '/' path ≠ [comp]) (a : Addr) :
    parseHostInfo (path ++ '/' :: a.name) = .error .assertion := by
  rw [parseHostInfo, a.splitString_child hnul]
  split
  · rename_i name hostInfo heq
    have hlast : words '/' path = [name] :=
      List.append_inj_left' (heq : _ ++ [a.name] = [name] ++ [hostInfo]) rfl
    exact absurd hlast (hpath name)
  · rfl

/-! ## Comparing -/

/-- The inner loop of a scan: `flag` after it. -/
def absent (cmp1 : HostInfo) : List HostInfo → Bool
  | [] => true
  | cmp2 :: infos => if cmp1 = cmp2 then false else absent cmp1 infos

/-- The outer loop: what is not in `others` is pushed to `list`. -/
def scan (others : List HostInfo) : List HostInfo → List HostInfo → List HostInfo
  | list, [] => list
  | list, cmp1 :: infos => scan others (if absent cmp1 others then list ++ [cmp1] else list) infos

/-- `addlist` and `minuslist` after `compareHostInfo`. -/
def compareHostInfo (newinfos oldinfos addlist minuslist : List HostInfo) :
    List HostInfo × List HostInfo :=
  (scan oldinfos addlist newinfos, scan newinfos minuslist oldinfos)

theorem absent_eq (h : HostInfo) (infos : List HostInfo) : absent h infos = decide (h ∉ infos) := by
  induction infos with
  | nil => simp [absent]
  | cons o infos ih =>
    rw [absent]
    split
    · simp_all
    · rename_i hne
      rw [ih]
      simp [hne]

theorem scan_eq (others list infos : List HostInfo) :
    scan others list infos = list ++ diff infos others := by
  induction infos generalizing list with
  | nil => rw [scan, diff_nil_left, List.append_nil]
  | cons h infos ih =>
    rw [scan, ih, absent_eq, diff, diff, List.filter_cons]
    by_cases hmem : h ∈ others
    · simp [hmem]
    · simp [hmem]

/-- **The two scans** compute the two differences. -/
theorem compareHostInfo_eq (new old : List HostInfo) :
    compareHostInfo new old [] [] = (diff new old, diff old new) := by
  rw [compareHostInfo, scan_eq, scan_eq, List.nil_append, List.nil_append]

end WebsocketTest
