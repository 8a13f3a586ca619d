import WebsocketTest.Zoo.HostInfo

/-!
# The address in a child's name

A server puts its address into the name of its node, `generateAddrInfo`, and the others read it from
there with `parseHostInfo`.

**`parseHostInfo_generateAddrInfo`** — what is printed is read back, for every port and every name
and ip that the tokenizer leaves in one piece.

The parser does not insist on that format. It takes every name with two parts between colons,
whatever the number of the colons, and of the second part it takes what `atoi` makes of it. `Genuine`
is what `generateAddrInfo` could have printed, up to zeros in front.
-/

set_option autoImplicit false

namespace WebsocketTest

open Lib.Text

/-! ## Decimal numbers -/

theorem digit_iff {c : Char} : Digit c ↔ c.isDigit = true := by
  rw [Char.isDigit_iff_toNat]
  exact Iff.rfl

theorem digits_eq {s : Str} (h : ∀ c ∈ s, Digit c) : digits s = Nat.ofDigitChars 10 s 0 := by
  have hall : s.takeWhile (fun c => decide (Digit c)) = s :=
    List.takeWhile_eq_self_iff.mpr fun c hc => decide_eq_true (h c hc)
  rw [digits, hall, Nat.ofDigitChars_eq_foldl]
  congr 1
  funext n c
  rw [Nat.mul_comm]

/-- A digit is not skipped, and no sign. -/
theorem digit_ne {c d : Char} (hc : Digit c) (hd : ¬ Digit d) : c ≠ d := fun he => hd (he ▸ hc)

/-- **`atoi` of digits** is the number they show, or the bound of a `long`. -/
theorem atoi_digits {s : Str} (hne : s ≠ []) (h : ∀ c ∈ s, Digit c) :
    atoi s = (min longMax (Nat.ofDigitChars 10 s 0) : Nat) := by
  cases s with
  | nil => exact absurd rfl hne
  | cons c s =>
    have hc := h c List.mem_cons_self
    have hspace : c ∉ [' ', '\t', '\n', '\x0b', '\x0c', '\r'] := by
      simp only [List.mem_cons, List.not_mem_nil, or_false, not_or]
      refine ⟨?_, ?_, ?_, ?_, ?_, ?_⟩
      all_goals exact digit_ne hc (by decide)
    rw [atoi, List.dropWhile_cons_of_neg (by simpa using hspace), ← digits_eq h]
    split
    · rename_i heq
      exact absurd (List.cons.inj heq).1 (digit_ne hc (by decide))
    · rename_i heq
      exact absurd (List.cons.inj heq).1 (digit_ne hc (by decide))
    · rfl

/-- A decimal number that a port can be. -/
def IsPort (port : Str) (n : Nat) : Prop :=
  port ≠ [] ∧ (∀ c ∈ port, Digit c) ∧ Nat.ofDigitChars 10 port 0 = n ∧ n < 65536

namespace IsPort

variable {port : Str} {n : Nat}

/-- **A port is read as its number.** -/
theorem atoi (h : IsPort port n) : UInt16.ofInt (atoi port) = UInt16.ofNat n := by
  obtain ⟨hne, hdigits, rfl, hlt⟩ := h
  have hmin : min longMax (Nat.ofDigitChars 10 port 0) = Nat.ofDigitChars 10 port 0 :=
    Nat.min_eq_right (by simp only [longMax]; omega)
  rw [atoi_digits hne hdigits, hmin, UInt16.ofInt]
  congr 1
  omega

theorem plain (h : IsPort port n) : Plain port := by
  obtain ⟨hne, hdigits, -, -⟩ := h
  have hmem : ∀ d, ¬ Digit d → d ∉ port := fun d hd hm => hd (hdigits d hm)
  exact ⟨hne, hmem _ (by decide), hmem _ (by decide), hmem _ (by decide)⟩

end IsPort

/-! ## Printing an address -/

/-- `generateAddrInfo`. The number is printed into an array of 16 characters. -/
def generateAddrInfo (info : HostInfo) : Str :=
  info.ip ++ ':' :: (Nat.toDigits 10 info.port.toNat).take 15

/-- `full_path` in `registerSelf`. -/
def fullPath (info : HostInfo) : Str :=
  let fatherPath := '/' :: info.name
  fatherPath ++ '/' :: generateAddrInfo info

theorem isPort_printed (port : UInt16) :
    IsPort ((Nat.toDigits 10 port.toNat).take 15) port.toNat := by
  have hlt := port.toNat_lt
  have hlen : (Nat.toDigits 10 port.toNat).length ≤ 15 :=
    (Nat.length_toDigits_le_iff (by decide) (by decide)).mpr (Nat.lt_trans hlt (by decide))
  rw [List.take_of_length_le hlen]
  exact ⟨Nat.toDigits_ne_nil,
    fun _ hc => digit_iff.mpr (Nat.isDigit_of_mem_toDigits (by decide) (by decide) hc),
    Nat.ofDigitChars_ten_toDigits, hlt⟩

/-- **What a server registers is what its peers read.** -/
theorem parseHostInfo_generateAddrInfo (info : HostInfo) (hne : info.name ≠ [])
    (hslash : '/' ∉ info.name) (hnul : '\x00' ∉ info.name) (hip : Plain info.ip) :
    parseHostInfo (fullPath info) = .ok info := by
  have hport := isPort_printed info.port
  have hpath : OneComponent ('/' :: info.name) info.name := by
    refine ⟨?_, ?_⟩
    · rw [List.mem_cons, not_or]
      exact ⟨by decide, hnul⟩
    · have hsep := words_sep '/' [] info.name
      rw [List.nil_append, words_word hslash hne] at hsep
      exact hsep
  have hchild := parseHostInfo_child hpath ⟨info.ip, _, hip, hport.plain⟩
  rw [Addr.host, hport.atoi, UInt16.ofNat_toNat] at hchild
  exact hchild

theorem parseHostInfo_generateAddrInfo_highest :
    parseHostInfo "/dispatch/10.0.0.1:65535".toList =
      .ok ⟨"dispatch".toList, "10.0.0.1".toList, 65535⟩ :=
  parseHostInfo_generateAddrInfo ⟨"dispatch".toList, "10.0.0.1".toList, 65535⟩ (by decide)
    (by decide) (by decide) (by decide)

/-! ## Reading a name that somebody else wrote -/

/-- What zookeeper can return as the name of a child. -/
def ChildName (name : Str) : Prop := name ≠ [] ∧ '/' ∉ name ∧ '\x00' ∉ name

instance (name : Str) : Decidable (ChildName name) := inferInstanceAs (Decidable (_ ∧ _))

/-- The name is an ip, one colon and a port, and the host that of this address. -/
def Registers (name : Str) (info : HostInfo) : Prop :=
  ∃ port, name = info.ip ++ ':' :: port ∧ info.ip ≠ [] ∧ ':' ∉ info.ip ∧
    IsPort port info.port.toNat

def Genuine (name : Str) : Prop := ∃ info, Registers name info

/-- A genuine name is parsed into the host that it registers. -/
theorem Genuine.parse {path comp name : Str} (hpath : OneComponent path comp)
    (hname : ChildName name) (h : Genuine name) :
    ∃ info, parseHostInfo (path ++ '/' :: name) = .ok info ∧ Registers name info := by
  obtain ⟨⟨_, ip, n⟩, port, rfl, hne, hcolon, hport⟩ := h
  obtain ⟨-, hslash, hnul⟩ := hname
  rw [List.mem_append, not_or] at hslash hnul
  have hchild := parseHostInfo_child hpath ⟨ip, port, ⟨hne, hslash.1, hcolon, hnul.1⟩, hport.plain⟩
  rw [Addr.host, hport.atoi, UInt16.ofNat_toNat] at hchild
  exact ⟨⟨comp, ip, n⟩, hchild, port, rfl, hne, hcolon, hport⟩

end WebsocketTest
