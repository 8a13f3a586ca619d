import WebsocketTest.Lib.Resp
import WebsocketTest.Lib.Stream

/-!
# Reading from a socket of `redis::base_client`

`recv_or_throw`, `read_line` and `read_n`. What a socket will receive, in what pieces, and how it
ends is a `Source`.

The comment on `read_line` promises a blank line once `max_size` bytes were read without an end of
line; the count it compares is never changed, and there is no such bound. What a line holds and
what is left behind it does not depend on the pieces (`scheduleless_readLine`), although the
function peeks at 64 bytes at a time.

## How a line is read

The function does not know where the line ends before it has looked, and what it has looked at it
cannot put back. So it peeks, searches what it saw, and takes exactly as much: up to the end of the
line if that was there, else all of it. A peek and the `recv` behind it are two calls, between which
more may have arrived; that the second gets the bytes of the first, and need not wait for them, is
`recvOrThrow_peeked`. The loop ends because each time round it takes something, or throws.

Two statements are made of each reader. `reads_…` says what it returns, and what it leaves, where
the bytes begin as they should. `scheduleless_…` says, of any bytes at all, that the pieces do not
matter; it is put together from the same statement about the calls, so that it needs no case for
rubbish.
-/

set_option autoImplicit false

namespace WebsocketTest.Redis

open Lib.Text Lib.Outcome Lib.Stream Lib.Resp

/-! ## The exceptions -/

/-- What a reader throws: the exceptions of this file, with their texts, and those of the
    libraries under it. -/
inductive Thrown
  | connection (what : Str)
  | protocol (what : Str)
  | key (what : Str)
  | runtime (what : Str)
  | badLexicalCast
  | outOfRange
  | length
  deriving DecidableEq

abbrev Recv (β : Type) := Reader Char Str Thrown β

/-! ## Bytes

A `recv` returns a piece of what comes, or the end of the connection, or an error; one that was
interrupted is made again. What the schedule of a `Source` says of a call is how long its piece may
be, and whether it was interrupted before. -/

/-- `recv_or_throw`. -/
def recvOrThrow (n : Nat) (peek : Bool) (s : Source Char Str) :
    Except Thrown Str × Source Char Str :=
  match _h : s.recv n peek with
  | (.interrupted, s) => recvOrThrow n peek s
  | (.data [], s) => (.error (.connection "connection was closed".toList), s)
  | (.failed err, s) => (.error (.connection ("recv error: ".toList ++ err)), s)
  | (.data (c :: buf), s) => (.ok (c :: buf), s)
termination_by s.polls.length
decreasing_by exact (recv_interrupted ‹_›).1

/-- What is thrown at the end of the stream: the peer has closed, or the `recv` has failed. -/
def lost : Option Str → Thrown
  | none => .connection "connection was closed".toList
  | some err => .connection ("recv error: ".toList ++ err)

/-- **Where there is something to come**, a piece of it is what a call returns. -/
theorem recvOrThrow_spec {n : Nat} (hn : 0 < n) (peek : Bool) (s : Source Char Str)
    (hne : s.input ≠ []) :
    ∃ got s', recvOrThrow n peek s = (.ok got, s') ∧ Piece n s got ∧ After peek s got s' := by
  have hrecv := recv_spec hn peek hne
  fun_induction recvOrThrow n peek s with
  | case1 s s' h ih =>
    obtain ⟨-, hinput, hending, hready⟩ := recv_interrupted h
    rw [hinput] at ih
    obtain ⟨got, t, hrun, hpiece, hafter⟩ := ih hne (recv_spec hn peek (hinput ▸ hne))
    refine ⟨got, t, hrun, ⟨hinput ▸ hpiece.start, hpiece.nonempty, hpiece.length_le, ?_⟩,
      ⟨hinput ▸ hafter.input, hafter.ending.trans hending, hafter.ready⟩⟩
    rw [← hinput, ← hready]
    exact hpiece.length_eq
  | case2 s s' h =>
    rw [h] at hrecv
    obtain hi | ⟨got, hgot, hpiece, -⟩ := hrecv
    · cases hi
    · cases hgot
      exact absurd rfl hpiece.nonempty
  | case3 s err s' h =>
    rw [h] at hrecv
    obtain hi | ⟨got, hgot, -⟩ := hrecv
    · cases hi
    · cases hgot
  | case4 s c buf s' h =>
    rw [h] at hrecv
    obtain hi | ⟨got, hgot, hpiece, hafter⟩ := hrecv
    · cases hi
    · cases hgot
      exact ⟨_, _, rfl, hpiece, hafter⟩

/-- **At the end of the stream** it throws. -/
theorem recvOrThrow_ended (n : Nat) (peek : Bool) (s : Source Char Str) (hnil : s.input = []) :
    ∃ s', recvOrThrow n peek s = (.error (lost s.ending), s') ∧ s'.input = [] ∧
      s'.ending = s.ending := by
  have hrecv := recv_ended (n := n) peek hnil
  fun_induction recvOrThrow n peek s with
  | case1 s s' h ih =>
    obtain ⟨-, hinput, hending, -⟩ := recv_interrupted h
    obtain ⟨t, hrun, ht, hte⟩ := ih (hinput ▸ hnil) (recv_ended peek (hinput ▸ hnil))
    rw [hending] at hrun
    exact ⟨t, hrun, ht, hte.trans hending⟩
  | case2 s s' h =>
    rw [h, Source.ended] at hrecv
    obtain hi | ⟨hend, hinput, hending⟩ := hrecv
    · cases hi
    · cases he : s.ending with
      | none => exact ⟨s', rfl, hinput, hending.trans he⟩
      | some err =>
        rw [he] at hend
        cases hend
  | case3 s err s' h =>
    rw [h, Source.ended] at hrecv
    obtain hi | ⟨hend, hinput, hending⟩ := hrecv
    · cases hi
    · cases he : s.ending with
      | none =>
        rw [he] at hend
        cases hend
      | some err =>
        rw [he] at hend
        cases hend
        exact ⟨s', rfl, hinput, hending.trans he⟩
  | case4 s c buf s' h =>
    rw [h, Source.ended] at hrecv
    obtain hi | ⟨hend, -⟩ := hrecv
    · cases hi
    · cases he : s.ending with
      | none | some err =>
        rw [he] at hend
        cases hend

theorem recvOrThrow_ok {n : Nat} (hn : 0 < n) {peek : Bool} {s s' : Source Char Str} {got : Str}
    (h : recvOrThrow n peek s = (.ok got, s')) :
    s.input ≠ [] ∧ Piece n s got ∧ After peek s got s' := by
  by_cases hne : s.input = []
  · obtain ⟨t, ht, -⟩ := recvOrThrow_ended n peek s hne
    rw [ht] at h
    cases h
  · obtain ⟨got', t, ht, hpiece, hafter⟩ := recvOrThrow_spec hn peek s hne
    rw [ht] at h
    cases h
    exact ⟨hne, hpiece, hafter⟩

/-- `rtrim`. -/
def rtrim (str ws : Str) : Str := str.rdropWhile (· ∈ ws)

/-- The loop of `read_line`: what it peeks at goes to `oss`, up to the end of the line, and is then
    taken from the socket. `total_bytes_read` stays 0, so that there is no bound. -/
def readLineLoop (oss : Str) (s : Source Char Str) : Except Thrown Str × Source Char Str :=
  match _h : recvOrThrow 64 true s with
  | (.error e, s₁) => (.error e, s₁)
  | (.ok buffer, s₁) =>
    if '\n' ∈ buffer then
      match _h' : recvOrThrow (buffer.idxOf '\n' + 1) false s₁ with
      | (.error e, s₂) => (.error e, s₂)
      | (.ok _, s₂) => (.ok (oss ++ buffer.take (buffer.idxOf '\n' + 1)), s₂)
    else
      match _h' : recvOrThrow buffer.length false s₁ with
      | (.error e, s₂) => (.error e, s₂)
      | (.ok _, s₂) => readLineLoop (oss ++ buffer) s₂
termination_by s.input.length
decreasing_by
  obtain ⟨-, hpeek, hpeeked⟩ := recvOrThrow_ok (by decide) _h
  obtain ⟨hne, hpiece, htaken⟩ := recvOrThrow_ok (List.length_pos_iff.mpr hpeek.nonempty) _h'
  have hpos := List.length_pos_iff.mpr hpiece.nonempty
  have hin := List.length_pos_iff.mpr hne
  have hsame : s₁.input = s.input := hpeeked.input
  rw [htaken.input, ← hsame]
  simp only [Bool.false_eq_true, if_false, List.length_drop]
  omega

def readLine : Recv Str := program fun s =>
  match readLineLoop [] s with
  | (.error e, s) => (.error e, s)
  | (.ok line, s) => (.ok (rtrim line ['\r', '\n']), s)

/-- The loop of `read_n`. -/
def readNLoop (n : Nat) (data : Str) (s : Source Char Str) :
    Except Thrown Str × Source Char Str :=
  if data.length < n then
    match _h : recvOrThrow (n - data.length) false s with
    | (.error e, s) => (.error e, s)
    | (.ok bytes, s) => readNLoop n (data ++ bytes) s
  else (.ok data, s)
termination_by n - data.length
decreasing_by
  have hpos : 0 < n - data.length := Nat.sub_pos_of_lt ‹_›
  obtain ⟨-, hpiece, -⟩ := recvOrThrow_ok hpos _h
  have := List.length_pos_iff.mpr hpiece.nonempty
  rw [List.length_append]
  omega

/-- `read_n`. A vector has no negative length. -/
def readN (n : Int) : Recv Str := program fun s =>
  if n < 0 then (.error .length, s) else readNLoop n.toNat [] s

/-! ### The line

The first line of the stream is split in two by every piece that ends inside it. The induction is on
what is still to come of it. -/

/-- What was peeked at can be taken, without waiting. -/
theorem recvOrThrow_peeked {s s₁ : Source Char Str} {buffer : Str}
    (h : recvOrThrow 64 true s = (.ok buffer, s₁)) {k : Nat} (hpos : 0 < k)
    (hk : k ≤ buffer.length) :
    ∃ got s₂, recvOrThrow k false s₁ = (.ok got, s₂) ∧ s₂.input = s.input.drop k ∧
      s₂.ending = s.ending := by
  obtain ⟨hne, hpeek, hpeeked⟩ := recvOrThrow_ok (by decide) h
  have hsame : s₁.input = s.input := hpeeked.input
  have hle : buffer.length ≤ s₁.input.length := hsame ▸ hpeek.start.length_le
  obtain ⟨got, s₂, hrun, hpiece, htaken⟩ := recvOrThrow_spec hpos false s₁ (hsame ▸ hne)
  have hlen : got.length = k :=
    hpiece.length_eq (Nat.le_trans hk (hpeeked.ready rfl)) (Nat.le_trans hk hle)
  refine ⟨got, s₂, hrun, ?_, htaken.ending.trans hpeeked.ending⟩
  rw [htaken.input, hlen, hsame]
  rfl

/-- A piece of the stream ends inside the first line, or holds all of it. -/
theorem piece_of_line {got l rest : Str} (hl : '\n' ∉ l) (h : got <+: l ++ '\n' :: rest) :
    ('\n' ∉ got ∧ got <+: l) ∨ ∃ more, got = l ++ '\n' :: more := by
  have hline : l ++ ['\n'] <+: l ++ '\n' :: rest := ⟨rest, by simp⟩
  obtain hgot | ⟨more, hmore⟩ := List.prefix_or_prefix_of_prefix h hline
  · obtain rfl | hgot := List.prefix_concat_iff.mp hgot
    · exact .inr ⟨[], rfl⟩
    · exact .inl ⟨fun hmem => hl (hgot.sublist.mem hmem), hgot⟩
  · exact .inr ⟨more, by simp [← hmore]⟩

/-- **The line is read**, closed by its first `'\n'`. -/
theorem readLineLoop_line {l : Str} (hl : '\n' ∉ l) (oss rest : Str) (s : Source Char Str)
    (hs : s.input = l ++ '\n' :: rest) :
    ∃ s', readLineLoop oss s = (.ok (oss ++ (l ++ ['\n'])), s') ∧ s'.input = rest ∧
      s'.ending = s.ending := by
  -- By the turns of the loop: each peeks, and takes up to the line feed or all it has seen.
  have hne : s.input ≠ [] := by simp [hs]
  fun_induction readLineLoop oss s generalizing l with
  | case1 oss s e s₁ h =>
    obtain ⟨_, _, hrun, -⟩ := recvOrThrow_spec (n := 64) (by decide) true s hne
    rw [hrun] at h
    cases h
  | case2 oss s buffer s₁ h hmem e s₂ h₂ =>
    obtain ⟨_, _, hrun, -⟩ :=
      recvOrThrow_peeked h (Nat.succ_pos _) (List.idxOf_lt_length_of_mem hmem)
    rw [hrun] at h₂
    cases h₂
  | case3 oss s buffer s₁ h hmem got s₂ h₂ =>
    obtain ⟨_, _, hrun, hinput, hending⟩ :=
      recvOrThrow_peeked h (Nat.succ_pos _) (List.idxOf_lt_length_of_mem hmem)
    rw [hrun] at h₂
    cases h₂
    obtain ⟨-, hpeek, -⟩ := recvOrThrow_ok (by decide) h
    obtain ⟨hno, -⟩ | ⟨more, rfl⟩ := piece_of_line hl (hs ▸ hpeek.start)
    · exact absurd hmem hno
    · have hidx : (l ++ '\n' :: more).idxOf '\n' = l.length := by
        rw [List.idxOf_append_of_notMem hl, List.idxOf_cons_self, Nat.add_zero]
      have hsplit (t : Str) : l ++ '\n' :: t = (l ++ ['\n']) ++ t := by simp
      have hlen : (l ++ ['\n']).length = l.length + 1 := by simp
      rw [hidx, hsplit, List.take_left' hlen]
      refine ⟨_, rfl, ?_, hending⟩
      rw [hinput, hs, hidx, hsplit, List.drop_left' hlen]
  | case4 oss s buffer s₁ h hmem e s₂ h₂ =>
    obtain ⟨-, hpeek, -⟩ := recvOrThrow_ok (by decide) h
    obtain ⟨_, _, hrun, -⟩ :=
      recvOrThrow_peeked h (List.length_pos_iff.mpr hpeek.nonempty) (Nat.le_refl _)
    rw [hrun] at h₂
    cases h₂
  | case5 oss s buffer s₁ h hmem got s₂ h₂ ih =>
    obtain ⟨-, hpeek, -⟩ := recvOrThrow_ok (by decide) h
    obtain ⟨_, _, hrun, hinput, hending⟩ :=
      recvOrThrow_peeked h (List.length_pos_iff.mpr hpeek.nonempty) (Nat.le_refl _)
    rw [hrun] at h₂
    cases h₂
    obtain ⟨-, l', rfl⟩ | ⟨more, rfl⟩ := piece_of_line hl (hs ▸ hpeek.start)
    · rw [hs, List.append_assoc, List.drop_left] at hinput
      obtain ⟨s', hrun', hs', he'⟩ :=
        ih (fun hmem => hl (List.mem_append_right _ hmem)) hinput (by simp [hinput])
      rw [List.append_assoc] at hrun'
      exact ⟨s', by simpa using hrun', hs', he'.trans hending⟩
    · exact absurd (List.mem_append_right l List.mem_cons_self) hmem

/-- A stream that ends before the line does is read to its end. -/
theorem readLineLoop_unclosed (oss : Str) (s : Source Char Str) (hs : '\n' ∉ s.input) :
    ∃ s', readLineLoop oss s = (.error (lost s.ending), s') ∧ s'.input = [] ∧
      s'.ending = s.ending := by
  fun_induction readLineLoop oss s with
  | case1 oss s e s₁ h =>
    have hnil : s.input = [] := by
      by_contra hne
      obtain ⟨_, _, hrun, -⟩ := recvOrThrow_spec (n := 64) (by decide) true s hne
      rw [hrun] at h
      cases h
    obtain ⟨s', hrun, hs', he'⟩ := recvOrThrow_ended 64 true s hnil
    rw [hrun] at h
    cases h
    exact ⟨_, rfl, hs', he'⟩
  | case2 oss s buffer s₁ h hmem | case3 oss s buffer s₁ h hmem =>
    obtain ⟨-, hpeek, -⟩ := recvOrThrow_ok (by decide) h
    exact absurd (hpeek.start.sublist.mem hmem) hs
  | case4 oss s buffer s₁ h hmem e s₂ h₂ =>
    obtain ⟨-, hpeek, -⟩ := recvOrThrow_ok (by decide) h
    obtain ⟨_, _, hrun, -⟩ :=
      recvOrThrow_peeked h (List.length_pos_iff.mpr hpeek.nonempty) (Nat.le_refl _)
    rw [hrun] at h₂
    cases h₂
  | case5 oss s buffer s₁ h hmem got s₂ h₂ ih =>
    obtain ⟨-, hpeek, -⟩ := recvOrThrow_ok (by decide) h
    obtain ⟨_, _, hrun, hinput, hending⟩ :=
      recvOrThrow_peeked h (List.length_pos_iff.mpr hpeek.nonempty) (Nat.le_refl _)
    rw [hrun] at h₂
    cases h₂
    obtain ⟨s', hrun', hs', he'⟩ := ih fun hmem => hs (List.mem_of_mem_drop (hinput ▸ hmem))
    exact ⟨s', hending ▸ hrun', hs', he'.trans hending⟩

/-! ### A number of bytes

`read_n` knows how much it wants, and asks for what is missing until it has all of it. -/

theorem readNLoop_enough {n : Nat} (data : Str) (s : Source Char Str) {bytes rest : Str}
    (hs : s.input = bytes ++ rest) (hn : data.length + bytes.length = n) :
    ∃ s', readNLoop n data s = (.ok (data ++ bytes), s') ∧ s'.input = rest ∧
      s'.ending = s.ending := by
  fun_induction readNLoop n data s generalizing bytes with
  | case1 data s hlt e s₁ h =>
    have hne : s.input ≠ [] := by
      rw [hs]
      rintro hnil
      rw [List.append_eq_nil_iff] at hnil
      rw [hnil.1, List.length_nil] at hn
      omega
    obtain ⟨_, _, hrun, -⟩ := recvOrThrow_spec (Nat.sub_pos_of_lt hlt) false s hne
    rw [hrun] at h
    cases h
  | case2 data s hlt got s₁ h ih =>
    obtain ⟨-, hpiece, htaken⟩ := recvOrThrow_ok (Nat.sub_pos_of_lt hlt) h
    -- no more than is wanted was asked for
    have hgot : got <+: bytes := by
      have hle : got.length ≤ bytes.length := Nat.le_trans hpiece.length_le (by omega)
      exact List.prefix_of_prefix_length_le (hs ▸ hpiece.start) ⟨rest, rfl⟩ hle
    obtain ⟨bytes', rfl⟩ := hgot
    have hinput : s₁.input = bytes' ++ rest := by
      rw [htaken.input, hs]
      simp
    rw [List.length_append] at hn
    obtain ⟨s', hrun, hs', he'⟩ := ih hinput (by rw [List.length_append]; omega)
    rw [List.append_assoc] at hrun
    exact ⟨s', hrun, hs', he'.trans htaken.ending⟩
  | case3 data s hge =>
    have hnil : bytes = [] := List.length_eq_zero_iff.mp (by omega)
    rw [hnil] at hs ⊢
    exact ⟨s, by rw [List.append_nil], hs, rfl⟩

theorem readNLoop_ended {n : Nat} (data : Str) (s : Source Char Str)
    (hn : data.length + s.input.length < n) :
    ∃ s', readNLoop n data s = (.error (lost s.ending), s') ∧ s'.input = [] ∧
      s'.ending = s.ending := by
  fun_induction readNLoop n data s with
  | case1 data s hlt e s₁ h =>
    have hnil : s.input = [] := by
      by_contra hne
      obtain ⟨_, _, hrun, -⟩ := recvOrThrow_spec (Nat.sub_pos_of_lt hlt) false s hne
      rw [hrun] at h
      cases h
    obtain ⟨s', hrun, hs', he'⟩ := recvOrThrow_ended _ false s hnil
    rw [hrun] at h
    cases h
    exact ⟨_, rfl, hs', he'⟩
  | case2 data s hlt got s₁ h ih =>
    obtain ⟨-, hpiece, htaken⟩ := recvOrThrow_ok (Nat.sub_pos_of_lt hlt) h
    have hlen : s₁.input.length + got.length = s.input.length := by
      have hle := hpiece.start.length_le
      rw [htaken.input]
      simp only [Bool.false_eq_true, if_false, List.length_drop]
      omega
    obtain ⟨s', hrun, hs', he'⟩ := ih (by rw [List.length_append]; omega)
    rw [htaken.ending] at hrun he'
    exact ⟨s', hrun, hs', he'⟩
  | case3 data s hge => omega

/-! ### The two as readers -/

variable {ending : Option Str} {xs ys : Str}

theorem reads_readLine_raw {l : Str} (hl : '\n' ∉ l) (rest : Str) :
    Reads ending readLine (l ++ '\n' :: rest) (.ok (rtrim (l ++ ['\n']) ['\r', '\n'])) rest := by
  rintro s ⟨hs, he⟩
  obtain ⟨s', hrun, hs', he'⟩ := readLineLoop_line hl [] rest s hs
  exact ⟨s', by simp [readLine, hrun], hs', he'.trans he⟩

theorem reads_readLine_unclosed (hxs : '\n' ∉ xs) :
    Reads ending readLine xs (.error (lost ending)) [] := by
  rintro s ⟨hs, he⟩
  obtain ⟨s', hrun, hs', he'⟩ := readLineLoop_unclosed [] s (hs ▸ hxs)
  exact ⟨s', by simp [readLine, hrun, he], hs', he'.trans he⟩

theorem rtrim_line {l : Str} (hl : OneLine l) : rtrim (line l) ['\r', '\n'] = l := by
  rw [rtrim, line, List.rdropWhile, List.reverse_append]
  change ((l.reverse).dropWhile (· ∈ ['\r', '\n'])).reverse = l
  have hnot : ∀ c ∈ l.reverse, ¬ c ∈ ['\r', '\n'] := by
    intro c hc hmem
    rw [List.mem_reverse] at hc
    simp only [List.mem_cons, List.not_mem_nil, or_false] at hmem
    obtain rfl | rfl := hmem
    · exact hl.1 hc
    · exact hl.2 hc
  cases hr : l.reverse with
  | nil => simpa using hr.symm
  | cons c r =>
    rw [List.dropWhile_cons_of_neg (by simpa using hnot c (hr ▸ List.mem_cons_self)), ← hr,
      List.reverse_reverse]

/-- **A line is read**, and not a byte behind it. -/
theorem reads_readLine {l : Str} (hl : OneLine l) (rest : Str) :
    Reads ending readLine (line l ++ rest) (.ok l) rest := by
  have hr : '\n' ∉ l ++ ['\r'] := by simpa using hl.2
  have h : Reads ending readLine _ _ _ := reads_readLine_raw hr rest
  have hline : l ++ ['\r'] ++ ['\n'] = line l := by simp [line]
  have hxs : l ++ ['\r'] ++ '\n' :: rest = line l ++ rest := by simp [line]
  rwa [hline, rtrim_line hl, hxs] at h

theorem reads_readN {n : Int} {bytes : Str} (hn : n = bytes.length) (rest : Str) :
    Reads ending (readN n) (bytes ++ rest) (.ok bytes) rest := by
  rintro s ⟨hs, he⟩
  subst hn
  obtain ⟨s', hrun, hs', he'⟩ := readNLoop_enough (n := bytes.length) [] s hs (by simp)
  refine ⟨s', ?_, hs', he'.trans he⟩
  rw [readN, run_program, if_neg (by omega)]
  exact hrun

theorem scheduleless_readLine : Scheduleless readLine := by
  intro ending xs
  by_cases h : '\n' ∈ xs
  · obtain ⟨l, rest, rfl, hl⟩ := List.eq_append_cons_of_mem h
    exact ⟨_, _, reads_readLine_raw hl rest⟩
  · exact ⟨_, _, reads_readLine_unclosed h⟩

theorem scheduleless_readN (n : Int) : Scheduleless (readN n) := by
  intro ending xs
  by_cases hneg : n < 0
  · exact ⟨.error .length, xs, fun s hs => ⟨s, if_pos hneg, hs⟩⟩
  · by_cases hlen : n.toNat ≤ xs.length
    · have hn : n = (xs.take n.toNat).length := by
        rw [List.length_take_of_le hlen]
        omega
      have h : Reads ending (readN n) _ _ _ := reads_readN hn (xs.drop n.toNat)
      rw [List.take_append_drop] at h
      exact ⟨_, _, h⟩
    · refine ⟨.error (lost ending), [], fun s ⟨hs, he⟩ => ?_⟩
      obtain ⟨s', hrun, hs', he'⟩ :=
        readNLoop_ended (n := n.toNat) [] s (by rw [hs, List.length_nil]; omega)
      rw [he] at hrun
      exact ⟨s', (if_neg hneg).trans hrun, hs', he'.trans he⟩

end WebsocketTest.Redis
