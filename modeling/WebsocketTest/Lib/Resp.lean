import WebsocketTest.Lib.Text

/-!
# The REdis Serialization Protocol

A value on the wire is a line that begins with the letter of its kind; the data of a bulk string
and the elements of an array follow it. A number is in decimal. A request is an array of bulk
strings, which may hold any characters, because each goes with its length; a line of text must be
`OneLine`.

`requests` takes a text apart into the requests that are in it, as a server does, and
`requests_flatMap` says that it finds what was written, one behind the other.

Arrays may hold arrays, and `encode` is a recursion over the value. How an array is read back is up
to the reader; a client that reads the elements of an array as bulk strings, and nothing else, reads
part of this protocol, and where it stops is a property of the client.

A status or an error is a line of text. With an end of line in it, it would be read as something
else, which is why `OneLine` is asked of it wherever a value is read. Bulk strings need no such
condition.
-/

set_option autoImplicit false

namespace Lib.Resp

open Lib.Text

/-! ## Numbers -/

/-- A number in decimal, with a minus sign in front of a negative one. -/
def decimal : Int → Str
  | .ofNat n => Nat.toDigits 10 n
  | .negSucc n => '-' :: Nat.toDigits 10 (n + 1)

/-- A text of digits, as a number. -/
def readNat (s : Str) : Option Nat :=
  if s ≠ [] ∧ s.all Char.isDigit then some (Nat.ofDigitChars 10 s 0) else none

def readInt : Str → Option Int
  | '-' :: s => (readNat s).map fun n => -(n : Int)
  | s => (readNat s).map Int.ofNat

theorem all_isDigit_toDigits (n : Nat) : (Nat.toDigits 10 n).all Char.isDigit :=
  List.all_eq_true.mpr fun _ hc => Nat.isDigit_of_mem_toDigits (by decide) (by decide) hc

theorem readNat_toDigits (n : Nat) : readNat (Nat.toDigits 10 n) = some n := by
  rw [readNat, if_pos ⟨Nat.toDigits_ne_nil, all_isDigit_toDigits n⟩, Nat.ofDigitChars_ten_toDigits]

theorem readInt_of_digit {c : Char} {s : Str} (hc : c.isDigit) :
    readInt (c :: s) = (readNat (c :: s)).map Int.ofNat := by
  rw [readInt]
  rintro t ⟨⟩
  revert hc
  decide

/-- **A number that is printed is read back**, whatever its sign. -/
theorem readInt_decimal (z : Int) : readInt (decimal z) = some z := by
  cases z with
  | ofNat n =>
    rw [decimal]
    cases hd : Nat.toDigits 10 n with
    | nil => exact absurd hd Nat.toDigits_ne_nil
    | cons c s =>
      have hc : c.isDigit := Nat.isDigit_of_mem_toDigits (b := 10) (n := n) (by decide) (by decide)
        (hd ▸ List.mem_cons_self)
      rw [readInt_of_digit hc, ← hd, readNat_toDigits]
      rfl
  | negSucc n =>
    rw [decimal, readInt, readNat_toDigits]
    rfl

/-! ## Lines -/

/-- A text without an end of line in it. -/
def OneLine (s : Str) : Prop := '\r' ∉ s ∧ '\n' ∉ s

instance (s : Str) : Decidable (OneLine s) := inferInstanceAs (Decidable (_ ∧ _))

theorem OneLine.cons {c : Char} {s : Str} (hr : c ≠ '\r') (hn : c ≠ '\n') (h : OneLine s) :
    OneLine (c :: s) :=
  ⟨List.not_mem_cons_of_ne_of_not_mem hr.symm h.1,
    List.not_mem_cons_of_ne_of_not_mem hn.symm h.2⟩

theorem oneLine_toDigits (n : Nat) : OneLine (Nat.toDigits 10 n) := by
  have h (c : Char) (hc : c ∈ Nat.toDigits 10 n) : c.isDigit :=
    Nat.isDigit_of_mem_toDigits (by decide) (by decide) hc
  exact ⟨fun hc => absurd (h _ hc) (by decide), fun hc => absurd (h _ hc) (by decide)⟩

theorem oneLine_decimal (z : Int) : OneLine (decimal z) := by
  cases z with
  | ofNat n => exact oneLine_toDigits n
  | negSucc n => exact (oneLine_toDigits (n + 1)).cons (by decide) (by decide)

/-- A line with its end. -/
def line (s : Str) : Str := s ++ ['\r', '\n']

/-- The text up to the first end of line, and the rest. -/
def takeLine (s : Str) : Option (Str × Str) :=
  match s.dropWhile (· ≠ '\r') with
  | _ :: '\n' :: rest => some (s.takeWhile (· ≠ '\r'), rest)
  | _ => none

theorem takeLine_line {l : Str} (hl : OneLine l) (rest : Str) :
    takeLine (line l ++ rest) = some (l, rest) := by
  have hne : ∀ c ∈ l, decide (c ≠ '\r') = true := fun c hc => by
    simpa using ne_of_mem_of_not_mem hc hl.1
  have htake : (line l ++ rest).takeWhile (· ≠ '\r') = l := by
    rw [line, List.append_assoc, List.takeWhile_append_of_pos hne]
    exact List.append_nil l
  have hdrop : (line l ++ rest).dropWhile (· ≠ '\r') = '\r' :: '\n' :: rest := by
    rw [line, List.append_assoc, List.dropWhile_append_of_pos hne]
    rfl
  rw [takeLine, htake, hdrop]
  rfl

theorem length_of_takeLine {s l rest : Str} (h : takeLine s = some (l, rest)) :
    rest.length < s.length := by
  rw [takeLine] at h
  split at h
  · rename_i c rest' hdrop
    cases h
    have hle := (List.dropWhile_suffix (l := s) (· ≠ '\r')).length_le
    rw [hdrop, List.length_cons, List.length_cons] at hle
    omega
  · cases h

/-! ## Values -/

/-- What a server answers. `nil` and `nilArray` are the absent bulk string and the absent array. -/
inductive Value
  | status (text : Str)
  | error (text : Str)
  | int (value : Int)
  | bulk (data : Str)
  | nil
  | array (elems : List Value)
  | nilArray

/-- A bulk string: its length in a line of its own, and the data. -/
def bulk (data : Str) : Str := line ('$' :: decimal data.length) ++ line data

mutual

def encode : Value → Str
  | .status text => line ('+' :: text)
  | .error text => line ('-' :: text)
  | .int value => line (':' :: decimal value)
  | .bulk data => bulk data
  | .nil => line ('$' :: decimal (-1))
  | .array elems => line ('*' :: decimal elems.length) ++ encodeAll elems
  | .nilArray => line ('*' :: decimal (-1))

def encodeAll : List Value → Str
  | [] => []
  | v :: vs => encode v ++ encodeAll vs

end

/-- The first line of a value, which tells its kind and how much follows. -/
def Value.head : Value → Str
  | .status text => '+' :: text
  | .error text => '-' :: text
  | .int value => ':' :: decimal value
  | .bulk data => '$' :: decimal data.length
  | .nil => '$' :: decimal (-1)
  | .array elems => '*' :: decimal elems.length
  | .nilArray => '*' :: decimal (-1)

/-- What follows the first line: the data of a bulk string, the elements of an array. -/
def Value.body : Value → Str
  | .bulk data => line data
  | .array elems => encodeAll elems
  | _ => []

theorem encode_eq (v : Value) : encode v = line v.head ++ v.body := by
  cases v with
  | bulk => rfl
  | array => rw [encode, Value.head, Value.body]
  | _ => simp [encode, Value.head, Value.body]

theorem oneLine_head {v : Value} (hstatus : ∀ t, v = .status t → OneLine t)
    (herror : ∀ t, v = .error t → OneLine t) : OneLine v.head := by
  cases v with
  | status t => exact (hstatus t rfl).cons (by decide) (by decide)
  | error t => exact (herror t rfl).cons (by decide) (by decide)
  | _ => exact (oneLine_decimal _).cons (by decide) (by decide)

theorem encodeAll_append (vs ws : List Value) :
    encodeAll (vs ++ ws) = encodeAll vs ++ encodeAll ws := by
  induction vs with
  | nil => rfl
  | cons v vs ih => rw [List.cons_append, encodeAll, ih, encodeAll, List.append_assoc]

/-! ## Requests -/

/-- A request: a command and its arguments. -/
def request (args : List Str) : Str := line ('*' :: decimal args.length) ++ args.flatMap bulk

/-- A line that begins with `kind`, and the number in it. -/
def takeHeader (kind : Char) (s : Str) : Option (Nat × Str) :=
  match takeLine s with
  | some (c :: digits, rest) => if c = kind then (readNat digits).map (·, rest) else none
  | _ => none

def takeBulk (s : Str) : Option (Str × Str) :=
  match takeHeader '$' s with
  | some (n, rest) =>
    if n + 2 ≤ rest.length then some (rest.take n, rest.drop (n + 2)) else none
  | none => none

def takeBulks : Nat → Str → Option (List Str × Str)
  | 0, s => some ([], s)
  | n + 1, s =>
    match takeBulk s with
    | some (data, rest) => (takeBulks n rest).map fun p => (data :: p.1, p.2)
    | none => none

def takeRequest (s : Str) : Option (List Str × Str) :=
  match takeHeader '*' s with
  | some (n, rest) => takeBulks n rest
  | none => none

theorem takeHeader_line (kind : Char) (n : Nat) (hr : kind ≠ '\r') (hn : kind ≠ '\n')
    (rest : Str) : takeHeader kind (line (kind :: decimal n) ++ rest) = some (n, rest) := by
  rw [takeHeader, takeLine_line ((oneLine_decimal n).cons hr hn)]
  change (if kind = kind then (readNat (Nat.toDigits 10 n)).map (·, rest) else none) = _
  rw [if_pos rfl, readNat_toDigits]
  rfl

theorem takeBulk_bulk (data rest : Str) : takeBulk (bulk data ++ rest) = some (data, rest) := by
  rw [takeBulk, bulk, List.append_assoc, takeHeader_line '$' _ (by decide) (by decide)]
  have hlen : data.length + 2 ≤ (line data ++ rest).length := by
    simp [line]
  simp only [hlen, if_true]
  rw [line, List.append_assoc, List.take_left, ← List.append_assoc,
    List.drop_left' (by simp)]

theorem takeBulks_flatMap (args : List Str) (rest : Str) :
    takeBulks args.length (args.flatMap bulk ++ rest) = some (args, rest) := by
  induction args with
  | nil => rfl
  | cons data args ih =>
    rw [List.length_cons, takeBulks, List.flatMap_cons, List.append_assoc, takeBulk_bulk]
    simp only [ih]
    rfl

/-- **A request is read back**, whatever its arguments hold. -/
theorem takeRequest_request (args : List Str) (rest : Str) :
    takeRequest (request args ++ rest) = some (args, rest) := by
  rw [takeRequest, request, List.append_assoc, takeHeader_line '*' _ (by decide) (by decide)]
  exact takeBulks_flatMap args rest

theorem length_of_takeHeader {kind : Char} {s rest : Str} {n : Nat}
    (h : takeHeader kind s = some (n, rest)) : rest.length < s.length := by
  rw [takeHeader] at h
  split at h
  · rename_i hline
    split at h
    · obtain ⟨n, -, heq⟩ := Option.map_eq_some_iff.mp h
      cases heq
      exact length_of_takeLine hline
    · cases h
  · cases h

theorem length_of_takeBulk {s data rest : Str} (h : takeBulk s = some (data, rest)) :
    rest.length < s.length := by
  rw [takeBulk] at h
  split at h
  · rename_i n rest' hheader
    split at h
    · cases h
      rw [List.length_drop]
      have := length_of_takeHeader hheader
      omega
    · cases h
  · cases h

theorem length_of_takeBulks {n : Nat} {s rest : Str} {args : List Str}
    (h : takeBulks n s = some (args, rest)) : rest.length ≤ s.length := by
  induction n generalizing s args with
  | zero =>
    cases h
    exact Nat.le_refl _
  | succ n ih =>
    rw [takeBulks] at h
    split at h
    · rename_i data rest' hbulk
      obtain ⟨p, hp, heq⟩ := Option.map_eq_some_iff.mp h
      cases heq
      exact Nat.le_trans (ih hp) (Nat.le_of_lt (length_of_takeBulk hbulk))
    · cases h

theorem length_of_takeRequest {s rest : Str} {args : List Str}
    (h : takeRequest s = some (args, rest)) : rest.length < s.length := by
  rw [takeRequest] at h
  split at h
  · rename_i hheader
    exact Nat.lt_of_le_of_lt (length_of_takeBulks h) (length_of_takeHeader hheader)
  · cases h

/-- The requests in a text, and what is left behind the last that is complete. -/
def requests (s : Str) : List (List Str) × Str :=
  match _h : takeRequest s with
  | some (args, rest) => (args :: (requests rest).1, (requests rest).2)
  | none => ([], s)
termination_by s.length
decreasing_by all_goals exact length_of_takeRequest ‹_›

/-- **The requests that were written are the ones that are found.** -/
theorem requests_flatMap (rs : List (List Str)) : requests (rs.flatMap request) = (rs, []) := by
  induction rs with
  | nil =>
    rw [requests]
    rfl
  | cons args rs ih =>
    rw [requests, List.flatMap_cons]
    split
    · rename_i args' rest h
      rw [takeRequest_request] at h
      cases h
      rw [ih]
    · rename_i h
      rw [takeRequest_request] at h
      cases h

end Lib.Resp
