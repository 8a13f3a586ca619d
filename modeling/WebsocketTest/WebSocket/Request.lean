import Std.Data.ExtTreeMap
import WebsocketTest.Lib.Delimited
import WebsocketTest.Lib.SortedMap
import WebsocketTest.WebSocket.Connection

/-!
# The request in front of the frames

A client begins with an HTTP request, and the server reads it line by line, in whatever parts it
comes: `http::parser::request`. What is behind the last end of a line waits in the buffer of the
parser. A request has no body here, so that `consume` stops behind the blank line, and what it
leaves is for whoever called it (`WebsocketTest/WebSocket/Handshake.lean`).

**`consume_append`** — two calls of `consume` are one call on both parts, as long as all of it is no
longer than a request may be. The limit is on what is in the buffer and in the call together, not on
the request, so that a longer one may pass in small parts and not in one.
**`processLines_raw`** — a request that was written by `raw` is read back, with nothing used of what
follows it. An `Awaits` is where the reader is in the middle of such a request.

## The limit is not on the request

The source compares `max_header_size` with the bytes that wait in the buffer and those of the call
together. The buffer holds at most one line that has not ended, since whole lines are taken from it.
So a request of any length gets through in calls of one byte, while the same request in one call is
refused. That is why the statements about cuts are about inputs no longer than the limit: for these
the check passes in every cut, and what is read is the same.

Names of headers are compared byte by byte, as the `std::map` of the source does: `host` and `Host`
are two headers here. A header that comes twice is put together with a comma, and the names and the
method are tokens; the values and the URI are any bytes.
-/

set_option autoImplicit false

namespace WebsocketTest.WebSocket

open Lib.Delimited

namespace Http

/-! ## The code -/

/-- The `http::exception`s of the operations here. -/
inductive Exception
  | headerTooLarge
  | incompleteRequest
  | invalidRequestLine1
  | invalidRequestLine2
  | invalidMethod
  | invalidHeaderName
  | invalidHeaderLine
  deriving DecidableEq, Repr

/-- `m_error_code`: `request_header_fields_too_large` or `bad_request`. The text that goes with it
    into the response is empty for all of them; the ones that they are thrown with are for `what()`,
    which nothing here calls. -/
def Exception.code : Exception → Nat
  | headerTooLarge => 431
  | _ => 400

/-- `max_header_size` -/
def maxHeaderSize : Nat := 16000

/-- `header_token` -/
def headerToken : List Nat := [
  0,0,0,0,0,0,0,0,0,0,0,0,0,0,0,0, -- 00..0f
  0,0,0,0,0,0,0,0,0,0,0,0,0,0,0,0, -- 10..1f
  0,1,0,1,1,1,1,1,0,0,1,1,0,1,1,0, -- 20..2f
  1,1,1,1,1,1,1,1,1,1,0,0,0,0,0,0, -- 30..3f
  0,1,1,1,1,1,1,1,1,1,1,1,1,1,1,1, -- 40..4f
  1,1,1,1,1,1,1,1,1,1,1,0,0,0,1,1, -- 50..5f
  1,1,1,1,1,1,1,1,1,1,1,1,1,1,1,1, -- 60..6f
  1,1,1,1,1,1,1,1,1,1,1,0,1,0,1,0] -- 70..7f, and 0 from there on

/-- `is_token_char` -/
def isTokenChar (c : UInt8) : Bool := headerToken.getD c.toNat 0 = 1

/-- `header_list`. The bytes are compared as numbers. -/
abbrev HeaderList := Std.ExtTreeMap (List UInt8) (List UInt8)

/-- `request`, with the members of `parser` that it has. -/
structure Request where
  method : List UInt8 := []
  uri : List UInt8 := []
  version : List UInt8 := []
  headers : HeaderList := ∅
  buf : List UInt8 := []
  ready : Bool := false

namespace Request

/-- `get_header` -/
def getHeader (r : Request) (key : List UInt8) : List UInt8 := r.headers[key]?.getD []

/-- `append_header` -/
def appendHeader (r : Request) (key val : List UInt8) : Except Exception Request :=
  if key.any (!isTokenChar ·) then .error .invalidHeaderName
  else if r.getHeader key = [] then .ok { r with headers := r.headers.insert key val }
  else .ok { r with headers := r.headers.insert key (r.getHeader key ++ ([44, 32] ++ val)) }

/-- `set_method` -/
def setMethod (r : Request) (method : List UInt8) : Except Exception Request :=
  if method.any (!isTokenChar ·) then .error .invalidMethod else .ok { r with method := method }

/-- What `std::find` of a space finds: what is in front of it, and what is behind it. -/
def findSpace (line : List UInt8) : Option (List UInt8 × List UInt8) :=
  match line.dropWhile (· ≠ 32) with
  | [] => none
  | _ :: rest => some (line.takeWhile (· ≠ 32), rest)

/-- `process` -/
def process (r : Request) (line : List UInt8) : Except Exception Request :=
  match findSpace line with
  | none => .error .invalidRequestLine1
  | some (method, line) =>
    (r.setMethod method).bind fun r =>
      match findSpace line with
      | none => .error .invalidRequestLine2
      | some (uri, version) => .ok { r with uri := uri, version := version }

/-- `process_header` -/
def processHeader (r : Request) (line : List UInt8) : Except Exception Request :=
  match cut 58 32 line with
  | none => .error .invalidHeaderLine
  | some (key, val) => r.appendHeader key val

/-- What is done with a line that is not empty. -/
def processLine (r : Request) (line : List UInt8) : Except Exception Request :=
  if r.method = [] then r.process line else r.processHeader line

/-- The name `Host`. -/
def host : List UInt8 := bytesOf "Host"

/-- The loop of `consume` over the bytes of `*m_buf`, which is what the buffer is again if they do
    not end the request; and what is behind the request if they do. -/
def processLines (r : Request) (bytes : List UInt8) : Except Exception (Request × List UInt8) :=
  match _hcut : cut 13 10 bytes with
  | none => .ok ({ r with buf := bytes }, [])
  | some ([], rest) =>
    if r.method = [] ∨ r.getHeader host = [] then .error .incompleteRequest
    else .ok ({ r with ready := true }, rest)
  | some (line, rest) => (r.processLine line).bind fun r => r.processLines rest
termination_by bytes.length
decreasing_by exact length_of_cut ‹_›

/-- `consume`, and what it leaves of `bytes`. -/
def consume (r : Request) (bytes : List UInt8) : Except Exception (Request × List UInt8) :=
  if r.ready then .ok (r, bytes)
  else if maxHeaderSize < r.buf.length + bytes.length then .error .headerTooLarge
  else { r with buf := [] }.processLines (r.buf ++ bytes)

/-- `raw_headers` -/
def rawHeaders (headers : List (List UInt8 × List UInt8)) : List UInt8 :=
  headers.flatMap fun p => p.1 ++ ([58, 32] ++ (p.2 ++ [13, 10]))

/-- `raw`, of a request without a body. -/
def raw (r : Request) : List UInt8 :=
  r.method ++ ([32] ++ (r.uri ++ ([32] ++ (r.version ++ ([13, 10] ++
    (rawHeaders r.headers.toList ++ [13, 10]))))))

/-! ## Line by line

`processLines` is the loop of `consume` with the buffer in front of what came. Three lemmas say what
it does with what the next line is: there is none, it is blank, or it has something in it. -/

variable {r q : Request} {line xs ys rest : List UInt8}

theorem processLines_none (h : cut 13 10 xs = none) :
    r.processLines xs = .ok ({ r with buf := xs }, []) := by
  rw [processLines]
  split
  · rfl
  · next h' => cases h.symm.trans h'
  · next h' => cases h.symm.trans h'

theorem processLines_blank (h : cut 13 10 xs = some ([], rest)) :
    r.processLines xs =
      if r.method = [] ∨ r.getHeader host = [] then .error .incompleteRequest
      else .ok ({ r with ready := true }, rest) := by
  rw [processLines]
  split
  · next h' => cases h.symm.trans h'
  · next h' =>
    cases h.symm.trans h'
    rfl
  · next hne h' =>
    cases h.symm.trans h'
    exact (hne rfl).elim

theorem processLines_line (h : cut 13 10 xs = some (line, rest)) (hne : line ≠ []) :
    r.processLines xs = (r.processLine line).bind fun r => r.processLines rest := by
  rw [processLines]
  split
  · next h' => cases h.symm.trans h'
  · next h' =>
    cases h.symm.trans h'
    exact absurd rfl hne
  · next h' =>
    cases h.symm.trans h'
    rfl

/-- A line changes neither the buffer nor whether the request has ended. -/
structure SameBuf (r q : Request) : Prop where
  buf : q.buf = r.buf
  ready : q.ready = r.ready

theorem setMethod_sameBuf {method : List UInt8} (h : r.setMethod method = .ok q) :
    SameBuf r q := by
  unfold setMethod at h
  split at h
  · cases h
  · cases h
    exact ⟨rfl, rfl⟩

theorem processLine_sameBuf (h : r.processLine line = .ok q) : SameBuf r q := by
  unfold processLine at h
  split at h
  · unfold process at h
    split at h
    · cases h
    · next method line' _ =>
      cases hset : r.setMethod method with
      | error e =>
        rw [hset] at h
        cases h
      | ok r' =>
        rw [hset, Except.bind] at h
        split at h
        · cases h
        · cases h
          exact ⟨(setMethod_sameBuf hset).buf, (setMethod_sameBuf hset).ready⟩
  · unfold processHeader at h
    split at h
    · cases h
    · unfold appendHeader at h
      split at h
      · cases h
      · split at h
        · cases h
          exact ⟨rfl, rfl⟩
        · cases h
          exact ⟨rfl, rfl⟩

/-- Between two reads: the request has not ended, and neither has the line in the buffer. -/
structure Between (r : Request) : Prop where
  ready : r.ready = false
  unclosed : cut 13 10 r.buf = none

theorem between_new : Between {} := ⟨rfl, rfl⟩

/-- What comes of some bytes: the request is there, or it is between two reads, with no more in the
    buffer than came. -/
theorem processLines_cases (hready : r.ready = false) (xs : List UInt8)
    (h : r.processLines xs = .ok (q, rest)) :
    rest <:+ xs ∧ (q.ready = false → q.Between ∧ q.buf.length ≤ xs.length) := by
  induction hn : xs.length using Nat.strongRecOn generalizing r xs with
  | ind n ih =>
  cases hcut : cut 13 10 xs with
  | none =>
    rw [processLines_none hcut] at h
    cases h
    exact ⟨List.nil_suffix, fun _ => ⟨⟨hready, hcut⟩, Nat.le_of_eq hn⟩⟩
  | some p =>
    obtain ⟨line, rest'⟩ := p
    have hsuffix : rest' <:+ xs := ⟨line ++ [13, 10], by rw [cut_eq hcut]; simp⟩
    by_cases hline : line = []
    · subst hline
      rw [processLines_blank hcut] at h
      split at h
      · cases h
      · cases h
        exact ⟨hsuffix, by simp⟩
    · rw [processLines_line hcut hline] at h
      cases hprocess : r.processLine line with
      | error e =>
        rw [hprocess] at h
        cases h
      | ok r' =>
        rw [hprocess, Except.bind] at h
        have hlt := length_of_cut hcut
        obtain ⟨hrest, hq⟩ := ih rest'.length (by omega)
          ((processLine_sameBuf hprocess).ready.trans hready) rest' h rfl
        refine ⟨hrest.trans hsuffix, fun hnot => ⟨(hq hnot).1, ?_⟩⟩
        have := (hq hnot).2
        omega

/-- **More bytes** are taken where the others ended. -/
theorem processLines_append (hbuf : r.buf = []) (hready : r.ready = false) (xs ys : List UInt8) :
    r.processLines (xs ++ ys) = (r.processLines xs).bind fun p =>
      if p.1.ready then .ok (p.1, p.2 ++ ys)
      else { p.1 with buf := [] }.processLines (p.1.buf ++ ys) := by
  induction hn : xs.length using Nat.strongRecOn generalizing r xs with
  | ind n ih =>
  cases hcut : cut 13 10 xs with
  | none =>
    have hsame : ({ r with buf := [] } : Request) = r := by
      cases r
      cases hbuf
      rfl
    rw [processLines_none hcut, Except.bind, if_neg (by simp [hready])]
    show r.processLines (xs ++ ys) = { r with buf := [] }.processLines (xs ++ ys)
    rw [hsame]
  | some p =>
    obtain ⟨line, rest⟩ := p
    by_cases hline : line = []
    · subst hline
      rw [processLines_blank hcut, processLines_blank (cut_append hcut ys)]
      split
      · rfl
      · rfl
    · rw [processLines_line hcut hline, processLines_line (cut_append hcut ys) hline]
      cases hprocess : r.processLine line with
      | error e => rfl
      | ok r' =>
        have hsame := processLine_sameBuf hprocess
        have hlt := length_of_cut hcut
        exact ih rest.length (by omega) (hsame.buf.trans hbuf) (hsame.ready.trans hready) rest rfl

/-! ## Read by read

`Between` is where the reader stands between two calls. What is in its buffer is the beginning of a
line, and an end of line that is cut between its two bytes is in there with its first. -/

theorem consume_of_le (h : r.Between) (hlen : r.buf.length + xs.length ≤ maxHeaderSize) :
    r.consume xs = { r with buf := [] }.processLines (r.buf ++ xs) := by
  rw [consume, if_neg (by simp [h.ready]), if_neg (by omega)]

theorem consume_nil (h : r.Between) (hlen : r.buf.length ≤ maxHeaderSize) :
    r.consume [] = .ok (r, []) := by
  rw [consume_of_le h (by simpa using hlen), List.append_nil, processLines_none h.unclosed]

/-- What is left of a read is the end of it: nothing is put back that did not come. -/
theorem consume_suffix (h : r.Between) (hconsume : r.consume xs = .ok (q, rest)) : rest <:+ xs := by
  unfold consume at hconsume
  rw [if_neg (by simp [h.ready])] at hconsume
  split at hconsume
  · cases hconsume
  · cases hcut : cut 13 10 (r.buf ++ xs) with
    | none =>
      rw [processLines_none hcut] at hconsume
      cases hconsume
      exact List.nil_suffix
    | some p =>
      obtain ⟨line, rest'⟩ := p
      have hnew := suffix_of_cut h.unclosed hcut
      by_cases hline : line = []
      · subst hline
        rw [processLines_blank hcut] at hconsume
        split at hconsume
        · cases hconsume
        · cases hconsume
          exact hnew
      · rw [processLines_line hcut hline] at hconsume
        cases hprocess : ({ r with buf := [] } : Request).processLine line with
        | error e =>
          rw [hprocess] at hconsume
          cases hconsume
        | ok r' =>
          rw [hprocess, Except.bind] at hconsume
          have hready := (processLine_sameBuf hprocess).ready.trans h.ready
          exact (processLines_cases hready rest' hconsume).1.trans hnew

/-- **Two calls are one**, or the first of them was enough. -/
theorem consume_append (h : r.Between)
    (hlen : r.buf.length + (xs ++ ys).length ≤ maxHeaderSize) :
    r.consume (xs ++ ys) = (r.consume xs).bind fun p =>
      if p.1.ready then .ok (p.1, p.2 ++ ys) else p.1.consume ys := by
  rw [List.length_append] at hlen
  have hxs : r.buf.length + xs.length ≤ maxHeaderSize := by omega
  rw [consume_of_le h (by rw [List.length_append]; omega), consume_of_le h hxs,
    ← List.append_assoc, processLines_append (r := { r with buf := [] }) rfl h.ready]
  cases hread : ({ r with buf := [] } : Request).processLines (r.buf ++ xs) with
  | error e => rfl
  | ok p =>
    rw [Except.bind, Except.bind]
    split
    · rfl
    · next hnot =>
      have hcases := (processLines_cases (r := { r with buf := [] }) h.ready _ hread).2
        (by simpa using hnot)
      rw [List.length_append] at hcases
      rw [consume_of_le hcases.1 (by omega)]

/-! ## What `raw` writes

The round trip needs of a request what the parser would refuse, or read otherwise: `Printable`. It
is weak on purpose, and no header has to be known to it but the host, without which no request ends.
-/

/-- A request that is read as it is written: the names are tokens, and nothing ends a line or, in
    the URI, a word. It is sent to some host. -/
structure Printable (q : Request) : Prop where
  method : q.method ≠ []
  token : ∀ c ∈ q.method, isTokenChar c = true
  space : 32 ∉ q.uri
  uri : 13 ∉ q.uri
  version : 13 ∉ q.version
  headers : ∀ key val : List UInt8, q.headers[key]? = some val →
    (∀ c ∈ key, isTokenChar c = true) ∧ 13 ∉ val
  host : q.getHeader host ≠ []

theorem not_mem_of_token {c : UInt8} {l : List UInt8} (hc : isTokenChar c = false)
    (h : ∀ c ∈ l, isTokenChar c = true) : c ∉ l := by
  intro hmem
  rw [h c hmem] at hc
  cases hc

theorem any_of_token {l : List UInt8} (h : ∀ c ∈ l, isTokenChar c = true) :
    l.any (!isTokenChar ·) = false := by
  simpa using h

theorem findSpace_append {l : List UInt8} (h : 32 ∉ l) (rest : List UInt8) :
    findSpace (l ++ ([32] ++ rest)) = some (l, rest) := by
  have hall : ∀ c ∈ l, decide (c ≠ 32) = true := by
    intro c hc
    exact decide_eq_true fun he => h (he ▸ hc)
  rw [findSpace, List.dropWhile_append_of_pos hall, List.takeWhile_append_of_pos hall]
  simp

/-- The line in front: the method, the URI and the version, with one space between two of them. The
    version is all that is behind the second space. -/
theorem process_requestLine {method uri version : List UInt8}
    (htoken : ∀ c ∈ method, isTokenChar c = true) (hspace : 32 ∉ uri) :
    r.process (method ++ ([32] ++ (uri ++ ([32] ++ version)))) =
      .ok { r with method := method, uri := uri, version := version } := by
  have hmethod : 32 ∉ method := not_mem_of_token (by decide) htoken
  rw [process, findSpace_append hmethod]
  dsimp only
  rw [setMethod, if_neg (by simp [any_of_token htoken]), Except.bind]
  rw [findSpace_append hspace]

/-- The lines of the headers. As no name comes twice, none is put together with another. -/
theorem processLines_headers {l : List (List UInt8 × List UInt8)} (hmethod : r.method ≠ [])
    (hl : ∀ p ∈ l, (∀ c ∈ p.1, isTokenChar c = true) ∧ 13 ∉ p.2)
    (hdistinct : l.Pairwise fun (p p' : List UInt8 × List UInt8) => ¬ compare p.1 p'.1 = .eq)
    (hnew : ∀ p ∈ l, r.headers[p.1]? = none) (ys : List UInt8) :
    r.processLines (rawHeaders l ++ ys) =
      ({ r with headers := l.foldl (fun m p => m.insert p.1 p.2) r.headers } : Request).processLines
        ys := by
  induction l generalizing r with
  | nil => rfl
  | cons p l ih =>
    obtain ⟨key, val⟩ := p
    obtain ⟨htoken, hval⟩ := hl _ (.head _)
    obtain ⟨hfirst, hdistinct⟩ := List.pairwise_cons.mp hdistinct
    have hline : rawHeaders ((key, val) :: l) ++ ys =
        (key ++ 58 :: 32 :: val) ++ 13 :: 10 :: (rawHeaders l ++ ys) := by
      simp [rawHeaders]
    have hkey : (13 : UInt8) ∉ key := not_mem_of_token (by decide) htoken
    have hnot : (13 : UInt8) ∉ key ++ 58 :: 32 :: val := by
      simp [hkey, hval]
    have hcolon : (58 : UInt8) ∉ key := not_mem_of_token (by decide) htoken
    have hprocess : r.processLine (key ++ 58 :: 32 :: val) =
        .ok { r with headers := r.headers.insert key val } := by
      have hget : r.getHeader key = [] := by
        rw [getHeader, hnew _ (.head _)]
        rfl
      rw [processLine, if_neg hmethod, processHeader, cut_of_not_mem hcolon]
      dsimp only
      rw [appendHeader, if_neg (by simp [any_of_token htoken]), if_pos hget]
    rw [hline, processLines_line (cut_of_not_mem hnot _) (by simp), hprocess, Except.bind]
    refine ih hmethod (fun p hp => hl p (.tail _ hp)) hdistinct fun p hp => ?_
    show (r.headers.insert key val)[p.1]? = none
    rw [Lib.SortedMap.getElem?_insert_eq, if_neg, hnew p (.tail _ hp)]
    rintro rfl
    exact hfirst p hp Std.ReflCmp.compare_self

/-- **What was written is read back**, with the bytes behind it left as they are. -/
theorem processLines_raw (hq : q.Printable) (ys : List UInt8) :
    ({} : Request).processLines (q.raw ++ ys) = .ok ({ q with buf := [], ready := true }, ys) := by
  have hraw : q.raw ++ ys =
      (q.method ++ ([32] ++ (q.uri ++ ([32] ++ q.version)))) ++
        13 :: 10 :: (rawHeaders q.headers.toList ++ 13 :: 10 :: ys) := by
    simp [raw]
  have hmethod : (13 : UInt8) ∉ q.method := not_mem_of_token (by decide) hq.token
  have hnot : (13 : UInt8) ∉ q.method ++ ([32] ++ (q.uri ++ ([32] ++ q.version))) := by
    simp [hmethod, hq.uri, hq.version]
  rw [hraw, processLines_line (cut_of_not_mem hnot _) (by simp), processLine, if_pos rfl,
    process_requestLine hq.token hq.space, Except.bind]
  have hheaders := processLines_headers
    (r := { method := q.method, uri := q.uri, version := q.version }) (l := q.headers.toList)
    hq.method (fun p hp => hq.headers _ _ (Std.ExtTreeMap.mem_toList_iff_getElem?_eq_some.mp hp))
    Std.ExtTreeMap.distinct_keys_toList (fun _ _ => rfl) (13 :: 10 :: ys)
  rw [hheaders, Lib.SortedMap.foldl_insert_toList, processLines_blank (cut_cons_self _ _ _), if_neg]
  rintro (hnil | hnil)
  · exact hq.method hnil
  · exact hq.host hnil

/-- What is still to come of a request that is being read. -/
structure Awaits (q r : Request) (todo : List UInt8) : Prop where
  between : r.Between
  nonempty : todo ≠ []
  length : r.buf.length + todo.length ≤ q.raw.length
  reads : ∀ ys, { r with buf := [] }.processLines (r.buf ++ (todo ++ ys)) =
    .ok ({ q with buf := [], ready := true }, ys)

/-- **A part of what is to come** ends neither in an error nor with the request; the rest of it is
    what is to come then. -/
theorem Awaits.next {todo : List UInt8} (h : Awaits q r (xs ++ todo)) (hne : todo ≠ []) :
    ∃ p, { r with buf := [] }.processLines (r.buf ++ xs) = .ok p ∧ p.1.ready = false ∧
      Awaits q p.1 todo := by
  have hgoes : ∀ ys, .ok ({ q with buf := [], ready := true }, ys) =
      ({ r with buf := [] }.processLines (r.buf ++ xs)).bind fun p =>
        if p.1.ready then .ok (p.1, p.2 ++ (todo ++ ys))
        else { p.1 with buf := [] }.processLines (p.1.buf ++ (todo ++ ys)) := by
    intro ys
    rw [← processLines_append (r := { r with buf := [] }) rfl h.between.ready, ← h.reads ys]
    simp only [List.append_assoc]
  cases hread : ({ r with buf := [] } : Request).processLines (r.buf ++ xs) with
  | error e =>
    have hfails := hgoes []
    rw [hread] at hfails
    cases hfails
  | ok p =>
    simp only [hread, Except.bind] at hgoes
    refine ⟨p, rfl, ?_⟩
    cases hready : p.1.ready with
    | true =>
      -- The request would be over before its end.
      have hover := hgoes []
      rw [if_pos hready] at hover
      have hleft := congrArg Prod.snd (Except.ok.inj hover)
      have hnil := (List.append_eq_nil_iff.mp hleft.symm).2
      exact absurd (List.append_eq_nil_iff.mp hnil).1 hne
    | false =>
      obtain ⟨hbetween, hbuf⟩ :=
        (processLines_cases (r := { r with buf := [] }) h.between.ready _ hread).2 hready
      have hlength := h.length
      rw [List.length_append] at hbuf hlength
      refine ⟨rfl, hbetween, hne, by omega, fun ys => ?_⟩
      rw [hgoes ys, if_neg (by simp [hready])]

end Request

end Http

end WebsocketTest.WebSocket
