import WebsocketTest.WebSocket.Hybi13

/-!
# Reading a connection

The receiving part of `connection::handle_read_frame`: `consume` is called on what a read brought
until that is used up, and every message that is ready goes out. A peer does not choose how its
bytes are cut into reads.

**`readAll_new`** — it does not matter either: reading one buffer after the other is reading them as
one, with the same messages and the same failure, and it always comes to an end.

## Why the cuts could have mattered

Between two reads the processor keeps the part of the header that it has, how much is missing of the
field at hand, the key turned to where the payload stopped, and the state of the validator. Each of
these is a place for a mistake that only some cuts show. The proof goes from the inside out: a field
in two parts (`put_append`), a turn in two parts (`turn_append_of_lt`), a call of `consume` in two
parts (`consume_append`), and the loop over the messages in two parts (`handleReadFrame_append`). A
list of buffers is then an induction.

The statements are about a processor that is `Waiting`, which a new one is and every read leaves it.
That is all that is asked of it: nothing here depends on which bytes came before. What the messages
are is another matter, and the subject of the modules on frames.
-/

set_option autoImplicit false

namespace WebsocketTest.WebSocket

namespace Hybi13

variable {p p' q : Hybi13} {buf buf' xs ys : List UInt8}

theorem consume_of_not_busy (h : ¬ p.Busy buf) : p.consume buf = .ok (p, buf) := by
  rw [consume, dif_neg h]

theorem consume_of_busy (h : p.Busy buf) :
    p.consume buf = (p.turn buf).bind fun r => r.1.consume r.2 := by
  rw [consume, dif_pos h]
  split
  · next e hturn => rw [hturn]; rfl
  · next p' buf' hturn => rw [hturn]; rfl

/-- What `consume` uses of the buffer, or of the turns that use nothing. -/
theorem consume_le (h : p.consume buf = .ok (p', buf')) :
    buf'.length < buf.length ∨ buf' = buf ∧ p'.rank ≤ p.rank := by
  fun_induction consume p buf with
  | case1 p buf hbusy e hturn => cases h
  | case2 p buf hbusy q rest hturn ih =>
    rcases ih h with hlt | ⟨rfl, hle⟩
    · rcases turn_lt hbusy hturn with hlt' | ⟨rfl, -⟩
      · exact .inl (Nat.lt_trans hlt hlt')
      · exact .inl hlt
    · rcases turn_lt hbusy hturn with hlt' | ⟨rfl, hlt'⟩
      · exact .inl hlt'
      · exact .inr ⟨rfl, Nat.le_trans hle (Nat.le_of_lt hlt')⟩
  | case3 p buf hbusy =>
    cases h
    exact .inr ⟨rfl, Nat.le_refl _⟩

theorem rank_getMessage (h : p.isReady = true) : p.getMessage.2.rank = 0 ∧ p.rank = 1 := by
  constructor
  · rw [getMessage, if_pos h]
    rfl
  · rw [isReady, decide_eq_true_iff] at h
    rw [rank, h]

/-- How a read ends: waiting for the next one, with an error or an exception, or never. -/
inductive ReadEnd
  | waiting (p : Hybi13)
  | failed (e : Failure)
  | spin

/-- The loop of `handle_read_frame`: the messages, and how it ends. A call of `consume` that leaves
    bytes and no message would be made again for ever. -/
def handleReadFrame (p : Hybi13) (buf : List UInt8) : List Message × ReadEnd :=
  if buf = [] then ([], .waiting p)
  else match _hconsume : p.consume buf with
    | .error e => ([], .failed e)
    | .ok (p', buf') =>
      if _hready : p'.isReady then
        let r := handleReadFrame p'.getMessage.2 buf'
        (p'.getMessage.1.toList ++ r.1, r.2)
      else if buf' = [] then ([], .waiting p')
      else ([], .spin)
termination_by (buf.length, p.rank)
decreasing_by
  obtain ⟨hzero, hone⟩ := rank_getMessage _hready
  rcases consume_le _hconsume with hlt | ⟨rfl, hle⟩
  · exact Prod.Lex.left _ _ hlt
  · exact Prod.Lex.right _ (by omega)

def readAll (p : Hybi13) : List (List UInt8) → List Message × ReadEnd
  | [] => ([], .waiting p)
  | buf :: bufs =>
    match p.handleReadFrame buf with
    | (msgs, .waiting p') => (msgs ++ (p'.readAll bufs).1, (p'.readAll bufs).2)
    | (msgs, .failed e) => (msgs, .failed e)
    | (msgs, .spin) => (msgs, .spin)

/-! ## In parts

`Waiting` is the invariant: a field is at hand and is not whole. It excludes the states in which
`consume` would not take another byte. -/

/-- Between two reads: some bytes of a field are missing. -/
def Waiting (p : Hybi13) : Prop := p.InField ∧ 0 < p.bytesNeeded

theorem new_waiting (server : Bool) : (new server).Waiting :=
  ⟨.inl ⟨rfl, Nat.le_refl 2⟩, Nat.zero_lt_two⟩

theorem InField.not_ready (h : p.InField) : p.state ≠ .ready ∧ p.state ≠ .fatalError := by
  rcases h with ⟨hs, -⟩ | hs | hs <;> simp [hs]

theorem InField.busy (h : p.InField) (hmore : buf ≠ [] ∨ p.bytesNeeded = 0) : p.Busy buf :=
  ⟨h.not_ready.1, h.not_ready.2, hmore⟩

theorem isReady_iff : p.isReady = true ↔ p.state = .ready := decide_eq_true_iff

theorem Waiting.not_isReady (h : p.Waiting) : ¬ p.isReady = true := by
  rw [isReady_iff]
  exact h.1.not_ready.1

/-- Without bytes nothing happens, so that an empty read may be left out. -/
theorem Waiting.consume_nil (h : p.Waiting) : p.consume [] = .ok (p, []) := by
  apply consume_of_not_busy
  intro hbusy
  have := h.2
  rcases hbusy.2.2 with hne | hz
  · exact hne rfl
  · omega

/-- The end of a field is the beginning of the next one, or a message. -/
theorem advance_inField (h : p.InField) (hadvance : p.advance = .ok q) :
    q.InField ∨ q.state = .ready := by
  unfold advance at hadvance
  rcases h with ⟨hs, -⟩ | hs | hs
  · rw [hs] at hadvance
    dsimp only [endBasicHeader] at hadvance
    split at hadvance
    · cases hadvance
    · cases hadvance
      exact .inl (.inr (.inl rfl))
  · rw [hs] at hadvance
    dsimp only [endExtendedHeader] at hadvance
    split at hadvance
    · cases hadvance
    · exact .inl (.inr (.inr (beginPayload_spec hadvance).1))
  · rw [hs] at hadvance
    dsimp only [endPayload] at hadvance
    split at hadvance
    · split at hadvance
      · cases hadvance
      · cases hadvance
        exact .inr rfl
    · cases hadvance
      exact .inl (.inl ⟨rfl, Nat.le_refl 2⟩)

theorem InField.put (h : p.InField) (hput : p.put xs = .ok q) (hlen : xs.length ≤ p.bytesNeeded) :
    q.InField ∧ q.bytesNeeded = p.bytesNeeded - xs.length := by
  obtain ⟨hstate, -, hneed⟩ := put_spec h hput hlen
  refine ⟨?_, hneed⟩
  rcases h with ⟨hs, hle⟩ | hs | hs
  · exact .inl ⟨by rw [hstate, hs], by omega⟩
  · exact .inr (.inl (by rw [hstate, hs]))
  · exact .inr (.inr (by rw [hstate, hs]))

/-- A turn that has the field whole does not look any further, so that more bytes behind it are only
    left over. -/
theorem turn_append_of_le (h : p.InField) (hle : p.bytesNeeded ≤ xs.length) :
    p.turn (xs ++ ys) = (p.turn xs).map fun r => (r.1, r.2 ++ ys) := by
  rw [turn_eq h, turn_eq h, List.take_append_of_le_length hle, List.drop_append_of_le_length hle]
  cases p.put (xs.take p.bytesNeeded) with
  | error e => rfl
  | ok q =>
    simp only [Except.bind]
    split
    · rfl
    · cases q.advance <;> rfl

/-- A turn that has only a part of the field leaves it to the next turn to go on, and the two are
    one turn on both parts. -/
theorem turn_append_of_lt (h : p.InField) (hlt : xs.length < p.bytesNeeded) (ys : List UInt8) :
    p.turn (xs ++ ys) = (p.turn xs).bind fun r => r.1.turn ys := by
  have htake : (xs ++ ys).take p.bytesNeeded = xs ++ ys.take (p.bytesNeeded - xs.length) := by
    rw [List.take_append, List.take_of_length_le (Nat.le_of_lt hlt)]
  have hdrop : (xs ++ ys).drop p.bytesNeeded = ys.drop (p.bytesNeeded - xs.length) := by
    rw [List.drop_append, List.drop_eq_nil_of_le (Nat.le_of_lt hlt), List.nil_append]
  have hlen : (xs ++ ys.take (p.bytesNeeded - xs.length)).length ≤ p.bytesNeeded := by
    rw [List.length_append, List.length_take]
    omega
  rw [turn_eq h, turn_eq h, htake, hdrop, put_append h hlen,
    List.take_of_length_le (Nat.le_of_lt hlt)]
  cases hput : p.put xs with
  | error e => rfl
  | ok q =>
    obtain ⟨hq, hneed⟩ := h.put hput (Nat.le_of_lt hlt)
    have hpos : 0 < q.bytesNeeded := by omega
    simp only [Except.bind, if_pos hpos]
    rw [turn_eq hq, hneed]
    rfl

/-- Where a turn leads: on with the field, or past its end. -/
theorem turn_cases (h : p.InField) (hturn : p.turn xs = .ok (q, buf')) :
    (xs.length < p.bytesNeeded ∧ q.Waiting ∧ buf' = []) ∨
      (p.bytesNeeded ≤ xs.length ∧ (q.InField ∨ q.state = .ready)) := by
  rw [turn_eq h] at hturn
  cases hput : p.put (xs.take p.bytesNeeded) with
  | error e =>
    rw [hput] at hturn
    cases hturn
  | ok r =>
    obtain ⟨hr, hneed⟩ := h.put hput (List.length_take_le _ _)
    rw [List.length_take] at hneed
    rw [hput, Except.bind] at hturn
    split at hturn
    · next hpos =>
      cases hturn
      exact .inl ⟨by omega, ⟨hr, hpos⟩, List.drop_eq_nil_of_le (by omega)⟩
    · cases hadvance : r.advance with
      | error e =>
        rw [hadvance] at hturn
        cases hturn
      | ok r' =>
        rw [hadvance] at hturn
        cases hturn
        exact .inr ⟨by omega, advance_inField hr hadvance⟩

/-- How `consume` goes on with `ys` once `xs` was all there was. -/
def goOn (ys : List UInt8) (r : Hybi13 × List UInt8) : Except Failure (Hybi13 × List UInt8) :=
  if r.1.isReady then .ok (r.1, r.2 ++ ys) else r.1.consume ys

/-- **`consume` on a buffer in two parts.** -/
theorem consume_append (h : p.InField ∨ p.state = .ready) :
    p.consume (xs ++ ys) = (p.consume xs).bind (goOn ys) := by
  have hready : ∀ q : Hybi13, q.state = .ready → ∀ zs, q.consume zs = .ok (q, zs) :=
    fun q hq zs => consume_of_not_busy fun hbusy => hbusy.1 hq
  fun_induction consume p xs with
  | case1 p xs hbusy e hturn =>
    have hfield : p.InField := h.resolve_right hbusy.1
    have hbusy' : p.Busy (xs ++ ys) := by
      refine ⟨hbusy.1, hbusy.2.1, hbusy.2.2.imp_left ?_⟩
      intro hne
      simp [hne]
    rw [consume_of_busy hbusy']
    rcases Nat.lt_or_ge xs.length p.bytesNeeded with hlt | hge
    · rw [turn_append_of_lt hfield hlt, hturn]
      rfl
    · rw [turn_append_of_le hfield hge, hturn]
      rfl
  | case2 p xs hbusy q rest hturn ih =>
    have hfield : p.InField := h.resolve_right hbusy.1
    have hbusy' : p.Busy (xs ++ ys) := by
      refine ⟨hbusy.1, hbusy.2.1, hbusy.2.2.imp_left ?_⟩
      intro hne
      simp [hne]
    rcases turn_cases hfield hturn with ⟨hlt, hq, rfl⟩ | ⟨hge, hq⟩
    · -- The buffer was used up in the middle of a field.
      rw [hq.consume_nil, Except.bind, goOn, if_neg hq.not_isReady, consume_of_busy hbusy',
        turn_append_of_lt hfield hlt, hturn, Except.bind]
      by_cases hys : ys = []
      · subst hys
        have hagain := turn_append_of_lt hfield hlt []
        rw [List.append_nil, hturn] at hagain
        have hagain : q.turn [] = .ok (q, []) := hagain.symm
        simp only [hagain, Except.bind]
      · rw [consume_of_busy (hq.1.busy (.inl hys))]
    · rw [consume_of_busy hbusy', turn_append_of_le hfield hge, hturn]
      exact ih hq
  -- not busy: a message is ready, or the buffer is empty
  | case3 p xs hbusy =>
    rw [Except.bind, goOn]
    split
    · next hr => exact hready p (isReady_iff.mp hr) _
    · next hr =>
      have hfield : p.InField := h.resolve_right fun hs => hr (isReady_iff.mpr hs)
      have hxs : xs = [] := by
        by_contra hne
        exact hbusy (hfield.busy (.inl hne))
      rw [hxs, List.nil_append]

/-- Where `consume` leads: to a message, or to the end of the buffer. -/
theorem consume_cases (h : p.InField ∨ p.state = .ready) (hconsume : p.consume xs = .ok (q, buf')) :
    q.state = .ready ∨ q.Waiting ∧ buf' = [] := by
  fun_induction consume p xs with
  | case1 p xs hbusy e hturn => cases hconsume
  | case2 p xs hbusy r rest hturn ih =>
    have hfield : p.InField := h.resolve_right hbusy.1
    rcases turn_cases hfield hturn with ⟨-, hr, -⟩ | ⟨-, hr⟩
    · exact ih (.inl hr.1) hconsume
    · exact ih hr hconsume
  | case3 p xs hbusy =>
    cases hconsume
    rcases h with hfield | hs
    · right
      have hnil : buf' = [] := by
        by_contra hne
        exact hbusy (hfield.busy (.inl hne))
      refine ⟨⟨hfield, ?_⟩, hnil⟩
      rcases Nat.eq_zero_or_pos q.bytesNeeded with hz | hpos
      · exact absurd (hfield.busy (.inr hz)) hbusy
      · exact hpos
    · exact .inl hs

/-! ## The reads

A read ends in one of three ways. `spin` is the third, where `consume` leaves bytes and no message,
and the source's loop would call it again for ever on the same bytes. It is a value here so that it
can be shown not to occur (`handleReadFrame_cases`). -/

theorem handleReadFrame_nil : p.handleReadFrame [] = ([], .waiting p) := by
  rw [handleReadFrame, if_pos rfl]

theorem getMessage_waiting (h : p.isReady = true) : p.getMessage.2.Waiting := by
  rw [getMessage, if_pos h]
  exact ⟨.inl ⟨rfl, Nat.le_refl 2⟩, Nat.zero_lt_two⟩

/-- One time round the loop, from a state that waits. -/
theorem handleReadFrame_eq (h : p.Waiting) (hne : xs ≠ []) :
    p.handleReadFrame xs =
      match p.consume xs with
      | .error e => ([], .failed e)
      | .ok (p', buf') =>
        if p'.isReady then
          (p'.getMessage.1.toList ++ (p'.getMessage.2.handleReadFrame buf').1,
            (p'.getMessage.2.handleReadFrame buf').2)
        else ([], .waiting p') := by
  rw [handleReadFrame, if_neg hne]
  split
  · next e hconsume => rw [hconsume]
  · next p' buf' hconsume =>
    rw [hconsume]
    dsimp only
    by_cases hr : p'.isReady = true
    · rw [dif_pos hr, if_pos hr]
    · rcases consume_cases (.inl h.1) hconsume with hs | ⟨-, hnil⟩
      · exact absurd (isReady_iff.mpr hs) hr
      · rw [dif_neg hr, if_neg hr, if_pos hnil]

/-- How a read goes on with `ys`: where it waits, and nowhere else. After a failure the connection
    does not read again. -/
def readOn (ys : List UInt8) (r : List Message × ReadEnd) : List Message × ReadEnd :=
  match r with
  | (msgs, .waiting p) => (msgs ++ (p.handleReadFrame ys).1, (p.handleReadFrame ys).2)
  | (msgs, .failed e) => (msgs, .failed e)
  | (msgs, .spin) => (msgs, .spin)

theorem readOn_append (msgs : List Message) (r : List Message × ReadEnd) :
    readOn ys (msgs ++ r.1, r.2) = (msgs ++ (readOn ys r).1, (readOn ys r).2) := by
  obtain ⟨msgs', e⟩ := r
  cases e <;> simp [readOn]

/-- **Two reads are one read of both.** -/
theorem handleReadFrame_append (h : p.Waiting) :
    p.handleReadFrame (xs ++ ys) = readOn ys (p.handleReadFrame xs) := by
  fun_induction handleReadFrame p xs with
  | case1 p => rw [List.nil_append, readOn, List.nil_append]
  | case2 p xs hne e hconsume =>
    rw [handleReadFrame_eq h (by simp [hne]), consume_append (.inl h.1), hconsume]
    rfl
  | case3 p xs hne q rest hconsume hready r ih =>
    have hgoOn : goOn ys (q, rest) = .ok (q, rest ++ ys) := if_pos hready
    rw [handleReadFrame_eq h (by simp [hne]), consume_append (.inl h.1), hconsume, Except.bind,
      hgoOn]
    dsimp only
    rw [if_pos hready, ih (getMessage_waiting hready), readOn_append]
  | case4 p xs hne q hready hconsume =>
    have hgoOn : goOn ys (q, []) = q.consume ys := if_neg hready
    have hq : q.Waiting := by
      rcases consume_cases (.inl h.1) hconsume with hs | ⟨hq, -⟩
      · exact absurd (isReady_iff.mpr hs) hready
      · exact hq
    rw [handleReadFrame_eq h (by simp [hne]), consume_append (.inl h.1), hconsume, Except.bind,
      hgoOn, readOn, List.nil_append]
    by_cases hys : ys = []
    · rw [hys, hq.consume_nil, handleReadFrame_nil]
      exact if_neg hready
    · rw [handleReadFrame_eq hq hys]
  | case5 p xs hne q rest hconsume hready hrest =>
    rcases consume_cases (.inl h.1) hconsume with hs | ⟨-, hnil⟩
    · exact absurd (isReady_iff.mpr hs) hready
    · exact absurd hnil hrest

/-- A read that does not fail waits for the next one: it never spins. -/
theorem handleReadFrame_cases (h : p.Waiting) (xs : List UInt8) :
    (∃ q, (p.handleReadFrame xs).2 = .waiting q ∧ q.Waiting) ∨
      ∃ e, (p.handleReadFrame xs).2 = .failed e := by
  fun_induction handleReadFrame p xs with
  | case1 p => exact .inl ⟨p, rfl, h⟩
  | case2 p xs hne e hconsume => exact .inr ⟨e, rfl⟩
  | case3 p xs hne q rest hconsume hready r ih => exact ih (getMessage_waiting hready)
  | case4 p xs hne q hready hconsume =>
    rcases consume_cases (.inl h.1) hconsume with hs | ⟨hq, -⟩
    · exact absurd (isReady_iff.mpr hs) hready
    · exact .inl ⟨q, rfl, hq⟩
  | case5 p xs hne q rest hconsume hready hrest =>
    rcases consume_cases (.inl h.1) hconsume with hs | ⟨-, hnil⟩
    · exact absurd (isReady_iff.mpr hs) hready
    · exact absurd hnil hrest

/-- **The cuts do not matter**: reading one buffer after the other is reading them as one. -/
theorem readAll_eq_handleReadFrame (h : p.Waiting) (bufs : List (List UInt8)) :
    p.readAll bufs = p.handleReadFrame bufs.flatten := by
  induction bufs generalizing p with
  | nil => rw [List.flatten_nil, handleReadFrame_nil, readAll]
  | cons buf bufs ih =>
    rw [List.flatten_cons, handleReadFrame_append h, readAll]
    rcases handleReadFrame_cases h buf with ⟨q, hq, hwaiting⟩ | ⟨e, he⟩
    · obtain ⟨msgs, hmsgs⟩ : ∃ msgs, p.handleReadFrame buf = (msgs, .waiting q) := ⟨_, by rw [← hq]⟩
      rw [hmsgs]
      simp only [readOn, ih hwaiting]
    · obtain ⟨msgs, hmsgs⟩ : ∃ msgs, p.handleReadFrame buf = (msgs, .failed e) := ⟨_, by rw [← he]⟩
      rw [hmsgs]
      rfl

/-- From the first byte on: the reads are one read, which waits for more or has failed. -/
theorem readAll_new (server : Bool) (bufs : List (List UInt8)) :
    (new server).readAll bufs = (new server).handleReadFrame bufs.flatten ∧
      ((∃ q, ((new server).readAll bufs).2 = .waiting q) ∨
        ∃ e, ((new server).readAll bufs).2 = .failed e) := by
  have heq := readAll_eq_handleReadFrame (new_waiting server) bufs
  refine ⟨heq, ?_⟩
  rw [heq]
  rcases handleReadFrame_cases (new_waiting server) bufs.flatten with ⟨q, hq, -⟩ | he
  · exact .inl ⟨q, hq⟩
  · exact .inr he

end Hybi13

end WebsocketTest.WebSocket
