import WebsocketTest.Tcp.Misplaced
import Mathlib.Data.List.Perm.Subperm
import Mathlib.Data.List.Nodup
import Mathlib.Data.List.Range

/-!
# Reassembly: which cuts of a stream the receiver survives

The payloads a peer sends are known by their lengths `ls`, and what `recv` makes of the stream by
the sizes `ks` of the bursts it comes in. **`reassembly_iff`** says for which layouts `(ls, ks)`
the messages handed on are the payloads, whatever the payloads' bytes are: exactly when every
burst ends where a frame ends, and every frame's payload fits the `short` it is measured with.

One direction is `Tcp/Parse.lean`: on an empty buffer whole frames come out whole. The other is
`Tcp/Misplaced.lean`: a burst that ends inside a frame leaves the receiver astray, and the payload
of that frame never comes out. It needs a payload whose bytes cannot be found by accident, so the
statement is about all payloads of the given lengths at once.

## Why the payloads are quantified

For one fixed stream the equivalence is false. The receiver overwrites its buffer, and what it then
reads may happen to be right: a payload of equal bytes comes out of many wrong places. A sender that
cannot rely on its bytes being lucky is one for which every payload of these lengths must come
through, and for that the layout has to be right.

The bound `2 + l ≤ 65535` says that a frame can be written down at all, and `k ≤ maxCVBufferSize`
that a burst is no more than one `recv` takes; a longer one is two. The smaller bound, 32769, is a
result: it is where the size no longer fits the `short` that the receiver copies it to.
-/

set_option autoImplicit false

namespace WebsocketTest

open Lib.Memory Lib.Integers Lib.Framing Lib.Run

/-! ## A burst that ends inside a frame -/

namespace CTcpTask

variable {t : CTcpTask}

/-- Whole frames and the beginning `part` of another, whose total is `T`: the frames are handed on,
    and the task holds `part`, its prefix read if it is complete. -/
theorem parse_partial {gs : List (List UInt8)} (hgs : ∀ g ∈ gs, g.length ≤ 32767)
    {part : List UInt8} {T : Nat} (hpart : part ≠ []) (hT : part.length < T)
    (hann : 2 ≤ part.length → beNat (part.take 2) = T) (h : t.Holds (stream 2 gs ++ part)) {n : Nat}
    (hn : t.vReceiveBuffer.uOffset < n) :
    ∃ t₁ ms, t₁.Holds part ∧ ms.map CSendMsg.sendBody = gs ∧
      parse n t = ⟨if part.length < 2 then t₁ else t₁.armed T, ms, .ret 1⟩ := by
  have hpos := List.length_pos_iff.mpr hpart
  induction gs generalizing t n with
  | nil =>
    obtain ⟨n, rfl⟩ : ∃ k, n = k + 1 := ⟨n - 1, by omega⟩
    rw [stream_nil, List.nil_append] at h
    have ho := h.uOffset
    refine ⟨t, [], h, rfl, ?_⟩
    by_cases h₂ : part.length < 2
    · have ha : t.announced = none := by
        simp only [CTcpTask.announced, h.state]
        exact if_pos (by omega)
      rw [if_pos h₂, parse_ret (by omega) (turn_none ha)]
    · have ha : t.announced = some T := by rw [h.announced (by omega), hann (by omega)]
      rw [if_neg h₂, parse_wait h.shape ha (by omega) (by omega) (by omega)]
  | cons g gs ih =>
    obtain ⟨n, rfl⟩ : ∃ k, n = k + 1 := ⟨n - 1, by omega⟩
    have ho := h.uOffset
    rw [stream_cons, List.append_assoc] at h ho
    rw [List.length_append, length_frame] at ho
    obtain ⟨m, t', ht, hm, h'⟩ := h.frame (hgs g List.mem_cons_self)
    have ho' := h'.uOffset
    obtain ⟨t₁, ms, h₁, hms, he⟩ :=
      ih (fun q hq => hgs q (List.mem_cons_of_mem g hq)) h' (n := n) (by omega)
    refine ⟨t₁, m :: ms, h₁, by rw [List.map_cons, hm, hms], ?_⟩
    rw [parse_packet (by omega) ht, he]

end CTcpTask

namespace Receiver

variable {s : Receiver} {t : CTcpTask}

/-- The call a burst is, on an empty buffer. -/
theorem arrive_of_holds (hc : s.conn = .live t) (ht : t.Holds []) {q : List UInt8} (hq : q ≠ [])
    (hlen : q.length ≤ 65536) :
    (t.store q).Holds q ∧ s.arrive q =
      ⟨(CTcpTask.parse (q.length + 1) (t.store q)).conn,
        s.msgs ++ (CTcpTask.parse (q.length + 1) (t.store q)).msgs⟩ := by
  have hroom : t.uMaxReceive = 65536 := by
    rw [CTcpTask.uMaxReceive_of_inShape ht.shape, ht.uOffset]
    rfl
  have hst := ht.store hlen
  refine ⟨hst, ?_⟩
  rw [arrive_of_fits hc hq (by omega), call_live hc, CTcpTask.recvProcess_bytes hq,
    CVBuffer.getSize, hst.uOffset]

/-- **A burst of whole frames** is handed on and leaves the buffer empty. -/
theorem arrive_whole (hc : s.conn = .live t) (ht : t.Holds []) {gs : List (List UInt8)}
    (hgs : ∀ g ∈ gs, g.length ≤ 32767) (hne : gs ≠ []) (hlen : (stream 2 gs).length ≤ 65536) :
    ∃ t', (s.arrive (stream 2 gs)).conn = .live t' ∧ t'.Holds [] ∧
      (s.arrive (stream 2 gs)).msgs.map CSendMsg.sendBody =
        s.msgs.map CSendMsg.sendBody ++ gs := by
  have hq : stream 2 gs ≠ [] := List.length_pos_iff.mp (length_stream_pos (by decide) hne)
  obtain ⟨hst, he⟩ := arrive_of_holds hc ht hq hlen
  obtain ⟨hx, hms, ht'⟩ :=
    CTcpTask.parse_holds hgs hst (n := (stream 2 gs).length + 1) (by rw [hst.uOffset]; omega)
  refine ⟨_, ?_, ht', ?_⟩
  · rw [he, Call.conn, hx]
    rfl
  · rw [he, List.map_append, hms]

/-- **A burst that ends inside a frame** leaves the beginning of the frame in the buffer. -/
theorem arrive_partial (hc : s.conn = .live t) (ht : t.Holds []) {gs : List (List UInt8)}
    (hgs : ∀ g ∈ gs, g.length ≤ 32767) {part : List UInt8} {T : Nat} (hpart : part ≠ [])
    (hT : part.length < T) (hann : 2 ≤ part.length → beNat (part.take 2) = T)
    (hlen : (stream 2 gs ++ part).length ≤ 65536) :
    ∃ t₁, t₁.Holds part ∧
      (s.arrive (stream 2 gs ++ part)).conn =
        .live (if part.length < 2 then t₁ else t₁.armed T) ∧
      (s.arrive (stream 2 gs ++ part)).msgs.map CSendMsg.sendBody =
        s.msgs.map CSendMsg.sendBody ++ gs := by
  have hq : stream 2 gs ++ part ≠ [] := by simp [hpart]
  obtain ⟨hst, he⟩ := arrive_of_holds hc ht hq hlen
  obtain ⟨t₁, ms, h₁, hms, hp⟩ := CTcpTask.parse_partial hgs hpart hT hann hst
    (n := (stream 2 gs ++ part).length + 1) (by rw [hst.uOffset]; omega)
  refine ⟨t₁, h₁, ?_, ?_⟩
  · rw [he, hp]
    rfl
  · rw [he, hp, List.map_append, hms]

/-! ## A payload that cannot be found by accident

Where the receiver looks for the payload is known up to a few bytes that were in the buffer before.
A first byte that differs from these, and that does not occur again, is enough. -/

/-- There is a byte outside any short list. -/
theorem exists_byte_notMem {bs : List UInt8} (h : bs.length < 256) : ∃ x, x ∉ bs := by
  by_contra hall
  have hsub : (List.range 256).map UInt8.ofNat ⊆ bs := fun x _ =>
    Classical.not_not.mp fun hx => hall ⟨x, hx⟩
  have hnodup : ((List.range 256).map UInt8.ofNat).Nodup := by
    refine List.Nodup.map_on ?_ List.nodup_range
    intro a ha b hb hab
    have hn := congrArg UInt8.toNat hab
    rw [List.mem_range] at ha hb
    simpa [Nat.mod_eq_of_lt ha, Nat.mod_eq_of_lt hb] using hn
  have hle := (List.subperm_of_subset hnodup hsub).length_le
  rw [List.length_map, List.length_range] at hle
  omega

/-- A payload of any length whose first byte, if it has one, is not among `bs` nor repeated. -/
theorem exists_payload (l : Nat) (bs : List UInt8) (h : bs.length < 256) :
    ∃ p : List UInt8, p.length = l ∧ ∀ x ys, p = x :: ys → x ∉ ys ∧ x ∉ bs := by
  cases l with
  | zero => exact ⟨[], rfl, fun x ys he => absurd he (by simp)⟩
  | succ l =>
    obtain ⟨x, hx⟩ := exists_byte_notMem h
    obtain ⟨y, hy⟩ := exists_byte_notMem (show [x].length < 256 by simp)
    refine ⟨x :: List.replicate l y, by simp, ?_⟩
    intro x' ys he
    cases he
    refine ⟨fun hm => hy ?_, hx⟩
    rw [(List.mem_replicate.mp hm).2]
    exact List.mem_singleton.mpr rfl

/-- The two bytes in front of a payload. -/
theorem exists_prefix {T : Nat} (hT : T < 65536) :
    ∃ hi lo, beNat [hi, lo] = T ∧
      ∀ p : List UInt8, 2 + p.length = T → frame 2 p = hi :: lo :: p := by
  refine ⟨_, _, beNat_beBytes_of_lt (show T < 256 ^ 2 by omega), ?_⟩
  intro p hp
  rw [frame, hp]
  rfl

section

variable {gs : List (List UInt8)} {l : Nat}

/-- A burst that ends inside the prefix: the other byte of it will go over the first. -/
theorem exists_astray_inPrefix (hc : s.conn = .live t) (ht : t.Holds [])
    (hgs : ∀ g ∈ gs, g.length ≤ 32767) (hl : 2 + l < 65536)
    (hlen : (stream 2 gs).length + 1 ≤ 65536) (z : List UInt8) :
    ∃ p, p.length = l ∧
      Astray p (s.arrive (stream 2 gs ++ (frame 2 p).take 1)).conn ((frame 2 p).drop 1 ++ z) ∧
      (s.arrive (stream 2 gs ++ (frame 2 p).take 1)).msgs.map CSendMsg.sendBody =
        s.msgs.map CSendMsg.sendBody ++ gs := by
  obtain ⟨hi, lo, hT, hframe⟩ := exists_prefix hl
  have htake : (z.take 2).length ≤ 2 := List.length_take_le _ _
  obtain ⟨t₁, h₁, hconn, hms⟩ := arrive_partial hc ht hgs (show [hi] ≠ [] by simp)
    (T := 2 + l) (by simp only [List.length_singleton]; omega) (by simp) (by simpa using hlen)
  -- The payload is chosen after the buffer: its first byte is in none of these places.
  obtain ⟨p, hp, hfirst⟩ := exists_payload l (t₁.vReceiveBuffer.buffer 2 :: lo :: z.take 2)
    (by simp only [List.length_cons]; omega)
  refine ⟨p, hp, ?_⟩
  rw [hframe p (by rw [hp])]
  refine ⟨?_, hms⟩
  show Astray p (s.arrive (stream 2 gs ++ [hi])).conn (lo :: (p ++ z))
  rw [hconn]
  refine .inPrefix h₁ (by rw [hT, hp]) ?_
  intro x ys he
  obtain ⟨hx, hbs⟩ := hfirst x ys he
  simp only [List.mem_cons, not_or] at hbs
  exact ⟨hx, fun h => hbs.1 h.symm, hbs.2.2, hbs.2.1⟩

/-- A burst that ends between the prefix and the payload: the payload will go over the prefix. -/
theorem exists_astray_behindPrefix (hc : s.conn = .live t) (ht : t.Holds [])
    (hgs : ∀ g ∈ gs, g.length ≤ 32767) (hl₀ : 0 < l) (hl : 2 + l < 65536)
    (hlen : (stream 2 gs).length + 2 ≤ 65536) (z : List UInt8) :
    ∃ p, p.length = l ∧
      Astray p (s.arrive (stream 2 gs ++ (frame 2 p).take 2)).conn ((frame 2 p).drop 2 ++ z) ∧
      (s.arrive (stream 2 gs ++ (frame 2 p).take 2)).msgs.map CSendMsg.sendBody =
        s.msgs.map CSendMsg.sendBody ++ gs := by
  obtain ⟨hi, lo, hT, hframe⟩ := exists_prefix hl
  have htake : (z.take 2).length ≤ 2 := List.length_take_le _ _
  obtain ⟨t₁, h₁, hconn, hms⟩ := arrive_partial hc ht hgs (show [hi, lo] ≠ [] by simp)
    (T := 2 + l) (by simp only [List.length_cons, List.length_nil]; omega) (fun _ => hT)
    (by simpa using hlen)
  obtain ⟨p, hp, hfirst⟩ := exists_payload l (t₁.vReceiveBuffer.buffer 2 :: z.take 2)
    (by simp only [List.length_cons]; omega)
  refine ⟨p, hp, ?_⟩
  rw [hframe p (by rw [hp])]
  refine ⟨?_, hms⟩
  show Astray p (s.arrive (stream 2 gs ++ [hi, lo])).conn (p ++ z)
  rw [hconn]
  have hne : p ≠ [] := List.length_pos_iff.mp (by omega)
  obtain ⟨x, ys, rfl⟩ := List.exists_cons_of_ne_nil hne
  obtain ⟨hx, hbs⟩ := hfirst x ys rfl
  simp only [List.mem_cons, not_or] at hbs
  have ha : t₁.announced = some (2 + l) := by
    rw [h₁.announced (by simp)]
    exact congrArg some hT
  rw [← hp] at ha ⊢
  exact .behindPrefix rfl (CTcpTask.armed_waits h₁.shape ha (by omega)) h₁.uOffset hx
    (fun h => hbs.1 h.symm) hbs.2

/-- A burst that ends inside the payload: the rest of it will go over its beginning. Any payload
    will do whose first byte is not repeated. -/
theorem exists_astray_inside (hc : s.conn = .live t) (ht : t.Holds [])
    (hgs : ∀ g ∈ gs, g.length ≤ 32767) {j : Nat} (hj : j + 3 < 2 + l) (hl : 2 + l < 65536)
    (hlen : (stream 2 gs).length + (j + 3) ≤ 65536) (z : List UInt8) :
    ∃ p, p.length = l ∧
      Astray p (s.arrive (stream 2 gs ++ (frame 2 p).take (j + 3))).conn
        ((frame 2 p).drop (j + 3) ++ z) ∧
      (s.arrive (stream 2 gs ++ (frame 2 p).take (j + 3))).msgs.map CSendMsg.sendBody =
        s.msgs.map CSendMsg.sendBody ++ gs := by
  obtain ⟨hi, lo, hT, hframe⟩ := exists_prefix hl
  obtain ⟨p, hp, hfirst⟩ := exists_payload l [] (by decide)
  have hne : p ≠ [] := List.length_pos_iff.mp (by omega)
  obtain ⟨x, ys, rfl⟩ := List.exists_cons_of_ne_nil hne
  obtain ⟨hx, -⟩ := hfirst x ys rfl
  rw [List.length_cons] at hp
  have hpart : (hi :: lo :: x :: ys.take j).length = 2 + (j + 1) := by
    simp only [List.length_cons, List.length_take]
    omega
  obtain ⟨t₁, h₁, hconn, hms⟩ := arrive_partial hc ht hgs
    (show hi :: lo :: x :: ys.take j ≠ [] by simp) (T := 2 + l) (by omega) (fun _ => hT)
    (by rw [List.length_append, hpart]; omega)
  have he := hframe (x :: ys) (by rw [List.length_cons, hp])
  have hpre : (frame 2 (x :: ys)).take (j + 3) = hi :: lo :: x :: ys.take j := by rw [he]; rfl
  have hrest : (frame 2 (x :: ys)).drop (j + 3) = ys.drop j := by rw [he]; rfl
  refine ⟨x :: ys, by rw [List.length_cons, hp], ?_, by rw [hpre]; exact hms⟩
  rw [hpre, hrest, hconn, if_neg (by omega)]
  have ha : t₁.announced = some (2 + l) := by
    rw [h₁.announced (by omega)]
    exact congrArg some hT
  rw [← hp] at ha ⊢
  refine .inside rfl (CTcpTask.armed_waits h₁.shape ha (by omega)) ?_ (by omega) hx
  show t₁.vReceiveBuffer.uOffset = 2 + (j + 1)
  rw [h₁.uOffset, hpart]

/-- **A burst that ends inside a frame leaves the receiver astray**, for some payload of the
    frame's length. The three places it can end at are the three in which the next `recv` stores
    in the wrong place. -/
theorem exists_astray (hc : s.conn = .live t) (ht : t.Holds [])
    (hgs : ∀ g ∈ gs, g.length ≤ 32767) {r : Nat} (hr₀ : 0 < r) (hr : r < 2 + l)
    (hl : 2 + l < 65536) (hlen : (stream 2 gs).length + r ≤ 65536) (z : List UInt8) :
    ∃ p, p.length = l ∧
      Astray p (s.arrive (stream 2 gs ++ (frame 2 p).take r)).conn ((frame 2 p).drop r ++ z) ∧
      (s.arrive (stream 2 gs ++ (frame 2 p).take r)).msgs.map CSendMsg.sendBody =
        s.msgs.map CSendMsg.sendBody ++ gs := by
  by_cases hr₁ : r = 1
  · subst hr₁
    exact exists_astray_inPrefix hc ht hgs hl hlen z
  by_cases hr₂ : r = 2
  · subst hr₂
    exact exists_astray_behindPrefix hc ht hgs (by omega) hl hlen z
  · obtain ⟨j, rfl⟩ : ∃ j, r = j + 3 := ⟨r - 3, by omega⟩
    exact exists_astray_inside hc ht hgs hr hl hlen z

end

/-- An astray receiver does not hand on `p` next, whatever bursts follow. -/
theorem not_delivered_of_astray {p z : List UInt8} (h : Astray p s.conn z) (hs : s.Sound)
    {qs : List (List UInt8)} (hpre : qs.flatten <+: z) (ps : List (List UInt8)) :
    (s.arriveAll qs).msgs.map CSendMsg.sendBody ≠ s.msgs.map CSendMsg.sendBody ++ p :: ps := by
  intro he
  obtain ⟨bss, hrun, hne, hend⟩ := arriveAll_steps qs hs
  have hflat : bss.flatten <+: z := by
    rcases hend with hq | ⟨hq, -⟩
    · exact hq ▸ hpre
    · exact hq.trans hpre
  obtain ⟨new, hnew⟩ := msgs_mono hrun
  rw [← hnew, List.map_append, List.append_cancel_left_eq] at he
  obtain ⟨m, ms, rfl, hm, -⟩ := List.map_eq_cons_iff.mp he
  exact h.run hrun hne hflat m ms hnew.symm hm

/-! ## The layouts that work

Burst by burst. An aligned one leaves everything as it was at the start, so that the rest of the
stream is a stream of its own. -/

/-- Payload lengths a 2-byte prefix can announce. -/
theorem exists_payloads (ls : List Nat) : ∃ ps : List (List UInt8), ps.map List.length = ls :=
  ⟨ls.map fun l => List.replicate l 0, by simp [Function.comp_def]⟩

/-- What is handed on is delivered in full: all of it is short enough for a `short`. -/
theorem short_of_delivered (h : s.Sound) {qs ps : List (List UInt8)}
    (he : (s.arriveAll qs).msgs.map CSendMsg.sendBody = s.msgs.map CSendMsg.sendBody ++ ps) :
    ∀ p ∈ ps, p.length ≤ 32767 := by
  intro p hp
  obtain ⟨bss, hrun, -, -⟩ := arriveAll_steps qs h
  have hmem : p ∈ (s.arriveAll qs).msgs.map CSendMsg.sendBody := by
    rw [he]
    exact List.mem_append_right _ hp
  obtain ⟨m, hm, rfl⟩ := List.mem_map.mp hmem
  exact (steps_sound h hrun).short m hm

/-- **Aligned bursts are delivered.** The induction is on the bursts: each takes the whole frames
    it ends with out of the stream and leaves the buffer empty for the next. -/
theorem delivers_of_aligned {ks : List Nat} {ps : List (List UInt8)} (hc : s.conn = .live t)
    (ht : t.Holds []) (hks : ∀ k ∈ ks, 0 < k ∧ k ≤ 65536)
    (hsum : ks.sum = streamSize 2 (ps.map List.length)) (hps : ∀ p ∈ ps, p.length ≤ 32767)
    (h : Aligned 2 (ps.map List.length) ks) :
    (s.arriveAll (cut ks (stream 2 ps))).msgs.map CSendMsg.sendBody =
      s.msgs.map CSendMsg.sendBody ++ ps := by
  induction ks generalizing s t ps with
  | nil =>
    cases ps with
    | nil => simp [arriveAll, cut]
    | cons p ps =>
      rw [List.map_cons, streamSize_cons, List.sum_nil] at hsum
      omega
  | cons k ks ih =>
    -- the burst is the first `m` frames
    obtain ⟨m, hm⟩ := h.head
    have htail := h.tail hm
    have hk := hks k List.mem_cons_self
    rw [← List.map_take, ← length_stream] at hm
    rw [← List.map_drop] at htail
    have hsplit : stream 2 ps = stream 2 (ps.take m) ++ stream 2 (ps.drop m) := by
      rw [← stream_append, List.take_append_drop]
    have hne : ps.take m ≠ [] := by
      intro he
      rw [he, stream_nil, List.length_nil] at hm
      omega
    obtain ⟨t', hc', ht', hms⟩ := arrive_whole hc ht
      (fun g hg => hps g (List.mem_of_mem_take hg)) hne (hm ▸ hk.2)
    have hrest : ks.sum = streamSize 2 ((ps.drop m).map List.length) := by
      have hl := congrArg List.length hsplit
      rw [List.length_append, length_stream, length_stream _ (ps.drop m), ← hsum, ← hm,
        List.sum_cons] at hl
      omega
    have hstep : s.arriveAll (cut (k :: ks) (stream 2 ps)) =
        (s.arrive (stream 2 (ps.take m))).arriveAll (cut ks (stream 2 (ps.drop m))) := by
      rw [hsplit, cut, List.take_left' hm.symm, List.drop_left' hm.symm]
      rfl
    rw [hstep, ih hc' ht' (fun k hk => hks k (List.mem_cons_of_mem _ hk)) hrest
      (fun p hp => hps p (List.mem_of_mem_drop hp)) htail, hms, List.append_assoc,
      List.take_append_drop]

/-- **Delivered for all payloads means aligned.** The first burst that ends inside a frame leaves
    the receiver astray for some payload of that frame's length. -/
theorem aligned_of_delivers {ks ls : List Nat} (hc : s.conn = .live t) (ht : t.Holds [])
    (hs : s.Sound) (hks : ∀ k ∈ ks, 0 < k ∧ k ≤ 65536) (hls : ∀ l ∈ ls, l ≤ 32767)
    (hsum : ks.sum = streamSize 2 ls)
    (h : ∀ ps : List (List UInt8), ps.map List.length = ls →
      (s.arriveAll (cut ks (stream 2 ps))).msgs.map CSendMsg.sendBody =
        s.msgs.map CSendMsg.sendBody ++ ps) :
    Aligned 2 ls ks := by
  induction ks generalizing s t ls with
  | nil => exact aligned_nil 2 ls
  | cons k ks ih =>
    have hk := hks k List.mem_cons_self
    rw [List.sum_cons] at hsum
    obtain ⟨g, rest, rfl, hg⟩ := exists_split_of_le (show k ≤ streamSize 2 ls by omega)
    obtain ⟨gs, rfl⟩ := exists_payloads g
    rw [streamSize_append, ← length_stream] at hsum
    rw [← length_stream] at hg
    have hgs : ∀ p ∈ gs, p.length ≤ 32767 := fun p hp =>
      hls _ (List.mem_append_left _ (List.mem_map_of_mem hp))
    have hstep : ∀ (ps : List (List UInt8)) (part z : List UInt8),
        (stream 2 gs ++ part).length = k → stream 2 ps = stream 2 gs ++ part ++ z →
        s.arriveAll (cut (k :: ks) (stream 2 ps)) =
          (s.arrive (stream 2 gs ++ part)).arriveAll (cut ks z) := by
      intro ps part z hlen he
      rw [he, cut, List.take_left' hlen, List.drop_left' hlen]
      rfl
    rcases hg with hg | ⟨l, ls, rfl, hlt, hgt⟩
    · -- The burst ends with the frames of `gs`; the rest is the induction's.
      have hne : gs ≠ [] := by
        rintro rfl
        rw [stream_nil, List.length_nil] at hg
        omega
      obtain ⟨t', hc', ht', hms⟩ := arrive_whole hc ht hgs hne (hg ▸ hk.2)
      obtain ⟨bss, hrun, -, -⟩ := drain_steps hs (Nat.le_refl (stream 2 gs).length)
      have htail : Aligned 2 rest ks := by
        refine ih hc' ht' (steps_sound hs hrun) (fun k hk => hks k (List.mem_cons_of_mem _ hk))
          (fun l hl => hls l (List.mem_append_right _ hl)) (by omega) ?_
        intro ps hps
        have he := h (gs ++ ps) (by rw [List.map_append, hps])
        rw [hstep (gs ++ ps) [] (stream 2 ps) (by rw [List.append_nil, hg])
          (by rw [stream_append, List.append_nil]), List.append_nil] at he
        rw [he, hms, List.append_assoc]
      rw [← hg, length_stream]
      exact htail.cons
    · -- It ends `r` bytes into the frame behind them: one payload of that length is not delivered.
      exfalso
      obtain ⟨zs, rfl⟩ := exists_payloads ls
      have hl := hls l (List.mem_append_right _ List.mem_cons_self)
      obtain ⟨r, rfl⟩ := Nat.exists_eq_add_of_le (Nat.le_of_lt hlt)
      obtain ⟨p, hp, hastray, hms⟩ :=
        exists_astray hc ht hgs (l := l) (r := r) (by omega) (by omega) (by omega) hk.2
          (stream 2 zs)
      have he := h (gs ++ p :: zs) (by rw [List.map_append, List.map_cons, hp])
      have hlen : (stream 2 gs ++ (frame 2 p).take r).length = (stream 2 gs).length + r := by
        rw [List.length_append, List.length_take, length_frame, hp]
        omega
      rw [hstep (gs ++ p :: zs) _ ((frame 2 p).drop r ++ stream 2 zs) hlen (by
        rw [stream_append, stream_cons, List.append_assoc, ← List.append_assoc (List.take r _),
          List.take_append_drop])] at he
      obtain ⟨bss, hrun, -, -⟩ :=
        drain_steps hs (Nat.le_refl (stream 2 gs ++ (frame 2 p).take r).length)
      have hpre : (cut ks ((frame 2 p).drop r ++ stream 2 zs)).flatten <+:
          (frame 2 p).drop r ++ stream 2 zs := by
        rw [flatten_cut]
        exact List.take_prefix _ _
      exact not_delivered_of_astray hastray (steps_sound hs hrun) hpre zs
        (by rw [he, hms, List.append_assoc])

/-- **Which layouts are delivered.** For payload lengths `ls` and burst sizes `ks` that make up the
    same stream: every choice of payloads comes out as it went in, exactly when each burst ends
    with a frame and each frame's total is at most 32769. -/
theorem reassembly_iff (mem : Nat → UInt8) (ls ks : List Nat) (hls : ∀ l ∈ ls, 2 + l ≤ 65535)
    (hks : ∀ k ∈ ks, 1 ≤ k ∧ k ≤ maxCVBufferSize) (hsum : ks.sum = streamSize 2 ls) :
    (∀ ps : List (List UInt8), ps.map List.length = ls →
      ((fresh mem).arriveAll (cut ks (stream 2 ps))).msgs.map CSendMsg.sendBody = ps) ↔
      Aligned 2 ls ks ∧ ∀ l ∈ ls, 2 + l ≤ 32769 := by
  have hnew := CTcpTask.new_holds mem
  constructor
  · intro h
    have hshort : ∀ l ∈ ls, 2 + l ≤ 32769 := by
      obtain ⟨ps, rfl⟩ := exists_payloads ls
      intro l hl
      obtain ⟨p, hp, rfl⟩ := List.mem_map.mp hl
      have hle := short_of_delivered (fresh_sound mem) (h ps rfl) p hp
      omega
    exact ⟨aligned_of_delivers rfl hnew (fresh_sound mem) hks
      (fun l hl => by have := hshort l hl; omega) hsum h, hshort⟩
  · rintro ⟨ha, hshort⟩ ps rfl
    refine delivers_of_aligned rfl hnew hks hsum ?_ ha
    intro p hp
    have := hshort _ (List.mem_map_of_mem hp)
    omega

theorem reassembly_iff_two_frames :
    (∀ ps : List (List UInt8), ps.map List.length = [1, 2] →
      ((fresh fun _ => 0).arriveAll (cut [3, 4] (stream 2 ps))).msgs.map CSendMsg.sendBody = ps) ↔
      Aligned 2 [1, 2] [3, 4] ∧ ∀ l ∈ [1, 2], 2 + l ≤ 32769 :=
  reassembly_iff (fun _ => 0) [1, 2] [3, 4] (by decide) (by decide) (by decide)

/-- The frame `00 03 41`, received as `00` and then `03 41`, is not delivered. -/
theorem split_prefix_not_delivered :
    [[0x00], [0x03, 0x41]].flatten = stream 2 [[0x41]] ∧
      (((fresh fun _ => 0).call (.bytes [0x00])).call (.bytes [0x03, 0x41])).msgs.map
        CSendMsg.sendBody ≠ [[0x41]] := by
  decide

end Receiver

end WebsocketTest
