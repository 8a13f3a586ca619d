import WebsocketTest.Lib.Run
import WebsocketTest.Tcp.Parse

/-!
# A connection over many calls

`Receiver.step` says which calls a connection can make; here is what every run of them keeps: a
live task is `Ready`, and no message handed on is longer than a `short` can say.

A peer does not choose what each `recv` returns, only when its bytes arrive. `arrive` is one burst
of bytes: epoll is level-triggered, so `RecvProcess` is called until the socket is empty, and each
`recv` returns what it was asked for or what there is. A burst that fits is one call
(`arrive_of_fits`), so bursts cover every way of cutting a stream into `recv` results, and a burst
that does not fit is cut where the code's own request cuts it.

Both are kept, for the results need different ones. What holds of every call (`Shapes`, `Packets`)
is stated over lists of `recv` results, errors and closed connections included. What is said of a
stream (`Reassembly`) is stated over bursts, in which nothing goes wrong but the cut.

A call on a connection that is gone does nothing, and neither does a burst: what arrives after the
task was destroyed is read by nobody. So a statement about the messages handed on is one about the
whole session, whenever it ended.
-/

set_option autoImplicit false

namespace WebsocketTest

open Lib.Memory Lib.Integers Lib.Run

namespace CTcpTask

variable {t : CTcpTask}

theorem new_ready (mem : Nat → UInt8) : (new mem).Ready := ⟨new_inShape mem, Nat.zero_le _⟩

theorem uMaxReceive_of_inShape (h : t.InShape) :
    t.uMaxReceive = 65536 - t.vReceiveBuffer.uOffset := by
  have hz : t.vReceiveBuffer.uOffset ≤ 65536 := h.size
  simp only [uMaxReceive, toU32, CVBuffer.getSize, maxCVBufferSize]
  omega

theorem store_inShape (h : t.InShape) {bs : List UInt8} (hbs : bs.length ≤ t.uMaxReceive) :
    (t.store bs).InShape ∧ (t.store bs).vReceiveBuffer.uOffset =
      t.vReceiveBuffer.uOffset + bs.length := by
  have hz : t.vReceiveBuffer.uOffset ≤ 65536 := h.size
  rw [uMaxReceive_of_inShape h] at hbs
  have ho : (t.store bs).vReceiveBuffer.uOffset = t.vReceiveBuffer.uOffset + bs.length :=
    u32_eq (show t.vReceiveBuffer.uOffset + bs.length < 4294967296 by omega)
  refine ⟨⟨?_, h.reading, ?_⟩, ho⟩
  · show (t.store bs).vReceiveBuffer.uOffset ≤ 65536
    omega
  · intro hs
    obtain ⟨hg, h₂, hr⟩ := h.waiting hs
    exact ⟨hg, by rw [ho]; omega, hr⟩

/-- A `recv` that stored something is the loop over what is there now. -/
theorem recvProcess_bytes {bs : List UInt8} (hbs : bs ≠ []) :
    t.recvProcess (.bytes bs) = parse ((t.store bs).vReceiveBuffer.getSize + 1) (t.store bs) :=
  if_neg fun hz => hbs (List.length_eq_zero_iff.mp hz.1)

/-- A call that is not the last leaves a task that can be called again, and all it handed on is
    short. -/
theorem recvProcess_ready (h : t.Ready) {r : RecvResult} (hf : Receiver.Fits t r) :
    (t.recvProcess r).exit ≠ .spin ∧
      (∀ k, (t.recvProcess r).exit = .ret k → k ≠ -1 → (t.recvProcess r).task.Ready) ∧
      ∀ m ∈ (t.recvProcess r).msgs, m.sendBody.length ≤ 32767 := by
  cases r with
  | error e => exact ⟨by simp [recvProcess], fun _ _ _ => h, by simp [recvProcess]⟩
  | bytes bs =>
    by_cases hbs : bs.length = 0 ∧ t.uMaxReceive ≠ 0
    · rw [recvProcess, if_pos hbs]
      exact ⟨by simp, fun _ _ _ => h, by simp⟩
    · rw [recvProcess, if_neg hbs]
      exact parse_inShape (store_inShape h.1 hf).1 (Nat.lt_succ_self _)

end CTcpTask

namespace Receiver

variable {s s' : Receiver} {t : CTcpTask}

theorem call_live (h : s.conn = .live t) (r : RecvResult) :
    s.call r = ⟨(t.recvProcess r).conn, s.msgs ++ (t.recvProcess r).msgs⟩ := by
  rw [call, h]

/-- The run invariant of a connection: a live task is ready, and what was handed on is short. -/
structure Sound (s : Receiver) : Prop where
  ready : ∀ t, s.conn = .live t → t.Ready
  short : ∀ m ∈ s.msgs, m.sendBody.length ≤ 32767

theorem fresh_sound (mem : Nat → UInt8) : (fresh mem).Sound :=
  ⟨fun t ht => by cases ht; exact CTcpTask.new_ready mem, by simp [fresh]⟩

/-- A call that leaves the task live returned, and not with -1. -/
theorem Call.conn_live {c : Call} (h : c.conn = .live t) :
    c.task = t ∧ ∃ k, c.exit = .ret k ∧ k ≠ -1 := by
  unfold Call.conn at h
  split at h
  · rename_i r hr
    split at h
    · cases h
    · cases h
      exact ⟨rfl, r, hr, by assumption⟩
  · cases h
  · cases h

theorem step_sound {r : RecvResult} (h : s.Sound) (hs : step s r s') : s'.Sound := by
  obtain ⟨t, ht, hf, rfl⟩ := hs
  obtain ⟨-, hready, hshort⟩ := CTcpTask.recvProcess_ready (h.ready t ht) hf
  rw [call_live ht]
  refine ⟨?_, ?_⟩
  · intro t' ht'
    obtain ⟨rfl, k, hk, hne⟩ := Call.conn_live ht'
    exact hready k hk hne
  · intro m hm
    rcases List.mem_append.mp hm with hm | hm
    · exact h.short m hm
    · exact hshort m hm

theorem steps_sound {rs : List RecvResult} (h : s.Sound) (hs : Steps step s rs s') : s'.Sound :=
  hs.invariant (fun _ _ _ hi ht => step_sound hi ht) h

/-! ## Bursts

A burst is read to its end before the next one comes, as epoll would have it. Two bursts that arrive
together are one burst. -/

/-- Calls until the queue is empty; the fuel is the number of calls allowed. -/
def drain : Nat → Receiver → List UInt8 → Receiver
  | 0, s, _ => s
  | n + 1, s, q =>
    match s.conn with
    | .live t =>
      if q = [] then s
      else drain n (s.call (.bytes (q.take t.uMaxReceive))) (q.drop t.uMaxReceive)
    | .closed | .lost => s

def arrive (s : Receiver) (q : List UInt8) : Receiver := drain q.length s q

def arriveAll (s : Receiver) (qs : List (List UInt8)) : Receiver := qs.foldl arrive s

theorem drain_nil (n : Nat) (s : Receiver) : drain n s [] = s := by
  cases n with
  | zero => rfl
  | succ n =>
    rw [drain]
    split
    · rfl
    · rfl
    · rfl

theorem drain_dead (n : Nat) (h : ∀ t, s.conn ≠ .live t) (q : List UInt8) : drain n s q = s := by
  cases n with
  | zero => rfl
  | succ n =>
    rw [drain]
    split
    · rename_i t ht
      exact absurd ht (h t)
    · rfl
    · rfl

/-- A burst no longer than what is asked for is one call. -/
theorem arrive_of_fits (h : s.conn = .live t) {q : List UInt8} (hq : q ≠ [])
    (hf : q.length ≤ t.uMaxReceive) : s.arrive q = s.call (.bytes q) := by
  cases q with
  | nil => exact absurd rfl hq
  | cons b q =>
    rw [arrive, List.length_cons, drain, h]
    simp only [if_neg hq]
    rw [List.take_of_length_le hf, List.drop_of_length_le hf, drain_nil]

/-- What a burst does is a run of calls, each of which received something. Its fuel suffices: what
    is not received is left in the socket of a connection that is gone. -/
theorem drain_steps {n : Nat} {q : List UInt8} (h : s.Sound) (hn : q.length ≤ n) :
    ∃ bss : List (List UInt8), Steps step s (bss.map .bytes) (drain n s q) ∧
      (∀ bs ∈ bss, bs ≠ []) ∧
      (bss.flatten = q ∨ (bss.flatten <+: q ∧ ∀ t, (drain n s q).conn ≠ .live t)) := by
  induction n generalizing s q with
  | zero =>
    have hq : q = [] := List.length_eq_zero_iff.mp (by omega)
    exact ⟨[], .nil s, by simp, .inl (by rw [hq]; rfl)⟩
  | succ n ih =>
    by_cases hq : q = []
    · subst hq
      rw [drain_nil]
      exact ⟨[], .nil s, by simp, .inl rfl⟩
    cases hc : s.conn with
    | live t =>
      have hpos : 0 < q.length := List.length_pos_iff.mpr hq
      have hroom : 0 < t.uMaxReceive := by
        obtain ⟨hsh, hsz⟩ := h.ready t hc
        rw [CTcpTask.uMaxReceive_of_inShape hsh]
        omega
      -- one `recv` takes what was asked for, and leaves the rest to the calls after it
      have hstep : step s (.bytes (q.take t.uMaxReceive))
          (s.call (.bytes (q.take t.uMaxReceive))) :=
        ⟨t, hc, List.length_take_le _ _, rfl⟩
      have hne : q.take t.uMaxReceive ≠ [] := by
        rw [← List.length_pos_iff, List.length_take]
        omega
      obtain ⟨bss, hrun, hall, hend⟩ := ih (step_sound h hstep) (q := q.drop t.uMaxReceive)
        (by rw [List.length_drop]; omega)
      have hd : drain (n + 1) s q =
          drain n (s.call (.bytes (q.take t.uMaxReceive))) (q.drop t.uMaxReceive) := by
        rw [drain, hc]
        exact if_neg hq
      rw [hd]
      refine ⟨q.take t.uMaxReceive :: bss, .cons hstep hrun, ?_, ?_⟩
      · intro bs hbs
        rcases List.mem_cons.mp hbs with rfl | hbs
        · exact hne
        · exact hall bs hbs
      · rw [List.flatten_cons]
        rcases hend with he | ⟨he, hdead⟩
        · exact .inl (by rw [he, List.take_append_drop])
        · refine .inr ⟨?_, hdead⟩
          conv_rhs => rw [← List.take_append_drop t.uMaxReceive q]
          exact (List.prefix_append_right_inj _).mpr he
    -- a connection that is gone receives nothing more, so that the rest stays in the socket
    | closed =>
      have hdead : ∀ t, s.conn ≠ .live t := fun t ht => by rw [hc] at ht; cases ht
      rw [drain_dead _ hdead]
      exact ⟨[], .nil s, by simp, .inr ⟨List.nil_prefix, hdead⟩⟩
    | lost =>
      have hdead : ∀ t, s.conn ≠ .live t := fun t ht => by rw [hc] at ht; cases ht
      rw [drain_dead _ hdead]
      exact ⟨[], .nil s, by simp, .inr ⟨List.nil_prefix, hdead⟩⟩

theorem arriveAll_dead (h : ∀ t, s.conn ≠ .live t) (qs : List (List UInt8)) :
    arriveAll s qs = s := by
  induction qs with
  | nil => rfl
  | cons q qs ih => rwa [arriveAll, List.foldl_cons, arrive, drain_dead _ h]

/-- Any number of bursts is a run of calls too, each of which received something. -/
theorem arriveAll_steps (qs : List (List UInt8)) (h : s.Sound) :
    ∃ bss : List (List UInt8), Steps step s (bss.map .bytes) (arriveAll s qs) ∧
      (∀ bs ∈ bss, bs ≠ []) ∧
      (bss.flatten = qs.flatten ∨
        (bss.flatten <+: qs.flatten ∧ ∀ t, (arriveAll s qs).conn ≠ .live t)) := by
  induction qs generalizing s with
  | nil => exact ⟨[], .nil s, by simp, .inl rfl⟩
  | cons q qs ih =>
    obtain ⟨bss, hrun, hall, hend⟩ := drain_steps h (Nat.le_refl q.length)
    rw [List.flatten_cons]
    rcases hend with he | ⟨he, hdead⟩
    · obtain ⟨css, hrun', hall', hend'⟩ := ih (steps_sound h hrun)
      refine ⟨bss ++ css, by rw [List.map_append]; exact hrun.append hrun', ?_, ?_⟩
      · intro bs hbs
        rcases List.mem_append.mp hbs with hbs | hbs
        · exact hall bs hbs
        · exact hall' bs hbs
      · rw [List.flatten_append, he]
        rcases hend' with he' | ⟨he', hdead'⟩
        · exact .inl (by rw [he'])
        · exact .inr ⟨(List.prefix_append_right_inj _).mpr he', hdead'⟩
    · -- The connection died inside this burst, so no later one is received at all.
      have hall' : arriveAll s (q :: qs) = drain q.length s q := arriveAll_dead hdead qs
      rw [hall']
      exact ⟨bss, hrun, hall, .inr ⟨he.trans (List.prefix_append _ _), hdead⟩⟩

end Receiver

end WebsocketTest
