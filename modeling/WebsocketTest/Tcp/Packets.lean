import WebsocketTest.Tcp.Connection

/-!
# What `ProcessOnePacket` is given

A length goes through four types between the wire and the copy: the prefix, the `int` total, the
`short` payload size and the `unsigned` cursor. This module follows it over whole runs.

A *pass* is the task at the top of the `while` loop; `Receiver.trace` lists every pass of a run.
`processing` is the task on which that pass calls `ProcessOnePacket`, if it does, and `PassSound`
what is wanted of it: the size is between zero and what is unread, `Jump` moves by just that, and
a prefix whose size could only be negative was refused.

* **`packets_sound`** — over any run, every pass is sound exactly when no prefix that is read is 1
  or above 32769. (Zero is refused, so it is not among them.)
* Its second half is about the copied bytes themselves. That they lie below `m_uOffset` does not
  make them received, because `recv` may have stored elsewhere; where each `recv` stores behind
  what is unread, they are a piece of what the peer sent.

The two halves have different conditions for that reason. How a prefix is measured depends on its
two bytes alone, wherever they come from, so the first half needs nothing of the run. Where bytes
come from depends on the cursor, and `AtEnd` is the condition that the source takes for granted.

The list of passes is not in the program. `passes` repeats the loop and keeps each task it starts
from, so that a statement about "every packet" is one about every element of a list.
-/

set_option autoImplicit false

namespace WebsocketTest

open Lib.Memory Lib.Integers Lib.Framing Lib.Run

namespace CTcpTask

variable {t : CTcpTask} {L : Nat}

/-! ## A pass

`nextPrefix` is what this pass reads from the buffer. A pass that goes on with a prefix from an
earlier call reads none, and its size was judged when the prefix was read. -/

/-- The task as `ProcessOnePacket` finds it, if this pass of the loop gets there. -/
def processing (t : CTcpTask) : Option CTcpTask :=
  match t.enterReadPacket with
  | .error _ => none
  | .ok u => if u.packetFinished then some u else none

def nextPrefix (t : CTcpTask) : Option Nat :=
  match t.state with
  | .readPacket => none
  | .readPacketLen =>
    if t.vReceiveBuffer.getSize < 2 then none
    else some (beNat (read t.vReceiveBuffer.buffer t.vReceiveBuffer.uGetOffset 2))

/-- The bytes `ProcessOnePacket` copies. -/
def copied (u : CTcpTask) : List UInt8 :=
  read u.vReceiveBuffer.buffer u.vReceiveBuffer.jumpBuffer u.iDataSize.toNat

/-- Prefixes whose payload size is a non-negative `short`, and zero, which is refused. -/
def Measurable (L : Nat) : Prop := L ≠ 1 ∧ L ≤ 32769

structure PassSound (t : CTcpTask) : Prop where
  sized : ∀ u, t.processing = some u →
    0 ≤ u.iDataSize ∧ u.iDataSize ≤ u.vReceiveBuffer.remainSize
  moved : ∀ u, t.processing = some u →
    ((u.vReceiveBuffer.jump (toU32 u.iDataSize)).uGetOffset : Int) =
      u.vReceiveBuffer.uGetOffset + u.iDataSize
  rejected : ∀ L : Nat, t.nextPrefix = some L → toS16 (L - 2) < 0 → ∃ t', t.turn = .ret (-1) t'

theorem processing_none (ha : t.announced = none) : t.processing = none := by
  rw [processing, enterReadPacket_none ha]

theorem processing_zero (h : t.InShape) (ha : t.announced = some 0) : t.processing = none := by
  obtain ⟨t', ht⟩ := enterReadPacket_zero h ha
  rw [processing, ht]

theorem processing_some (h : t.InShape) (ha : t.announced = some L) (hL : 0 < L) :
    t.processing = if L ≤ t.vReceiveBuffer.uOffset then some (t.armed L) else none := by
  rw [processing, enterReadPacket_some h ha hL]
  simp only [packetFinished_armed (announced_lt h ha), decide_eq_true_eq]

/-- Whoever gets to `ProcessOnePacket` has all of the frame it announced. -/
theorem processing_inv (h : t.InShape) {u : CTcpTask} (hu : t.processing = some u) :
    ∃ L, t.announced = some L ∧ 0 < L ∧ L ≤ t.vReceiveBuffer.uOffset ∧ u = t.armed L := by
  cases ha : t.announced with
  | none => rw [processing_none ha] at hu; cases hu
  | some L =>
    by_cases hL : L = 0
    · subst hL
      rw [processing_zero h ha] at hu
      cases hu
    rw [processing_some h ha (by omega)] at hu
    split at hu
    · exact ⟨L, rfl, by omega, by assumption, (Option.some.inj hu).symm⟩
    · cases hu

theorem nextPrefix_announced (h : t.InShape) (hp : t.nextPrefix = some L) :
    t.state = .readPacketLen ∧ t.announced = some L := by
  unfold nextPrefix at hp
  split at hp
  · cases hp
  · rename_i hs
    refine ⟨hs, ?_⟩
    rw [h.reading hs] at hp
    simp only [announced, hs]
    exact hp

theorem announced_nextPrefix (h : t.InShape) (hs : t.state = .readPacketLen)
    (ha : t.announced = some L) : t.nextPrefix = some L := by
  simp only [announced, hs] at ha
  simp only [nextPrefix, hs, h.reading hs]
  exact ha

/-- A measurable total makes its pass sound. -/
theorem passSound_of_measurable (h : t.InShape)
    (hm : ∀ L, t.announced = some L → Measurable L) : t.PassSound := by
  have hz : t.vReceiveBuffer.uOffset ≤ 65536 := h.size
  have size : ∀ L, t.announced = some L → 0 < L → L ≤ t.vReceiveBuffer.uOffset →
      (t.armed L).iDataSize = (L - 2 : Nat) ∧ 2 ≤ L := by
    intro L ha hL _
    obtain ⟨h₁, h₂⟩ := hm L ha
    exact ⟨toS16_total (by omega) h₂, by omega⟩
  refine ⟨?_, ?_, ?_⟩
  · intro u hu
    obtain ⟨L, ha, hL, hle, rfl⟩ := processing_inv h hu
    obtain ⟨hd, h₂⟩ := size L ha hL hle
    have hr : (t.armed L).vReceiveBuffer.remainSize = (t.vReceiveBuffer.uOffset : Int) - 2 :=
      CVBuffer.remainSize_of_le (show 2 ≤ t.vReceiveBuffer.uOffset by omega)
        (show t.vReceiveBuffer.uOffset < 2147483648 by omega)
    rw [hd, hr]
    omega
  · intro u hu
    obtain ⟨L, ha, hL, hle, rfl⟩ := processing_inv h hu
    obtain ⟨hd, h₂⟩ := size L ha hL hle
    have hj := CVBuffer.jump_of_le (b := (t.armed L).vReceiveBuffer) (n := L - 2)
      (show 2 + (L - 2) ≤ t.vReceiveBuffer.uOffset by omega)
      (show t.vReceiveBuffer.uOffset < 4294967296 by omega)
    rw [hd, toU32_natCast (by omega), hj]
    rfl
  · intro L hp hneg
    obtain ⟨-, ha⟩ := nextPrefix_announced h hp
    have hlt := announced_lt h ha
    obtain ⟨h₁, h₂⟩ := hm L ha
    have hL : L = 0 := by
      by_contra h₀
      rw [toS16_total (by omega) h₂] at hneg
      omega
    exact turn_zero h (hL ▸ ha)

/-- The prefix that a sound pass reads is measurable: any other would be processed or refused with
    the wrong size. -/
theorem PassSound.measurable (hs : t.PassSound) (h : t.InShape) (hp : t.nextPrefix = some L) :
    Measurable L := by
  obtain ⟨-, ha⟩ := nextPrefix_announced h hp
  have hlt := announced_lt h ha
  by_contra hbad
  have hL : 0 < L ∧ (L < 2 ∨ 32769 < L) := by
    unfold Measurable at hbad
    by_cases h₀ : L = 0
    · exact absurd ⟨by omega, by omega⟩ hbad
    · omega
  obtain ⟨t', ht⟩ := hs.rejected L hp (toS16_total_neg hlt hL.1 hL.2)
  rcases Nat.lt_or_ge t.vReceiveBuffer.uOffset L with hw | hw
  · rw [turn_wait h ha hL.1 hw] at ht
    cases ht
  · rw [turn_fault h ha hL.1 hw hL.2] at ht
    cases ht

/-! ## The passes of a call -/

def passes : Nat → CTcpTask → List CTcpTask
  | 0, _ => []
  | n + 1, t =>
    if t.vReceiveBuffer.getSize = 0 then []
    else t ::
      match t.turn with
      | .ret _ _ | .fault _ => []
      | .packet _ t' => passes n t'

def recvPasses (t : CTcpTask) : RecvResult → List CTcpTask
  | .error _ => []
  | .bytes bs =>
    if bs.length = 0 ∧ t.uMaxReceive ≠ 0 then []
    else passes ((t.store bs).vReceiveBuffer.getSize + 1) (t.store bs)

theorem passes_empty {n : Nat} (h : t.vReceiveBuffer.uOffset = 0) : passes (n + 1) t = [] :=
  if_pos h

theorem passes_ret {n : Nat} {r : Int} {t' : CTcpTask} (h : t.vReceiveBuffer.uOffset ≠ 0)
    (hr : t.turn = .ret r t') : passes (n + 1) t = [t] := by
  rw [passes, if_neg (show ¬ t.vReceiveBuffer.getSize = 0 from h), hr]

theorem passes_fault {n : Nat} {t' : CTcpTask} (h : t.vReceiveBuffer.uOffset ≠ 0)
    (hr : t.turn = .fault t') : passes (n + 1) t = [t] := by
  rw [passes, if_neg (show ¬ t.vReceiveBuffer.getSize = 0 from h), hr]

theorem passes_packet {n : Nat} {m : CSendMsg} {t' : CTcpTask}
    (h : t.vReceiveBuffer.uOffset ≠ 0) (hr : t.turn = .packet m t') :
    passes (n + 1) t = t :: passes n t' := by
  rw [passes, if_neg (show ¬ t.vReceiveBuffer.getSize = 0 from h), hr]

theorem mem_passes {n : Nat} (h : t.vReceiveBuffer.uOffset ≠ 0) : t ∈ passes (n + 1) t := by
  rw [passes, if_neg (show ¬ t.vReceiveBuffer.getSize = 0 from h)]
  exact List.mem_cons_self

/-- Every pass but the first is over what the pass before it left. -/
theorem passes_invariant {P : CTcpTask → Prop} (hP : ∀ u m L, P u → u.InShape →
      u.turn = .packet m (u.consumed L) → L ≤ u.vReceiveBuffer.uOffset → P (u.consumed L))
    {n : Nat} (h : t.InShape) (ht : P t) : ∀ u ∈ passes n t, P u ∧ u.InShape := by
  induction n generalizing t with
  | zero => simp [passes]
  | succ n ih =>
    by_cases hz : t.vReceiveBuffer.uOffset = 0
    · simp [passes_empty hz]
    rcases turn_cases h with ⟨t', hr, -⟩ | ⟨t', hr⟩ | ⟨t', hr⟩ | ⟨m, L, hr, -, hle, -⟩
    · simp [passes_ret hz hr, ht, h]
    · simp [passes_ret hz hr, ht, h]
    · simp [passes_fault hz hr, ht, h]
    · rw [passes_packet hz hr]
      intro u hu
      rcases List.mem_cons.mp hu with rfl | hu
      · exact ⟨ht, h⟩
      · exact ih (consumed_inShape h L) (hP t m L ht h hr hle) u hu

/-- A task that waits for a frame waits for a measurable one. -/
def Measured (t : CTcpTask) : Prop :=
  t.state = .readPacket → ∃ L : Nat, t.iTotalPackLen = L ∧ Measurable L

/-- The total a pass goes by is measurable if the one remembered is, or the one it reads. -/
theorem Measured.announced (hm : t.Measured) (h : t.InShape)
    (hp : ∀ L, t.nextPrefix = some L → Measurable L) (ha : t.announced = some L) :
    Measurable L := by
  cases hs : t.state with
  | readPacketLen => exact hp L (announced_nextPrefix h hs ha)
  | readPacket =>
    obtain ⟨L', hL', hm'⟩ := hm hs
    simp only [CTcpTask.announced, hs, hL', Option.some.injEq, Int.toNat_natCast] at ha
    exact ha ▸ hm'

/-- **A call whose prefixes are measurable** makes sound passes, and leaves a measured task. -/
theorem passes_sound {n : Nat} (h : t.InShape) (hm : t.Measured)
    (hp : ∀ u ∈ passes n t, ∀ L, u.nextPrefix = some L → Measurable L) :
    (∀ u ∈ passes n t, u.PassSound) ∧
      ∀ k, (parse n t).exit = .ret k → k ≠ -1 → (parse n t).task.Measured := by
  induction n generalizing t with
  | zero => simp [passes, parse]
  | succ n ih =>
    by_cases hz : t.vReceiveBuffer.uOffset = 0
    · rw [passes_empty hz, parse_empty hz]
      exact ⟨by simp, fun _ _ _ => hm⟩
    have hann : ∀ L, t.announced = some L → Measurable L := fun L ha =>
      hm.announced h (hp t (mem_passes hz)) ha
    have hsound := passSound_of_measurable h hann
    cases ha : t.announced with
    | none =>
      rw [passes_ret hz (turn_none ha), parse_ret hz (turn_none ha)]
      exact ⟨by simpa using hsound, fun _ _ _ => hm⟩
    | some L =>
      have hL := hann L ha
      by_cases h₀ : L = 0
      · obtain ⟨t', ht⟩ := turn_zero h (h₀ ▸ ha)
        rw [passes_ret hz ht, parse_ret hz ht]
        exact ⟨by simpa using hsound, fun k hk hne => absurd (Exit.ret.inj hk).symm hne⟩
      by_cases hw : L ≤ t.vReceiveBuffer.uOffset
      · obtain ⟨m, ht, -⟩ := turn_packet h ha hw (by have := hL.1; omega) hL.2
        rw [passes_packet hz ht] at hp ⊢
        rw [parse_packet hz ht]
        obtain ⟨hrest, htask⟩ := ih (consumed_inShape h L)
          (fun hs => absurd hs (by simp [consumed])) fun u hu => hp u (List.mem_cons_of_mem t hu)
        refine ⟨?_, htask⟩
        intro u hu
        rcases List.mem_cons.mp hu with rfl | hu
        · exact hsound
        · exact hrest u hu
      · have ht := turn_wait h ha (by omega) (Nat.not_le.mp hw)
        rw [passes_ret hz ht, parse_ret hz ht]
        exact ⟨by simpa using hsound, fun _ _ _ _ => ⟨L, rfl, hL⟩⟩

/-! ## Where the copied bytes come from

With the unread bytes in front of the cursor and the new ones behind them, the buffer holds an end
of the stream at each pass, and a copy out of it is a piece of the stream. -/

/-- Between two frames, what is copied is a piece of what the buffer holds. -/
theorem Holds.copied {bs : List UInt8} (h : t.Holds bs)
    (hm : ∀ L, t.announced = some L → Measurable L) {u : CTcpTask} (hu : t.processing = some u) :
    u.copied <:+: bs := by
  obtain ⟨L, ha, hL, hle, rfl⟩ := processing_inv h.shape hu
  obtain ⟨h₁, h₂⟩ := hm L ha
  have hd : (t.armed L).iDataSize = (L - 2 : Nat) := toS16_total (by omega) h₂
  have hbytes : (bs.drop 2).take (L - 2) = read t.vReceiveBuffer.buffer 2 (L - 2) := by
    rw [← h.bytes, drop_read _ (by omega), take_read _ (by omega), Nat.zero_add]
  have hc : (t.armed L).copied = (bs.drop 2).take (L - 2) := by
    rw [CTcpTask.copied, hd, Int.toNat_natCast, hbytes]
    by_cases he : L = 2
    · subst he
      rfl
    · have hj : (t.armed L).vReceiveBuffer.jumpBuffer = 2 := by
        simp only [CVBuffer.jumpBuffer, armed]
        exact if_pos (by omega)
      rw [hj]
      rfl
  rw [hc]
  exact (List.take_prefix _ _).isInfix.trans (List.drop_suffix _ _).isInfix

/-- Every pass of a call over `bs` holds an end of `bs`. -/
theorem passes_holds {bs : List UInt8} {n : Nat} (h : t.Holds bs) :
    ∀ u ∈ passes n t, ∃ bs', bs' <:+ bs ∧ u.Holds bs' := by
  intro u hu
  refine (passes_invariant (P := fun v => ∃ bs', bs' <:+ bs ∧ v.Holds bs') ?_ h.shape
    ⟨bs, List.suffix_rfl, h⟩ u hu).1
  rintro v m L ⟨bs', hs, hv⟩ - - hle
  exact ⟨bs'.drop L, (List.drop_suffix L bs').trans hs,
    hv.consumed (by rw [← hv.uOffset]; exact hle)⟩

end CTcpTask

/-! ## The passes of a run

The task that the next call starts from is measured if this call's prefixes were. That is what takes
the first half from one call to a run. -/

namespace Receiver

variable {s s' : Receiver}

def passes (s : Receiver) (r : RecvResult) : List CTcpTask :=
  match s.conn with
  | .live t => t.recvPasses r
  | .closed | .lost => []

def trace (s : Receiver) : List RecvResult → List CTcpTask
  | [] => []
  | r :: rs => s.passes r ++ (s.call r).trace rs

/-- Everything the peer sent in a run. -/
def received (rs : List RecvResult) : List UInt8 :=
  (rs.map fun r => match r with
    | .bytes bs => bs
    | .error _ => []).flatten

/-- Where the bytes of this call go is where the unread ones end. -/
def AtEnd (s : Receiver) (r : RecvResult) : Prop :=
  ∀ t bs, s.conn = .live t → r = .bytes bs → bs ≠ [] →
    t.vReceiveBuffer.jumpBuffer = t.vReceiveBuffer.uOffset

theorem passes_live {t : CTcpTask} (h : s.conn = .live t) (r : RecvResult) :
    s.passes r = t.recvPasses r := by
  rw [passes, h]

/-- The tasks of a call are in shape, whatever it received. -/
theorem recvPasses_inShape {t : CTcpTask} (h : t.Ready) {r : RecvResult} (hf : Fits t r) :
    ∀ u ∈ t.recvPasses r, u.InShape := by
  cases r with
  | error e => simp [CTcpTask.recvPasses]
  | bytes bs =>
    by_cases hc : bs.length = 0 ∧ t.uMaxReceive ≠ 0
    · rw [CTcpTask.recvPasses, if_pos hc]
      simp
    · rw [CTcpTask.recvPasses, if_neg hc]
      intro u hu
      exact (CTcpTask.passes_invariant (P := fun _ => True) (fun _ _ _ _ _ _ _ => trivial)
        (CTcpTask.store_inShape h.1 hf).1 trivial u hu).2

/-- The passes of one call, and what is left of the connection. -/
theorem recvPasses_sound {t : CTcpTask} (h : t.Ready) (hm : t.Measured) {r : RecvResult}
    (hf : Fits t r)
    (hp : ∀ u ∈ t.recvPasses r, ∀ L, u.nextPrefix = some L → CTcpTask.Measurable L) :
    (∀ u ∈ t.recvPasses r, u.PassSound) ∧
      ∀ u, (t.recvProcess r).conn = .live u → u.Measured := by
  have done : ∀ c : Call, (∀ k, c.exit = .ret k → k ≠ -1 → c.task.Measured) →
      ∀ u, c.conn = .live u → u.Measured := by
    intro c hc u hu
    obtain ⟨rfl, k, hk, hne⟩ := Call.conn_live hu
    exact hc k hk hne
  cases r with
  | error e => exact ⟨by simp [CTcpTask.recvPasses], done _ fun _ _ _ => hm⟩
  | bytes bs =>
    by_cases hc : bs.length = 0 ∧ t.uMaxReceive ≠ 0
    · rw [CTcpTask.recvPasses, if_pos hc, CTcpTask.recvProcess, if_pos hc]
      exact ⟨by simp, done _ fun _ _ _ => hm⟩
    · rw [CTcpTask.recvPasses, if_neg hc] at hp ⊢
      rw [CTcpTask.recvProcess, if_neg hc]
      obtain ⟨hs, ht⟩ := CTcpTask.passes_sound (CTcpTask.store_inShape h.1 hf).1
        (show (t.store bs).Measured from hm) hp
      exact ⟨hs, done _ ht⟩

/-- **Measurable prefixes make a run sound**, from any sound connection whose task is measured. -/
theorem trace_sound {rs : List RecvResult} (h : s.Sound)
    (hm : ∀ t, s.conn = .live t → t.Measured) (hrun : Steps step s rs s')
    (hp : ∀ u ∈ s.trace rs, ∀ L, u.nextPrefix = some L → CTcpTask.Measurable L) :
    ∀ u ∈ s.trace rs, u.PassSound := by
  induction hrun with
  | nil => simp [trace]
  | cons head _ ih =>
    obtain ⟨t, ht, hf, rfl⟩ := head
    rw [trace, passes_live ht] at hp ⊢
    obtain ⟨hs, hl⟩ := recvPasses_sound (h.ready t ht) (hm t ht) hf fun u hu =>
      hp u (List.mem_append_left _ hu)
    have htail := ih (step_sound h ⟨t, ht, hf, rfl⟩) (by rwa [call_live ht]) fun u hu =>
      hp u (List.mem_append_right _ hu)
    intro u hu
    rcases List.mem_append.mp hu with hu | hu
    · exact hs u hu
    · exact htail u hu

theorem trace_inShape {rs : List RecvResult} (h : s.Sound) (hrun : Steps step s rs s') :
    ∀ u ∈ s.trace rs, u.InShape := by
  induction hrun with
  | nil => simp [trace]
  | cons head _ ih =>
    obtain ⟨t, ht, hf, rfl⟩ := head
    rw [trace, passes_live ht]
    intro u hu
    rcases List.mem_append.mp hu with hu | hu
    · exact recvPasses_inShape (h.ready t ht) hf u hu
    · exact ih (step_sound h ⟨t, ht, hf, rfl⟩) u hu

/-- A `recv` behind what is unread is one into an empty buffer, so the call holds just its bytes. -/
theorem atEnd_holds {t : CTcpTask} {bs : List UInt8} (h : t.Ready) (hc : s.conn = .live t)
    (hbs : bs ≠ []) (hf : Fits t (.bytes bs)) (he : s.AtEnd (.bytes bs)) :
    (t.store bs).Holds bs := by
  have hj := he t bs hc rfl hbs
  have hs : t.state = .readPacketLen := by
    cases hs : t.state with
    | readPacketLen => rfl
    | readPacket =>
      obtain ⟨hg, h₂, -⟩ := h.1.waiting hs
      rw [CVBuffer.jumpBuffer, hg] at hj
      split at hj <;> omega
  have ho : t.vReceiveBuffer.uOffset = 0 := by
    rw [CVBuffer.jumpBuffer, h.1.reading hs, ite_self] at hj
    exact hj.symm
  have ht : t.Holds [] := ⟨h.1, hs, by rw [ho, read_zero]⟩
  refine ht.store ?_
  have hle : bs.length ≤ t.uMaxReceive := hf
  rw [CTcpTask.uMaxReceive_of_inShape h.1] at hle
  omega

/-- **Copied bytes are received bytes**, in a run that stores behind what is unread. -/
theorem trace_copied {rs : List RecvResult} (h : s.Sound)
    (hrun : Steps (guard AtEnd step) s rs s')
    (hp : ∀ u ∈ s.trace rs, ∀ L, u.nextPrefix = some L → CTcpTask.Measurable L) :
    ∀ t ∈ s.trace rs, ∀ u, t.processing = some u → u.copied <:+: received rs := by
  induction hrun with
  | nil => simp [trace]
  | @cons s _ _ r rs head _ ih =>
    obtain ⟨he, t, ht, hf, rfl⟩ := head
    rw [trace, passes_live ht] at hp ⊢
    have htail := ih (step_sound h ⟨t, ht, hf, rfl⟩) fun u hu => hp u (List.mem_append_right _ hu)
    intro v hv u hu
    rcases List.mem_append.mp hv with hv' | hv'
    · cases r with
      | error e => simp [CTcpTask.recvPasses] at hv'
      | bytes bs =>
        by_cases hbs : bs = []
        · -- Nothing received on a task with room is the end of the connection.
          obtain ⟨hsh, hsz⟩ := h.ready t ht
          have hroom := CTcpTask.uMaxReceive_of_inShape hsh
          rw [CTcpTask.recvPasses, if_pos ⟨by rw [hbs]; rfl, by omega⟩] at hv'
          cases hv'
        · have hh := atEnd_holds (h.ready t ht) ht hbs hf he
          have hpv := hp v (List.mem_append_left _ hv')
          rw [CTcpTask.recvPasses, if_neg fun hc => hbs (List.length_eq_zero_iff.mp hc.1)] at hv'
          obtain ⟨bs', hsuf, hvh⟩ := CTcpTask.passes_holds hh v hv'
          have hmv : ∀ L, v.announced = some L → CTcpTask.Measurable L := fun L ha =>
            hpv L (CTcpTask.announced_nextPrefix hvh.shape hvh.state ha)
          exact (hvh.copied hmv hu).trans
            (hsuf.isInfix.trans (List.prefix_append bs (received rs)).isInfix)
    · exact (htail v hv' u hu).trans (List.suffix_append _ (received rs)).isInfix

/-- **Packets over a run.** Every pass is sound exactly when every prefix read is measurable; and if
    besides each `recv` stores where the unread bytes end, what `ProcessOnePacket` copies is a
    piece of what the peer sent. -/
theorem packets_sound (mem : Nat → UInt8) {rs : List RecvResult} {s : Receiver}
    (hrun : Steps step (fresh mem) rs s) :
    ((∀ t ∈ (fresh mem).trace rs, t.PassSound) ↔
      ∀ t ∈ (fresh mem).trace rs, ∀ L, t.nextPrefix = some L → CTcpTask.Measurable L) ∧
    (Steps (guard AtEnd step) (fresh mem) rs s →
      (∀ t ∈ (fresh mem).trace rs, ∀ L, t.nextPrefix = some L → CTcpTask.Measurable L) →
      ∀ t ∈ (fresh mem).trace rs, ∀ u, t.processing = some u → u.copied <:+: received rs) := by
  have hfresh := fresh_sound mem
  refine ⟨⟨?_, ?_⟩, fun hend hp => trace_copied hfresh hend hp⟩
  · intro hs t ht L hL
    exact (hs t ht).measurable (trace_inShape hfresh hrun t ht) hL
  · intro hp
    refine trace_sound hfresh ?_ hrun hp
    intro t ht hw
    cases ht
    exact absurd hw (by simp [CTcpTask.new])

/-- The frame `00 03 41`, received at once. -/
theorem packets_sound_one_frame :
    (∀ t ∈ (fresh fun _ => 0).trace [.bytes [0x00, 0x03, 0x41]], t.PassSound) ↔
      ∀ t ∈ (fresh fun _ => 0).trace [.bytes [0x00, 0x03, 0x41]],
        ∀ L, t.nextPrefix = some L → CTcpTask.Measurable L := by
  have hf : Fits (CTcpTask.new fun _ => 0) (.bytes [0x00, 0x03, 0x41]) :=
    show 3 ≤ (CTcpTask.new fun _ => 0).uMaxReceive by decide
  exact (packets_sound (fun _ => 0) (.single ⟨_, rfl, hf, rfl⟩)).1

/-- A total of 1, `00 01` on the wire, reaches `ProcessOnePacket` with a size of -1. -/
theorem prefix_one_processed :
    (∃ s, Steps step (fresh fun _ => 0) [.bytes [0x00, 0x01]] s) ∧
    ∃ t ∈ (fresh fun _ => 0).trace [.bytes [0x00, 0x01]], ∃ u, t.processing = some u ∧
      u.iDataSize = -1 := by
  have hf : Fits (CTcpTask.new fun _ => 0) (.bytes [0x00, 0x01]) :=
    show 2 ≤ (CTcpTask.new fun _ => 0).uMaxReceive by decide
  have hh := (CTcpTask.new_holds fun _ => 0).store
    (show ([0x00, 0x01] : List UInt8).length ≤ 65536 by decide)
  refine ⟨⟨_, .single ⟨_, rfl, hf, rfl⟩⟩,
    (CTcpTask.new fun _ => 0).store [0x00, 0x01], List.mem_append_left _ ?_,
    ((CTcpTask.new fun _ => 0).store [0x00, 0x01]).armed 1, ?_, rfl⟩
  · rw [passes_live rfl, CTcpTask.recvPasses, if_neg (by simp)]
    exact CTcpTask.mem_passes (by rw [hh.uOffset]; decide)
  · rw [CTcpTask.processing_some hh.shape (hh.announced (by decide)) (by decide)]
    exact if_pos (by rw [hh.uOffset]; decide)

end Receiver

end WebsocketTest
