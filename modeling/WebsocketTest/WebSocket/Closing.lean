import WebsocketTest.WebSocket.Network

/-!
# The closing handshake

Where both applications close with texts, a close frame is never taken for a broken one. Then each
of them sends one at most, and one that arrives is recorded as it was sent, and answered.

**`closing_handshake`** — at any time in any such run, for both directions (`Handshake`).

## Why the reasons are texts

`close` does not check that its reason is UTF-8, and neither does `prepare_close`. A reason that is
not is sent, arrives, and cannot be extracted there; then the connection that got it sends a close
frame of its own behind whatever it has sent (`Connection.Broken`), and with it the handshake is no
longer one frame from each end. So the condition on the applications is that their reasons are texts
(`Outgoing.Proper`); what a connection closes with by itself are texts of the library.

That a frame is answered is said in a weak form: the end that got one has asked for one too, or is
being shut down. Whether the answer is written is up to the transport, and which of the two came
first is not recorded, since both may close at once.
-/

set_option autoImplicit false

namespace WebsocketTest.WebSocket

open Lib.Run Lib.Utf8

namespace Outgoing

/-- What can be sent, where a close frame has a text for its reason. -/
def Proper (o : Outgoing) : Prop :=
  o.Sendable ∧ ∀ code reason, o = .close code reason → ∃ cs, reason = encode cs

end Outgoing

theorem sends_proper : Connection.Sends Outgoing.Proper := by
  refine ⟨⟨fun _ => ⟨trivial, nofun⟩, fun code cs => ⟨trivial, ?_⟩⟩, fun _ h => h.1⟩
  intro code' reason h
  cases h
  exact ⟨cs, rfl⟩

/-! ## One end -/

/-- What a server may close with a client may close with, and the other way round, so that the
    answer to a close frame that was prepared at one end can be prepared at the other. -/
theorem prepareClose_any {server : Bool} {key : UInt32} {code : UInt16} {reason : List UInt8}
    {m : Prepared} (server' : Bool) (key' : UInt32)
    (h : prepareClose server key code reason = .ok m) :
    ∃ m', prepareClose server' key' code reason = .ok m' := by
  unfold prepareClose prepareControl at h ⊢
  split at h
  · cases h
  · next h₁ =>
    rw [if_neg h₁]
    split at h
    · cases h
    · next h₂ =>
      rw [if_neg h₂]
      split at h
      · cases h
      · next h₃ =>
        rw [if_neg h₃]
        split at h
        · cases h
        · next h₄ =>
          rw [if_neg h₄]
          split at h
          · cases h
          · next h₅ =>
            rw [if_neg h₅]
            split at h
            · cases h
            · next h₆ => exact ⟨_, if_neg h₆⟩

/-- A close frame that was sent, as it arrives: its code and its reason are extracted without an
    error, and could be closed with here. -/
structure Sent (m : Message) (code : UInt16) (reason : List UInt8) : Prop where
  opcode : m.opcode = .close
  extractCode : Close.extractCode m.payload = (code, none)
  extractReason : Close.extractReason m.payload = (reason, none)
  prepared : ∃ server key m', prepareClose server key code reason = .ok m'

namespace Connection

variable {ok : Outgoing → Prop} {c c' w r : Connection} {m : Message} {code : UInt16}
  {reason : List UInt8}

theorem sendCloseFrame_state {ack terminal : Bool} {code' : UInt16} {reason' : List UInt8}
    {m' : Prepared} (hwith : c.closeWith code reason ack = (code', reason'))
    (h : prepareClose c.isServer (c.keys 0) code' reason' = .ok m') :
    (c.sendCloseFrame code reason ack terminal).2.state = .closing := by
  unfold sendCloseFrame
  rw [hwith]
  dsimp only
  rw [h]
  rfl

/-- **A close frame is answered**: the connection is not open behind it. It was closing already, or
    has sent its own close frame, or could not and is being shut down. -/
theorem processControlFrame_close (h : Sent m code reason) (pong : Bool) :
    (c.processControlFrame m pong).state ≠ .opened := by
  unfold processControlFrame
  rw [h.opcode]
  dsimp only
  rw [h.extractCode]
  dsimp only
  rw [if_neg (by simp), h.extractReason]
  dsimp only
  rw [if_neg (by simp)]
  cases hs : c.state with
  | opened =>
    dsimp only
    have hclosing : ∀ c₁ : Connection, c₁.remoteCloseCode = code → c₁.remoteCloseReason = reason →
        c₁.sendCloseAck.2.state = .closing := by
      rintro c₁ hcode hreason
      obtain ⟨server, key, m', hprepare⟩ := h.prepared
      by_cases hno : code = Close.noStatus
      · have hnormal : prepareClose c₁.isServer (c₁.keys 0) Close.normal [] =
            .ok (prepare c₁.isServer (c₁.keys 0) .close true (Close.payload Close.normal [])) := rfl
        refine sendCloseFrame_state ?_ hnormal
        rw [closeWith, if_neg (by decide), if_neg (by decide), if_pos (by rw [hcode, hno])]
      · obtain ⟨m'', hm''⟩ := prepareClose_any c₁.isServer (c₁.keys 0) hprepare
        refine sendCloseFrame_state ?_ hm''
        rw [closeWith, if_neg (by decide), if_neg (by decide), if_neg (by rw [hcode]; exact hno),
          hcode, hreason]
    rw [hclosing _ rfl rfl]
    simp
  | closing =>
    dsimp only
    split
    · rw [(terminate_eq _).2.2.2.2.1]
      simp
    · simp
  | connecting =>
    dsimp only
    simp
  | closed =>
    dsimp only
    simp

/-- A connection is not opened again, by any move. -/
theorem Move.not_opened (h : Move ok c c') (hs : c.state ≠ .opened) : c'.state ≠ .opened := by
  cases h with
  | quiet hq => rwa [hq.state]
  | push hstate => exact absurd hstate hs
  | close _ _ _ => nofun
  | terminate _ => nofun
  | write _ _ => exact hs
  | @last failed w e hstep hlast =>
    obtain ⟨ec, hec⟩ := handleWriteEnd_last { c with writer := w } hlast
    rw [hec, (terminate_eq ec).2.2.2.2.1]
    nofun
  | shutdown _ => exact hs

theorem Moves.not_opened (h : Moves ok c c') (hs : c.state ≠ .opened) : c'.state ≠ .opened :=
  h.invariant (P := fun d => d.state ≠ .opened) (fun _ _ hd hmove => hmove.not_opened hd) hs

theorem Move.asked_ok (h : Move ok c c') (hc : ∀ o ∈ c.asked, ok o) : ∀ o ∈ c'.asked, ok o := by
  have hadd : ∀ {o}, ok o → ∀ o' ∈ c.asked ++ [o], ok o' := by
    intro o ho o' ho'
    rcases List.mem_append.mp ho' with hmem | hmem
    · exact hc o' hmem
    · rw [List.mem_singleton.mp hmem]
      exact ho
  cases h with
  | quiet hq => rwa [hq.asked]
  | push _ hok _ _ => exact hadd hok
  | close _ hok _ => exact hadd hok
  | terminate _ => exact hc
  | write _ _ => exact hc
  | @last failed w e hstep hlast =>
    obtain ⟨ec, hec⟩ := handleWriteEnd_last { c with writer := w } hlast
    rw [hec, (terminate_eq ec).2.1]
    exact hc
  | shutdown _ => exact hc

/-- What holds of a connection that closes with texts. -/
structure CloseGood (c : Connection) : Prop where
  close : ∃ os cs, c.CloseInv os cs
  proper : ∀ o ∈ c.asked, o.Proper
  remote : (c.remoteCloseCode, c.remoteCloseReason) =
    c.received.foldl record (Close.abnormalClose, [])
  answered : ∀ m ∈ c.received, m.opcode = .close → c.state ≠ .opened

theorem closeGood_opened (isServer : Bool) (keys : Nat → UInt32) :
    (opened isServer keys).CloseGood :=
  ⟨⟨[], [], rfl, nofun, nofun, nofun, by simp [opened], fun _ => by simp [opened]⟩, nofun, rfl,
    nofun⟩

theorem CloseGood.step {e : Event} (h : c.CloseGood) (hstep : c.step e = some c')
    (he : e.Ok Outgoing.Proper)
    (hsent : ∀ m ∈ c'.received, m.opcode = .close → ∃ code reason, Sent m code reason) :
    c'.CloseGood := by
  obtain ⟨p, rd, msg, hreads, hmoves⟩ := step_cases hstep he sends_proper.toAllows
  have hsame := hmoves.sameReader
  have hclose : ∃ os cs, (c.readTo p rd msg).CloseInv os cs := by
    obtain ⟨os, cs, hc⟩ := h.close
    refine ⟨os, cs, hc.asked, hc.before, hc.closes, hc.again, hc.opened, fun hb => hc.once ?_⟩
    rintro ⟨m, hm, hbroken⟩
    exact hb ⟨m, List.mem_append_left _ hm, hbroken⟩
  refine ⟨?_, ?_, ?_, ?_⟩
  · exact hmoves.invariant (P := fun d => ∃ os cs, d.CloseInv os cs)
      (fun _ _ ⟨_, _, hc⟩ hmove => hc.move hmove) hclose
  · exact hmoves.invariant (P := fun d => ∀ o ∈ d.asked, o.Proper)
      (fun _ _ hd hmove => hmove.asked_ok hd) h.proper
  · rw [hsame.remoteCloseCode, hsame.remoteCloseReason, hsame.received]
    show c.remote msg = (c.received ++ msg.toList).foldl record _
    rw [List.foldl_append, ← h.remote]
    rfl
  · intro m hm hop
    have hold : m ∈ c.received → c'.state ≠ .opened :=
      fun hmem => hmoves.not_opened (h.answered m hmem hop)
    have hm' := hm
    rw [hsame.received] at hm'
    rcases List.mem_append.mp hm' with hmem | hmem
    · exact hold hmem
    · obtain ⟨code, reason, hframe⟩ := hsent m hm hop
      cases hreads with
      | @message buf rest calls pong p hbuf hne hconsume hready =>
        have hmsg : p.getMessage.1 = some m := Option.mem_toList.mp hmem
        have hround : c.step (.round calls pong) = some (c.round buf calls pong) := by
          rw [Connection.step, hbuf]
          cases buf with
          | nil => exact absurd rfl hne
          | cons b bs => rfl
        obtain rfl : c.round buf calls pong = c' := Option.some.inj (hround.symm.trans hstep)
        rw [round, hconsume]
        dsimp only
        rw [if_pos hready, hmsg]
        dsimp only [dispatch]
        rw [if_pos (by rw [hop]; rfl)]
        exact processControlFrame_close hframe pong
      | _ => cases hmem

/-! ## Both directions

The close frames that one end has recorded are compared with those that the other has asked for. As
what was received is a beginning of what was sent, a close frame among the former is one of the
latter, and as there is one at most it is the last thing in both. -/

/-- A close frame that arrives was sent. -/
theorem sent_of_received (hbegins : r.received <+: w.asked.map Outgoing.message)
    (hsent : w.SentInv) (hproper : ∀ o ∈ w.asked, o.Proper) (hm : m ∈ r.received)
    (hop : m.opcode = .close) :
    ∃ code reason, .close code reason ∈ w.asked ∧ Sent m code reason := by
  obtain ⟨o, ho, rfl⟩ := List.mem_map.mp (hbegins.subset hm)
  obtain ⟨ms, hms, -⟩ := hsent
  obtain ⟨hs, key, m', hprepare⟩ := hms.mem ho
  cases o with
  | data op payload =>
    have hop' : op = .close := hop
    rcases hs.1 with h | h
    · rw [h] at hop'
      cases hop'
    · rw [h] at hop'
      cases hop'
  | ping payload => cases hop
  | pong payload => cases hop
  | close code reason =>
    obtain ⟨hcode, hreason⟩ := hms.close ho
    have htext : validate reason = true := validate_iff.mpr ((hproper _ ho).2 code reason rfl)
    refine ⟨code, reason, ho, hop, hcode, Prod.ext hreason ?_, w.isServer, key, m', hprepare⟩
    show (if validate (Close.extractReason (Close.payload code reason)).1 then none
      else some ErrorValue.invalidUtf8) = none
    rw [hreason, if_pos htext]

/-- Of the messages that came only the close frames are recorded. -/
theorem foldl_record (ms : List Message) (r : UInt16 × List UInt8) :
    ms.foldl record r = (ms.filter fun m => m.opcode = .close).foldl record r := by
  rw [List.foldl_filter]
  congr 1
  funext r m
  by_cases h : m.opcode = .close <;> simp [record, h]

theorem eq_singleton {α : Type} {l : List α} {a : α} (hle : l.length ≤ 1) (ha : a ∈ l) :
    l = [a] := by
  cases l with
  | nil => cases ha
  | cons b l =>
    have hl : l = [] := by
      rw [List.length_cons] at hle
      exact List.eq_nil_of_length_eq_zero (by omega)
    subst hl
    rw [List.mem_singleton.mp ha]

/-- What one end has to do with the close frames of the other: `w` writes, and `r` has read
    `seen`. -/
structure Handshake (w r : Connection) (seen : List UInt8) : Prop where
  once : (w.asked.filter Outgoing.isClose).length ≤ 1 ∧ w.shutdowns.length + w.finished.length ≤ 1
  agrees : ∀ m ∈ r.received, m.opcode = .close → ∃ code reason,
    w.asked.filter Outgoing.isClose = [.close code reason] ∧
      r.remoteCloseCode = code ∧ r.remoteCloseReason = reason
  answers : ∀ m ∈ r.received, m.opcode = .close →
    r.asked.filter Outgoing.isClose ≠ [] ∨ r.shutdowns ≠ [] ∨ r.finished ≠ []
  before : ∀ os o os', w.asked = os ++ o :: os' → o.isClose = true →
    (∃ m ∈ r.received, m.opcode = .close) →
    os.map Outgoing.message ++ [o.message] <+: r.received
  arrives : r.reading = .asked → seen = w.wire → w.writer.sendQueue = [] →
    w.asked.filter Outgoing.isClose ≠ [] → ∃ m ∈ r.received, m.opcode = .close

theorem CloseInv.filter {os cs : List Outgoing} (h : c.CloseInv os cs) :
    c.asked.filter Outgoing.isClose = cs := by
  rw [h.asked, List.filter_append, List.filter_eq_nil_iff.mpr (fun o ho => by simp [h.before o ho]),
    List.filter_eq_self.mpr h.closes, List.nil_append]

theorem message_opcode_close {o : Outgoing} (hs : o.Sendable) :
    o.message.opcode = .close ↔ o.isClose = true := by
  cases o with
  | data op payload =>
    have hne : op ≠ .close := by rcases hs.1 with h | h <;> rw [h] <;> nofun
    exact ⟨fun h => absurd h hne, nofun⟩
  | ping payload => exact ⟨nofun, nofun⟩
  | pong payload => exact ⟨nofun, nofun⟩
  | close code reason => exact ⟨fun _ => rfl, fun _ => rfl⟩

/-- Where one close frame was sent and a close frame was read, all in front of it was read, since
    what was read is a beginning of what was sent. -/
theorem before_close (hbegins : r.received <+: w.asked.map Outgoing.message)
    (hproper : ∀ o ∈ w.asked, o.Proper) (hone : (w.asked.filter Outgoing.isClose).length ≤ 1)
    {os os' : List Outgoing} {o : Outgoing} (hasked : w.asked = os ++ o :: os')
    (ho : o.isClose = true) (hclose : ∃ m ∈ r.received, m.opcode = .close) :
    os.map Outgoing.message ++ [o.message] <+: r.received := by
  obtain ⟨m, hm, hop⟩ := hclose
  have hnone : ∀ o' ∈ os, o'.isClose = false := by
    intro o' ho'
    by_contra hc
    rw [Bool.not_eq_false] at hc
    have hpos : 0 < (os.filter Outgoing.isClose).length :=
      List.length_pos_iff.mpr (List.ne_nil_of_mem (List.mem_filter.mpr ⟨ho', hc⟩))
    rw [hasked, List.filter_append, List.filter_cons_of_pos ho, List.length_append,
      List.length_cons] at hone
    omega
  have hwhole : os.map Outgoing.message ++ [o.message] <+: w.asked.map Outgoing.message := by
    rw [hasked, List.map_append, List.map_cons]
    exact ⟨os'.map Outgoing.message, by simp⟩
  rcases List.prefix_or_prefix_of_prefix hwhole hbegins with h | h
  · exact h
  rcases (List.prefix_concat_iff.mp h) with h | h
  · rw [h]
  -- Otherwise the close frame that was read is one of those in front.
  exfalso
  obtain ⟨o', ho', rfl⟩ := List.mem_map.mp (h.subset hm)
  have hmem : o' ∈ w.asked := by
    rw [hasked]
    exact List.mem_append_left _ ho'
  have hc := (message_opcode_close (hproper o' hmem).1).mp hop
  rw [hnone o' ho'] at hc
  cases hc

theorem handshake {seen : List UInt8} (hw : w.CloseGood) (hr : r.CloseGood) (hsent : w.SentInv)
    (hbegins : r.received <+: w.asked.map Outgoing.message)
    (hbroken : ¬ w.Broken)
    (hall : r.reading = .asked → seen = w.wire → w.writer.sendQueue = [] →
      r.received = w.asked.map Outgoing.message) : Handshake w r seen := by
  obtain ⟨os, cs, hc⟩ := hw.close
  obtain ⟨hle, hshut, -⟩ := hc.once hbroken
  -- a message is a close frame exactly if it was sent as one
  have hmap : (w.asked.map Outgoing.message).filter (fun m => m.opcode = .close) =
      (w.asked.filter Outgoing.isClose).map Outgoing.message := by
    rw [List.filter_map]
    congr 1
    refine List.filter_congr fun o ho => ?_
    have := message_opcode_close (hw.proper o ho).1
    simp only [Function.comp_apply]
    cases hclose : o.isClose <;> simp [hclose, this]
  refine ⟨⟨by rw [hc.filter]; exact hle, hshut⟩, ?_, ?_, ?_, ?_⟩
  · intro m hm hop
    obtain ⟨code, reason, hmem, hs⟩ := sent_of_received hbegins hsent hw.proper hm hop
    -- the one that was sent is the one that came, since neither end has two
    have hone : w.asked.filter Outgoing.isClose = [.close code reason] := by
      have hin : Outgoing.close code reason ∈ cs := by
        rw [← hc.filter]
        exact List.mem_filter.mpr ⟨hmem, rfl⟩
      rw [hc.filter]
      exact eq_singleton hle hin
    have hclosed : (r.received.filter fun m => m.opcode = .close) = [m] := by
      have hsub := hbegins.filter (fun m => m.opcode = .close)
      rw [hmap, hone] at hsub
      have hin : m ∈ r.received.filter fun m => m.opcode = .close :=
        List.mem_filter.mpr ⟨hm, by simp [hop]⟩
      exact eq_singleton hsub.length_le hin
    have hrecord := hr.remote
    rw [foldl_record, hclosed] at hrecord
    simp only [List.foldl_cons, List.foldl_nil, record, hop, if_true, hs.extractCode,
      hs.extractReason] at hrecord
    obtain ⟨hcode, hreason⟩ := Prod.mk.inj hrecord
    exact ⟨code, reason, hone, hcode, by simpa using hreason⟩
  · intro m hm hop
    obtain ⟨os', cs', hc'⟩ := hr.close
    have hstate := hr.answered m hm hop
    rw [hc'.filter]
    by_contra hnot
    simp only [not_or, not_not] at hnot
    exact hstate (hc'.opened.mpr ⟨hnot.1, hnot.2.1, hnot.2.2⟩)
  · intro os o os' hasked ho
    exact before_close hbegins hw.proper (by rw [hc.filter]; exact hle) hasked ho
  · intro hasked hseen hq hne
    obtain ⟨o, ho⟩ := List.exists_mem_of_ne_nil _ hne
    obtain ⟨hmem, hclose⟩ := List.mem_filter.mp ho
    refine ⟨o.message, ?_, (message_opcode_close (hw.proper o hmem).1).mpr hclose⟩
    rw [hall hasked hseen hq]
    exact List.mem_map_of_mem hmem

theorem not_broken (h : ∀ m ∈ c.received, m.opcode = .close → ∃ code reason, Sent m code reason) :
    ¬ c.Broken := by
  rintro ⟨m, hm, hop, hbroken⟩
  obtain ⟨code, reason, hs⟩ := h m hm hop
  rw [hs.extractCode, hs.extractReason] at hbroken
  simp at hbroken

end Connection

namespace Network

open Connection

/-- Both of them close with texts: what holds of one such end holds of each. -/
structure CloseInv (n : Network) : Prop where
  inv : n.Inv
  server : n.server.CloseGood
  client : n.client.CloseGood

variable {n n' : Network}

theorem sent_toServer (h : n.Inv) (hclient : ∀ o ∈ n.client.asked, o.Proper) :
    ∀ m ∈ n.server.received, m.opcode = .close → ∃ code reason, Sent m code reason := by
  intro m hm hop
  obtain ⟨code, reason, -, hs⟩ := sent_of_received h.links.1.1 h.client.sent hclient hm hop
  exact ⟨code, reason, hs⟩

theorem sent_toClient (h : n.Inv) (hserver : ∀ o ∈ n.server.asked, o.Proper) :
    ∀ m ∈ n.client.received, m.opcode = .close → ∃ code reason, Sent m code reason := by
  intro m hm hop
  obtain ⟨code, reason, -, hs⟩ := sent_of_received h.links.2.1 h.server.sent hserver hm hop
  exact ⟨code, reason, hs⟩

theorem CloseInv.step {l : Side × Event} (h : n.CloseInv) (hstep : Step Outgoing.Proper n l n') :
    n'.CloseInv := by
  have hinv := h.inv.step sends_proper hstep
  cases hstep with
  | server hs he _ =>
    exact ⟨hinv, h.server.step hs he (sent_toServer hinv h.client.proper), h.client⟩
  | client hs he _ =>
    exact ⟨hinv, h.server, h.client.step hs he (sent_toClient hinv h.server.proper)⟩

end Network

end WebsocketTest.WebSocket
