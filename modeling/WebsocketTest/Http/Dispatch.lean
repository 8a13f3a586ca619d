import WebsocketTest.Http.Client
import WebsocketTest.Zoo.Address

/-!
# The dispatcher's answer (`GetUdpServerAddr` in `common.cpp`)

A worker that has a result for a peer asks the dispatcher where the peer is. The answer is a JSON
text with an `errno`, and an `ip`, a `port` and a `type` that go to the caller's variables; the
caller has not initialised them.

The JSON library is not part of the repository: a `JsonReader` is a partial function from texts to
values, and what `operator[]` and `asString()` make of a member, which may throw.

The type goes to `iUpSrvType`, which is passed by value, and `iSelfType` is set nowhere.
**`determined_iff`** — so an answer determines what the caller gets exactly if it is not accepted.
Of an accepted one it determines the address and the port, and the port is the one in the answer if
that is one.

To determine is to leave the same in the caller's variables whatever they held before and whatever
was passed for `iUpSrvType`. An answer that is refused leaves them alone, and the caller looks at
none of them then (`forward`). Only an accepted one is used, and that is the case which fails.

A member that is absent or of another type is the library's matter. `asString()` throws on some and
gives an empty string for others, and the result is stated for a reader that may do either.
-/

set_option autoImplicit false

namespace WebsocketTest

open Lib.Text

universe u

/-- `Json::Reader::parse`, and `value[key].asString()`, which is `none` where it throws. -/
structure JsonReader where
  Value : Type u
  parse : Str → Option Value
  asString : Value → Str → Option Str

/-- The variables the last three arguments refer to. -/
structure AddrOut where
  iSelfType : UInt16
  sAddr : Str
  iPort : UInt16
  deriving DecidableEq

/-- What a call returns, `none` if it throws, and what it leaves in the variables. -/
structure AddrDone where
  ret : Option Int
  out : AddrOut
  deriving DecidableEq

/-- What `GetUdpServerAddr` does with an answer that was parsed. The type goes to `iUpSrvType`, a
    parameter of its own, which nothing reads any more. -/
def readAnswer (json : JsonReader.{u}) (jRspData : json.Value) (out : AddrOut) : AddrDone :=
  match json.asString jRspData "errno".toList with
  | none => ⟨none, out⟩
  | some sErrCode =>
    if sErrCode ≠ "200".toList then ⟨some (-1), out⟩
    else
      match json.asString jRspData "ip".toList with
      | none => ⟨none, out⟩
      | some ip =>
        let out := { out with sAddr := ip }
        match json.asString jRspData "port".toList with
        | none => ⟨none, out⟩
        | some port =>
          let out := { out with iPort := UInt16.ofInt (atoi (cString port)) }
          match json.asString jRspData "type".toList with
          | none => ⟨none, out⟩
          | some _ => ⟨some 0, out⟩

/-- `GetUdpServerAddr`, where `rsp` is what `CHttpClient::Get` came to. The value of `iUpSrvType` is
    not used. -/
def getUdpServerAddr (json : JsonReader.{u}) (rsp : HttpDone) (_iUpSrvType : UInt16)
    (out : AddrOut) : AddrDone :=
  if rsp.ret ≠ 0 then ⟨some (-1), out⟩
  else
    match json.parse (cString rsp.strResponse) with
    | none => ⟨some (-1), out⟩
    | some jRspData => readAnswer json jRspData out

/-- What is passed to `SendToUdpServer`, by the caller that asked. -/
structure UdpRequest where
  uiCmd : Nat
  msgBody : Str
  iSrvType : UInt16
  sAddr : Str
  iPort : UInt16

/-- The end of `CWorkThread::Process`, with what its three variables hold before they are set; the
    address it asks is an empty string. -/
def CWorkThread.forward (curl : LibCurl) (mDebug : Bool) (json : JsonReader.{u}) (uiCmd : Nat)
    (strResult : Str) (iPort iSrvType iSelfType : UInt16) : Option Int × Option UdpRequest :=
  if strResult = [] then (some 0, none)
  else
    let done := getUdpServerAddr json (CHttpClient.get curl mDebug [] []) iSrvType
      ⟨iSelfType, [], iPort⟩
    match done.ret with
    | none => (none, none)
    | some iRet =>
      if iRet ≠ 0 then (some (-1), none)
      else (some 0, some ⟨uiCmd, strResult, done.out.iSelfType, done.out.sAddr, done.out.iPort⟩)

/-! ## What an answer is for -/

/-- The answer alone determines what the caller has after the call. -/
structure Determined (json : JsonReader.{u}) (rsp : HttpDone) : Prop where
  accepted : ∀ iUpSrvType out, (getUdpServerAddr json rsp iUpSrvType out).ret = some 0 →
    ∃ jRspData port n, json.parse (cString rsp.strResponse) = some jRspData ∧
      json.asString jRspData "errno".toList = some "200".toList ∧
      json.asString jRspData "port".toList = some port ∧ IsPort port n ∧
      (getUdpServerAddr json rsp iUpSrvType out).out.iPort = UInt16.ofNat n
  same : ∀ iUpSrvType out iUpSrvType' out',
    (getUdpServerAddr json rsp iUpSrvType out).ret = some 0 →
    (getUdpServerAddr json rsp iUpSrvType' out').out =
      (getUdpServerAddr json rsp iUpSrvType out).out
  refused : ∀ iUpSrvType out, (getUdpServerAddr json rsp iUpSrvType out).ret = some (-1) →
    (getUdpServerAddr json rsp iUpSrvType out).out = out

/-- The request succeeded, the text is JSON, its `errno` is 200, and the other three members can be
    read as strings: the first two are `ip` and `port`. -/
def Accepts (json : JsonReader.{u}) (rsp : HttpDone) (ip port : Str) : Prop :=
  rsp.ret = 0 ∧ ∃ jRspData type, json.parse (cString rsp.strResponse) = some jRspData ∧
    json.asString jRspData "errno".toList = some "200".toList ∧
    json.asString jRspData "ip".toList = some ip ∧
    json.asString jRspData "port".toList = some port ∧
    json.asString jRspData "type".toList = some type

variable {json : JsonReader.{u}} {rsp : HttpDone} {ip port : Str}

/-! ## What the call does -/

/-- **An answer that was parsed** is accepted, refused or throws. -/
theorem readAnswer_cases (json : JsonReader.{u}) (jRspData : json.Value) :
    (∃ ip port type, json.asString jRspData "errno".toList = some "200".toList ∧
      json.asString jRspData "ip".toList = some ip ∧
      json.asString jRspData "port".toList = some port ∧
      json.asString jRspData "type".toList = some type) ∨
    (∀ out, readAnswer json jRspData out = ⟨some (-1), out⟩) ∨
    ∀ out, (readAnswer json jRspData out).ret = none := by
  cases herrno : json.asString jRspData "errno".toList with
  | none => exact .inr (.inr fun _ => by simp only [readAnswer, herrno])
  | some sErrCode =>
    by_cases hok : sErrCode = "200".toList
    · have hne : ¬ sErrCode ≠ "200".toList := not_not.mpr hok
      cases hip : json.asString jRspData "ip".toList with
      | none => exact .inr (.inr fun _ => by simp only [readAnswer, herrno, if_neg hne, hip])
      | some ip =>
        cases hport : json.asString jRspData "port".toList with
        | none =>
          refine .inr (.inr fun _ => ?_)
          simp only [readAnswer, herrno, if_neg hne, hip, hport]
        | some port =>
          cases htype : json.asString jRspData "type".toList with
          | none =>
            refine .inr (.inr fun _ => ?_)
            simp only [readAnswer, herrno, if_neg hne, hip, hport, htype]
          | some type => exact .inl ⟨ip, port, type, congrArg some hok, rfl, rfl, rfl⟩
    · exact .inr (.inl fun _ => by simp only [readAnswer, herrno, if_pos hok, ne_eq])

/-- An accepted answer sets two of the three variables. -/
theorem getUdpServerAddr_accepted (h : Accepts json rsp ip port) (iUpSrvType : UInt16)
    (out : AddrOut) :
    getUdpServerAddr json rsp iUpSrvType out =
      ⟨some 0, { out with sAddr := ip, iPort := UInt16.ofInt (atoi (cString port)) }⟩ := by
  obtain ⟨hret, jRspData, type, hparse, herrno, hip, hport, htype⟩ := h
  simp only [getUdpServerAddr, if_neg (not_not.mpr hret), hparse, readAnswer, herrno, ne_eq,
    not_true_eq_false, if_false, hip, hport, htype]

/-- **What any answer comes to**: it is accepted, it is refused with nothing set, or the call
    throws. -/
theorem getUdpServerAddr_cases (json : JsonReader.{u}) (rsp : HttpDone) :
    (∃ ip port, Accepts json rsp ip port) ∨
    (∀ iUpSrvType out, getUdpServerAddr json rsp iUpSrvType out = ⟨some (-1), out⟩) ∨
    ∀ iUpSrvType out, (getUdpServerAddr json rsp iUpSrvType out).ret = none := by
  by_cases hret : rsp.ret = 0
  · have hne : ¬ rsp.ret ≠ 0 := not_not.mpr hret
    cases hparse : json.parse (cString rsp.strResponse) with
    | none => exact .inr (.inl fun _ _ => by simp only [getUdpServerAddr, if_neg hne, hparse])
    | some jRspData =>
      rcases readAnswer_cases json jRspData with ⟨ip, port, type, hall⟩ | hrefused | hthrows
      · exact .inl ⟨ip, port, hret, jRspData, type, hparse, hall⟩
      · refine .inr (.inl fun _ out => ?_)
        simp only [getUdpServerAddr, if_neg hne, hparse, hrefused out]
      · refine .inr (.inr fun _ out => ?_)
        simp only [getUdpServerAddr, if_neg hne, hparse, hthrows out]
  · exact .inr (.inl fun _ _ => if_pos hret)

/-- `iSelfType` is what it was, whatever the answer. -/
theorem getUdpServerAddr_iSelfType (json : JsonReader.{u}) (rsp : HttpDone) (iUpSrvType : UInt16)
    (out : AddrOut) : (getUdpServerAddr json rsp iUpSrvType out).out.iSelfType = out.iSelfType := by
  simp only [getUdpServerAddr, readAnswer]
  repeat' split
  all_goals rfl

/-- A port that is one is set to its number. -/
theorem IsPort.atoi_cString {n : Nat} (h : IsPort port n) :
    UInt16.ofInt (WebsocketTest.atoi (cString port)) = UInt16.ofNat n := by
  rw [cString_eq h.plain.2.2.2, h.atoi]

/-- An accepted answer leaves a variable as it was. -/
theorem not_determined (h : Accepts json rsp ip port) : ¬ Determined json rsp := by
  intro hd
  have hret : (getUdpServerAddr json rsp 0 ⟨0, [], 0⟩).ret = some 0 := by
    rw [getUdpServerAddr_accepted h]
  have hsame := congrArg AddrOut.iSelfType (hd.same 0 ⟨0, [], 0⟩ 0 ⟨1, [], 0⟩ hret)
  rw [getUdpServerAddr_iSelfType, getUdpServerAddr_iSelfType] at hsame
  exact absurd hsame (by decide)

/-- An answer that is never accepted determines everything there is. -/
theorem determined_of_ret
    (hnever : ∀ iUpSrvType out, (getUdpServerAddr json rsp iUpSrvType out).ret ≠ some 0)
    (hsame : ∀ iUpSrvType out, (getUdpServerAddr json rsp iUpSrvType out).ret = some (-1) →
      (getUdpServerAddr json rsp iUpSrvType out).out = out) : Determined json rsp :=
  ⟨fun iUpSrvType out hret => absurd hret (hnever iUpSrvType out),
    fun iUpSrvType out _ _ hret => absurd hret (hnever iUpSrvType out), hsame⟩

theorem determined_iff_not_accepts :
    Determined json rsp ↔ ∀ ip port, ¬ Accepts json rsp ip port := by
  constructor
  · intro hd ip port h
    exact not_determined h hd
  · intro hnot
    rcases getUdpServerAddr_cases json rsp with ⟨ip, port, h⟩ | hrefused | hthrows
    · exact absurd h (hnot ip port)
    · refine determined_of_ret (fun iUpSrvType out => ?_) fun iUpSrvType out _ => ?_
      · rw [hrefused]
        exact fun h₀ => absurd (Option.some.inj h₀) (by decide)
      · rw [hrefused]
    · refine determined_of_ret (fun iUpSrvType out => ?_) fun iUpSrvType out hret => ?_
      · rw [hthrows]
        exact (Option.some_ne_none 0).symm
      · rw [hthrows] at hret
        cases hret

/-- A worker sends its result to the type that its variable held before it asked. -/
theorem CWorkThread.forward_iSrvType {curl : LibCurl} {mDebug : Bool} {uiCmd : Nat}
    {strResult : Str} {iPort iSrvType iSelfType : UInt16} {r : UdpRequest}
    (hr : (CWorkThread.forward curl mDebug json uiCmd strResult iPort iSrvType iSelfType).2 =
      some r) : r.iSrvType = iSelfType := by
  simp only [CWorkThread.forward] at hr
  split at hr
  · cases hr
  · split at hr
    · cases hr
    · split at hr
      · cases hr
      · cases hr
        exact getUdpServerAddr_iSelfType json _ iSrvType ⟨iSelfType, [], iPort⟩

/-- **When the answer determines the address**: exactly if it is not accepted. If it is, `sAddr` and
    `iPort` are those of the answer, the port being right if the answer has one, and `iSelfType` is
    what it was; that is the type which a worker sends its result to. -/
theorem determined_iff (json : JsonReader.{u}) (rsp : HttpDone) :
    (Determined json rsp ↔ ∀ ip port, ¬ Accepts json rsp ip port) ∧
    (∀ ip port, Accepts json rsp ip port → ∀ iUpSrvType out,
      getUdpServerAddr json rsp iUpSrvType out =
        ⟨some 0, ⟨out.iSelfType, ip, UInt16.ofInt (atoi (cString port))⟩⟩ ∧
      ∀ n, IsPort port n → UInt16.ofInt (atoi (cString port)) = UInt16.ofNat n) ∧
    (∀ curl mDebug uiCmd strResult iPort iSrvType iSelfType r,
      (CWorkThread.forward curl mDebug json uiCmd strResult iPort iSrvType iSelfType).2 = some r →
      r.iSrvType = iSelfType) := by
  refine ⟨determined_iff_not_accepts, ?_, ?_⟩
  · intro ip port h iUpSrvType out
    exact ⟨getUdpServerAddr_accepted h iUpSrvType out, fun n hn => hn.atoi_cString⟩
  · intro curl mDebug uiCmd strResult iPort iSrvType iSelfType r hr
    exact CWorkThread.forward_iSrvType hr

/-- An answer with the four members as strings. -/
def answerText : Str :=
  "\x7b\"errno\":\"200\",\"ip\":\"10.0.0.1\",\"port\":\"8080\",\"type\":\"2\"\x7d".toList

/-- A reader that knows this text, with objects as lists of members; an absent member is a null,
    which is an empty string. -/
def answerReader : JsonReader where
  Value := List (Str × Str)
  parse text :=
    if text = answerText then
      some [("errno".toList, "200".toList), ("ip".toList, "10.0.0.1".toList),
        ("port".toList, "8080".toList), ("type".toList, "2".toList)]
    else none
  asString value key := some ((value.lookup key).getD [])

/-- One answer, and two types: what the variable held before. -/
theorem answer_type_unset :
    getUdpServerAddr answerReader ⟨0, answerText, [], false⟩ 0 ⟨0, [], 0⟩ =
        ⟨some 0, ⟨0, "10.0.0.1".toList, 8080⟩⟩ ∧
      getUdpServerAddr answerReader ⟨0, answerText, [], false⟩ 0 ⟨7, [], 0⟩ =
        ⟨some 0, ⟨7, "10.0.0.1".toList, 8080⟩⟩ ∧
      ¬ Determined answerReader ⟨0, answerText, [], false⟩ := by
  have h : Accepts answerReader ⟨0, answerText, [], false⟩ "10.0.0.1".toList "8080".toList :=
    ⟨rfl, _, "2".toList, rfl, rfl, rfl, rfl, rfl⟩
  exact ⟨getUdpServerAddr_accepted h 0 ⟨0, [], 0⟩, getUdpServerAddr_accepted h 0 ⟨7, [], 0⟩,
    not_determined h⟩

end WebsocketTest
