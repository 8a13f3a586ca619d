import WebsocketTest.Lib.Text

/-!
# `CHttpClient` (`http_client.cpp`)

Four methods over libcurl's easy interface. Each asks for a handle, sets its options, performs the
transfer and returns its code; the body goes to `OnWirteData` in pieces, which appends them to the
caller's string.

libcurl is not part of the repository: `LibCurl` is any, and what the methods rely on is `Delivers`,
that a transfer which succeeds calls the write callback on consecutive pieces of one body. What
`Get` prints is left out, and so are options that are set to their default.

`Post` and `Gets` clean the handle up behind the transfer. Where they do that, `Get` and `Posts`
perform the transfer again. **`once_iff`** — a call that returns `CURLE_OK` has made one request and
appended one body exactly if it is a `Post` or a `Gets`.

The condition is on the method and on what its first transfer returns, for nothing else matters: not
the url, not the options, and not how the body is cut. What the second transfer returns is dropped,
so that a caller cannot learn of it but from the string. The server need not answer the second
request as it did the first, and `body` may depend on which transfer it is.
-/

set_option autoImplicit false

namespace WebsocketTest

open Lib.Text

/-- `CURLE_OK`. -/
abbrev curleOk : Int := 0

/-- `CURLE_FAILED_INIT`. -/
abbrev curleFailedInit : Int := 2

/-- What `curl_easy_setopt` has set on a handle, besides `CURLOPT_NOSIGNAL` and the write callback,
    which all four set. Texts are passed as `c_str()`. -/
structure CurlOptions where
  verbose : Bool
  url : Str
  post : Option Str
  sslVerifyPeer : Option Bool
  sslVerifyHost : Option Bool
  caInfo : Option Str
  connectTimeout : Nat
  timeout : Nat
  deriving DecidableEq

/-- `pCaPath` of the two `https` methods. -/
def CurlOptions.ssl (o : CurlOptions) (pCaPath : Option Str) : CurlOptions :=
  match pCaPath with
  | none => { o with sslVerifyPeer := some false, sslVerifyHost := some false }
  | some path => { o with sslVerifyPeer := some true, caInfo := some (cString path) }

/-- A `CURLOPT_WRITEFUNCTION`: the bytes it is given, `size`, `nmemb` and the string behind
    `CURLOPT_WRITEDATA`. -/
abbrev WriteFunction := Str → Nat → Nat → Str → Nat × Str

/-- libcurl, during a call: whether `curl_easy_init` has a handle, and what the `k`-th
    `curl_easy_perform` on it returns and leaves in the string. -/
structure LibCurl where
  init : Bool
  perform : Nat → CurlOptions → WriteFunction → Str → Int × Str

/-- What a call returns and leaves in the string, with the transfers that were performed and whether
    the handle was given back. -/
structure HttpDone where
  ret : Int
  strResponse : Str
  performed : List CurlOptions
  cleanup : Bool

/-- A transfer that succeeds hands the callback one body, in consecutive pieces of `size` 1, as long
    as the callback says that it took them. -/
def LibCurl.Delivers (curl : LibCurl) (body : Nat → CurlOptions → Str) : Prop :=
  ∀ (k : Nat) (o : CurlOptions) (f : WriteFunction) (str : Str),
    (∀ chunk s, (f chunk 1 chunk.length s).1 = chunk.length) →
    (curl.perform k o f str).1 = curleOk →
    ∃ chunks : List Str, chunks.flatten = body k o ∧
      (curl.perform k o f str).2 = chunks.foldl (fun s chunk => (f chunk 1 chunk.length s).2) str

namespace CHttpClient

/-- `OnWirteData`. Neither pointer is ever `NULL`. -/
def onWirteData : WriteFunction := fun pData size nmemb str =>
  (nmemb, str ++ pData.take (size * nmemb))

/-- The options that `strUrl` and `m_Debug` stand for. -/
def baseOptions (mDebug : Bool) (strUrl : Str) (timeout : Nat) : CurlOptions :=
  ⟨mDebug, cString strUrl, none, none, none, none, timeout, timeout⟩

/-- `curl_easy_perform`, `curl_easy_cleanup` and `return`. -/
def performThenCleanup (curl : LibCurl) (o : CurlOptions) (strResponse : Str) : HttpDone :=
  if curl.init then
    let (res, str) := curl.perform 0 o onWirteData strResponse
    ⟨res, str, [o], true⟩
  else ⟨curleFailedInit, strResponse, [], false⟩

/-- `curl_easy_perform`, `curl_easy_perform` again and `return`. -/
def performTwice (curl : LibCurl) (o : CurlOptions) (strResponse : Str) : HttpDone :=
  if curl.init then
    let (res, str) := curl.perform 0 o onWirteData strResponse
    let (_, str) := curl.perform 1 o onWirteData str
    ⟨res, str, [o, o], false⟩
  else ⟨curleFailedInit, strResponse, [], false⟩

/-- A call of one of the four methods, with its arguments but the url and the string. -/
inductive Method
  | post (strPost : Str)
  | get
  | posts (strPost : Str) (pCaPath : Option Str)
  | gets (pCaPath : Option Str)

namespace Method

/-- What the method sets before it performs the transfer. -/
def options (mDebug : Bool) (strUrl : Str) : Method → CurlOptions
  | post strPost => { baseOptions mDebug strUrl 2 with post := some (cString strPost) }
  | get => baseOptions mDebug strUrl 20
  | posts strPost pCaPath =>
    { baseOptions mDebug strUrl 10 with post := some (cString strPost) }.ssl pCaPath
  | gets pCaPath => (baseOptions mDebug strUrl 3).ssl pCaPath

end Method

variable (curl : LibCurl) (mDebug : Bool)

/-- `Post`. -/
def post (strUrl strPost strResponse : Str) : HttpDone :=
  performThenCleanup curl ((Method.post strPost).options mDebug strUrl) strResponse

/-- `Get`. -/
def get (strUrl strResponse : Str) : HttpDone :=
  performTwice curl (Method.get.options mDebug strUrl) strResponse

/-- `Posts`. -/
def posts (strUrl strPost strResponse : Str) (pCaPath : Option Str) : HttpDone :=
  performTwice curl ((Method.posts strPost pCaPath).options mDebug strUrl) strResponse

/-- `Gets`. -/
def gets (strUrl strResponse : Str) (pCaPath : Option Str) : HttpDone :=
  performThenCleanup curl ((Method.gets pCaPath).options mDebug strUrl) strResponse

def Method.call (strUrl strResponse : Str) : Method → HttpDone
  | .post strPost => CHttpClient.post curl mDebug strUrl strPost strResponse
  | .get => CHttpClient.get curl mDebug strUrl strResponse
  | .posts strPost pCaPath => CHttpClient.posts curl mDebug strUrl strPost strResponse pCaPath
  | .gets pCaPath => CHttpClient.gets curl mDebug strUrl strResponse pCaPath

/-- The methods that clean the handle up, where the other two perform again. -/
def Method.CleansUp : Method → Prop
  | .post _ | .gets _ => True
  | .get | .posts _ _ => False

/-- A call that says `CURLE_OK` has made the request `o` once and appended its body once. -/
def Once (body : Nat → CurlOptions → Str) (o : CurlOptions) (strResponse : Str) (r : HttpDone) :
    Prop :=
  r.ret = curleOk → r.performed = [o] ∧ r.strResponse = strResponse ++ body 0 o

/-! ## One transfer -/

variable {curl mDebug} {body : Nat → CurlOptions → Str}

/-- The callback appends what it is given and says that it took it. -/
theorem onWirteData_chunk (chunk s : Str) :
    onWirteData chunk 1 chunk.length s = (chunk.length, s ++ chunk) := by
  simp [onWirteData]

/-- Piece by piece the whole body is appended, however it is cut. -/
theorem foldl_onWirteData (chunks : List Str) (str : Str) :
    chunks.foldl (fun s chunk => (onWirteData chunk 1 chunk.length s).2) str =
      str ++ chunks.flatten := by
  induction chunks generalizing str with
  | nil => simp
  | cons chunk chunks ih =>
    rw [List.foldl_cons, onWirteData_chunk, ih, List.flatten_cons, List.append_assoc]

/-- **A transfer that succeeds** appends its body. -/
theorem perform_ok (h : curl.Delivers body) {k : Nat} {o : CurlOptions} {str : Str}
    (hok : (curl.perform k o onWirteData str).1 = curleOk) :
    (curl.perform k o onWirteData str).2 = str ++ body k o := by
  have htakes : ∀ chunk s, (onWirteData chunk 1 chunk.length s).1 = chunk.length := by
    intro chunk s
    rw [onWirteData_chunk]
  obtain ⟨chunks, hbody, hstr⟩ := h k o onWirteData str htakes hok
  rw [hstr, foldl_onWirteData, hbody]

theorem once_performThenCleanup (h : curl.Delivers body) (o : CurlOptions) (strResponse : Str) :
    Once body o strResponse (performThenCleanup curl o strResponse) := by
  intro hret
  unfold performThenCleanup at hret ⊢
  split at hret
  · rename_i hinit
    rw [if_pos hinit]
    exact ⟨rfl, perform_ok h hret⟩
  · exact absurd (show curleFailedInit = curleOk from hret) (by decide)

/-- Two transfers are not one, whatever the second comes to. -/
theorem once_performTwice (o : CurlOptions) (strResponse : Str) :
    Once body o strResponse (performTwice curl o strResponse) ↔
      curl.init = false ∨ (curl.perform 0 o onWirteData strResponse).1 ≠ curleOk := by
  unfold performTwice
  by_cases hinit : curl.init = true
  · simp [Once, hinit]
  · rw [if_neg hinit]
    have hfalse : curl.init = false := by simpa using hinit
    refine ⟨fun _ => .inl hfalse, fun _ hret => ?_⟩
    exact absurd (show curleFailedInit = curleOk from hret) (by decide)

/-- **When a call is one transfer**: exactly if the method cleans up behind it, or does not return
    `CURLE_OK`. -/
theorem once_iff (h : curl.Delivers body) (m : Method) (strUrl strResponse : Str) :
    Once body (m.options mDebug strUrl) strResponse (m.call curl mDebug strUrl strResponse) ↔
      m.CleansUp ∨ curl.init = false ∨
        (curl.perform 0 (m.options mDebug strUrl) onWirteData strResponse).1 ≠ curleOk := by
  cases m with
  | post strPost =>
    exact iff_of_true (once_performThenCleanup h _ _) (.inl trivial)
  | get =>
    rw [Method.call, CHttpClient.get, once_performTwice]
    simp [Method.CleansUp]
  | posts strPost pCaPath =>
    rw [Method.call, CHttpClient.posts, once_performTwice]
    simp [Method.CleansUp]
  | gets pCaPath =>
    exact iff_of_true (once_performThenCleanup h _ _) (.inl trivial)

/-- A server that answers every request with `ok`, in two pieces. -/
def okServer : LibCurl where
  init := true
  perform _ _ f str := (curleOk, (f ['k'] 1 1 (f ['o'] 1 1 str).2).2)

theorem okServer_delivers : okServer.Delivers fun _ _ => ['o', 'k'] := by
  intro k o f str _ _
  exact ⟨[['o'], ['k']], rfl, rfl⟩

theorem once_iff_post :
    Once (fun _ _ => ['o', 'k']) ((Method.post ['a']).options false ['u']) ['>']
      ((Method.post ['a']).call okServer false ['u'] ['>']) :=
  (once_iff okServer_delivers (.post ['a']) ['u'] ['>']).mpr (.inl trivial)

/-- `Get` makes the request twice and leaves the body twice. -/
theorem get_twice :
    (get okServer false ['u'] []).ret = curleOk ∧
      (get okServer false ['u'] []).strResponse = ['o', 'k', 'o', 'k'] ∧
      (get okServer false ['u'] []).performed.length = 2 ∧
      ¬ Once (fun _ _ => ['o', 'k']) (Method.get.options false ['u']) []
        (Method.get.call okServer false ['u'] []) := by
  refine ⟨rfl, rfl, rfl, ?_⟩
  intro honce
  obtain ⟨hone, -⟩ := honce rfl
  exact absurd (congrArg List.length hone) (by decide)

end CHttpClient

end WebsocketTest
