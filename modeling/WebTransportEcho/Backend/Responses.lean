import Mathlib.Data.List.TakeWhile
import WebTransportEcho.Backend.Aioquic
import WebTransportEcho.Backend.TokioQuiche

/-! What the two backends answer to one request. Both read the same fields, the last of a name each.
    The aioquic backend drops the query of the path and reflects the bytes of the origin, the
    tokio-quiche backend compares the whole path and reflects the origin as it decoded it. They agree
    exactly on the requests on which neither makes a difference. -/

namespace WebTransportEcho.Backend

/-- An answer to a request: the health check, an accepted `CONNECT` and its headers, or a 404. -/
inductive Outcome where
  | health
  | accepted (headers : List Header)
  | notFound
  deriving DecidableEq

def aioquicOutcome (headers : List Header) : Outcome :=
  match Aioquic.decideRequest headers with
  | .health => .health
  | .accepted _ response => .accepted response
  | .rejected => .notFound

def tokioQuicheOutcome (headers : List Header) : Outcome :=
  let request := TokioQuiche.RequestHeaders.fromHeaders headers
  if request.isHealth then .health
  else if request.isWebtransport then .accepted request.response
  else .notFound

/-- What the aioquic backend sends about a request. -/
def aioquicEffects (streamId : Nat) : Outcome → List Aioquic.Effect
  | .health => [.sendHeaders streamId [(literal ":status", literal "200"),
      (literal "content-type", literal "text/plain; charset=utf-8"),
      (literal "content-length", literal "3"), (literal "cache-control", literal "no-store")] false,
    .sendData streamId (literal "ok\n") true]
  | .accepted response => [.sendHeaders streamId response false]
  | .notFound => [.sendHeaders streamId [(literal ":status", literal "404"),
      (literal "cache-control", literal "no-store")] true]

/-- What the tokio-quiche backend sends about it. -/
def tokioQuicheFrames : Outcome → List TokioQuiche.OutboundFrame
  | .health => [.headers [(literal ":status", literal "200")], .body (literal "ok\n") true]
  | .accepted response => [.headers response]
  | .notFound => [.headers [(literal ":status", literal "404")], .body [] true]

theorem aioquic_answers (p : Aioquic.Protocol) (streamId : Nat) (headers : List Header) :
    (Aioquic.handleHeaders p streamId headers).effects =
      p.effects ++ aioquicEffects streamId (aioquicOutcome headers) := by
  rw [Aioquic.handleHeaders, aioquicOutcome]
  cases Aioquic.decideRequest headers <;> rfl

theorem tokioQuiche_answers (c : TokioQuiche.Connection) (streamId : UInt64)
    (headers : List Header) :
    (TokioQuiche.handleHeaders c streamId headers true true).responses =
      c.responses ++ (tokioQuicheFrames (tokioQuicheOutcome headers)).map fun f => (streamId, f) := by
  rw [TokioQuiche.handleHeaders, tokioQuicheOutcome]
  generalize TokioQuiche.RequestHeaders.fromHeaders headers = request
  cases hhealth : request.isHealth with
  | true =>
    obtain ⟨-, hpath⟩ := Bool.and_eq_true_iff.mp hhealth
    simp [TokioQuiche.Connection.respond, TokioQuiche.RequestHeaders.response,
      TokioQuiche.RequestHeaders.status, hhealth, TokioQuiche.responseHeaders, tokioQuicheFrames,
      of_decide_eq_true hpath]
    rfl
  | false =>
    cases hconnect : request.isWebtransport with
    | true =>
      simp [TokioQuiche.Connection.respond, TokioQuiche.RequestHeaders.status, hhealth, hconnect,
        tokioQuicheFrames]
    | false =>
      simp [TokioQuiche.Connection.respond, TokioQuiche.RequestHeaders.response,
        TokioQuiche.RequestHeaders.status, hhealth, hconnect, TokioQuiche.responseHeaders,
        tokioQuicheFrames]
      rfl

/-! ### The fields of a request -/

def LowerCase (headers : List Header) : Prop := ∀ h ∈ headers, Aioquic.lower h.1 = h.1

instance (headers : List Header) : Decidable (LowerCase headers) :=
  inferInstanceAs (Decidable (∀ h ∈ headers, Aioquic.lower h.1 = h.1))

/-- The text of the last field of a name. -/
def field (headers : List Header) (name : String) : Option String :=
  (Aioquic.headerMap headers (literal name)).map text

theorem headerMap_snoc (headers : List Header) (h : Header) (name : Bytes) :
    Aioquic.headerMap (headers ++ [h]) name =
      if Aioquic.lower h.1 = name then some h.2 else Aioquic.headerMap headers name := by
  rw [Aioquic.headerMap, Aioquic.headerMap, List.reverse_concat', List.find?_cons]
  split
  · next hname => rw [if_pos (of_decide_eq_true hname), Option.map_some]
  · next hname => rw [if_neg (of_decide_eq_false hname)]

/-- A part of the request that is set by the headers of one name. -/
theorem get_fromHeaders {get : TokioQuiche.RequestHeaders → Option String} {name : String}
    (hname : Utf8.replacement ∉ name.toList) (hnone : get {} = none)
    (hadd : ∀ out h, get (out.add h) = if text h.1 = name then some (text h.2) else get out)
    {headers : List Header} (hlower : LowerCase headers) :
    get (TokioQuiche.RequestHeaders.fromHeaders headers) = field headers name := by
  induction headers using List.reverseRecOn with
  | nil => exact hnone
  | append_singleton headers h ih =>
    have hlast : Aioquic.lower h.1 = h.1 := hlower h (by simp)
    have hstep : TokioQuiche.RequestHeaders.fromHeaders (headers ++ [h]) =
        (TokioQuiche.RequestHeaders.fromHeaders headers).add h := List.foldl_append
    rw [hstep, hadd, ih fun x hx => hlower x (List.mem_append_left _ hx), field, field,
      headerMap_snoc, hlast]
    simp only [text_eq_iff hname]
    split <;> rfl

section Request

variable {headers : List Header} (hlower : LowerCase headers)

include hlower

theorem fromHeaders_method :
    (TokioQuiche.RequestHeaders.fromHeaders headers).method = field headers ":method" := by
  refine get_fromHeaders (by decide) rfl (fun out h => ?_) hlower
  unfold TokioQuiche.RequestHeaders.add
  grind

theorem fromHeaders_protocol :
    (TokioQuiche.RequestHeaders.fromHeaders headers).protocol = field headers ":protocol" := by
  refine get_fromHeaders (by decide) rfl (fun out h => ?_) hlower
  unfold TokioQuiche.RequestHeaders.add
  grind

theorem fromHeaders_path :
    (TokioQuiche.RequestHeaders.fromHeaders headers).path = field headers ":path" := by
  refine get_fromHeaders (by decide) rfl (fun out h => ?_) hlower
  unfold TokioQuiche.RequestHeaders.add
  grind

theorem fromHeaders_origin :
    (TokioQuiche.RequestHeaders.fromHeaders headers).origin = field headers "origin" := by
  refine get_fromHeaders (by decide) rfl (fun out h => ?_) hlower
  unfold TokioQuiche.RequestHeaders.add
  grind

theorem fromHeaders_wtAvailableProtocols :
    (TokioQuiche.RequestHeaders.fromHeaders headers).wtAvailableProtocols =
      field headers "wt-available-protocols" := by
  refine get_fromHeaders (by decide) rfl (fun out h => ?_) hlower
  unfold TokioQuiche.RequestHeaders.add
  grind

end Request

/-! ### Paths with a query and without -/

/-- The value offers the protocol, as the tokio-quiche backend tests it. -/
def Offers (headers : List Header) : Prop :=
  (field headers "wt-available-protocols").any TokioQuiche.negotiates = true

/-- The backends' tests of what a request offers agree. -/
def TestsAgree (headers : List Header) : Prop :=
  ∀ value, Aioquic.headerMap headers (literal "wt-available-protocols") = some value →
    Aioquic.availableProtocolsContains value Aioquic.quicastProtocol =
      TokioQuiche.negotiates (text value)

/-- The paths whose response has more than a status, whatever is offered. -/
def shapedPaths : List String := ["/wt/protocol", "/wt/capsule", "/wt/init", "/wt/draft", "/wt/yggdrasil"]

/-- The response has the yggdrasil shape. -/
def Yggdrasil (headers : List Header) (path : String) : Prop :=
  path = "/wt/yggdrasil" ∨ path = "/wt/auto" ∧ Offers headers

instance (headers : List Header) (path : String) : Decidable (Yggdrasil headers path) :=
  inferInstanceAs (Decidable (path = "/wt/yggdrasil" ∨ path = "/wt/auto" ∧
    (field headers "wt-available-protocols").any TokioQuiche.negotiates = true))

/-- The path as it was sent. -/
def sentPath (headers : List Header) : String := (field headers ":path").getD "/"

def Connects (headers : List Header) : Prop :=
  field headers ":method" = some "CONNECT" ∧
    (field headers ":protocol" = some "webtransport" ∨
      field headers ":protocol" = some "webtransport-h3")

instance (headers : List Header) : Decidable (Connects headers) :=
  inferInstanceAs (Decidable (_ ∧ (_ ∨ _)))

/-- Neither a query nor the bytes of the origin make a difference to the answer. -/
structure Plain (headers : List Header) : Prop where
  health : '?' ∈ (sentPath headers).toList → field headers ":method" = some "GET" →
    Aioquic.requestPath headers ≠ "/healthz"
  query : '?' ∈ (sentPath headers).toList → Connects headers →
    Aioquic.requestPath headers ∉ shapedPaths ∧ ¬ Yggdrasil headers (Aioquic.requestPath headers)
  origin : Connects headers → Yggdrasil headers (sentPath headers) →
    ∀ origin, Aioquic.headerMap headers (literal "origin") = some origin → Utf8.Valid origin

theorem requestPath_eq (headers : List Header) : Aioquic.requestPath headers =
    String.ofList ((sentPath headers).toList.takeWhile fun c => c ≠ '?') := by
  rw [Aioquic.requestPath, sentPath, field]
  cases Aioquic.headerMap headers (literal ":path") with
  | none => rw [Option.getD_none, Option.map_none, Option.getD_none, text_literal]
  | some path => rw [Option.getD_some, Option.map_some, Option.getD_some]

theorem requestPath_of_plain {headers : List Header} (h : '?' ∉ (sentPath headers).toList) :
    Aioquic.requestPath headers = sentPath headers := by
  have hall : (sentPath headers).toList.takeWhile (fun c => c ≠ '?') = (sentPath headers).toList :=
    List.takeWhile_eq_self_iff.mpr fun c hc => by
      simp only [decide_eq_true_eq]
      rintro rfl
      exact h hc
  rw [requestPath_eq, hall, String.ofList_toList]

/-- Dropping the query does not change whether the path begins with something without one. -/
theorem startsWith_requestPath {headers : List Header} {start : String}
    (h : '?' ∉ start.toList) :
    startsWith start (Aioquic.requestPath headers) = startsWith start (sentPath headers) := by
  rw [requestPath_eq, startsWith, startsWith, String.toList_ofList, decide_eq_decide]
  refine ⟨fun hprefix => hprefix.trans (List.takeWhile_prefix _), ?_⟩
  rintro ⟨rest, hrest⟩
  rw [← hrest, List.takeWhile_append_of_pos fun c hc => ?_]
  · exact List.prefix_append _ _
  · rw [decide_eq_true_eq]
    rintro rfl
    exact h hc

theorem ne_of_query {path literal : String} (hquery : '?' ∈ path.toList)
    (h : '?' ∉ literal.toList) : path ≠ literal := by
  rintro rfl
  exact h hquery

/-! ### The headers of a response -/

theorem contains_iff {headers : List Header} (h : TestsAgree headers) :
    Aioquic.availableProtocolsContains
        ((Aioquic.headerMap headers (literal "wt-available-protocols")).getD [])
        Aioquic.quicastProtocol = true ↔ Offers headers := by
  rw [Offers, field]
  cases hvalue : Aioquic.headerMap headers (literal "wt-available-protocols") with
  | none =>
    have hempty : Aioquic.availableProtocolsContains [] Aioquic.quicastProtocol = false := by
      decide
    simp [hempty]
  | some value => simp [h value hvalue]

/-- The headers that reflect an origin. -/
def reflected (origin : Option Bytes) : List Header :=
  match origin with
  | some origin => [(literal "access-control-allow-origin", origin),
      (literal "access-control-allow-credentials", literal "true"), (literal "vary", literal "origin")]
  | none => []

/-- The headers of a path that does not depend on what is offered. -/
def shapeHeaders (path : String) : List Header :=
  if path = "/wt/protocol" then [(literal "wt-protocol", literal "\"quicast-wt-v0\"")]
  else if path = "/wt/capsule" then
    [(literal "wt-protocol", literal "\"quicast-wt-v0\""), (literal "capsule-protocol", literal "?1")]
  else if path = "/wt/init" then TokioQuiche.protocolCapsuleInit
  else if path = "/wt/draft" then [(literal "sec-webtransport-http3-draft", literal "draft02")]
  else []

def statusHeader : Header := (literal ":status", literal "200")

def serverHeader : Header := (literal "server", literal "yggdrasil")

theorem shapeHeaders_of_yggdrasil {headers : List Header} {path : String}
    (h : Yggdrasil headers path) : shapeHeaders path = [] := by
  rcases h with rfl | ⟨rfl, -⟩ <;> simp [shapeHeaders]

theorem aioquic_responseHeaders {headers : List Header} (h : TestsAgree headers) (path : String) :
    Aioquic.responseHeaders path headers = statusHeader :: shapeHeaders path ++
      if Yggdrasil headers path then serverHeader :: TokioQuiche.protocolCapsuleInit ++
        reflected (Aioquic.headerMap headers (literal "origin"))
      else [] := by
  have hyggdrasil : (path = "/wt/yggdrasil" ∨ (path = "/wt/auto" ∧
      Aioquic.availableProtocolsContains
        ((Aioquic.headerMap headers (literal "wt-available-protocols")).getD [])
        Aioquic.quicastProtocol = true)) ↔ Yggdrasil headers path := by
    rw [contains_iff h, Yggdrasil]
  simp only [Aioquic.responseHeaders, hyggdrasil]
  rfl

theorem tokioQuiche_responseHeaders {headers : List Header} (hlower : LowerCase headers)
    (path : String) :
    TokioQuiche.responseHeaders path (TokioQuiche.RequestHeaders.fromHeaders headers) 200 =
      statusHeader :: shapeHeaders path ++
      if Yggdrasil headers path then serverHeader :: TokioQuiche.protocolCapsuleInit ++
        reflected ((field headers "origin").map literal)
      else [] := by
  have hyggdrasil : (decide (path = "/wt/yggdrasil") || (decide (path = "/wt/auto") &&
      (field headers "wt-available-protocols").any TokioQuiche.negotiates)) = true ↔
      Yggdrasil headers path := by
    simp [Yggdrasil, Offers]
  simp only [TokioQuiche.responseHeaders, fromHeaders_wtAvailableProtocols hlower,
    fromHeaders_origin hlower, hyggdrasil]
  by_cases h : Yggdrasil headers path
  · rw [shapeHeaders_of_yggdrasil h, if_pos h]
    have hother : path ≠ "/wt/protocol" ∧ path ≠ "/wt/capsule" ∧ path ≠ "/wt/init" ∧
        path ≠ "/wt/draft" := by
      rcases h with rfl | ⟨rfl, -⟩ <;> decide
    rw [if_neg (by decide), if_neg hother.1, if_neg hother.2.1, if_neg hother.2.2.1,
      if_neg hother.2.2.2, if_pos h]
    cases field headers "origin" <;> rfl
  · rw [if_neg h, if_neg (by decide), if_neg h, List.append_nil]
    unfold shapeHeaders
    split_ifs <;> rfl

/-! ### The two answers -/

theorem text_getD (headers : List Header) (name : String) :
    text ((Aioquic.headerMap headers (literal name)).getD []) = (field headers name).getD "" := by
  rw [field]
  cases Aioquic.headerMap headers (literal name) <;> rfl

theorem getD_eq_iff {value : Option String} {default s : String} (h : default ≠ s) :
    value.getD default = s ↔ value = some s := by
  cases value with
  | none => simp [h]
  | some t => simp

theorem aioquicOutcome_eq (headers : List Header) : aioquicOutcome headers =
    if field headers ":method" = some "GET" ∧ Aioquic.requestPath headers = "/healthz" then .health
    else if Connects headers ∧ startsWith "/wt" (Aioquic.requestPath headers) = true then
      .accepted (Aioquic.responseHeaders (Aioquic.requestPath headers) headers)
    else .notFound := by
  have hconnects : (field headers ":method" = some "CONNECT" ∧
      (field headers ":protocol" = some "webtransport" ∨
        field headers ":protocol" = some "webtransport-h3") ∧
      startsWith "/wt" (Aioquic.requestPath headers) = true) ↔
      Connects headers ∧ startsWith "/wt" (Aioquic.requestPath headers) = true := by
    rw [Connects, and_assoc]
  simp only [aioquicOutcome, Aioquic.decideRequest, text_getD,
    getD_eq_iff (show "" ≠ "GET" by decide), getD_eq_iff (show "" ≠ "CONNECT" by decide),
    getD_eq_iff (show "" ≠ "webtransport" by decide),
    getD_eq_iff (show "" ≠ "webtransport-h3" by decide), hconnects]
  split_ifs <;> rfl

theorem tokioQuicheOutcome_eq {headers : List Header} (hlower : LowerCase headers) :
    tokioQuicheOutcome headers =
    if field headers ":method" = some "GET" ∧ sentPath headers = "/healthz" then .health
    else if Connects headers ∧ startsWith "/wt" (sentPath headers) = true then
      .accepted (TokioQuiche.responseHeaders (sentPath headers)
        (TokioQuiche.RequestHeaders.fromHeaders headers) 200)
    else .notFound := by
  have hhealth : (TokioQuiche.RequestHeaders.fromHeaders headers).isHealth = true ↔
      field headers ":method" = some "GET" ∧ sentPath headers = "/healthz" := by
    rw [TokioQuiche.RequestHeaders.isHealth, fromHeaders_method hlower, fromHeaders_path hlower,
      sentPath, getD_eq_iff (by decide)]
    simp
  have hwebtransport : (TokioQuiche.RequestHeaders.fromHeaders headers).isWebtransport = true ↔
      Connects headers ∧ startsWith "/wt" (sentPath headers) = true := by
    have hpath : (field headers ":path").any (startsWith "/wt") =
        startsWith "/wt" (sentPath headers) := by
      rw [sentPath]
      cases field headers ":path" with
      | none => decide
      | some path => rfl
    rw [TokioQuiche.RequestHeaders.isWebtransport, fromHeaders_method hlower,
      fromHeaders_protocol hlower, fromHeaders_path hlower, hpath]
    simp [Connects]
  simp only [tokioQuicheOutcome, hhealth]
  by_cases h : field headers ":method" = some "GET" ∧ sentPath headers = "/healthz"
  · rw [if_pos h, if_pos h]
  · rw [if_neg h, if_neg h]
    by_cases hc : Connects headers ∧ startsWith "/wt" (sentPath headers) = true
    · have hstatus : (TokioQuiche.RequestHeaders.fromHeaders headers).status = 200 := by
        rw [TokioQuiche.RequestHeaders.status, hwebtransport.mpr hc, Bool.or_true, if_pos rfl]
      rw [if_pos (hwebtransport.mpr hc), if_pos hc, TokioQuiche.RequestHeaders.response, hstatus,
        fromHeaders_path hlower]
      rfl
    · rw [if_neg (mt hwebtransport.mp hc), if_neg hc]

theorem starts_of_shaped : ∀ path ∈ shapedPaths, startsWith "/wt" path = true := by decide

theorem starts_of_yggdrasil {headers : List Header} {path : String} (h : Yggdrasil headers path) :
    startsWith "/wt" path = true := by
  rcases h with rfl | ⟨rfl, -⟩ <;> decide

theorem shapeHeaders_eq_nil_iff (headers : List Header) (path : String) :
    shapeHeaders path = [] ∧ ¬ Yggdrasil headers path ↔
      path ∉ shapedPaths ∧ ¬ Yggdrasil headers path := by
  have hshape : shapeHeaders path = [] ↔ path ∉ shapedPaths ∨ path = "/wt/yggdrasil" := by
    unfold shapeHeaders shapedPaths
    by_cases hpath : path = "/wt/yggdrasil"
    · simp [hpath]
    · split_ifs <;> simp_all [TokioQuiche.protocolCapsuleInit]
  have hyggdrasil : path = "/wt/yggdrasil" → Yggdrasil headers path := .inl
  rw [hshape]
  tauto

/-- The response reflects the origin's text, which is the origin when it is UTF-8. -/
theorem reflected_eq_iff (headers : List Header) :
    reflected (Aioquic.headerMap headers (literal "origin")) =
      reflected ((field headers "origin").map literal) ↔
      ∀ origin, Aioquic.headerMap headers (literal "origin") = some origin → Utf8.Valid origin := by
  rw [field]
  cases Aioquic.headerMap headers (literal "origin") with
  | none => simp
  | some origin => simp [reflected, ← literal_text_iff, eq_comm]

theorem outcome_eq_of_no_query {headers : List Header} (hlower : LowerCase headers)
    (htests : TestsAgree headers) (hquery : '?' ∉ (sentPath headers).toList) :
    aioquicOutcome headers = tokioQuicheOutcome headers ↔ (Connects headers →
      Yggdrasil headers (sentPath headers) →
      ∀ origin, Aioquic.headerMap headers (literal "origin") = some origin → Utf8.Valid origin) := by
  rw [aioquicOutcome_eq, tokioQuicheOutcome_eq hlower, requestPath_of_plain hquery]
  by_cases hhealth : field headers ":method" = some "GET" ∧ sentPath headers = "/healthz"
  · rw [if_pos hhealth, if_pos hhealth]
    refine iff_of_true rfl fun hconnects => ?_
    rw [Connects, hhealth.1] at hconnects
    simp at hconnects
  rw [if_neg hhealth, if_neg hhealth]
  by_cases hconnects : Connects headers ∧ startsWith "/wt" (sentPath headers) = true
  · rw [if_pos hconnects, if_pos hconnects, Outcome.accepted.injEq,
      aioquic_responseHeaders htests, tokioQuiche_responseHeaders hlower]
    by_cases hyggdrasil : Yggdrasil headers (sentPath headers)
    · rw [if_pos hyggdrasil, if_pos hyggdrasil, List.append_cancel_left_eq,
        List.append_cancel_left_eq, reflected_eq_iff]
      exact ⟨fun h _ _ => h, fun h => h hconnects.1 hyggdrasil⟩
    · rw [if_neg hyggdrasil, if_neg hyggdrasil]
      exact iff_of_true rfl fun _ h => absurd h hyggdrasil
  · rw [if_neg hconnects, if_neg hconnects]
    exact iff_of_true rfl fun hc hyggdrasil =>
      absurd ⟨hc, starts_of_yggdrasil hyggdrasil⟩ hconnects

theorem outcome_eq_of_query {headers : List Header} (hlower : LowerCase headers)
    (htests : TestsAgree headers) (hquery : '?' ∈ (sentPath headers).toList) :
    aioquicOutcome headers = tokioQuicheOutcome headers ↔
      (field headers ":method" = some "GET" → Aioquic.requestPath headers ≠ "/healthz") ∧
      (Connects headers → Aioquic.requestPath headers ∉ shapedPaths ∧
        ¬ Yggdrasil headers (Aioquic.requestPath headers)) := by
  have hsent {s : String} (h : '?' ∉ s.toList) : sentPath headers ≠ s := ne_of_query hquery h
  have hplain : shapeHeaders (sentPath headers) = [] := by
    simp [shapeHeaders, hsent (s := "/wt/protocol") (by decide), hsent (s := "/wt/capsule") (by decide),
      hsent (s := "/wt/init") (by decide), hsent (s := "/wt/draft") (by decide)]
  have hnone : ¬ Yggdrasil headers (sentPath headers) := by
    rintro (h | ⟨h, -⟩)
    · exact hsent (by decide) h
    · exact hsent (by decide) h
  have hunhealthy : ¬ (field headers ":method" = some "GET" ∧ sentPath headers = "/healthz") :=
    fun h => hsent (by decide) h.2
  rw [aioquicOutcome_eq, tokioQuicheOutcome_eq hlower, startsWith_requestPath (by decide),
    if_neg hunhealthy]
  by_cases hhealth : field headers ":method" = some "GET" ∧ Aioquic.requestPath headers = "/healthz"
  · rw [if_pos hhealth]
    refine iff_of_false ?_ fun h => h.1 hhealth.1 hhealth.2
    split_ifs <;> simp
  rw [if_neg hhealth]
  by_cases hconnects : Connects headers ∧ startsWith "/wt" (sentPath headers) = true
  · rw [if_pos hconnects, if_pos hconnects, Outcome.accepted.injEq,
      aioquic_responseHeaders htests, tokioQuiche_responseHeaders hlower, hplain, if_neg hnone,
      ← shapeHeaders_eq_nil_iff]
    by_cases hyggdrasil : Yggdrasil headers (Aioquic.requestPath headers)
    · rw [if_pos hyggdrasil]
      refine iff_of_false (by simp) fun h => (h.2 hconnects.1).2 hyggdrasil
    · rw [if_neg hyggdrasil]
      simp only [List.append_nil, List.cons.injEq, true_and]
      exact ⟨fun h => ⟨not_and.mp hhealth, fun _ => ⟨h, hyggdrasil⟩⟩, fun h => (h.2 hconnects.1).1⟩
  · rw [if_neg hconnects, if_neg hconnects]
    refine iff_of_true rfl ⟨not_and.mp hhealth, fun hc => ?_⟩
    rw [← startsWith_requestPath (by decide)] at hconnects
    exact ⟨fun h => hconnects ⟨hc, starts_of_shaped _ h⟩,
      fun h => hconnects ⟨hc, starts_of_yggdrasil h⟩⟩

/-- The backends answer a request alike exactly when it is plain. -/
theorem outcome_eq_iff (headers : List Header) (hlower : LowerCase headers)
    (htests : TestsAgree headers) :
    aioquicOutcome headers = tokioQuicheOutcome headers ↔ Plain headers := by
  by_cases hquery : '?' ∈ (sentPath headers).toList
  · rw [outcome_eq_of_query hlower htests hquery]
    refine ⟨fun h => ⟨fun _ => h.1, fun _ => h.2, fun _ hyggdrasil => ?_⟩, fun h => ⟨h.1 hquery, h.2 hquery⟩⟩
    rcases hyggdrasil with hpath | ⟨hpath, -⟩
    · exact absurd hpath (ne_of_query hquery (by decide))
    · exact absurd hpath (ne_of_query hquery (by decide))
  · rw [outcome_eq_of_no_query hlower htests hquery]
    exact ⟨fun h => ⟨fun hq => absurd hq hquery, fun hq => absurd hq hquery, h⟩, fun h => h.origin⟩

/-! ### A query, and an origin that is not UTF-8 -/

/-- A `CONNECT` that offers the protocol. -/
def connectRequest (path origin : Bytes) : List Header :=
  [(literal ":method", literal "CONNECT"), (literal ":protocol", literal "webtransport"),
    (literal ":path", path), (literal "origin", origin)] ++
    [(literal "wt-available-protocols", literal "\"quicast-wt-v0\"")]

theorem connectRequest_lowerCase (path origin : Bytes) : LowerCase (connectRequest path origin) := by
  simp only [LowerCase, connectRequest, List.cons_append, List.nil_append, List.forall_mem_cons]
  decide

theorem connectRequest_testsAgree (path origin : Bytes) : TestsAgree (connectRequest path origin) := by
  intro value hvalue
  rw [connectRequest, headerMap_snoc, if_pos (by decide)] at hvalue
  rw [← Option.some.inj hvalue]
  decide

def healthRequest (path : Bytes) : List Header :=
  [(literal ":method", literal "GET"), (literal ":path", path)]

/-- With a query the aioquic backend still shapes the response by the path, and a health check is
    still one; an origin of one byte that is not UTF-8 is reflected differently. -/
theorem query_distinguished :
    (LowerCase (connectRequest (literal "/wt/protocol?x=1") []) ∧
      TestsAgree (connectRequest (literal "/wt/protocol?x=1") []) ∧
      aioquicOutcome (connectRequest (literal "/wt/protocol?x=1") []) ≠
        tokioQuicheOutcome (connectRequest (literal "/wt/protocol?x=1") [])) ∧
    (LowerCase (healthRequest (literal "/healthz?")) ∧
      TestsAgree (healthRequest (literal "/healthz?")) ∧
      aioquicOutcome (healthRequest (literal "/healthz?")) = .health ∧
      tokioQuicheOutcome (healthRequest (literal "/healthz?")) = .notFound) ∧
    LowerCase (connectRequest (literal "/wt/yggdrasil") [0xFF]) ∧
      TestsAgree (connectRequest (literal "/wt/yggdrasil") [0xFF]) ∧
      aioquicOutcome (connectRequest (literal "/wt/yggdrasil") [0xFF]) ≠
        tokioQuicheOutcome (connectRequest (literal "/wt/yggdrasil") [0xFF]) := by
  refine ⟨⟨connectRequest_lowerCase _ _, connectRequest_testsAgree _ _, by decide⟩,
    ⟨by decide, ?_, by decide, by decide⟩,
    connectRequest_lowerCase _ _, connectRequest_testsAgree _ _, by decide⟩
  intro value hvalue
  cases hvalue

/-- On a path of the matrix, from an origin in ASCII, the answers are the same. -/
theorem connectRequest_outcome :
    aioquicOutcome (connectRequest (literal "/wt/auto") (literal "https://localhost:8443")) =
      tokioQuicheOutcome (connectRequest (literal "/wt/auto") (literal "https://localhost:8443")) := by
  refine (outcome_eq_iff _ (connectRequest_lowerCase _ _) (connectRequest_testsAgree _ _)).mpr
    ⟨fun h => absurd h (by decide), fun h => absurd h (by decide), ?_⟩
  intro _ _ origin horigin
  rw [show origin = literal "https://localhost:8443" from (Option.some.inj horigin).symm]
  exact ⟨_, rfl⟩

end WebTransportEcho.Backend
