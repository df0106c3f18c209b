import WebTransportEcho.Backend.Quic

/-! The aioquic backend, `aioquic-wt-echo.py`: what its protocol does with the events of one HTTP/3
    connection. It answers a request from its headers and echoes each datagram and each piece of
    stream data of an accepted session as it comes. What it hands to aioquic is recorded in order. -/

namespace WebTransportEcho.Aioquic
open Backend

def quicastProtocol : Bytes := literal "quicast-wt-v0"

def webtransportInit : Bytes := literal "u=8388608, bl=8388608, br=8388608"

/-! ### Request headers -/

/-- `name.lower()`, which is about ASCII letters. -/
def lower (name : Bytes) : Bytes := name.map fun b => if 0x41 ≤ b ∧ b ≤ 0x5A then b + 0x20 else b

/-- `header_map`: of headers with one name the last counts. -/
def headerMap (headers : List Header) (name : Bytes) : Option Bytes :=
  (headers.reverse.find? fun h => decide (lower h.1 = name)).map Prod.snd

/-- What `str.strip` takes for white space. -/
def isSpace (c : Char) : Bool :=
  let n := c.toNat
  (9 ≤ n && n ≤ 13) || (0x1C ≤ n && n ≤ 0x20) || n = 0x85 || n = 0xA0 || n = 0x1680 ||
    (0x2000 ≤ n && n ≤ 0x200A) || n = 0x2028 || n = 0x2029 || n = 0x202F || n = 0x205F || n = 0x3000

/-- `item.strip(…)`. -/
def strip (drop : Char → Bool) (item : List Char) : List Char :=
  ((item.dropWhile drop).reverse.dropWhile drop).reverse

def availableProtocolsContains (value protocol : Bytes) : Bool :=
  ((Utf8.decode value).splitOn ',').any fun item =>
    let token := strip (fun c => c = '"') (strip isSpace (item.takeWhile fun c => c ≠ ';'))
    decide (Utf8.encode token = protocol)

/-! ### Responses -/

/-- A path that is none of these has a basic response. -/
def responseHeaders (path : String) (requestHeaders : List Header) : List Header :=
  let status := [(literal ":status", literal "200")]
  let shape :=
    if path = "/wt/protocol" then [(literal "wt-protocol", literal "\"quicast-wt-v0\"")]
    else if path = "/wt/capsule" then
      [(literal "wt-protocol", literal "\"quicast-wt-v0\""), (literal "capsule-protocol", literal "?1")]
    else if path = "/wt/init" then
      [(literal "wt-protocol", literal "\"quicast-wt-v0\""), (literal "capsule-protocol", literal "?1"),
        (literal "webtransport-init", webtransportInit)]
    else if path = "/wt/draft" then [(literal "sec-webtransport-http3-draft", literal "draft02")]
    else []
  let available := (headerMap requestHeaders (literal "wt-available-protocols")).getD []
  let yggdrasil :=
    if path = "/wt/yggdrasil" ∨
        (path = "/wt/auto" ∧ availableProtocolsContains available quicastProtocol = true) then
      let origin := match headerMap requestHeaders (literal "origin") with
        | some origin => [(literal "access-control-allow-origin", origin),
            (literal "access-control-allow-credentials", literal "true"),
            (literal "vary", literal "origin")]
        | none => []
      [(literal "server", literal "yggdrasil"), (literal "wt-protocol", literal "\"quicast-wt-v0\""),
        (literal "capsule-protocol", literal "?1"), (literal "webtransport-init", webtransportInit)] ++
        origin
    else []
  status ++ shape ++ yggdrasil

/-- What is done about a request. -/
inductive Decision where
  | health
  | accepted (path : String) (response : List Header)
  | rejected

/-- `:path` up to its query. -/
def requestPath (headers : List Header) : String :=
  String.ofList ((text ((headerMap headers (literal ":path")).getD (literal "/"))).toList.takeWhile
    fun c => c ≠ '?')

def decideRequest (headers : List Header) : Decision :=
  let method := text ((headerMap headers (literal ":method")).getD [])
  let protocol := text ((headerMap headers (literal ":protocol")).getD [])
  let path := requestPath headers
  if method = "GET" ∧ path = "/healthz" then .health
  else if method = "CONNECT" ∧ (protocol = "webtransport" ∨ protocol = "webtransport-h3") ∧
      startsWith "/wt" path = true then .accepted path (responseHeaders path headers)
  else .rejected

/-! ### The protocol -/

/-- What is handed to aioquic. -/
inductive Effect where
  | sendHeaders (streamId : Nat) (headers : List Header) (endStream : Bool)
  | sendData (streamId : Nat) (data : Bytes) (endStream : Bool)
  | sendDatagram (sessionId : Nat) (data : Bytes)
  | createStream (sessionId streamId : Nat)
  | sendStreamData (streamId : Nat) (data : Bytes) (endStream : Bool)
  deriving DecidableEq

inductive Event where
  | headers (streamId : Nat) (headers : List Header)
  | datagram (sessionId : Nat) (data : Bytes)
  | streamData (sessionId streamId : Nat) (data : Bytes) (streamEnded : Bool)

/-- `sessions` are the paths of the accepted sessions, and `opened` is how many unidirectional streams
    aioquic has opened for it. -/
structure Protocol where
  sessions : Nat → Option String
  opened : Nat
  effects : List Effect

def Protocol.emit (p : Protocol) (effects : List Effect) : Protocol :=
  { p with effects := p.effects ++ effects }

def handleHeaders (p : Protocol) (streamId : Nat) (headers : List Header) : Protocol :=
  match decideRequest headers with
  | .health =>
    p.emit [.sendHeaders streamId [(literal ":status", literal "200"),
        (literal "content-type", literal "text/plain; charset=utf-8"),
        (literal "content-length", literal "3"), (literal "cache-control", literal "no-store")] false,
      .sendData streamId (literal "ok\n") true]
  | .accepted path response =>
    { p with sessions := Function.update p.sessions streamId (some path) }.emit
      [.sendHeaders streamId response false]
  | .rejected =>
    p.emit [.sendHeaders streamId [(literal ":status", literal "404"),
      (literal "cache-control", literal "no-store")] true]

def handleDatagram (p : Protocol) (sessionId : Nat) (data : Bytes) : Protocol :=
  match p.sessions sessionId with
  | none => p
  | some _ => p.emit [.sendDatagram sessionId data]

/-- `ids` are the ids of the unidirectional streams that aioquic opens, in order. -/
def handleWebtransportStream (ids : Nat → Nat) (p : Protocol) (sessionId streamId : Nat)
    (data : Bytes) (streamEnded : Bool) : Protocol :=
  match p.sessions sessionId with
  | none => p
  | some _ =>
    if isUnidirectional streamId then
      { p with opened := p.opened + 1 }.emit [.createStream sessionId (ids p.opened),
        .sendStreamData (ids p.opened) data streamEnded]
    else p.emit [.sendStreamData streamId data streamEnded]

def handleEvent (ids : Nat → Nat) (p : Protocol) : Event → Protocol
  | .headers streamId headers => handleHeaders p streamId headers
  | .datagram sessionId data => handleDatagram p sessionId data
  | .streamData sessionId streamId data streamEnded =>
    handleWebtransportStream ids p sessionId streamId data streamEnded

/-- A new connection. -/
def newProtocol : Protocol where
  sessions _ := none
  opened := 0
  effects := []

def run (ids : Nat → Nat) (events : List Event) : Protocol :=
  events.foldl (handleEvent ids) newProtocol

end WebTransportEcho.Aioquic
