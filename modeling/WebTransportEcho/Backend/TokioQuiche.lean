import Mathlib.Data.List.Infix
import Mathlib.Logic.Function.Basic
import WebTransportEcho.Backend.Quic

/-! The tokio-quiche backend, `tokio_quiche_wt_echo.rs`: the event loop of one connection. Requests
    are answered from their headers. Data of a bidirectional stream is echoed as it comes, data of a
    unidirectional one is kept until the stream ends and then echoed on a new stream. An echo is a
    command to the connection's worker. -/

namespace WebTransportEcho.TokioQuiche
open Backend

def wtUniStreamType : UInt64 := 0x54

def firstServerWtUniStreamId : UInt64 := 15

/-! ### Requests and responses -/

structure RequestHeaders where
  method : Option String := none
  protocol : Option String := none
  path : Option String := none
  origin : Option String := none
  wtAvailableProtocols : Option String := none

/-- One header of `RequestHeaders::from_headers`. -/
def RequestHeaders.add (out : RequestHeaders) (header : Header) : RequestHeaders :=
  let name := text header.1
  let value := text header.2
  if name = ":method" then { out with method := some value }
  else if name = ":protocol" then { out with protocol := some value }
  else if name = ":path" then { out with path := some value }
  else if name = "origin" then { out with origin := some value }
  else if name = "wt-available-protocols" then { out with wtAvailableProtocols := some value }
  else out

def RequestHeaders.fromHeaders (headers : List Header) : RequestHeaders :=
  headers.foldl RequestHeaders.add {}

def protocolCapsuleInit : List Header :=
  [(literal "wt-protocol", literal "\"quicast-wt-v0\""), (literal "capsule-protocol", literal "?1"),
    (literal "webtransport-init", literal "u=8388608, bl=8388608, br=8388608")]

/-- The value offers the protocol. -/
def negotiates (value : String) : Bool := decide ("quicast-wt-v0".toList <:+: value.toList)

def responseHeaders (path : String) (request : RequestHeaders) (status : Nat) : List Header :=
  let headers := [(literal ":status", literal (toString status))]
  if status ≠ 200 then headers
  else
    let negotiated := request.wtAvailableProtocols.any negotiates
    let yggdrasilShape := decide (path = "/wt/yggdrasil") || (decide (path = "/wt/auto") && negotiated)
    if path = "/wt/protocol" then headers ++ [(literal "wt-protocol", literal "\"quicast-wt-v0\"")]
    else if path = "/wt/capsule" then
      headers ++ [(literal "wt-protocol", literal "\"quicast-wt-v0\""),
        (literal "capsule-protocol", literal "?1")]
    else if path = "/wt/init" then headers ++ protocolCapsuleInit
    else if path = "/wt/draft" then
      headers ++ [(literal "sec-webtransport-http3-draft", literal "draft02")]
    else if yggdrasilShape then
      headers ++ (literal "server", literal "yggdrasil") :: protocolCapsuleInit ++
        match request.origin with
        | some origin => [(literal "access-control-allow-origin", literal origin),
            (literal "access-control-allow-credentials", literal "true"),
            (literal "vary", literal "origin")]
        | none => []
    else headers

def RequestHeaders.isHealth (request : RequestHeaders) : Bool :=
  decide (request.method = some "GET") && decide (request.path = some "/healthz")

def RequestHeaders.isWebtransport (request : RequestHeaders) : Bool :=
  decide (request.method = some "CONNECT") &&
    (decide (request.protocol = some "webtransport") ||
      decide (request.protocol = some "webtransport-h3")) &&
    request.path.any (startsWith "/wt")

def RequestHeaders.status (request : RequestHeaders) : Nat :=
  if request.isHealth || request.isWebtransport then 200 else 404

/-- The headers that are sent in response. -/
def RequestHeaders.response (request : RequestHeaders) : List Header :=
  responseHeaders (request.path.getD "/") request request.status

/-! ### Commands -/

/-- The bytes of a `u8` cast. -/
def byte (value : UInt64) : UInt8 := value.toUInt8

/-- `write_varint`. -/
def writeVarint (value : UInt64) (out : Bytes) : Bytes :=
  if value < (1 : UInt64) <<< 6 then out ++ [byte value]
  else if value < (1 : UInt64) <<< 14 then out ++ [byte (value >>> 8) ||| 0x40, byte value]
  else if value < (1 : UInt64) <<< 30 then
    out ++ [byte (value >>> 24) ||| 0x80, byte (value >>> 16), byte (value >>> 8), byte value]
  else
    out ++ [byte (value >>> 56) ||| 0xc0, byte (value >>> 48), byte (value >>> 40),
      byte (value >>> 32), byte (value >>> 24), byte (value >>> 16), byte (value >>> 8), byte value]

inductive Label where
  | bidiEcho | uniEcho
  deriving DecidableEq

def Label.text : Label → String
  | .bidiEcho => "bidi echo"
  | .uniEcho => "uni echo"

/-- What the worker is asked to send, with one call of `stream_send`. -/
structure Command where
  streamId : UInt64
  data : Bytes
  fin : Bool
  label : Label
  deriving DecidableEq

/-! ### The event loop -/

inductive Direction where
  | bidi | uni
  deriving DecidableEq

inductive OutboundFrame where
  | headers (headers : List Header)
  | body (data : Bytes) (fin : Bool)
  deriving DecidableEq

/-- What the driver reports. A request says whether its response's headers and its body can be sent;
    what the loop only logs is `other`. -/
inductive Event where
  | headers (streamId : UInt64) (headers : List Header) (sent bodySent : Bool)
  | streamData (sessionId streamId : UInt64) (direction : Direction) (data : Bytes) (fin : Bool)
  | resetStream (streamId : UInt64)
  | streamClosed (streamId : UInt64)
  | connectionError
  | connectionShutdown
  | other

/-- A session is its path, and a payload comes with its session. `commands` and `responses` are those
    issued so far, and `ended` says that the loop is over. -/
structure Connection where
  sessions : UInt64 → Option String
  uniPayloads : UInt64 → Option (UInt64 × Bytes)
  nextServerUniStreamId : UInt64
  commands : List Command
  responses : List (UInt64 × OutboundFrame)
  ended : Bool

def Connection.queueStreamSend (c : Connection) (command : Command) : Connection :=
  { c with commands := c.commands ++ [command] }

def Connection.respond (c : Connection) (streamId : UInt64) (frame : OutboundFrame) : Connection :=
  { c with responses := c.responses ++ [(streamId, frame)] }

/-- The maps go with the loop. -/
def Connection.stop (c : Connection) : Connection :=
  { c with sessions := fun _ => none, uniPayloads := fun _ => none, ended := true }

/-- `handle_headers`, whose error ends the loop. -/
def handleHeaders (c : Connection) (streamId : UInt64) (headers : List Header)
    (sent bodySent : Bool) : Connection :=
  let request := RequestHeaders.fromHeaders headers
  if !sent then c.stop
  else
    let c := c.respond streamId (.headers request.response)
    if request.isHealth then
      if bodySent then c.respond streamId (.body (literal "ok\n") true) else c.stop
    else if request.status ≠ 200 then
      if bodySent then c.respond streamId (.body [] true) else c
    else { c with sessions := Function.update c.sessions streamId (some (request.path.getD "/")) }

/-- The command of the echo of a stream's payload. -/
def uniEcho (serverStreamId sessionId : UInt64) (payload : Bytes) : Command where
  streamId := serverStreamId
  data := writeVarint sessionId (writeVarint wtUniStreamType []) ++ payload
  fin := true
  label := .uniEcho

def handleUni (c : Connection) (sessionId streamId : UInt64) (data : Bytes) (fin : Bool) :
    Connection :=
  let (sessionId, payload) := (c.uniPayloads streamId).getD (sessionId, [])
  let payload := payload ++ data
  if fin then
    { c with
      uniPayloads := Function.update c.uniPayloads streamId none
      nextServerUniStreamId := c.nextServerUniStreamId + 4 }.queueStreamSend
      (uniEcho c.nextServerUniStreamId sessionId payload)
  else { c with uniPayloads := Function.update c.uniPayloads streamId (some (sessionId, payload)) }

def handleEvent (c : Connection) : Event → Connection
  | .headers streamId headers sent bodySent => handleHeaders c streamId headers sent bodySent
  | .streamData sessionId streamId direction data fin =>
    match direction with
    | .bidi => c.queueStreamSend { streamId, data, fin, label := .bidiEcho }
    | .uni => handleUni c sessionId streamId data fin
  | .resetStream streamId =>
    { c with
      sessions := Function.update c.sessions streamId none
      uniPayloads := Function.update c.uniPayloads streamId none }
  | .streamClosed streamId =>
    { c with
      sessions := Function.update c.sessions streamId none
      uniPayloads := Function.update c.uniPayloads streamId none }
  | .connectionError => c.stop
  | .connectionShutdown => c.stop
  | .other => c

/-- One turn of the loop, unless it is over. -/
def turn (c : Connection) (e : Event) : Connection := if c.ended then c else handleEvent c e

def newConnection : Connection where
  sessions _ := none
  uniPayloads _ := none
  nextServerUniStreamId := firstServerWtUniStreamId
  commands := []
  responses := []
  ended := false

/-- `serve_connection`. -/
def serve (events : List Event) : Connection := events.foldl turn newConnection

end WebTransportEcho.TokioQuiche
