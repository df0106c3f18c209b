import Mathlib.Data.List.AList
import WebTransportEcho.Backend.Aioquic

/-! The client of `aioquic-h3-health.py`. Its calls run concurrently on one connection: a call sends,
    leaves a future with the protocol, and awaits it. `quic_event_received` settles the futures from
    what arrives, which aioquic has parsed, and an exception in it leaves the rest of an event
    unhandled. The futures are numbered in the order of the calls. -/

namespace WebTransportEcho.Health
open Backend
open Aioquic (Effect)

/-! ### Texts -/

/-- `dict(headers).get(b":status")`. -/
def status (headers : List Header) : Option Bytes :=
  (headers.reverse.find? fun h => decide (h.1 = literal ":status")).map Prod.snd

def isSpace (b : UInt8) : Bool := decide (0x09 ≤ b ∧ b ≤ 0x0D) || decide (b = 0x20)

def isDigit (b : UInt8) : Bool := decide (0x30 ≤ b ∧ b ≤ 0x39)

/-- The most digits that `int` takes. -/
def maxStrDigits : Nat := 4300

/-- `int(text)`; `none` is a `ValueError`. Single underscores may stand between digits. -/
def int (text : Bytes) : Option Int :=
  let text := ((text.dropWhile isSpace).reverse.dropWhile isSpace).reverse
  let digits := match text with
    | 0x2B :: rest => rest
    | 0x2D :: rest => rest
    | rest => rest
  let groups := digits.splitOn 0x5F
  let value := (groups.flatten.foldl (fun n b => 10 * n + (b.toNat - 0x30)) 0 : Nat)
  if groups.all (fun g => !g.isEmpty && g.all isDigit) ∧ groups.flatten.length ≤ maxStrDigits then
    some (if text.head? = some 0x2D then -(value : Int) else value)
  else none

example : int (literal " 200\n") = some 200 ∧ int (literal "-1_0") = some (-10) ∧
    int (literal "2__0") = none ∧ int (literal "") = none := by decide

/-! ### Futures -/

/-- What a future is set to; `refused` and `closed` are exceptions. -/
inductive Outcome where
  | response (status : Option Int) (body : String)
  | session (sessionId : Nat)
  | echo (data : Bytes)
  | refused (status : Option Bytes)
  | closed (errorCode : Nat) (reasonPhrase : String)

structure Request where
  body : Bytes
  status : Option Int
  waiter : Nat

structure Echo where
  body : Bytes
  waiter : Nat

/-- `waiters` are the futures, and `opened` is how many bidirectional streams were opened. -/
structure Protocol where
  requests : AList fun _ : Nat => Request
  sessions : AList fun _ : Nat => Nat
  streamEchoes : AList fun _ : Nat => Echo
  datagramEchoes : AList fun _ : Nat => Nat
  waiters : List (Option Outcome)
  opened : Nat
  effects : List Effect

def newProtocol : Protocol where
  requests := ∅
  sessions := ∅
  streamEchoes := ∅
  datagramEchoes := ∅
  waiters := []
  opened := 0
  effects := []

/-- `waiter.done()`. -/
def Protocol.done (p : Protocol) (waiter : Nat) : Bool := (p.waiters[waiter]?.join).isSome

/-- The future is set unless it is done. -/
def Protocol.settle (p : Protocol) (waiter : Nat) (outcome : Outcome) : Protocol :=
  { p with waiters := p.waiters.modify waiter fun settled => settled.or (some outcome) }

/-! ### Calls -/

/-- What is called, up to its await. -/
inductive Call where
  | get (authority path : String)
  | openWebtransport (authority path : String)
  | bidiEcho (sessionId : Nat) (payload : Bytes)
  | datagramEcho (sessionId : Nat) (payload : Bytes)

def getHeaders (authority path : String) : List Header :=
  [(literal ":method", literal "GET"), (literal ":scheme", literal "https"),
    (literal ":authority", literal authority), (literal ":path", literal path),
    (literal "user-agent", literal "quicast-wttest-health/1")]

def connectHeaders (authority path : String) : List Header :=
  [(literal ":method", literal "CONNECT"), (literal ":scheme", literal "https"),
    (literal ":authority", literal authority), (literal ":path", literal path),
    (literal ":protocol", literal "webtransport"),
    (literal "user-agent", literal "quicast-wttest-health/1")]

/-- `create_future`, with what is sent. -/
def Protocol.await (p : Protocol) (effects : List Effect) : Protocol :=
  { p with waiters := p.waiters ++ [none], effects := p.effects ++ effects }

def Protocol.get (p : Protocol) (streamId : Nat) (authority path : String) : Protocol :=
  { p with
    requests := p.requests.insert streamId { body := [], status := none, waiter := p.waiters.length }
    opened := p.opened + 1 }.await [.sendHeaders streamId (getHeaders authority path) true]

def Protocol.openWebtransport (p : Protocol) (streamId : Nat) (authority path : String) : Protocol :=
  { p with
    sessions := p.sessions.insert streamId p.waiters.length
    opened := p.opened + 1 }.await [.sendHeaders streamId (connectHeaders authority path) false]

def Protocol.bidiEcho (p : Protocol) (streamId sessionId : Nat) (payload : Bytes) : Protocol :=
  { p with
    streamEchoes := p.streamEchoes.insert streamId { body := [], waiter := p.waiters.length }
    opened := p.opened + 1 }.await
      [.createStream sessionId streamId, .sendStreamData streamId payload true]

/-- A call that waits for a datagram of the session no longer does. -/
def Protocol.datagramEcho (p : Protocol) (sessionId : Nat) (payload : Bytes) : Protocol :=
  { p with datagramEchoes := p.datagramEchoes.insert sessionId p.waiters.length }.await
    [.sendDatagram sessionId payload]

/-- The id of a client's `n`th bidirectional stream. -/
def clientStream (n : Nat) : Nat := 4 * n

def Protocol.call (p : Protocol) : Call → Protocol
  | .get authority path => p.get (clientStream p.opened) authority path
  | .openWebtransport authority path => p.openWebtransport (clientStream p.opened) authority path
  | .bidiEcho sessionId payload => p.bidiEcho (clientStream p.opened) sessionId payload
  | .datagramEcho sessionId payload => p.datagramEcho sessionId payload

/-! ### `quic_event_received` -/

/-- What `H3Connection.handle_event` returns. The id of a datagram is its stream's or its flow's. -/
inductive HttpEvent where
  | headers (streamId : Nat) (headers : List Header) (streamEnded : Bool)
  | data (streamId : Nat) (data : Bytes) (streamEnded : Bool)
  | datagram (streamId : Nat) (data : Bytes)
  | webtransportData (streamId : Nat) (data : Bytes) (streamEnded : Bool)
  deriving DecidableEq

/-- Each event comes with what aioquic makes of it when it is asked. -/
inductive Event where
  | streamData (streamId : Nat) (data : Bytes) (endStream : Bool) (http : List HttpEvent)
  | terminated (errorCode : Nat) (reasonPhrase : String)
  | other (http : List HttpEvent)

/-- What is raised. -/
inductive Raised where
  | invalidState | valueError

def Protocol.receiveEcho (p : Protocol) (streamId : Nat) (echo : Echo) (data : Bytes)
    (ended : Bool) : Protocol :=
  let echo := { echo with body := echo.body ++ data }
  if ended then
    { p with streamEchoes := p.streamEchoes.erase streamId }.settle echo.waiter (.echo echo.body)
  else { p with streamEchoes := p.streamEchoes.insert streamId echo }

/-- `if http_event.stream_ended`. -/
def Protocol.receiveResponse (p : Protocol) (streamId : Nat) (request : Request) (ended : Bool) :
    Protocol :=
  if ended then
    { p with requests := p.requests.erase streamId }.settle request.waiter
      (.response request.status (text request.body))
  else { p with requests := p.requests.insert streamId request }

/-- The future of a session is set without a look at whether it is done. -/
def Protocol.receiveSession (p : Protocol) (streamId waiter : Nat) (headers : List Header) :
    Protocol × Option Raised :=
  let p := { p with sessions := p.sessions.erase streamId }
  if p.done waiter then (p, some .invalidState)
  else if status headers = some (literal "200") then (p.settle waiter (.session streamId), none)
  else (p.settle waiter (.refused (status headers)), none)

def handleHttpEvent (p : Protocol) : HttpEvent → Protocol × Option Raised
  | .datagram streamId data =>
    match p.datagramEchoes.lookup streamId with
    | none => (p, none)
    | some waiter =>
      ({ p with datagramEchoes := p.datagramEchoes.erase streamId }.settle waiter (.echo data), none)
  | .headers streamId headers ended =>
    match p.sessions.lookup streamId, p.requests.lookup streamId with
    | some waiter, _ => p.receiveSession streamId waiter headers
    | none, none => (p, none)
    | none, some request =>
      match status headers with
      | none => (p.receiveResponse streamId { request with status := none } ended, none)
      | some text =>
        match int text with
        | none => (p, some .valueError)
        | some n => (p.receiveResponse streamId { request with status := some n } ended, none)
  | .webtransportData streamId data ended =>
    match p.streamEchoes.lookup streamId with
    | none => (p, none)
    | some echo => (p.receiveEcho streamId echo data ended, none)
  | .data streamId data ended =>
    match p.requests.lookup streamId with
    | none => (p, none)
    | some request =>
      (p.receiveResponse streamId { request with body := request.body ++ data } ended, none)

/-- The loop, up to an exception. -/
def handleHttpEvents (p : Protocol) : List HttpEvent → Protocol
  | [] => p
  | e :: rest =>
    match handleHttpEvent p e with
    | (p, none) => handleHttpEvents p rest
    | (p, some _) => p

/-- The futures of all that is waited for. -/
def Protocol.awaited (p : Protocol) : List Nat :=
  (p.requests.entries.map fun e => e.2.waiter) ++ (p.sessions.entries.map fun e => e.2) ++
    (p.streamEchoes.entries.map fun e => e.2.waiter) ++ p.datagramEchoes.entries.map fun e => e.2

def quicEventReceived (p : Protocol) : Event → Protocol
  | .streamData streamId data endStream http =>
    match p.streamEchoes.lookup streamId with
    | some echo => p.receiveEcho streamId echo data endStream
    | none => handleHttpEvents p http
  | .terminated errorCode reasonPhrase =>
    p.awaited.foldl (fun p waiter => p.settle waiter (.closed errorCode reasonPhrase)) p
  | .other http => handleHttpEvents p http

end WebTransportEcho.Health
