import Mathlib.Data.List.Nodup
import WebTransportEcho.Delivery
import WebTransportEcho.Health.Protocol

/-! The health client and a server, with a network between them. Streams keep their order and their
    bytes but are cut anew, datagrams may be lost, doubled or overtake each other, and a call can be
    made at any time. The server is any that answers requests as its policy says and sends back what
    it receives on a stream or in a datagram (`Echoes`). Then every future that is settled has the
    answer that its own call asked for, whatever else is on the connection. -/

namespace WebTransportEcho.Health
open Backend Delivery
open Aioquic (Effect)

/-! ### What is sent and what arrives -/

/-- A part of a request or a response. -/
inductive Part where
  | headers (headers : List Header)
  | byte (b : UInt8)
  deriving DecidableEq

def sentPart (streamId : Nat) : Effect → Option (Segment Part)
  | .sendHeaders s headers ended => if s = streamId then some ([.headers headers], ended) else none
  | .sendData s data ended => if s = streamId then some (data.map .byte, ended) else none
  | _ => none

def sentHeaders (streamId : Nat) : Effect → Option (List Header)
  | .sendHeaders s headers _ => if s = streamId then some headers else none
  | _ => none

def sentBytes (streamId : Nat) : Effect → Option (Segment UInt8)
  | .sendStreamData s data ended => if s = streamId then some (data, ended) else none
  | _ => none

def heardHeaders (streamId : Nat) : Aioquic.Event → Option (List Header)
  | .headers s headers => if s = streamId then some headers else none
  | _ => none

def heardBytes (streamId : Nat) : Aioquic.Event → Option (Segment UInt8)
  | .streamData _ s data ended => if s = streamId then some (data, ended) else none
  | _ => none

/-- What an event brings to the client, piece by piece. -/
inductive Heard where
  | bytes (streamId : Nat) (data : Bytes) (ended : Bool)
  | http (e : HttpEvent)
  | terminated
  deriving DecidableEq

def Event.heard : Event → List Heard
  | .streamData streamId data ended http => .bytes streamId data ended :: http.map .http
  | .terminated _ _ => [.terminated]
  | .other http => http.map .http

def partOf (streamId : Nat) : Heard → Option (Segment Part)
  | .http (.headers s headers ended) => if s = streamId then some ([.headers headers], ended) else none
  | .http (.data s data ended) => if s = streamId then some (data.map .byte, ended) else none
  | _ => none

def bytesOf (streamId : Nat) : Heard → Option (Segment UInt8)
  | .bytes s data ended => if s = streamId then some (data, ended) else none
  | _ => none

/-! ### The server -/

/-- A server by what it has sent after some events. Not every event comes from the client, and
    `reliable` is what is assumed of the others. -/
structure Server (ε : Type) where
  hears : ε → Option Aioquic.Event
  sent : List ε → List Effect
  reliable : List ε → Prop

/-- Which paths are healthy, which can be connected to, and how a request is responded to. -/
structure Policy where
  healthy : String → Bool
  accepts : String → Bool
  respond : List Header → List (Segment Part)

/-- How the client reads one part of a response. -/
def readPart (response : Option Int × Bytes) : Part → Option (Option Int × Bytes)
  | .headers headers =>
    match status headers with
    | none => some (none, response.2)
    | some text => (int text).map fun n => (some n, response.2)
  | .byte b => some (response.1, response.2 ++ [b])

def readParts (parts : List Part) : Option (Option Int × Bytes) := parts.foldlM readPart (none, [])

/-- What a request for a path is answered with. -/
def Policy.health (policy : Policy) (path : String) : Option Int × Bytes :=
  if policy.healthy path then (some 200, literal "ok\n") else (some 404, [])

structure Policy.Sound (policy : Policy) : Prop where
  get : ∀ authority path, readParts (content (policy.respond (getHeaders authority path))) =
    some (policy.health path)
  connect : ∀ authority path, ∃ headers rest,
    content (policy.respond (connectHeaders authority path)) = .headers headers :: rest ∧
      status headers = some (literal (if policy.accepts path then "200" else "404"))

/-- The server has heard a request for a session that it accepts. -/
def Policy.Accepted (policy : Policy) (heard : List Aioquic.Event) (sessionId : Nat) : Prop :=
  ∃ authority path, policy.accepts path = true ∧
    Aioquic.Event.headers sessionId (connectHeaders authority path) ∈ heard

/-- No stream data comes before its session is accepted. -/
def Policy.InOrder (policy : Policy) (heard : List Aioquic.Event) : Prop :=
  ∀ front sessionId streamId data ended,
    front ++ [.streamData sessionId streamId data ended] <+: heard → policy.Accepted front sessionId

/-- The server does what the policy says, and echoes. -/
structure Server.Echoes {ε : Type} (server : Server ε) (policy : Policy) : Prop where
  sound : policy.Sound
  reliable : ∀ up e, server.reliable (up ++ [e]) → server.reliable up
  messages : ∀ up, server.reliable up → ∀ streamId,
    Follows (((up.filterMap server.hears).filterMap (heardHeaders streamId)).flatMap policy.respond)
      ((server.sent up).filterMap (sentPart streamId))
  streams : ∀ up, server.reliable up → policy.InOrder (up.filterMap server.hears) → ∀ n,
    Follows ((up.filterMap server.hears).filterMap (heardBytes (clientStream n)))
      ((server.sent up).filterMap (sentBytes (clientStream n)))
  datagrams : ∀ up, server.reliable up → ∀ sessionId data,
    Effect.sendDatagram sessionId data ∈ server.sent up →
      Aioquic.Event.datagram sessionId data ∈ up.filterMap server.hears

/-! ### The system -/

/-- Each call comes with the stream it opened, or with the session of its datagram. `up` is what has
    happened to the server, and `down` what has arrived at the client. -/
structure System (ε : Type) where
  client : Protocol
  calls : List (Call × Nat)
  up : List ε
  down : List Heard

def newSystem (ε : Type) : System ε where
  client := newProtocol
  calls := []
  up := []
  down := []

/-- The stream of a call that is made now, or its session. -/
def Protocol.target (p : Protocol) : Call → Nat
  | .datagramEcho sessionId _ => sessionId
  | _ => clientStream p.opened

/-- Streams are only opened in sessions that a call has returned. -/
def Protocol.Permits (p : Protocol) : Call → Prop
  | .bidiEcho sessionId _ => some (.session sessionId) ∈ p.waiters
  | _ => True

/-- What the server hears, the client has sent. -/
structure Arrives (sent : List Effect) (heard : List Aioquic.Event) : Prop where
  requests : ∀ streamId,
    heard.filterMap (heardHeaders streamId) <+: sent.filterMap (sentHeaders streamId)
  streams : ∀ n, Carried (sent.filterMap (sentBytes (clientStream n)))
    (heard.filterMap (heardBytes (clientStream n)))
  sessions : ∀ sessionId streamId data ended,
    Aioquic.Event.streamData sessionId streamId data ended ∈ heard →
      Effect.createStream sessionId streamId ∈ sent
  datagrams : ∀ sessionId data, Aioquic.Event.datagram sessionId data ∈ heard →
    Effect.sendDatagram sessionId data ∈ sent

/-- What arrives at the client, the server has sent. A stream with a request carries frames, which
    aioquic reads; of its own streams the client opens no other for which aioquic is asked. -/
structure Returns (requested sent : List Effect) (down : List Heard) : Prop where
  messages : ∀ streamId,
    Carried (sent.filterMap (sentPart streamId)) (down.filterMap (partOf streamId))
  streams : ∀ n, requested.filterMap (sentHeaders (clientStream n)) = [] →
    Carried (sent.filterMap (sentBytes (clientStream n))) (down.filterMap (bytesOf (clientStream n)))
  datagrams : ∀ sessionId data, Heard.http (.datagram sessionId data) ∈ down →
    Effect.sendDatagram sessionId data ∈ sent
  foreign : ∀ streamId data ended, Heard.http (.webtransportData streamId data ended) ∈ down →
    isServerInitiated streamId = true

/-- Aioquic is not asked about a stream that was opened for an echo. -/
def Event.Unasked (requested : List Effect) : Event → Prop
  | .streamData streamId _ _ http =>
    ∀ sessionId, Effect.createStream sessionId streamId ∈ requested → http = []
  | _ => True

/-! These can be decided: only what has come has to be looked at. -/

theorem clientStream_iff (s : Nat) : s % 4 = 0 ↔ ∃ n, s = clientStream n :=
  ⟨fun h => ⟨s / 4, by rw [clientStream]; omega⟩, fun ⟨n, hn⟩ => by rw [hn, clientStream]; omega⟩

/-- What has to be of an event that the server heard. -/
def Sent (sent : List Effect) (heard : List Aioquic.Event) : Aioquic.Event → Prop
  | .headers s _ => heard.filterMap (heardHeaders s) <+: sent.filterMap (sentHeaders s)
  | .streamData sessionId s _ _ => .createStream sessionId s ∈ sent ∧
      (s % 4 = 0 → Carried (sent.filterMap (sentBytes s)) (heard.filterMap (heardBytes s)))
  | .datagram sessionId data => .sendDatagram sessionId data ∈ sent

theorem arrives_iff {sent : List Effect} {heard : List Aioquic.Event} :
    Arrives sent heard ↔ ∀ e ∈ heard, Sent sent heard e := by
  refine ⟨fun h e he => ?_, fun h => ⟨fun s => ?_, fun n => ?_, fun sessionId s data ended hmem =>
    (h _ hmem).1, fun sessionId data hmem => h _ hmem⟩⟩
  · cases e with
    | headers s headers => exact h.requests s
    | streamData sessionId s data ended =>
      refine ⟨h.sessions sessionId s data ended he, fun hs => ?_⟩
      obtain ⟨n, rfl⟩ := (clientStream_iff s).mp hs
      exact h.streams n
    | datagram sessionId data => exact h.datagrams sessionId data he
  · cases hheard : heard.filterMap (heardHeaders s) with
    | nil => exact List.nil_prefix
    | cons headers rest =>
      obtain ⟨e, he, hs⟩ := List.mem_filterMap.mp (hheard ▸ List.mem_cons_self)
      cases e with
      | headers s' headers' =>
        obtain ⟨rfl, -⟩ := Option.ite_none_right_eq_some.mp hs
        exact hheard ▸ h _ he
      | streamData | datagram => cases hs
  · cases hheard : heard.filterMap (heardBytes (clientStream n)) with
    | nil => exact carried_nil _
    | cons segment rest =>
      obtain ⟨e, he, hs⟩ := List.mem_filterMap.mp (hheard ▸ List.mem_cons_self)
      cases e with
      | streamData sessionId s data ended =>
        obtain ⟨rfl, -⟩ := Option.ite_none_right_eq_some.mp hs
        exact hheard ▸ (h _ he).2 ((clientStream_iff _).mpr ⟨n, rfl⟩)
      | headers | datagram => cases hs

/-- What has to be of a piece that the client heard. -/
def Returned (requested sent : List Effect) (down : List Heard) : Heard → Prop
  | .http (.headers s _ _) => Carried (sent.filterMap (sentPart s)) (down.filterMap (partOf s))
  | .http (.data s _ _) => Carried (sent.filterMap (sentPart s)) (down.filterMap (partOf s))
  | .http (.datagram sessionId data) => .sendDatagram sessionId data ∈ sent
  | .http (.webtransportData s _ _) => isServerInitiated s = true
  | .bytes s _ _ => s % 4 = 0 → requested.filterMap (sentHeaders s) = [] →
      Carried (sent.filterMap (sentBytes s)) (down.filterMap (bytesOf s))
  | .terminated => True

theorem returns_iff {requested sent : List Effect} {down : List Heard} :
    Returns requested sent down ↔ ∀ x ∈ down, Returned requested sent down x := by
  refine ⟨fun h x hx => ?_, fun h => ⟨fun s => ?_, fun n hn => ?_, fun sessionId data hmem => h _ hmem,
    fun s data ended hmem => h _ hmem⟩⟩
  · cases x with
    | http e =>
      cases e with
      | headers s | data s => exact h.messages s
      | datagram sessionId data => exact h.datagrams sessionId data hx
      | webtransportData s data ended => exact h.foreign s data ended hx
    | bytes s data ended =>
      intro hs hnone
      obtain ⟨n, rfl⟩ := (clientStream_iff s).mp hs
      exact h.streams n hnone
    | terminated => trivial
  · cases hdown : down.filterMap (partOf s) with
    | nil => exact carried_nil _
    | cons segment rest =>
      obtain ⟨x, hx, hs⟩ := List.mem_filterMap.mp (hdown ▸ List.mem_cons_self)
      cases x with
      | http e =>
        cases e with
        | headers | data =>
          obtain ⟨rfl, -⟩ := Option.ite_none_right_eq_some.mp hs
          exact hdown ▸ h _ hx
        | datagram | webtransportData => cases hs
      | bytes | terminated => cases hs
  · cases hdown : down.filterMap (bytesOf (clientStream n)) with
    | nil => exact carried_nil _
    | cons segment rest =>
      obtain ⟨x, hx, hs⟩ := List.mem_filterMap.mp (hdown ▸ List.mem_cons_self)
      cases x with
      | bytes s data ended =>
        obtain ⟨rfl, -⟩ := Option.ite_none_right_eq_some.mp hs
        exact hdown ▸ h _ hx ((clientStream_iff _).mpr ⟨n, rfl⟩) hn
      | http | terminated => cases hs

instance (sent : List Effect) (heard : List Aioquic.Event) :
    (e : Aioquic.Event) → Decidable (Sent sent heard e)
  | .headers _ _ => inferInstanceAs (Decidable (_ <+: _))
  | .streamData _ _ _ _ => inferInstanceAs (Decidable (_ ∧ (_ → _)))
  | .datagram _ _ => inferInstanceAs (Decidable (_ ∈ _))

instance (sent : List Effect) (heard : List Aioquic.Event) : Decidable (Arrives sent heard) :=
  decidable_of_iff _ arrives_iff.symm

instance (requested sent : List Effect) (down : List Heard) :
    (x : Heard) → Decidable (Returned requested sent down x)
  | .http (.headers _ _ _) => inferInstanceAs (Decidable (Carried _ _))
  | .http (.data _ _ _) => inferInstanceAs (Decidable (Carried _ _))
  | .http (.datagram _ _) => inferInstanceAs (Decidable (_ ∈ _))
  | .http (.webtransportData _ _ _) => inferInstanceAs (Decidable (_ = _))
  | .bytes _ _ _ => inferInstanceAs (Decidable (_ → _ → _))
  | .terminated => inferInstanceAs (Decidable True)

instance (requested sent : List Effect) (down : List Heard) : Decidable (Returns requested sent down) :=
  decidable_of_iff _ returns_iff.symm

/-- The stream is opened for an echo. -/
def creates (streamId : Nat) : Effect → Bool
  | .createStream _ s => decide (s = streamId)
  | _ => false

theorem unasked_iff {requested : List Effect} {s : Nat} {data : Bytes} {ended : Bool}
    {http : List HttpEvent} : Event.Unasked requested (.streamData s data ended http) ↔
      (∃ x ∈ requested, creates s x = true) → http = [] := by
  refine ⟨fun h ⟨x, hx, hcreates⟩ => ?_, fun h sessionId hmem => h ⟨_, hmem, by simp [creates]⟩⟩
  cases x with
  | createStream sessionId s' =>
    obtain rfl := of_decide_eq_true hcreates
    exact h sessionId hx
  | sendHeaders | sendData | sendDatagram | sendStreamData => cases hcreates

instance (requested : List Effect) : (e : Event) → Decidable (e.Unasked requested)
  | .streamData _ _ _ _ => decidable_of_iff _ unasked_iff.symm
  | .terminated _ _ => inferInstanceAs (Decidable True)
  | .other _ => inferInstanceAs (Decidable True)

section

variable {ε : Type}

def System.call (m : System ε) (c : Call) : System ε :=
  { m with client := m.client.call c, calls := m.calls ++ [(c, m.client.target c)] }

def System.hear (m : System ε) (e : ε) : System ε := { m with up := m.up ++ [e] }

def System.receive (m : System ε) (e : Event) : System ε :=
  { m with client := quicEventReceived m.client e, down := m.down ++ e.heard }

/-- The end of the connection is the last event. -/
inductive Reachable (server : Server ε) : System ε → Prop where
  | new : Reachable server (newSystem ε)
  | call {m : System ε} (h : Reachable server m) (c : Call) (hc : m.client.Permits c) :
    Reachable server (m.call c)
  | hear {m : System ε} (h : Reachable server m) (e : ε)
    (he : Arrives m.client.effects ((m.up ++ [e]).filterMap server.hears)) :
    Reachable server (m.hear e)
  | receive {m : System ε} (h : Reachable server m) (e : Event)
    (he : Returns m.client.effects (server.sent m.up) (m.down ++ e.heard))
    (hasked : e.Unasked m.client.effects) (hopen : Heard.terminated ∉ m.down) :
    Reachable server (m.receive e)

end

end WebTransportEcho.Health
