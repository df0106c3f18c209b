import WebTransportEcho.Backend.Quinn

/-! One connection of the Quinn backend, `handle_incoming`. Its first request decides: a `CONNECT` to a
    path that begins with `/wt` opens the session, and everything else is refused and ends the
    connection's task. In a session the datagrams, the two loops that accept streams and the echo of
    each stream are tasks of their own. They go on in any order, and every read, write and opening of a
    stream may fail. What an echo has sent is always the front of what it has to send, and what becomes
    of a stream depends on its own events only (`echoes_run`).

    A write that fails may have been taken in part. Finishing a stream fails only when that was done
    before, and no echo does it twice; what becomes of a stream that is dropped is left to Quinn. The
    protocol of the request and the number of the session are only logged, and so is what comes on the
    stream of the request. -/

namespace WebTransportEcho.Quinn
open Backend

/-! ### The first request -/

structure Request where
  method : String
  path : String

/-- What is done on the stream of the request. -/
inductive Reply where
  | response (status : Nat) (headers : List (String × String))
  | finish
  deriving DecidableEq

def responseForPath (path : String) : List (String × String) :=
  if path = "/wt/protocol" then [("wt-protocol", "\"quicast-wt-v0\"")]
  else if path = "/wt/capsule" then [("wt-protocol", "\"quicast-wt-v0\""), ("capsule-protocol", "?1")]
  else if path = "/wt/init" then
    [("wt-protocol", "\"quicast-wt-v0\""), ("capsule-protocol", "?1"),
      ("webtransport-init", "u=8388608, bl=8388608, br=8388608")]
  else if path = "/wt/draft" then [("sec-webtransport-http3-draft", "draft02")]
  else []

structure Session where
  path : String
  streamId : Nat
  expectedSessionId : Nat

/-- A 404, and why the task ends. -/
def refuse (sent finished : Bool) (message : String) : List Reply × Except String Session :=
  if sent = false then ([], .error "sending 404")
  else if finished = false then ([.response 404 []], .error "finishing 404")
  else ([.response 404 [], .finish], .error message)

/-- `accept_webtransport_connect`, with the request or why there is none, the id of its stream, and
    whether a response and the end of the stream can be sent. -/
def acceptWebtransportConnect (request : Except String Request) (streamId : Nat)
    (sent finished : Bool) : List Reply × Except String Session :=
  match request with
  | .error context => ([], .error context)
  | .ok request =>
    if request.method ≠ "CONNECT" then
      refuse sent finished "first request was not WebTransport CONNECT"
    else if startsWith "/wt" request.path = false then
      refuse sent finished "CONNECT path is outside /wt"
    else if sent = false then ([], .error "sending WebTransport CONNECT response")
    else ([.response 200 (responseForPath request.path)],
      .ok { path := request.path, streamId, expectedSessionId := streamId / 4 })

/-! ### Echoes, from one await to the next -/

/-- How an await ends. A write that fails may have been taken in part. -/
inductive Answer where
  | chunk (bytes : Bytes)
  | ended
  | readFailed
  | wrote
  | writeFailed (taken : Nat)
  | opened (serverStream : Nat)
  | openFailed

inductive BidiTask where
  | readingPrefix (reader : PrefixReader) (firstPayload : Bytes)
  | writing (context : String) (bytes : Bytes)
  | reading
  | finished (result : Except String Unit)

/-- The echo of a bidirectional stream: what it has read, whether that was all, what it has sent, and
    whether it has called `finish`. -/
structure BidiStream where
  task : BidiTask
  chunks : List Bytes
  ended : Bool
  sent : Bytes
  fin : Bool

def newBidiStream : BidiStream where
  task := .readingPrefix newPrefixReader []
  chunks := []
  ended := false
  sent := []
  fin := false

def BidiStream.read (s : BidiStream) (bytes : Bytes) : BidiStream :=
  { s with chunks := s.chunks ++ [bytes] }

/-- `echo_bidi_stream`. An answer that the echo does not await changes nothing. -/
def BidiStream.resume (s : BidiStream) (a : Answer) : BidiStream :=
  match s.task, a with
  | .readingPrefix reader firstPayload, .chunk bytes =>
    let (reader, firstPayload) := reader.push bytes firstPayload
    let s := s.read bytes
    if reader.values.length < 2 then { s with task := .readingPrefix reader firstPayload }
    else
      let streamType := reader.values.getD 0 0
      if streamType ≠ wtBidiStreamType then
        { s with task := .finished (unexpectedType "bidi" streamType).result }
      else if firstPayload.isEmpty then { s with task := .reading }
      else { s with task := .writing "echoing first bidi payload" firstPayload }
  | .readingPrefix .., .ended => { s with task := .finished (endedEarly "bidi").result, ended := true }
  | .readingPrefix .., .readFailed => { s with task := .finished (.error "reading WT bidi prefix") }
  | .writing _ bytes, .wrote => { s with task := .reading, sent := s.sent ++ bytes }
  | .writing context bytes, .writeFailed taken =>
    { s with task := .finished (.error context), sent := s.sent ++ bytes.take taken }
  | .reading, .chunk bytes =>
    { s.read bytes with
      task := if bytes.isEmpty then .reading else .writing "echoing bidi payload" bytes }
  | .reading, .ended => { s with task := .finished (.ok ()), ended := true, fin := true }
  | .reading, .readFailed => { s with task := .finished (.error "reading bidi payload") }
  | _, _ => s

inductive UniTask where
  | readingPrefix (reader : PrefixReader) (firstPayload : Bytes)
  | reading (sessionId : UInt64) (payload : Bytes)
  | opening (sessionId : UInt64) (payload : Bytes)
  | writingPreface (sessionId : UInt64) (payload : Bytes)
  | writing (payload : Bytes)
  | finished (result : Except String Unit)

/-- The echo of a unidirectional stream, which is sent on a stream of the server's. -/
structure UniStream where
  task : UniTask
  chunks : List Bytes
  ended : Bool
  server : Option Nat
  sent : Bytes
  fin : Bool

def newUniStream : UniStream where
  task := .readingPrefix newPrefixReader []
  chunks := []
  ended := false
  server := none
  sent := []
  fin := false

def UniStream.read (s : UniStream) (bytes : Bytes) : UniStream :=
  { s with chunks := s.chunks ++ [bytes] }

def uniPreface (sessionId : UInt64) : Bytes := writeVarint sessionId (writeVarint wtUniStreamType [])

/-- `echo_uni_stream`. -/
def UniStream.resume (s : UniStream) (a : Answer) : UniStream :=
  match s.task, a with
  | .readingPrefix reader firstPayload, .chunk bytes =>
    let (reader, firstPayload) := reader.push bytes firstPayload
    let s := s.read bytes
    if reader.values.length < 2 then { s with task := .readingPrefix reader firstPayload }
    else
      let streamType := reader.values.getD 0 0
      if streamType ≠ wtUniStreamType then
        { s with task := .finished (unexpectedType "uni" streamType).result }
      else { s with task := .reading (reader.values.getD 1 0) firstPayload }
  | .readingPrefix .., .ended => { s with task := .finished (endedEarly "uni").result, ended := true }
  | .readingPrefix .., .readFailed => { s with task := .finished (.error "reading WT uni prefix") }
  | .reading sessionId payload, .chunk bytes =>
    { s.read bytes with task := .reading sessionId (payload ++ bytes) }
  | .reading sessionId payload, .ended => { s with task := .opening sessionId payload, ended := true }
  | .reading .., .readFailed => { s with task := .finished (.error "reading uni payload") }
  | .opening sessionId payload, .opened serverStream =>
    { s with task := .writingPreface sessionId payload, server := some serverStream }
  | .opening .., .openFailed => { s with task := .finished (.error "opening server uni echo") }
  | .writingPreface sessionId payload, .wrote =>
    { s with task := .writing payload, sent := s.sent ++ uniPreface sessionId }
  | .writingPreface sessionId _, .writeFailed taken =>
    { s with
      task := .finished (.error "writing server uni WT preface")
      sent := s.sent ++ (uniPreface sessionId).take taken }
  | .writing payload, .wrote =>
    { s with task := .finished (.ok ()), sent := s.sent ++ payload, fin := true }
  | .writing payload, .writeFailed taken =>
    { s with
      task := .finished (.error "writing server uni echo")
      sent := s.sent ++ payload.take taken }
  | _, _ => s

/-! ### The connection -/

/-- Which of the loops run, and the echoes by the ids of the client's streams. -/
structure Connection where
  datagrams : Bool
  acceptsBidi : Bool
  acceptsUni : Bool
  sentDatagrams : List Bytes
  bidi : Nat → Option BidiStream
  uni : Nat → Option UniStream

inductive Event where
  | datagram (bytes : Bytes) (sent : Bool)
  | datagramsFailed
  | acceptBidi (id : Nat)
  | acceptBidiFailed
  | acceptUni (id : Nat)
  | acceptUniFailed
  | bidi (id : Nat) (answer : Answer)
  | uni (id : Nat) (answer : Answer)
  | closed

/-- A connection that is closed ends the loops; the echoes of its streams end on their own. -/
def Connection.step (c : Connection) : Event → Connection
  | .datagram bytes sent =>
    if (c.datagrams && sent) = true then { c with sentDatagrams := c.sentDatagrams ++ [bytes] } else c
  | .datagramsFailed => { c with datagrams := false }
  | .acceptBidi id =>
    if c.acceptsBidi = true then { c with bidi := Function.update c.bidi id (some newBidiStream) }
    else c
  | .acceptBidiFailed => { c with acceptsBidi := false }
  | .acceptUni id =>
    if c.acceptsUni = true then { c with uni := Function.update c.uni id (some newUniStream) }
    else c
  | .acceptUniFailed => { c with acceptsUni := false }
  | .bidi id answer =>
    { c with bidi := Function.update c.bidi id ((c.bidi id).map fun s => s.resume answer) }
  | .uni id answer =>
    { c with uni := Function.update c.uni id ((c.uni id).map fun s => s.resume answer) }
  | .closed => { c with datagrams := false, acceptsBidi := false, acceptsUni := false }

def newConnection : Connection where
  datagrams := true
  acceptsBidi := true
  acceptsUni := true
  sentDatagrams := []
  bidi _ := none
  uni _ := none

/-- The connection after these events. -/
def session (events : List Event) : Connection := events.foldl Connection.step newConnection

/-- `handle_incoming`: what is answered, and the session when there is one. -/
def handleIncoming (request : Except String Request) (streamId : Nat) (sent finished : Bool)
    (events : List Event) : List Reply × Option Connection :=
  match acceptWebtransportConnect request streamId sent finished with
  | (replies, .ok _) => (replies, some (session events))
  | (replies, .error _) => (replies, none)

/-! ### What an echo has to send -/

/-- What is read behind a prefix of this type. -/
def payloadOf (streamType : Nat) (bytes : Bytes) : Bytes :=
  match preface bytes with
  | some (found, _, payload) => if found = streamType then payload else []
  | none => []

/-- What the echo of a unidirectional stream sends. -/
def uniEchoOf (bytes : Bytes) : Bytes :=
  match preface bytes with
  | some (found, sessionId, payload) =>
    if found = 0x54 then Varint.encode 0x54 ++ Varint.encode sessionId ++ payload else []
  | none => []

theorem payloadOf_of_some {streamType sessionId : Nat} {bytes payload : Bytes}
    (h : preface bytes = some (streamType, sessionId, payload)) :
    payloadOf streamType bytes = payload := by
  rw [payloadOf, h]
  exact if_pos rfl

theorem payloadOf_of_none {streamType : Nat} {bytes : Bytes} (h : preface bytes = none) :
    payloadOf streamType bytes = [] := by
  rw [payloadOf, h]

theorem uniEchoOf_of_some {sessionId : Nat} {bytes payload : Bytes}
    (h : preface bytes = some (0x54, sessionId, payload)) :
    uniEchoOf bytes = Varint.encode 0x54 ++ Varint.encode sessionId ++ payload := by
  rw [uniEchoOf, h]
  exact if_pos rfl

/-- What a chunk makes of a prefix that is being read. -/
theorem push_cases {bytes : Bytes} {reader : PrefixReader} {firstPayload : Bytes}
    (h : (reader, firstPayload) = readerOf bytes) (chunk : Bytes) :
    ((reader.push chunk firstPayload).1.values.length < 2 ∧
      reader.push chunk firstPayload = readerOf (bytes ++ chunk) ∧ preface (bytes ++ chunk) = none) ∨
    ∃ streamType sessionId payload, preface (bytes ++ chunk) = some (streamType, sessionId, payload) ∧
      reader.push chunk firstPayload =
        ({ pending := [], values := [UInt64.ofNat streamType, UInt64.ofNat sessionId] }, payload) := by
  have hpush : reader.push chunk firstPayload = readerOf (bytes ++ chunk) := by
    rw [← push_readerOf, ← h]
  cases hwhole : preface (bytes ++ chunk) with
  | none => exact Or.inl ⟨hpush ▸ readerOf_of_none hwhole, hpush, rfl⟩
  | some found =>
    obtain ⟨streamType, sessionId, payload⟩ := found
    exact Or.inr ⟨streamType, sessionId, payload, rfl, hpush.trans (readerOf_of_some hwhole)⟩

/-! ### A bidirectional stream -/

/-- What is so between two awaits. -/
def BidiStream.Good (s : BidiStream) : Prop :=
  let bytes := s.chunks.flatten
  match s.task with
  | .readingPrefix reader firstPayload => (reader, firstPayload) = readerOf bytes ∧
      preface bytes = none ∧ s.sent = [] ∧ s.ended = false ∧ s.fin = false
  | .writing _ rest => (∃ sessionId, preface bytes = some (0x41, sessionId, s.sent ++ rest)) ∧
      s.ended = false ∧ s.fin = false
  | .reading => (∃ sessionId, preface bytes = some (0x41, sessionId, s.sent)) ∧
      s.ended = false ∧ s.fin = false
  | .finished (.ok ()) => (∃ sessionId, preface bytes = some (0x41, sessionId, s.sent)) ∧
      s.ended = true ∧ s.fin = true
  | .finished (.error _) => s.sent <+: payloadOf 0x41 bytes ∧
      (s.ended = true → preface bytes = none) ∧ s.fin = false

theorem newBidiStream_good : newBidiStream.Good := ⟨rfl, rfl, rfl, rfl, rfl⟩

theorem ofNat_eq_iff {bytes payload : Bytes} {streamType sessionId : Nat} {expected : UInt64}
    (h : preface bytes = some (streamType, sessionId, payload)) :
    UInt64.ofNat streamType = expected ↔ streamType = expected.toNat := by
  rw [← UInt64.toNat_inj, (preface_lt h).1]

theorem BidiStream.Good.resume {s : BidiStream} (h : s.Good) (a : Answer) : (s.resume a).Good := by
  obtain ⟨task, chunks, ended, sent, fin⟩ := s
  cases task with
  | readingPrefix reader firstPayload =>
    obtain ⟨hreader, hnone, hsent, hended, hfin⟩ := h
    dsimp only at hreader hnone hsent hended hfin
    subst hsent hended hfin
    cases a with
    | chunk bytes =>
      -- the prefix goes on behind this chunk, or it ends in it
      rcases push_cases hreader bytes with ⟨hshort, hpush, hwhole⟩ | ⟨t, n, payload, hwhole, hpush⟩
      · rw [← List.flatten_concat] at hpush hwhole
        simp only [BidiStream.resume, if_pos hshort]
        exact ⟨hpush, hwhole, rfl, rfl, rfl⟩
      · rw [← List.flatten_concat] at hwhole
        simp only [BidiStream.resume, hpush, List.length_cons, List.length_nil, List.getD_cons_zero]
        rw [if_neg (by decide)]
        by_cases htype : UInt64.ofNat t = wtBidiStreamType
        · rw [if_neg (not_not.mpr htype)]
          obtain rfl := (ofNat_eq_iff hwhole).mp htype
          cases hempty : payload.isEmpty with
          | true =>
            rw [List.isEmpty_iff.mp hempty] at hwhole
            exact ⟨⟨n, hwhole⟩, rfl, rfl⟩
          | false => exact ⟨⟨n, hwhole⟩, rfl, rfl⟩
        · rw [if_pos htype]
          exact ⟨List.nil_prefix, fun h => absurd h Bool.false_ne_true, rfl⟩
    | ended =>
      exact ⟨List.nil_prefix, fun _ => hnone, rfl⟩
    | readFailed => exact ⟨List.nil_prefix, fun _ => hnone, rfl⟩
    | _ => exact ⟨hreader, hnone, rfl, rfl, rfl⟩
  | writing context rest =>
    obtain ⟨⟨n, hwhole⟩, hended, hfin⟩ := h
    dsimp only at hwhole hended hfin
    subst hended hfin
    cases a with
    | wrote => exact ⟨⟨n, hwhole⟩, rfl, rfl⟩
    | writeFailed taken =>
      have hfront : sent ++ rest.take taken <+: payloadOf 0x41 chunks.flatten := by
        rw [payloadOf_of_some hwhole]
        exact (List.prefix_append_right_inj _).mpr (List.take_prefix _ _)
      exact ⟨hfront, fun h => absurd h Bool.false_ne_true, rfl⟩
    | _ => exact ⟨⟨n, hwhole⟩, rfl, rfl⟩
  | reading =>
    obtain ⟨⟨n, hwhole⟩, hended, hfin⟩ := h
    dsimp only at hwhole hended hfin
    subst hended hfin
    cases a with
    | chunk bytes =>
      have hmore : preface (chunks ++ [bytes]).flatten = some (0x41, n, sent ++ bytes) := by
        rw [List.flatten_concat]
        exact preface_append hwhole bytes
      cases hempty : bytes.isEmpty with
      | true =>
        rw [List.isEmpty_iff.mp hempty, List.append_nil] at hmore
        rw [List.isEmpty_iff.mp hempty]
        exact ⟨⟨n, hmore⟩, rfl, rfl⟩
      | false =>
        simp only [BidiStream.resume, hempty]
        exact ⟨⟨n, hmore⟩, rfl, rfl⟩
    | ended => exact ⟨⟨n, hwhole⟩, rfl, rfl⟩
    | readFailed =>
      have hfront : sent <+: payloadOf 0x41 chunks.flatten := by
        rw [payloadOf_of_some hwhole]
      exact ⟨hfront, fun h => absurd h Bool.false_ne_true, rfl⟩
    | _ => exact ⟨⟨n, hwhole⟩, rfl, rfl⟩
  | finished result => cases a <;> exact h

/-- What has been sent is the front of the payload, and all of what was read when the echo waits for
    more or is through. At the end of the stream the echo is the plain one. -/
structure BidiStream.Echoes (s : BidiStream) : Prop where
  front : s.sent <+: payloadOf 0x41 s.chunks.flatten
  upToDate : s.task = .reading ∨ s.fin = true → s.sent = payloadOf 0x41 s.chunks.flatten
  waits : s.fin = true → s.ended = true
  whole : s.fin = true → ∃ writes : List Bytes, writes.flatten = s.sent ∧
    echoBidiStream s.chunks = { acts := writes.map Act.writeAll ++ [.finish], result := .ok () }
  early : s.ended = true → s.fin = false → s.sent = [] ∧ echoBidiStream s.chunks = endedEarly "bidi"

theorem echoBidiStream_of_none {chunks : List Bytes} (h : preface chunks.flatten = none) :
    echoBidiStream chunks = endedEarly "bidi" := by
  have hecho := echo_of_chunks chunks
  rw [h] at hecho
  exact hecho.2.1

theorem BidiStream.Good.echoes {s : BidiStream} (h : s.Good) : s.Echoes := by
  obtain ⟨task, chunks, ended, sent, fin⟩ := s
  have hnot {p : Prop} (hfalse : false = true) : p := absurd hfalse Bool.false_ne_true
  cases task with
  | readingPrefix reader firstPayload =>
    obtain ⟨-, -, hsent, hended, hfin⟩ := h
    dsimp only at hsent hended hfin
    subst hsent hended hfin
    exact ⟨List.nil_prefix, fun h => (by simp at h), hnot, hnot, hnot⟩
  | writing context rest =>
    obtain ⟨⟨n, hwhole⟩, hended, hfin⟩ := h
    dsimp only at hwhole hended hfin
    subst hended hfin
    refine ⟨?_, fun h => (by simp at h), hnot, hnot, hnot⟩
    rw [payloadOf_of_some hwhole]
    exact List.prefix_append sent rest
  | reading =>
    obtain ⟨⟨n, hwhole⟩, hended, hfin⟩ := h
    dsimp only at hwhole hended hfin
    subst hended hfin
    have hsent := payloadOf_of_some hwhole
    exact ⟨hsent ▸ List.prefix_rfl, fun _ => hsent.symm, hnot, hnot, hnot⟩
  | finished result =>
    cases result with
    | ok u =>
      obtain ⟨⟨n, hwhole⟩, hended, hfin⟩ := h
      dsimp only at hwhole hended hfin
      subst hended hfin
      have hsent := payloadOf_of_some hwhole
      obtain ⟨writes, hacts, hwrites⟩ := (echoBidiStream_of_some hwhole).1 rfl
      exact ⟨hsent ▸ List.prefix_rfl, fun _ => hsent.symm, fun _ => rfl,
        fun _ => ⟨writes, hwrites, hacts⟩, fun _ h => (by cases h)⟩
    | error e =>
      obtain ⟨hfront, hearly, hfin⟩ := h
      dsimp only at hfront hearly hfin
      subst hfin
      refine ⟨hfront, fun h => (by simp at h), hnot, hnot, fun hended _ => ?_⟩
      have hnone := hearly hended
      rw [payloadOf_of_none hnone] at hfront
      exact ⟨List.prefix_nil.mp hfront, echoBidiStream_of_none hnone⟩

/-! ### A unidirectional stream -/

/-- What is so between two awaits. -/
def UniStream.Good (s : UniStream) : Prop :=
  let bytes := s.chunks.flatten
  match s.task with
  | .readingPrefix reader firstPayload => (reader, firstPayload) = readerOf bytes ∧
      preface bytes = none ∧ s.server = none ∧ s.sent = [] ∧ s.ended = false ∧ s.fin = false
  | .reading sessionId payload => (∃ n, sessionId = UInt64.ofNat n ∧
      preface bytes = some (0x54, n, payload)) ∧
      s.server = none ∧ s.sent = [] ∧ s.ended = false ∧ s.fin = false
  | .opening sessionId payload => (∃ n, sessionId = UInt64.ofNat n ∧
      preface bytes = some (0x54, n, payload)) ∧
      s.server = none ∧ s.sent = [] ∧ s.ended = true ∧ s.fin = false
  | .writingPreface sessionId payload => (∃ n, sessionId = UInt64.ofNat n ∧
      preface bytes = some (0x54, n, payload)) ∧
      s.server.isSome = true ∧ s.sent = [] ∧ s.ended = true ∧ s.fin = false
  | .writing payload => (∃ n, preface bytes = some (0x54, n, payload) ∧
      s.sent = Varint.encode 0x54 ++ Varint.encode n) ∧
      s.server.isSome = true ∧ s.ended = true ∧ s.fin = false
  | .finished (.ok ()) => (∃ n payload, preface bytes = some (0x54, n, payload) ∧
      s.sent = Varint.encode 0x54 ++ Varint.encode n ++ payload) ∧
      s.server.isSome = true ∧ s.ended = true ∧ s.fin = true
  | .finished (.error _) => s.sent <+: uniEchoOf bytes ∧ (s.server.isSome = true → s.ended = true) ∧
      (s.server = none → s.sent = []) ∧ s.fin = false

theorem newUniStream_good : newUniStream.Good := ⟨rfl, rfl, rfl, rfl, rfl, rfl⟩

theorem uniPreface_eq {bytes payload : Bytes} {streamType n : Nat}
    (h : preface bytes = some (streamType, n, payload)) :
    uniPreface (UInt64.ofNat n) = Varint.encode 0x54 ++ Varint.encode n :=
  writeVarint_preface (preface_lt h).2

theorem UniStream.Good.resume {s : UniStream} (h : s.Good) (a : Answer) : (s.resume a).Good := by
  obtain ⟨task, chunks, ended, server, sent, fin⟩ := s
  have hnot {p : Prop} (hfalse : false = true) : p := absurd hfalse Bool.false_ne_true
  cases task with
  | readingPrefix reader firstPayload =>
    obtain ⟨hreader, hnone, hserver, hsent, hended, hfin⟩ := h
    dsimp only at hreader hnone hserver hsent hended hfin
    subst hserver hsent hended hfin
    cases a with
    | chunk bytes =>
      -- the prefix goes on behind this chunk, or it ends in it
      rcases push_cases hreader bytes with ⟨hshort, hpush, hwhole⟩ | ⟨t, n, payload, hwhole, hpush⟩
      · rw [← List.flatten_concat] at hpush hwhole
        simp only [UniStream.resume, if_pos hshort]
        exact ⟨hpush, hwhole, rfl, rfl, rfl, rfl⟩
      · rw [← List.flatten_concat] at hwhole
        simp only [UniStream.resume, hpush, List.length_cons, List.length_nil, List.getD_cons_zero,
          List.getD_cons_succ]
        rw [if_neg (by decide)]
        by_cases htype : UInt64.ofNat t = wtUniStreamType
        · rw [if_neg (not_not.mpr htype)]
          obtain rfl := (ofNat_eq_iff hwhole).mp htype
          exact ⟨⟨n, rfl, hwhole⟩, rfl, rfl, rfl, rfl⟩
        · rw [if_pos htype]
          exact ⟨List.nil_prefix, hnot, fun _ => rfl, rfl⟩
    | ended => exact ⟨List.nil_prefix, hnot, fun _ => rfl, rfl⟩
    | readFailed => exact ⟨List.nil_prefix, hnot, fun _ => rfl, rfl⟩
    | _ => exact ⟨hreader, hnone, rfl, rfl, rfl, rfl⟩
  | reading sessionId payload =>
    obtain ⟨⟨n, hsession, hwhole⟩, hserver, hsent, hended, hfin⟩ := h
    dsimp only at hwhole hserver hsent hended hfin
    subst hserver hsent hended hfin
    cases a with
    | chunk bytes =>
      have hmore : preface (chunks ++ [bytes]).flatten = some (0x54, n, payload ++ bytes) := by
        rw [List.flatten_concat]
        exact preface_append hwhole bytes
      exact ⟨⟨n, hsession, hmore⟩, rfl, rfl, rfl, rfl⟩
    | ended => exact ⟨⟨n, hsession, hwhole⟩, rfl, rfl, rfl, rfl⟩
    | readFailed => exact ⟨List.nil_prefix, hnot, fun _ => rfl, rfl⟩
    | _ => exact ⟨⟨n, hsession, hwhole⟩, rfl, rfl, rfl, rfl⟩
  | opening sessionId payload =>
    obtain ⟨⟨n, hsession, hwhole⟩, hserver, hsent, hended, hfin⟩ := h
    dsimp only at hwhole hserver hsent hended hfin
    subst hserver hsent hended hfin
    cases a with
    | opened serverStream => exact ⟨⟨n, hsession, hwhole⟩, rfl, rfl, rfl, rfl⟩
    | openFailed => exact ⟨List.nil_prefix, fun _ => rfl, fun _ => rfl, rfl⟩
    | _ => exact ⟨⟨n, hsession, hwhole⟩, rfl, rfl, rfl, rfl⟩
  | writingPreface sessionId payload =>
    obtain ⟨⟨n, rfl, hwhole⟩, hserver, hsent, hended, hfin⟩ := h
    dsimp only at hwhole hserver hsent hended hfin
    subst hsent hended hfin
    cases a with
    | wrote =>
      have hsent : [] ++ uniPreface (UInt64.ofNat n) = Varint.encode 0x54 ++ Varint.encode n :=
        uniPreface_eq hwhole
      exact ⟨⟨n, hwhole, hsent⟩, hserver, rfl, rfl⟩
    | writeFailed taken =>
      have hopened : server ≠ none := Option.isSome_iff_ne_none.mp hserver
      have hfront : [] ++ (uniPreface (UInt64.ofNat n)).take taken <+: uniEchoOf chunks.flatten := by
        rw [uniEchoOf_of_some hwhole, uniPreface_eq hwhole, List.nil_append]
        exact (List.take_prefix _ _).trans (List.prefix_append _ _)
      exact ⟨hfront, fun _ => rfl, fun hnone => absurd hnone hopened, rfl⟩
    | _ => exact ⟨⟨n, rfl, hwhole⟩, hserver, rfl, rfl, rfl⟩
  | writing payload =>
    obtain ⟨⟨n, hwhole, hsent⟩, hserver, hended, hfin⟩ := h
    dsimp only at hwhole hserver hsent hended hfin
    subst hsent hended hfin
    cases a with
    | wrote => exact ⟨⟨n, payload, hwhole, rfl⟩, hserver, rfl, rfl⟩
    | writeFailed taken =>
      have hopened : server ≠ none := Option.isSome_iff_ne_none.mp hserver
      have hfront : Varint.encode 0x54 ++ Varint.encode n ++ payload.take taken <+:
          uniEchoOf chunks.flatten := by
        rw [uniEchoOf_of_some hwhole]
        exact (List.prefix_append_right_inj _).mpr (List.take_prefix _ _)
      exact ⟨hfront, fun _ => rfl, fun hnone => absurd hnone hopened, rfl⟩
    | _ => exact ⟨⟨n, hwhole, rfl⟩, hserver, rfl, rfl⟩
  | finished result => cases a <;> exact h

/-- Nothing is sent, and no stream of the server's is opened, before the client's has ended. At the end
    the echo is the plain one. -/
structure UniStream.Echoes (s : UniStream) : Prop where
  front : s.sent <+: uniEchoOf s.chunks.flatten
  late : s.server.isSome = true → s.ended = true
  silent : s.server = none → s.sent = []
  opened : s.fin = true → s.server.isSome = true
  whole : s.fin = true → ∃ sessionId payload,
    s.sent = Varint.encode 0x54 ++ Varint.encode sessionId ++ payload ∧
      echoUniStream s.chunks =
        { acts := [.openUni, .writeAll (Varint.encode 0x54 ++ Varint.encode sessionId),
            .writeAll payload, .finish]
          result := .ok () }

theorem UniStream.Good.echoes {s : UniStream} (h : s.Good) : s.Echoes := by
  obtain ⟨task, chunks, ended, server, sent, fin⟩ := s
  have hnot {p : Prop} (hfalse : false = true) : p := absurd hfalse Bool.false_ne_true
  cases task with
  | readingPrefix reader firstPayload =>
    obtain ⟨-, -, hserver, hsent, hended, hfin⟩ := h
    dsimp only at hserver hsent hended hfin
    subst hserver hsent hended hfin
    exact ⟨List.nil_prefix, hnot, fun _ => rfl, hnot, hnot⟩
  | reading sessionId payload =>
    obtain ⟨-, hserver, hsent, hended, hfin⟩ := h
    dsimp only at hserver hsent hended hfin
    subst hserver hsent hended hfin
    exact ⟨List.nil_prefix, hnot, fun _ => rfl, hnot, hnot⟩
  | opening sessionId payload =>
    obtain ⟨-, hserver, hsent, hended, hfin⟩ := h
    dsimp only at hserver hsent hended hfin
    subst hserver hsent hended hfin
    exact ⟨List.nil_prefix, hnot, fun _ => rfl, hnot, hnot⟩
  | writingPreface sessionId payload =>
    obtain ⟨-, -, hsent, hended, hfin⟩ := h
    dsimp only at hsent hended hfin
    subst hsent hended hfin
    exact ⟨List.nil_prefix, fun _ => rfl, fun _ => rfl, hnot, hnot⟩
  | writing payload =>
    obtain ⟨⟨n, hwhole, hsent⟩, hserver, hended, hfin⟩ := h
    dsimp only at hwhole hserver hsent hended hfin
    subst hsent hended hfin
    have hopened : server ≠ none := Option.isSome_iff_ne_none.mp hserver
    refine ⟨?_, fun _ => rfl, fun hnone => absurd hnone hopened, hnot, hnot⟩
    rw [uniEchoOf_of_some hwhole]
    exact List.prefix_append _ _
  | finished result =>
    cases result with
    | ok u =>
      obtain ⟨⟨n, payload, hwhole, hsent⟩, hserver, hended, hfin⟩ := h
      dsimp only at hwhole hserver hsent hended hfin
      subst hsent hended hfin
      have hopened : server ≠ none := Option.isSome_iff_ne_none.mp hserver
      refine ⟨?_, fun _ => rfl, fun hnone => absurd hnone hopened, fun _ => hserver,
        fun _ => ⟨n, payload, rfl, (echoUniStream_of_some hwhole).1 rfl⟩⟩
      rw [uniEchoOf_of_some hwhole]
    | error e =>
      obtain ⟨hfront, hlate, hsilent, hfin⟩ := h
      dsimp only at hfront hlate hsilent hfin
      subst hfin
      exact ⟨hfront, hlate, hsilent, hnot, hnot⟩

/-! ### Every run -/

structure Connection.Good (c : Connection) : Prop where
  bidi : ∀ id s, c.bidi id = some s → s.Good
  uni : ∀ id s, c.uni id = some s → s.Good

theorem newConnection_good : newConnection.Good where
  bidi id s h := by cases h
  uni id s h := by cases h

/-- A map of streams with one of them replaced. -/
theorem good_update {α : Type} {P : α → Prop} {streams : Nat → Option α} {id : Nat} {stream : Option α}
    (h : ∀ id s, streams id = some s → P s) (hnew : ∀ s, stream = some s → P s) :
    ∀ n s, Function.update streams id stream n = some s → P s := by
  intro n s hs
  by_cases hn : n = id
  · subst hn
    rw [Function.update_self] at hs
    exact hnew s hs
  · rw [Function.update_of_ne hn] at hs
    exact h n s hs

theorem Connection.Good.step {c : Connection} (h : c.Good) (e : Event) : (c.step e).Good := by
  cases e with
  | datagram bytes sent =>
    rw [Connection.step]
    split
    · exact ⟨h.bidi, h.uni⟩
    · exact h
  | acceptBidi id =>
    rw [Connection.step]
    split
    · refine ⟨good_update h.bidi fun s hs => ?_, h.uni⟩
      obtain rfl := Option.some.inj hs
      exact newBidiStream_good
    · exact h
  | acceptUni id =>
    rw [Connection.step]
    split
    · refine ⟨h.bidi, good_update h.uni fun s hs => ?_⟩
      obtain rfl := Option.some.inj hs
      exact newUniStream_good
    · exact h
  | bidi id answer =>
    refine ⟨good_update h.bidi fun s hs => ?_, h.uni⟩
    obtain ⟨before, hbefore, rfl⟩ := Option.map_eq_some_iff.mp hs
    exact (h.bidi id before hbefore).resume answer
  | uni id answer =>
    refine ⟨h.bidi, good_update h.uni fun s hs => ?_⟩
    obtain ⟨before, hbefore, rfl⟩ := Option.map_eq_some_iff.mp hs
    exact (h.uni id before hbefore).resume answer
  | _ => exact ⟨h.bidi, h.uni⟩

theorem session_snoc (events : List Event) (e : Event) :
    session (events ++ [e]) = (session events).step e := by
  rw [session, List.foldl_append, List.foldl_cons, List.foldl_nil, session]

theorem session_good (events : List Event) : (session events).Good := by
  induction events using List.reverseRecOn with
  | nil => exact newConnection_good
  | append_singleton events e ih =>
    rw [session_snoc]
    exact ih.step e

def Event.received : Event → List Bytes
  | .datagram bytes _ => [bytes]
  | _ => []

theorem session_datagrams (events : List Event) :
    (session events).sentDatagrams.Sublist (events.flatMap Event.received) := by
  induction events using List.reverseRecOn with
  | nil => exact List.Sublist.slnil
  | append_singleton events e ih =>
    have hmore :
        (session events).sentDatagrams.Sublist (events.flatMap Event.received ++ e.received) :=
      ih.trans (List.sublist_append_left _ _)
    rw [session_snoc, List.flatMap_append, List.flatMap_singleton]
    cases e with
    | datagram bytes sent =>
      rw [Connection.step]
      split
      · exact ih.append (List.Sublist.refl _)
      · exact hmore
    | acceptBidi id => rw [Connection.step]; split <;> exact hmore
    | acceptUni id => rw [Connection.step]; split <;> exact hmore
    | _ => exact hmore

/-- The events that a bidirectional stream of this id can depend on. -/
def Event.ofBidi (id : Nat) : Event → Bool
  | .acceptBidi n => n = id
  | .bidi n _ => n = id
  | .acceptBidiFailed => true
  | .closed => true
  | _ => false

def Event.ofUni (id : Nat) : Event → Bool
  | .acceptUni n => n = id
  | .uni n _ => n = id
  | .acceptUniFailed => true
  | .closed => true
  | _ => false

/-- A view of the connection that the other events leave as it is depends on its own events only. -/
theorem session_filter {β : Type} {view : Connection → β} {own : Event → Bool}
    (hstep : ∀ {c d : Connection} (e : Event), view c = view d → view (c.step e) = view (d.step e))
    (hother : ∀ (c : Connection) {e : Event}, own e = false → view (c.step e) = view c)
    (events : List Event) : view (session (events.filter own)) = view (session events) := by
  induction events using List.reverseRecOn with
  | nil => rfl
  | append_singleton events e ih =>
    rw [List.filter_append, List.filter_singleton, session_snoc]
    cases hown : own e with
    | true =>
      rw [cond_true, session_snoc]
      exact hstep e ih
    | false =>
      rw [cond_false, List.append_nil, hother _ hown]
      exact ih

/-- A bidirectional stream, and whether more are accepted. -/
def Connection.bidiView (id : Nat) (c : Connection) : Option BidiStream × Bool :=
  (c.bidi id, c.acceptsBidi)

def Connection.uniView (id : Nat) (c : Connection) : Option UniStream × Bool :=
  (c.uni id, c.acceptsUni)

theorem bidiView_step {id : Nat} {c d : Connection} (e : Event) (h : c.bidiView id = d.bidiView id) :
    (c.step e).bidiView id = (d.step e).bidiView id := by
  obtain ⟨hstream, haccepts⟩ := Prod.mk.inj h
  cases e with
  | datagram bytes sent => simp only [Connection.step]; split <;> split <;> exact h
  | acceptBidi n =>
    simp only [Connection.step, haccepts]
    split
    · simp only [Connection.bidiView, Function.update_apply, hstream]
    · exact h
  | acceptUni n => simp only [Connection.step]; split <;> split <;> exact h
  | bidi n answer =>
    by_cases hn : id = n
    · subst hn
      simp only [Connection.step, Connection.bidiView, Function.update_self, hstream, haccepts]
    · simp only [Connection.step, Connection.bidiView, Function.update_of_ne hn, hstream, haccepts]
  | acceptBidiFailed => exact Prod.ext hstream rfl
  | closed => exact Prod.ext hstream rfl
  | _ => exact h

theorem bidiView_other {id : Nat} (c : Connection) {e : Event} (h : e.ofBidi id = false) :
    (c.step e).bidiView id = c.bidiView id := by
  cases e with
  | datagram bytes sent => rw [Connection.step]; split <;> rfl
  | acceptBidi n =>
    have hn : id ≠ n := fun heq => of_decide_eq_false h heq.symm
    rw [Connection.step]
    split
    · exact Prod.ext (Function.update_of_ne hn _ _) rfl
    · rfl
  | acceptUni n => rw [Connection.step]; split <;> rfl
  | bidi n answer =>
    have hn : id ≠ n := fun heq => of_decide_eq_false h heq.symm
    exact Prod.ext (Function.update_of_ne hn _ _) rfl
  | acceptBidiFailed => cases h
  | closed => cases h
  | _ => rfl

theorem uniView_step {id : Nat} {c d : Connection} (e : Event) (h : c.uniView id = d.uniView id) :
    (c.step e).uniView id = (d.step e).uniView id := by
  obtain ⟨hstream, haccepts⟩ := Prod.mk.inj h
  cases e with
  | datagram bytes sent => simp only [Connection.step]; split <;> split <;> exact h
  | acceptUni n =>
    simp only [Connection.step, haccepts]
    split
    · simp only [Connection.uniView, Function.update_apply, hstream]
    · exact h
  | acceptBidi n => simp only [Connection.step]; split <;> split <;> exact h
  | uni n answer =>
    by_cases hn : id = n
    · subst hn
      simp only [Connection.step, Connection.uniView, Function.update_self, hstream, haccepts]
    · simp only [Connection.step, Connection.uniView, Function.update_of_ne hn, hstream, haccepts]
  | acceptUniFailed => exact Prod.ext hstream rfl
  | closed => exact Prod.ext hstream rfl
  | _ => exact h

theorem uniView_other {id : Nat} (c : Connection) {e : Event} (h : e.ofUni id = false) :
    (c.step e).uniView id = c.uniView id := by
  cases e with
  | datagram bytes sent => rw [Connection.step]; split <;> rfl
  | acceptUni n =>
    have hn : id ≠ n := fun heq => of_decide_eq_false h heq.symm
    rw [Connection.step]
    split
    · exact Prod.ext (Function.update_of_ne hn _ _) rfl
    · rfl
  | acceptBidi n => rw [Connection.step]; split <;> rfl
  | uni n answer =>
    have hn : id ≠ n := fun heq => of_decide_eq_false h heq.symm
    exact Prod.ext (Function.update_of_ne hn _ _) rfl
  | acceptUniFailed => cases h
  | closed => cases h
  | _ => rfl

/-! ### From the first request on -/

/-- A request that opens the session. -/
def Accepted (request : Except String Request) : Prop :=
  ∃ r, request = .ok r ∧ r.method = "CONNECT" ∧ startsWith "/wt" r.path = true

theorem accepted_ok {request : Request} :
    Accepted (.ok request) ↔ request.method = "CONNECT" ∧ startsWith "/wt" request.path = true := by
  constructor
  · rintro ⟨r, hr, h⟩
    obtain rfl := Except.ok.inj hr
    exact h
  · intro h
    exact ⟨request, rfl, h⟩

theorem not_accepted_error {context : String} : ¬Accepted (.error context) := by
  rintro ⟨r, hr, -⟩
  cases hr

/-- How the first request is answered: the session comes of it exactly when it is accepted and the
    response is sent, and otherwise the response is a bare 404. -/
structure Answers (request : Except String Request) (sent : Bool)
    (outcome : List Reply × Except String Session) : Prop where
  session : outcome.2.isOk = true ↔ Accepted request ∧ sent = true
  accepted : ∀ r, request = .ok r → Accepted request → ∀ status headers,
    .response status headers ∈ outcome.1 → status = 200 ∧ headers = responseForPath r.path
  refused : ¬Accepted request → ∀ status headers,
    .response status headers ∈ outcome.1 → status = 404 ∧ headers = []

theorem answers_refuse {request : Except String Request} (h : ¬Accepted request)
    (sent finished : Bool) (message : String) :
    Answers request sent (refuse sent finished message) := by
  have hnone {b : Bool} (hb : b = false) : b = true ↔ Accepted request ∧ sent = true := by
    rw [hb]
    exact ⟨fun hfalse => absurd hfalse Bool.false_ne_true, fun haccepted => absurd haccepted.1 h⟩
  refine ⟨?_, fun _ _ haccepted => absurd haccepted h, fun _ status headers hresponse => ?_⟩
  · cases sent <;> cases finished <;> exact hnone rfl
  · cases sent <;> cases finished <;> simp [refuse] at hresponse <;> exact hresponse

theorem acceptWebtransportConnect_answers (request : Except String Request) (streamId : Nat)
    (sent finished : Bool) :
    Answers request sent (acceptWebtransportConnect request streamId sent finished) := by
  cases request with
  | error context =>
    refine ⟨?_, fun r hr => (by cases hr), fun _ status headers h => (by cases h)⟩
    exact ⟨fun h => absurd h Bool.false_ne_true, fun h => absurd h.1 not_accepted_error⟩
  | ok request =>
    by_cases hmethod : request.method = "CONNECT"
    · cases hpath : startsWith "/wt" request.path with
      | false =>
        have hnot : ¬Accepted (.ok request) := by
          rw [accepted_ok, hpath]
          exact fun h => Bool.false_ne_true h.2
        simp only [acceptWebtransportConnect, hmethod, hpath, ne_eq, not_true_eq_false, if_false,
          if_true]
        exact answers_refuse hnot sent finished _
      | true =>
        have haccepted : Accepted (.ok request) := accepted_ok.mpr ⟨hmethod, hpath⟩
        simp only [acceptWebtransportConnect, hmethod, hpath, ne_eq, not_true_eq_false, if_false,
          Bool.true_eq_false]
        cases sent with
        | false =>
          refine ⟨?_, fun _ _ _ status headers h => (by cases h), fun hnot => absurd haccepted hnot⟩
          exact ⟨fun h => absurd h Bool.false_ne_true, fun h => absurd h.2 Bool.false_ne_true⟩
        | true =>
          refine ⟨⟨fun _ => ⟨haccepted, rfl⟩, fun _ => rfl⟩, fun r hr _ status headers h => ?_,
            fun hnot => absurd haccepted hnot⟩
          obtain rfl := Except.ok.inj hr
          simpa using h
    · have hnot : ¬Accepted (.ok request) := by
        rw [accepted_ok]
        exact fun h => hmethod h.1
      simp only [acceptWebtransportConnect, hmethod, ne_eq, not_false_eq_true, if_true]
      exact answers_refuse hnot sent finished _

/-- What is so of a session after these events. -/
structure Connection.Echoes (c : Connection) (events : List Event) : Prop where
  bidi : ∀ id s, c.bidi id = some s → s.Echoes
  uni : ∀ id s, c.uni id = some s → s.Echoes
  datagrams : c.sentDatagrams.Sublist (events.flatMap Event.received)
  bidiAlone : ∀ id, c.bidi id = (session (events.filter (Event.ofBidi id))).bidi id
  uniAlone : ∀ id, c.uni id = (session (events.filter (Event.ofUni id))).uni id

theorem session_echoes (events : List Event) : (session events).Echoes events where
  bidi _ _ h := ((session_good events).bidi _ _ h).echoes
  uni _ _ h := ((session_good events).uni _ _ h).echoes
  datagrams := session_datagrams events
  bidiAlone _ := (congrArg Prod.fst (session_filter bidiView_step bidiView_other events)).symm
  uniAlone _ := (congrArg Prod.fst (session_filter uniView_step uniView_other events)).symm

/-- Whatever the first request is, and in whichever order the tasks of the session go on. -/
theorem echoes_run (request : Except String Request) (streamId : Nat) (sent finished : Bool)
    (events : List Event) :
    let run := handleIncoming request streamId sent finished events
    (run.2.isSome = true ↔ Accepted request ∧ sent = true) ∧
    (∀ status headers, .response status headers ∈ run.1 →
      (Accepted request ∧ status = 200 ∧ ∃ r, request = .ok r ∧ headers = responseForPath r.path) ∨
        (¬Accepted request ∧ status = 404 ∧ headers = [])) ∧
    ∀ c, run.2 = some c → c.Echoes events := by
  intro run
  have hanswers := acceptWebtransportConnect_answers request streamId sent finished
  have hresponse : ∀ status headers,
      .response status headers ∈ (acceptWebtransportConnect request streamId sent finished).1 →
      (Accepted request ∧ status = 200 ∧ ∃ r, request = .ok r ∧ headers = responseForPath r.path) ∨
        (¬Accepted request ∧ status = 404 ∧ headers = []) := by
    intro status headers h
    by_cases haccepted : Accepted request
    · have hrequest := haccepted
      obtain ⟨r, hr, -⟩ := hrequest
      obtain ⟨hstatus, hheaders⟩ := hanswers.accepted r hr haccepted status headers h
      exact Or.inl ⟨haccepted, hstatus, r, hr, hheaders⟩
    · exact Or.inr ⟨haccepted, hanswers.refused haccepted status headers h⟩
  have hsession := hanswers.session
  simp only [run, handleIncoming]
  revert hsession hresponse
  rcases acceptWebtransportConnect request streamId sent finished with ⟨replies, message | s⟩
  · intro hresponse hsession
    refine ⟨hsession, hresponse, fun c hc => ?_⟩
    cases hc
  · intro hresponse hsession
    refine ⟨hsession, hresponse, fun c hc => ?_⟩
    obtain rfl := Option.some.inj hc
    exact session_echoes events

/-- A stream of two chunks, and a datagram in between. -/
def testEvents : List Event :=
  [.acceptBidi 4, .bidi 4 (.chunk [0x40, 0x41, 0, 1]), .datagram [0, 7] true, .bidi 4 .wrote,
    .bidi 4 (.chunk [2]), .bidi 4 .wrote, .bidi 4 .ended]

theorem newBidiStream_chunk : newBidiStream.resume (.chunk [0x40, 0x41, 0, 1]) =
    { task := .writing "echoing first bidi payload" [1], chunks := [[0x40, 0x41, 0, 1]],
      ended := false, sent := [], fin := false } := by
  have hpush : newPrefixReader.push [0x40, 0x41, 0, 1] [] = readerOf [0x40, 0x41, 0, 1] :=
    push_readerOf [] _
  have hread : readerOf [0x40, 0x41, 0, 1] = ({ pending := [], values := [0x41, 0] }, [1]) := rfl
  simp only [newBidiStream, BidiStream.resume, hpush, hread]
  rfl

def testRequest : Request where
  method := "CONNECT"
  path := "/wt"

theorem testEvents_run :
    ∃ c, (handleIncoming (.ok testRequest) 0 true true testEvents).2 = some c ∧
      (∃ s, c.bidi 4 = some s ∧ s.sent = [1, 2] ∧ s.fin = true) ∧ c.sentDatagrams = [[0, 7]] ∧
      c.Echoes testEvents := by
  refine ⟨session testEvents, rfl, ⟨_, rfl, ?_, ?_⟩, rfl, ?_⟩
  · dsimp only
    rw [newBidiStream_chunk]
    rfl
  · dsimp only
    rw [newBidiStream_chunk]
    rfl
  · exact (echoes_run (.ok testRequest) 0 true true testEvents).2.2 _ rfl

end WebTransportEcho.Quinn
