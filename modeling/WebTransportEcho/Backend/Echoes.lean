import Mathlib.Data.List.TakeWhile
import WebTransportEcho.Backend.TokioQuiche
import WebTransportEcho.Varint

/-! Unidirectional echoes of the tokio-quiche backend, over a whole connection. The loop keeps a
    payload for each stream that has sent something and is not over, and makes one echo for each
    stream that finishes, in the order in which they do. The streams of the echoes are numbered from
    15 on, which is also the number of the stream that HTTP/3 opens when it greases. -/

namespace WebTransportEcho.TokioQuiche
open Backend

/-! ### `write_varint` -/

theorem byte_eq (v : UInt64) : byte v = UInt8.ofNat v.toNat := by
  rw [byte, ← UInt8.toNat_inj, UInt64.toNat_toUInt8]
  simp

theorem byte_shift (v : UInt64) {n : UInt64} (hn : n < 64) :
    byte (v >>> n) = UInt8.ofNat (v.toNat / 2 ^ n.toNat) := by
  have hmod : n.toNat % 64 = n.toNat := Nat.mod_eq_of_lt (UInt64.lt_iff_toNat_lt.mp hn)
  rw [byte_eq, UInt64.toNat_shiftRight, Nat.shiftRight_eq_div_pow, hmod]

theorem or_form : ∀ x < 64, UInt8.ofNat x ||| 0x40 = UInt8.ofNat (64 * 1 + x) ∧
    UInt8.ofNat x ||| 0x80 = UInt8.ofNat (64 * 2 + x) ∧
    UInt8.ofNat x ||| 0xc0 = UInt8.ofNat (64 * 3 + x) := by decide

/-- Below 2^62 the bytes are the encoding. -/
theorem writeVarint_eq (v : UInt64) (out : Bytes) (h : v.toNat < 2 ^ 62) :
    writeVarint v out = out ++ Varint.encode v.toNat := by
  have h6 : v < (1 : UInt64) <<< 6 ↔ v.toNat < 2 ^ 6 := UInt64.lt_iff_toNat_lt
  have h14 : v < (1 : UInt64) <<< 14 ↔ v.toNat < 2 ^ 14 := UInt64.lt_iff_toNat_lt
  have h30 : v < (1 : UInt64) <<< 30 ↔ v.toNat < 2 ^ 30 := UInt64.lt_iff_toNat_lt
  have hbytes (n : UInt64) (hn : n < 64) := byte_shift v hn
  simp only [writeVarint, h6, h14, h30, Varint.encode, Varint.form]
  split_ifs with h₁ h₂ h₃
  · rw [Varint.bigEndian_form (k := 0) (n := 0) rfl, byte_eq]
    simp [Varint.bigEndian]
  · rw [Varint.bigEndian_form (k := 1) (n := 1) rfl, byte_eq v, hbytes 8 (by decide),
      (or_form _ (by simp at h₂ ⊢; omega)).1]
    simp [Varint.bigEndian]
  · rw [Varint.bigEndian_form (k := 2) (n := 3) rfl, byte_eq v, hbytes 24 (by decide),
      hbytes 16 (by decide), hbytes 8 (by decide), (or_form _ (by simp at h₃ ⊢; omega)).2.1]
    simp [Varint.bigEndian]
  · rw [Varint.bigEndian_form (k := 3) (n := 7) rfl, byte_eq v, hbytes 56 (by decide),
      hbytes 48 (by decide), hbytes 40 (by decide), hbytes 32 (by decide), hbytes 24 (by decide),
      hbytes 16 (by decide), hbytes 8 (by decide), (or_form _ (by simp at h ⊢; omega)).2.2]
    simp [Varint.bigEndian]

/-! ### Data of a unidirectional stream -/

/-- What is kept for a stream when data of a session comes in. -/
def Connection.kept (c : Connection) (sessionId streamId : UInt64) : UInt64 × Bytes :=
  (c.uniPayloads streamId).getD (sessionId, [])

theorem uniPayloads_more (c : Connection) (sessionId streamId : UInt64) (data : Bytes) :
    (handleEvent c (.streamData sessionId streamId .uni data false)).uniPayloads =
      Function.update c.uniPayloads streamId
        (some ((c.kept sessionId streamId).1, (c.kept sessionId streamId).2 ++ data)) := rfl

theorem uniPayloads_fin (c : Connection) (sessionId streamId : UInt64) (data : Bytes) :
    (handleEvent c (.streamData sessionId streamId .uni data true)).uniPayloads =
      Function.update c.uniPayloads streamId none := rfl

/-! ### The events that are handled -/

/-- The loop is over with this event. -/
def Event.ends : Event → Bool
  | .headers _ request sent bodySent =>
    !sent || ((RequestHeaders.fromHeaders request).isHealth && !bodySent)
  | .connectionError => true
  | .connectionShutdown => true
  | _ => false

/-- The events up to the one that ends the loop. -/
def handled (events : List Event) : List Event := events.takeWhile fun e => !e.ends

/-- The same echoes so far. -/
structure Connection.SameEchoes (c d : Connection) : Prop where
  nextServerUniStreamId : c.nextServerUniStreamId = d.nextServerUniStreamId
  commands : c.commands = d.commands

/-- A request leaves the echoes alone, and may end the loop. -/
theorem handleHeaders_spec (c : Connection) (streamId : UInt64) (headers : List Header)
    (sent bodySent : Bool) :
    (handleHeaders c streamId headers sent bodySent).SameEchoes c ∧
      (handleHeaders c streamId headers sent bodySent).ended =
        (c.ended || (Event.headers streamId headers sent bodySent).ends) ∧
      ((Event.headers streamId headers sent bodySent).ends = false →
        (handleHeaders c streamId headers sent bodySent).uniPayloads = c.uniPayloads) ∧
      ((Event.headers streamId headers sent bodySent).ends = true →
        (handleHeaders c streamId headers sent bodySent).uniPayloads = fun _ => none) := by
  simp only [handleHeaders, Event.ends]
  generalize RequestHeaders.fromHeaders headers = request
  cases sent with
  | false => exact ⟨⟨rfl, rfl⟩, (Bool.or_true _).symm, fun h => (by cases h), fun _ => rfl⟩
  | true =>
    cases request.isHealth with
    | true =>
      cases bodySent with
      | false => exact ⟨⟨rfl, rfl⟩, (Bool.or_true _).symm, fun h => (by cases h), fun _ => rfl⟩
      | true => exact ⟨⟨rfl, rfl⟩, (Bool.or_false _).symm, fun _ => rfl, fun h => absurd h (by decide)⟩
    | false =>
      simp only [Bool.not_true, Bool.false_eq_true, if_false, Bool.false_and, Bool.or_false]
      split_ifs <;> exact ⟨⟨rfl, rfl⟩, rfl, fun _ => rfl, fun h => absurd h (by decide)⟩

theorem handleEvent_ended (c : Connection) (e : Event) :
    (handleEvent c e).ended = (c.ended || e.ends) := by
  cases e with
  | headers streamId headers sent bodySent => exact (handleHeaders_spec c streamId headers sent bodySent).2.1
  | streamData sessionId streamId direction data fin =>
    cases direction with
    | bidi => exact (Bool.or_false _).symm
    | uni =>
      cases fin <;> exact (Bool.or_false _).symm
  | resetStream streamId => exact (Bool.or_false _).symm
  | streamClosed streamId => exact (Bool.or_false _).symm
  | connectionError => exact (Bool.or_true _).symm
  | connectionShutdown => exact (Bool.or_true _).symm
  | other => exact (Bool.or_false _).symm

theorem handleEvent_of_ends {c : Connection} {e : Event} (h : e.ends = true) :
    (handleEvent c e).SameEchoes c ∧ (handleEvent c e).uniPayloads = fun _ => none := by
  cases e with
  | headers streamId headers sent bodySent =>
    obtain ⟨hsame, -, -, hnone⟩ := handleHeaders_spec c streamId headers sent bodySent
    exact ⟨hsame, hnone h⟩
  | connectionError => exact ⟨⟨rfl, rfl⟩, rfl⟩
  | connectionShutdown => exact ⟨⟨rfl, rfl⟩, rfl⟩
  | streamData | resetStream | streamClosed | other => cases h

theorem turns_of_ended {c : Connection} (h : c.ended = true) : ∀ events : List Event,
    events.foldl turn c = c
  | [] => rfl
  | e :: events => by rw [List.foldl_cons, turn, if_pos h, turns_of_ended h events]

/-- A connection that has served the events that lead to `d`: its map is gone when the loop is over. -/
structure Connection.Serves (c d : Connection) : Prop where
  echoes : c.SameEchoes d
  live : c.ended = false → c.uniPayloads = d.uniPayloads
  gone : c.ended = true → c.uniPayloads = fun _ => none

theorem turns_handled : ∀ {events : List Event} {c : Connection}, c.ended = false →
    (events.foldl turn c).Serves ((handled events).foldl handleEvent c)
  | [], c, hc => ⟨⟨rfl, rfl⟩, fun _ => rfl, fun hover => absurd (hc.symm.trans hover) (by decide)⟩
  | e :: events, c, hc => by
    have hended := handleEvent_ended c e
    rw [hc, Bool.false_or] at hended
    rw [List.foldl_cons, turn, hc, if_neg Bool.false_ne_true, handled]
    cases hends : e.ends with
    | true =>
      rw [hends] at hended
      rw [List.takeWhile_cons_of_neg (by simp [hends]), turns_of_ended hended]
      obtain ⟨hsame, hnone⟩ := handleEvent_of_ends (c := c) hends
      exact ⟨hsame, fun hlive => absurd (hended.symm.trans hlive) (by decide), fun _ => hnone⟩
    | false =>
      rw [hends] at hended
      rw [List.takeWhile_cons_of_pos (by simp [hends]), List.foldl_cons]
      exact turns_handled hended

/-- The connection after the events that were handled. -/
def handledBy (h : List Event) : Connection := h.foldl handleEvent newConnection

theorem serve_handled (events : List Event) : (serve events).Serves (handledBy (handled events)) :=
  turns_handled rfl

theorem handledBy_snoc (h : List Event) (e : Event) :
    handledBy (h ++ [e]) = handleEvent (handledBy h) e := List.foldl_append

theorem handled_goes {events : List Event} {e : Event} (he : e ∈ handled events) : e.ends = false := by
  simpa using List.mem_takeWhile_imp he

/-! ### The history of a stream -/

/-- The session, the bytes and the end in an event of a unidirectional stream. -/
def Event.uniData (streamId : UInt64) : Event → Option (UInt64 × Bytes × Bool)
  | .streamData sessionId streamId' .uni data fin =>
    if streamId' = streamId then some (sessionId, data, fin) else none
  | _ => none

/-- The unidirectional stream is over: finished, reset or closed. -/
def Event.isOver (streamId : UInt64) : Event → Bool
  | .streamData _ streamId' .uni _ fin => decide (streamId' = streamId) && fin
  | .resetStream streamId' => decide (streamId' = streamId)
  | .streamClosed streamId' => decide (streamId' = streamId)
  | _ => false

/-- The unidirectional stream that finishes. -/
def Event.finishes : Event → Option UInt64
  | .streamData _ streamId .uni _ true => some streamId
  | _ => none

/-- The unidirectional streams that reached their end, in that order. -/
def finished (h : List Event) : List UInt64 := h.filterMap Event.finishes

def uniEvents (h : List Event) (streamId : UInt64) : List (UInt64 × Bytes × Bool) :=
  h.filterMap (Event.uniData streamId)

/-- The session of the stream's first event. -/
def firstSession (h : List Event) (streamId : UInt64) : UInt64 :=
  ((uniEvents h streamId).head?.map Prod.fst).getD 0

/-- All that came on the stream. -/
def payload (h : List Event) (streamId : UInt64) : Bytes := (uniEvents h streamId).flatMap fun d => d.2.1

/-- Data has come on the stream, and it is not over. -/
def Open (h : List Event) (streamId : UInt64) : Prop :=
  uniEvents h streamId ≠ [] ∧ ∀ e ∈ h, e.isOver streamId = false

/-- No data comes on a stream that is over. -/
def Delivered (h : List Event) : Prop :=
  h.Pairwise fun before e => ∀ streamId, (e.uniData streamId).isSome = true →
    before.isOver streamId = false

/-- The echoes that were asked for. -/
def Connection.uniEchoes (c : Connection) : List Command :=
  c.commands.filter fun command => decide (command.label = .uniEcho)

/-- The `j`th stream of the server. -/
def serverStream (j : Nat) : UInt64 := UInt64.ofNat (15 + 4 * j)

theorem serverStream_succ (j : Nat) : serverStream (j + 1) = serverStream j + 4 := by
  rw [serverStream, serverStream, show 15 + 4 * (j + 1) = 15 + 4 * j + 4 by ring, UInt64.ofNat_add]
  rfl

/-- The echoes are numbered. -/
structure Numbered (h : List Event) (c : Connection) : Prop where
  next : c.nextServerUniStreamId = serverStream (finished h).length
  ids : c.uniEchoes.map Command.streamId = (List.range (finished h).length).map serverStream

theorem finished_snoc (h : List Event) (e : Event) :
    finished (h ++ [e]) = finished h ++ e.finishes.toList := by
  rw [finished, List.filterMap_append, ← finished]
  cases he : e.finishes <;> simp [he]

/-- Nothing but the end of a unidirectional stream makes an echo. -/
theorem handleEvent_of_not_finishes (c : Connection) {e : Event} (h : e.finishes = none) :
    (handleEvent c e).nextServerUniStreamId = c.nextServerUniStreamId ∧
      (handleEvent c e).uniEchoes = c.uniEchoes := by
  cases e with
  | headers streamId headers sent bodySent =>
    have hsame := (handleHeaders_spec c streamId headers sent bodySent).1
    exact ⟨hsame.nextServerUniStreamId, congrArg (List.filter _) hsame.commands⟩
  | streamData sessionId streamId direction data fin =>
    cases direction with
    | bidi => exact ⟨rfl, by simp [handleEvent, Connection.uniEchoes, Connection.queueStreamSend]⟩
    | uni =>
      cases fin with
      | true => cases h
      | false => exact ⟨rfl, rfl⟩
  | resetStream | streamClosed | connectionError | connectionShutdown | other => exact ⟨rfl, rfl⟩

theorem finishes_eq_some {e : Event} {streamId : UInt64} (h : e.finishes = some streamId) :
    ∃ sessionId data, e = .streamData sessionId streamId .uni data true := by
  cases e with
  | streamData sessionId streamId' direction data fin =>
    cases direction with
    | bidi => cases h
    | uni =>
      cases fin with
      | true =>
        cases h
        exact ⟨sessionId, data, rfl⟩
      | false => cases h
  | headers | resetStream | streamClosed | connectionError | connectionShutdown | other => cases h

/-- The end of a unidirectional stream makes one. -/
theorem uniEchoes_fin (c : Connection) (sessionId streamId : UInt64) (data : Bytes) :
    (handleEvent c (.streamData sessionId streamId .uni data true)).uniEchoes = c.uniEchoes ++
      [uniEcho c.nextServerUniStreamId (c.kept sessionId streamId).1
        ((c.kept sessionId streamId).2 ++ data)] := by
  have hnew (command : Command) (h : command.label = .uniEcho) :
      (c.queueStreamSend command).uniEchoes = c.uniEchoes ++ [command] := by
    simp [Connection.uniEchoes, Connection.queueStreamSend, h]
  exact hnew _ rfl

theorem handledBy_numbered (h : List Event) : Numbered h (handledBy h) := by
  induction h using List.reverseRecOn with
  | nil => exact ⟨rfl, rfl⟩
  | append_singleton h e ih =>
    rw [handledBy_snoc]
    cases he : e.finishes with
    | none =>
      obtain ⟨hnext, hechoes⟩ := handleEvent_of_not_finishes (handledBy h) he
      refine ⟨?_, ?_⟩
      · rw [hnext, finished_snoc, he, Option.toList_none, List.append_nil, ih.next]
      · rw [hechoes, finished_snoc, he, Option.toList_none, List.append_nil, ih.ids]
    | some streamId =>
      obtain ⟨sessionId, data, rfl⟩ := finishes_eq_some he
      refine ⟨?_, ?_⟩
      · rw [finished_snoc, he, Option.toList_some, List.length_append, List.length_singleton,
          serverStream_succ, ← ih.next]
        rfl
      · rw [uniEchoes_fin, List.map_append, ih.ids, ih.next, finished_snoc, he, Option.toList_some,
          List.length_append, List.length_singleton, List.range_succ, List.map_append]
        rfl

/-! ### Payloads and echoes -/

theorem uniEvents_snoc (h : List Event) (e : Event) (streamId : UInt64) :
    uniEvents (h ++ [e]) streamId = uniEvents h streamId ++ (e.uniData streamId).toList := by
  rw [uniEvents, List.filterMap_append, ← uniEvents]
  cases he : e.uniData streamId <;> simp [he]

/-- The payload that is kept for each stream, and the echoes of those that finished. -/
structure Keeps (h : List Event) (c : Connection) : Prop where
  waiting : ∀ streamId, Open h streamId →
    c.uniPayloads streamId = some (firstSession h streamId, payload h streamId)
  nothing : ∀ streamId, ¬ Open h streamId → c.uniPayloads streamId = none
  echoes : c.uniEchoes = (finished h).zipIdx.map fun e =>
    uniEcho (serverStream e.2) (firstSession h e.1) (payload h e.1)

section Keeps

variable {h : List Event} {c : Connection} {e : Event}

/-- The history of a stream that an event is not about. -/
theorem history_of_none {streamId : UInt64} (hdata : e.uniData streamId = none) :
    firstSession (h ++ [e]) streamId = firstSession h streamId ∧
      payload (h ++ [e]) streamId = payload h streamId := by
  rw [firstSession, payload, uniEvents_snoc, hdata, Option.toList_none, List.append_nil]
  exact ⟨rfl, rfl⟩

theorem open_of_none {streamId : UInt64} (hdata : e.uniData streamId = none)
    (hover : e.isOver streamId = false) : Open (h ++ [e]) streamId ↔ Open h streamId := by
  simp only [Open, uniEvents_snoc, hdata, Option.toList_none, List.append_nil,
    List.forall_mem_append, List.forall_mem_singleton, hover, and_true]

theorem not_open_of_over {streamId : UInt64} (hover : e.isOver streamId = true) :
    ¬ Open (h ++ [e]) streamId := fun hopen => by
  have hlast := hopen.2 e (by simp)
  rw [hover] at hlast
  cases hlast

/-- A stream that finished has had its data: an event about it would be data after its end. -/
theorem finished_over {streamId : UInt64} (hfinished : streamId ∈ finished h) :
    ∃ before ∈ h, before.isOver streamId = true := by
  obtain ⟨before, hbefore, hfinishes⟩ := List.mem_filterMap.mp hfinished
  obtain ⟨sessionId, data, rfl⟩ := finishes_eq_some hfinishes
  exact ⟨_, hbefore, by simp [Event.isOver]⟩

theorem Delivered.of_snoc (hd : Delivered (h ++ [e])) : Delivered h := (List.pairwise_append.mp hd).1

theorem Delivered.not_over (hd : Delivered (h ++ [e])) {streamId : UInt64}
    (hdata : (e.uniData streamId).isSome = true) : ∀ before ∈ h, before.isOver streamId = false :=
  fun before hbefore => (List.pairwise_append.mp hd).2.2 before hbefore e (by simp) streamId hdata

/-- The echoes of the streams that finished before do not change. -/
theorem echoes_snoc (hd : Delivered (h ++ [e])) :
    ((finished h).zipIdx.map fun f =>
        uniEcho (serverStream f.2) (firstSession (h ++ [e]) f.1) (payload (h ++ [e]) f.1)) =
      (finished h).zipIdx.map fun f =>
        uniEcho (serverStream f.2) (firstSession h f.1) (payload h f.1) := by
  refine List.map_congr_left fun f hf => ?_
  have hnone : e.uniData f.1 = none := by
    by_contra hsome
    obtain ⟨before, hbefore, hover⟩ := finished_over (List.fst_mem_of_mem_zipIdx hf)
    have := hd.not_over (Option.isSome_iff_ne_none.mpr hsome) before hbefore
    rw [hover] at this
    cases this
  obtain ⟨hsession, hpayload⟩ := history_of_none (h := h) hnone
  rw [hsession, hpayload]

/-- A stream that was reset or closed is forgotten. -/
theorem forgotten (c : Connection) (streamId other : UInt64) :
    Function.update c.uniPayloads streamId none other =
      if decide (streamId = other) then none else c.uniPayloads other := by
  rcases eq_or_ne other streamId with rfl | hne
  · rw [Function.update_self, decide_eq_true rfl, if_pos rfl]
  · rw [Function.update_of_ne hne, decide_eq_false fun h => hne h.symm, if_neg Bool.false_ne_true]

/-- An event without data of a unidirectional stream: streams that it ends are forgotten. -/
theorem Keeps.without_data (hk : Keeps h c) (hd : Delivered (h ++ [e]))
    (hdata : ∀ streamId, e.uniData streamId = none)
    (hpayloads : ∀ streamId, (handleEvent c e).uniPayloads streamId =
      if e.isOver streamId then none else c.uniPayloads streamId)
    (hfinishes : e.finishes = none) : Keeps (h ++ [e]) (handleEvent c e) := by
  refine ⟨fun streamId hopen => ?_, fun streamId hopen => ?_, ?_⟩
  · cases hover : e.isOver streamId with
    | true => exact absurd hopen (not_open_of_over hover)
    | false =>
      rw [open_of_none (hdata streamId) hover] at hopen
      rw [hpayloads, hover, if_neg Bool.false_ne_true, (history_of_none (hdata streamId)).1,
        (history_of_none (hdata streamId)).2]
      exact hk.waiting streamId hopen
  · rw [hpayloads]
    cases hover : e.isOver streamId with
    | true => rfl
    | false =>
      rw [open_of_none (hdata streamId) hover] at hopen
      exact hk.nothing streamId hopen
  · rw [(handleEvent_of_not_finishes c hfinishes).2, finished_snoc, hfinishes, Option.toList_none,
      List.append_nil, echoes_snoc hd, hk.echoes]

/-- What is kept of a stream that is not over, with new data behind it, is its history. -/
theorem Keeps.kept (hk : Keeps h c) {sessionId streamId : UInt64} {data : Bytes} {fin : Bool}
    (hd : Delivered (h ++ [.streamData sessionId streamId .uni data fin])) :
    (c.kept sessionId streamId).1 =
        firstSession (h ++ [.streamData sessionId streamId .uni data fin]) streamId ∧
      (c.kept sessionId streamId).2 ++ data =
        payload (h ++ [.streamData sessionId streamId .uni data fin]) streamId := by
  have hdata : (Event.streamData sessionId streamId .uni data fin).uniData streamId =
      some (sessionId, data, fin) := if_pos rfl
  have hfresh : ∀ before ∈ h, before.isOver streamId = false := hd.not_over (by rw [hdata]; rfl)
  rw [firstSession, payload, uniEvents_snoc, hdata, Option.toList_some, List.flatMap_append,
    List.flatMap_singleton]
  by_cases hnil : uniEvents h streamId = []
  · rw [Connection.kept, hk.nothing streamId fun hopen => hopen.1 hnil, hnil]
    exact ⟨rfl, rfl⟩
  · rw [Connection.kept, hk.waiting streamId ⟨hnil, hfresh⟩, List.head?_append_of_ne_nil _ hnil]
    exact ⟨rfl, rfl⟩

/-- Data for one stream says nothing about another. -/
theorem other_stream {streamId other : UInt64} (hne : other ≠ streamId) (sessionId : UInt64)
    (data : Bytes) (fin : Bool) :
    (Event.streamData sessionId streamId .uni data fin).uniData other = none ∧
      (Event.streamData sessionId streamId .uni data fin).isOver other = false := by
  refine ⟨if_neg fun h => hne h.symm, ?_⟩
  rw [Event.isOver, decide_eq_false fun h => hne h.symm, Bool.false_and]

/-- More data is put behind what is kept. -/
theorem Keeps.more (hk : Keeps h c) {sessionId streamId : UInt64} {data : Bytes}
    (hd : Delivered (h ++ [.streamData sessionId streamId .uni data false])) :
    Keeps (h ++ [.streamData sessionId streamId .uni data false])
      (handleEvent c (.streamData sessionId streamId .uni data false)) := by
  obtain ⟨hsession, hpayload⟩ := hk.kept hd
  refine ⟨fun other hopen => ?_, fun other hopen => ?_, ?_⟩
  · rw [uniPayloads_more]
    by_cases hne : other = streamId
    · rw [hne, Function.update_self, hsession, hpayload]
    · obtain ⟨hdata, hover⟩ := other_stream hne sessionId data false
      rw [open_of_none hdata hover] at hopen
      rw [Function.update_of_ne hne, (history_of_none hdata).1, (history_of_none hdata).2]
      exact hk.waiting other hopen
  · rw [uniPayloads_more]
    by_cases hne : other = streamId
    · refine absurd ⟨?_, ?_⟩ hopen
      · simp [uniEvents_snoc, hne, Event.uniData]
      · rw [List.forall_mem_append, List.forall_mem_singleton, hne]
        exact ⟨hd.not_over (by simp [Event.uniData]), by simp [Event.isOver]⟩
    · obtain ⟨hdata, hover⟩ := other_stream hne sessionId data false
      rw [open_of_none hdata hover] at hopen
      rw [Function.update_of_ne hne]
      exact hk.nothing other hopen
  · have hnone : (Event.streamData sessionId streamId .uni data false).finishes = none := rfl
    rw [(handleEvent_of_not_finishes c hnone).2, finished_snoc, hnone, Option.toList_none,
      List.append_nil, echoes_snoc hd, hk.echoes]

/-- The end of a stream makes an echo of what is kept, with the data that comes with it. -/
theorem Keeps.fin (hk : Keeps h c) (hn : Numbered h c) {sessionId streamId : UInt64} {data : Bytes}
    (hd : Delivered (h ++ [.streamData sessionId streamId .uni data true])) :
    Keeps (h ++ [.streamData sessionId streamId .uni data true])
      (handleEvent c (.streamData sessionId streamId .uni data true)) := by
  obtain ⟨hsession, hpayload⟩ := hk.kept hd
  refine ⟨fun other hopen => ?_, fun other hopen => ?_, ?_⟩
  · rw [uniPayloads_fin]
    by_cases hne : other = streamId
    · exact absurd (hne ▸ hopen) (not_open_of_over (by simp [Event.isOver]))
    · obtain ⟨hdata, hover⟩ := other_stream hne sessionId data true
      rw [open_of_none hdata hover] at hopen
      rw [Function.update_of_ne hne, (history_of_none hdata).1, (history_of_none hdata).2]
      exact hk.waiting other hopen
  · rw [uniPayloads_fin]
    by_cases hne : other = streamId
    · rw [hne, Function.update_self]
    · obtain ⟨hdata, hover⟩ := other_stream hne sessionId data true
      rw [open_of_none hdata hover] at hopen
      rw [Function.update_of_ne hne]
      exact hk.nothing other hopen
  · have hfinishes : (Event.streamData sessionId streamId .uni data true).finishes = some streamId := rfl
    rw [uniEchoes_fin, finished_snoc, hfinishes, Option.toList_some, List.zipIdx_append,
      List.map_append, echoes_snoc hd, hk.echoes, hn.next, hsession, hpayload, Nat.zero_add]
    rfl

/-- One event that does not end the loop keeps it. -/
theorem Keeps.handleEvent (hk : Keeps h c) (hn : Numbered h c) (hd : Delivered (h ++ [e]))
    (hgoes : e.ends = false) : Keeps (h ++ [e]) (handleEvent c e) := by
  cases e with
  | streamData sessionId streamId direction data fin =>
    cases direction with
    | bidi => exact hk.without_data hd (fun _ => rfl) (fun _ => rfl) rfl
    | uni =>
      cases fin with
      | true => exact hk.fin hn hd
      | false => exact hk.more hd
  | headers streamId headers sent bodySent =>
    refine hk.without_data hd (fun _ => rfl) (fun streamId' => ?_) rfl
    obtain ⟨-, -, hsame, -⟩ := handleHeaders_spec c streamId headers sent bodySent
    exact congrFun (hsame hgoes) streamId'
  | resetStream streamId => exact hk.without_data hd (fun _ => rfl) (forgotten c streamId) rfl
  | streamClosed streamId => exact hk.without_data hd (fun _ => rfl) (forgotten c streamId) rfl
  | other => exact hk.without_data hd (fun _ => rfl) (fun _ => rfl) rfl
  | connectionError => cases hgoes
  | connectionShutdown => cases hgoes

end Keeps

/-- While the loop goes on it keeps the payloads and has made the echoes. -/
theorem handledBy_keeps (h : List Event) :
    Delivered h → (∀ e ∈ h, e.ends = false) → Keeps h (handledBy h) := by
  induction h using List.reverseRecOn with
  | nil => exact fun _ _ => ⟨fun _ hopen => absurd rfl hopen.1, fun _ _ => rfl, rfl⟩
  | append_singleton h e ih =>
    intro hd hgoes
    rw [List.forall_mem_append, List.forall_mem_singleton] at hgoes
    rw [handledBy_snoc]
    exact (ih hd.of_snoc hgoes.1).handleEvent (handledBy_numbered h) hd hgoes.2

/-- A stream finishes once. -/
theorem finished_nodup (h : List Event) : Delivered h → (finished h).Nodup := by
  induction h using List.reverseRecOn with
  | nil => exact fun _ => List.nodup_nil
  | append_singleton h e ih =>
    intro hd
    rw [finished_snoc, List.nodup_append']
    refine ⟨ih hd.of_snoc, ?_, ?_⟩
    · cases e.finishes <;> simp
    · intro streamId hbefore hlast
      obtain ⟨sessionId, data, rfl⟩ := finishes_eq_some (Option.mem_toList.mp hlast)
      obtain ⟨before, hmem, hover⟩ := finished_over hbefore
      have hopen : before.isOver streamId = false :=
        hd.not_over (by simp [Event.uniData]) before hmem
      rw [hover] at hopen
      cases hopen

/-! ### The echoes of a connection -/

/-- The session ids of unidirectional streams are below 2^62. -/
def SessionIds (h : List Event) : Prop :=
  ∀ e ∈ h, ∀ streamId d, e.uniData streamId = some d → d.1.toNat < 2 ^ 62

theorem SessionIds.firstSession {h : List Event} (hs : SessionIds h) (streamId : UInt64) :
    (firstSession h streamId).toNat < 2 ^ 62 := by
  rw [TokioQuiche.firstSession]
  cases hevents : uniEvents h streamId with
  | nil => exact Nat.two_pow_pos 62
  | cons d rest =>
    have hd : d ∈ uniEvents h streamId := by rw [hevents]; exact List.mem_cons_self
    obtain ⟨e, he, hdata⟩ := List.mem_filterMap.mp hd
    exact hs e he streamId d hdata

theorem serverStream_toNat {j : Nat} (h : j < 2 ^ 60) : (serverStream j).toNat = 15 + 4 * j :=
  UInt64.toNat_ofNat_of_lt' (by rw [UInt64.size]; omega)

theorem uniEcho_data (serverStreamId : UInt64) {sessionId : UInt64} (data : Bytes)
    (h : sessionId.toNat < 2 ^ 62) : (uniEcho serverStreamId sessionId data).data =
      Varint.encode 0x54 ++ Varint.encode sessionId.toNat ++ data := by
  have htype : wtUniStreamType.toNat = 0x54 := rfl
  rw [uniEcho, writeVarint_eq _ _ h, writeVarint_eq _ _ (by rw [htype]; norm_num), htype,
    List.nil_append]

/-- A stream that finishes is echoed, once and in its turn, under the session it first came with. The
    payloads that are kept are those of the streams that have sent something and are not over, as long
    as there is a loop to keep them. -/
theorem serve_uniEchoes (events : List Event) (hdelivered : Delivered (handled events))
    (hsessions : SessionIds (handled events)) (hcount : (finished (handled events)).length < 2 ^ 60) :
    (finished (handled events)).Nodup ∧
      ((serve events).uniEchoes.map fun echo => (echo.streamId.toNat, echo.data, echo.fin)) =
        ((finished (handled events)).zipIdx.map fun (streamId, j) =>
          (15 + 4 * j, Varint.encode 0x54 ++
            Varint.encode (firstSession (handled events) streamId).toNat ++
            payload (handled events) streamId, true)) ∧
      ((serve events).ended = false → ∀ streamId, Open (handled events) streamId →
        (serve events).uniPayloads streamId =
          some (firstSession (handled events) streamId, payload (handled events) streamId)) ∧
      (∀ streamId, ¬ Open (handled events) streamId → (serve events).uniPayloads streamId = none) ∧
      ((serve events).ended = true → ∀ streamId, (serve events).uniPayloads streamId = none) := by
  have hserves := serve_handled events
  have hk := handledBy_keeps (handled events) hdelivered fun _ => handled_goes
  refine ⟨finished_nodup _ hdelivered, ?_, ?_, ?_, ?_⟩
  · rw [Connection.uniEchoes, hserves.echoes.commands, ← Connection.uniEchoes, hk.echoes, List.map_map]
    refine List.map_congr_left fun f hf => ?_
    have hj : f.2 < 2 ^ 60 := lt_trans (by simpa using List.snd_lt_of_mem_zipIdx hf) hcount
    simp only [Function.comp, uniEcho_data _ _ (hsessions.firstSession f.1)]
    exact Prod.ext (serverStream_toNat hj) rfl
  · intro hlive streamId hopen
    rw [hserves.live hlive]
    exact hk.waiting streamId hopen
  · intro streamId hopen
    cases hended : (serve events).ended with
    | true => rw [hserves.gone hended]
    | false =>
      rw [hserves.live hended]
      exact hk.nothing streamId hopen
  · intro hended streamId
    rw [hserves.gone hended]

/-- Two streams whose data comes interleaved, and a third that is reset. -/
def interleaved : List Event :=
  [.streamData 0 2 .uni [1] false, .streamData 4 6 .uni [2] true, .streamData 0 10 .uni [9] false,
    .streamData 0 2 .uni [3] true, .resetStream 10]

theorem interleaved_uniEchoes :
    ((serve interleaved).uniEchoes.map fun echo => (echo.streamId.toNat, echo.data, echo.fin)) =
        [(15, [0x40, 0x54, 4, 2], true), (19, [0x40, 0x54, 0, 1, 3], true)] ∧
      (serve interleaved).uniPayloads 10 = none := by
  have hdelivered : Delivered (handled interleaved) := by
    simp [Delivered, handled, interleaved, Event.ends, Event.uniData, Event.isOver]
  have hsessions : SessionIds (handled interleaved) := by
    simp [SessionIds, handled, interleaved, Event.ends, Event.uniData]
  obtain ⟨-, hechoes, -, hnone, -⟩ :=
    serve_uniEchoes interleaved hdelivered hsessions (by decide)
  refine ⟨hechoes.trans (by decide), hnone 10 fun hopen => ?_⟩
  exact absurd (hopen.2 (.resetStream 10) (by simp [handled, interleaved, Event.ends])) (by decide)

end WebTransportEcho.TokioQuiche
