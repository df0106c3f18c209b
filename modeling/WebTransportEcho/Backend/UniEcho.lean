import Mathlib.Data.List.Dedup
import Mathlib.Data.List.Nodup
import WebTransportEcho.Backend.Aioquic

/-! Unidirectional echoes of the aioquic backend. The handler keeps nothing between the events of a
    stream: it opens a server stream for each of them. So there is one server stream with the payload
    of each client stream exactly when no client stream comes in two pieces. -/

namespace WebTransportEcho.Aioquic
open Backend

/-! ### Lists with keys -/

theorem filter_key {α β : Type} [DecidableEq β] {f : α → β} {a : α} : ∀ {l : List α},
    (l.map f).Nodup → a ∈ l → l.filter (fun b => decide (f b = f a)) = [a]
  | b :: l, hnodup, hmem => by
    rw [List.map_cons, List.nodup_cons] at hnodup
    rcases List.mem_cons.mp hmem with rfl | hmem
    · have hrest : l.filter (fun b => decide (f b = f a)) = [] :=
        List.filter_eq_nil_iff.mpr fun b hb heq =>
          hnodup.1 (of_decide_eq_true heq ▸ List.mem_map_of_mem hb)
      rw [List.filter_cons_of_pos (by simp), hrest]
    · have hne : f b ≠ f a := fun heq => hnodup.1 (heq ▸ List.mem_map_of_mem hmem)
      rw [List.filter_cons_of_neg (by simpa using hne), filter_key hnodup.2 hmem]

theorem nodup_of_length_dedup {α : Type} [DecidableEq α] {l : List α}
    (h : l.dedup.length = l.length) : l.Nodup := by
  rw [← (List.dedup_sublist l).eq_of_length h]
  exact List.nodup_dedup l

/-! ### What a connection has received and sent -/

/-- A piece of a client's unidirectional stream. -/
structure Piece where
  sessionId : Nat
  streamId : Nat
  data : Bytes
  ended : Bool
  deriving DecidableEq

/-- A unidirectional stream: its session, its bytes, and whether it is finished. -/
structure Content where
  sessionId : Nat
  payload : Bytes
  finished : Bool
  deriving DecidableEq

/-- The piece of an event, when its session is accepted. -/
def pieceOf (p : Protocol) : Event → Option Piece
  | .streamData sessionId streamId data ended =>
    if isUnidirectional streamId = true ∧ (p.sessions sessionId).isSome = true then
      some { sessionId, streamId, data, ended }
    else none
  | .headers _ _ => none
  | .datagram _ _ => none

/-- The pieces received on accepted sessions. -/
def piecesFrom (ids : Nat → Nat) (p : Protocol) : List Event → List Piece
  | [] => []
  | e :: events => (pieceOf p e).toList ++ piecesFrom ids (handleEvent ids p e) events

def pieces (ids : Nat → Nat) (events : List Event) : List Piece := piecesFrom ids newProtocol events

def clientStreams (ps : List Piece) : List Nat := (ps.map Piece.streamId).dedup

/-- What a client has sent on a stream. -/
def clientContent (ps : List Piece) (streamId : Nat) : Content :=
  let own := ps.filter fun p => decide (p.streamId = streamId)
  { sessionId := (own.head?.map Piece.sessionId).getD 0
    payload := own.flatMap Piece.data
    finished := own.any Piece.ended }

/-- The session and the id of a stream that was opened. -/
def Effect.opens : Effect → Option (Nat × Nat)
  | .createStream sessionId streamId => some (sessionId, streamId)
  | _ => none

/-- The stream, the bytes and the end that were sent on a stream. -/
def Effect.sends : Effect → Option (Nat × Bytes × Bool)
  | .sendStreamData streamId data ended => some (streamId, data, ended)
  | _ => none

/-- What was sent on a server stream. -/
def serverContent (effects : List Effect) (stream : Nat × Nat) : Content :=
  let own := (effects.filterMap Effect.sends).filter fun s => decide (s.1 = stream.2)
  { sessionId := stream.1
    payload := own.flatMap fun s => s.2.1
    finished := own.any fun s => s.2.2 }

/-- The server's streams and the client's can be paired so that each carries what the other does. -/
def Echoed (ids : Nat → Nat) (events : List Event) : Prop :=
  let effects := (run ids events).effects
  let ps := pieces ids events
  ((effects.filterMap Effect.opens).map (serverContent effects)).Perm
    ((clientStreams ps).map (clientContent ps))

instance (ids : Nat → Nat) (events : List Event) : Decidable (Echoed ids events) :=
  inferInstanceAs (Decidable (List.Perm _ _))

/-! ### Every piece opens a stream -/

def Piece.content (p : Piece) : Content :=
  { sessionId := p.sessionId, payload := p.data, finished := p.ended }

/-- The unidirectional streams after the given pieces. -/
structure Opens (ids : Nat → Nat) (p : Protocol) (ps : List Piece) : Prop where
  count : p.opened = ps.length
  opened : p.effects.filterMap Effect.opens = ps.zipIdx.map fun e => (e.1.sessionId, ids e.2)
  sent : (p.effects.filterMap Effect.sends).filter (fun s => isUnidirectional s.1) =
    ps.zipIdx.map fun e => (ids e.2, e.1.data, e.1.ended)

section

variable {ids : Nat → Nat} {p : Protocol} {ps : List Piece}

/-- Effects that neither open a stream nor send on a unidirectional one. -/
theorem Opens.emit (h : Opens ids p ps) {effects : List Effect}
    (hopens : effects.filterMap Effect.opens = [])
    (hsends : (effects.filterMap Effect.sends).filter (fun s => isUnidirectional s.1) = []) :
    Opens ids (p.emit effects) ps := by
  refine ⟨h.count, ?_, ?_⟩
  · rw [Protocol.emit, List.filterMap_append, hopens, List.append_nil, h.opened]
  · rw [Protocol.emit, List.filterMap_append, List.filter_append, hsends, List.append_nil, h.sent]

/-- A new stream, and one send on it. -/
theorem Opens.open (h : Opens ids p ps) (huni : ∀ n, isUnidirectional (ids n) = true) (q : Piece) :
    Opens ids ({ p with opened := p.opened + 1 }.emit [.createStream q.sessionId (ids p.opened),
      .sendStreamData (ids p.opened) q.data q.ended]) (ps ++ [q]) := by
  refine ⟨?_, ?_, ?_⟩
  · rw [Protocol.emit, h.count, List.length_append, List.length_singleton]
  · rw [Protocol.emit, List.filterMap_append, h.opened, List.zipIdx_append, List.map_append, h.count]
    simp [Effect.opens]
  · rw [Protocol.emit, List.filterMap_append, List.filter_append, h.sent, List.zipIdx_append,
      List.map_append, h.count]
    have hsend : [Effect.createStream q.sessionId (ids ps.length),
        .sendStreamData (ids ps.length) q.data q.ended].filterMap Effect.sends =
          [(ids ps.length, q.data, q.ended)] := rfl
    rw [hsend]
    simp [huni]

theorem Opens.event (h : Opens ids p ps) (huni : ∀ n, isUnidirectional (ids n) = true) (e : Event) :
    Opens ids (handleEvent ids p e) (ps ++ (pieceOf p e).toList) := by
  cases e with
  | headers streamId headers =>
    rw [handleEvent, handleHeaders, pieceOf, Option.toList_none, List.append_nil]
    cases decideRequest headers with
    | health => exact h.emit rfl rfl
    | accepted path response =>
      have haccepted : Opens ids
          { p with sessions := Function.update p.sessions streamId (some path) } ps :=
        ⟨h.count, h.opened, h.sent⟩
      exact haccepted.emit rfl rfl
    | rejected => exact h.emit rfl rfl
  | datagram sessionId data =>
    rw [handleEvent, handleDatagram, pieceOf, Option.toList_none, List.append_nil]
    cases p.sessions sessionId with
    | none => exact h
    | some path => exact h.emit rfl rfl
  | streamData sessionId streamId data ended =>
    rw [handleEvent, handleWebtransportStream, pieceOf]
    cases p.sessions sessionId with
    | none =>
      simp only [Option.isSome_none, Bool.false_eq_true, and_false, if_false, Option.toList_none,
        List.append_nil]
      exact h
    | some path =>
      cases hdirection : isUnidirectional streamId with
      | true => exact h.open huni { sessionId, streamId, data, ended }
      | false =>
        simp only [Bool.false_eq_true, false_and, if_false, Option.toList_none, List.append_nil]
        have hsend : [Effect.sendStreamData streamId data ended].filterMap Effect.sends =
            [(streamId, data, ended)] := rfl
        refine h.emit rfl ?_
        rw [hsend, List.filter_cons_of_neg (by simp [hdirection]), List.filter_nil]

theorem Opens.events (huni : ∀ n, isUnidirectional (ids n) = true) : ∀ {events : List Event}
    {p : Protocol} {ps : List Piece}, Opens ids p ps →
    Opens ids (events.foldl (handleEvent ids) p) (ps ++ piecesFrom ids p events)
  | [], p, ps, h => by rwa [List.foldl_nil, piecesFrom, List.append_nil]
  | e :: events, p, ps, h => by
    rw [List.foldl_cons, piecesFrom, ← List.append_assoc]
    exact Opens.events huni (h.event huni e)

theorem run_opens (huni : ∀ n, isUnidirectional (ids n) = true) (events : List Event) :
    Opens ids (run ids events) (pieces ids events) :=
  have hnew : Opens ids newProtocol [] := ⟨rfl, rfl, rfl⟩
  Opens.events huni hnew

/-- What was sent on a unidirectional stream is what its piece said. -/
theorem Opens.content (h : Opens ids p ps) (hids : Function.Injective ids)
    (huni : ∀ n, isUnidirectional (ids n) = true) {q : Piece} {n : Nat} (hq : (q, n) ∈ ps.zipIdx) :
    serverContent p.effects (q.sessionId, ids n) = q.content := by
  have hnodup : (ps.zipIdx.map fun e => ids e.2).Nodup := by
    have hkeys : (ps.zipIdx.map fun e => ids e.2) = (List.range' 0 ps.length).map ids := by
      rw [← List.zipIdx_map_snd 0 ps, List.map_map]
      rfl
    rw [hkeys]
    exact List.Nodup.map hids List.nodup_range'
  have hown : (p.effects.filterMap Effect.sends).filter (fun s => decide (s.1 = ids n)) =
      [(ids n, q.data, q.ended)] := by
    have huniOnly : (p.effects.filterMap Effect.sends).filter (fun s => decide (s.1 = ids n)) =
        ((p.effects.filterMap Effect.sends).filter fun s => isUnidirectional s.1).filter
          fun s => decide (s.1 = ids n) := by
      rw [List.filter_filter]
      refine List.filter_congr fun s _ => ?_
      by_cases hs : s.1 = ids n
      · simp [hs, huni]
      · simp [hs]
    rw [huniOnly, h.sent, List.filter_map]
    have hsingle := filter_key hnodup hq
    simp only [Function.comp_def]
    rw [hsingle, List.map_singleton]
  simp [serverContent, hown, Piece.content]

/-- The server streams carry one piece each. -/
theorem Opens.contents (h : Opens ids p ps) (hids : Function.Injective ids)
    (huni : ∀ n, isUnidirectional (ids n) = true) :
    (p.effects.filterMap Effect.opens).map (serverContent p.effects) = ps.map Piece.content := by
  rw [h.opened, List.map_map]
  calc ps.zipIdx.map (serverContent p.effects ∘ fun e => (e.1.sessionId, ids e.2))
      = ps.zipIdx.map (Piece.content ∘ Prod.fst) :=
        List.map_congr_left fun e he => h.content hids huni he
    _ = ps.map Piece.content := by rw [← List.map_map, List.zipIdx_map_fst]

end

/-! ### Pieces and streams -/

theorem clientContent_of_nodup {ps : List Piece} (h : (ps.map Piece.streamId).Nodup) {p : Piece}
    (hp : p ∈ ps) : clientContent ps p.streamId = p.content := by
  simp [clientContent, filter_key h hp, Piece.content]

/-- In every run the echoes are right exactly when no stream of the client came in two pieces. -/
theorem echoed_iff (ids : Nat → Nat) (hids : Function.Injective ids)
    (huni : ∀ n, isUnidirectional (ids n) = true) (events : List Event) :
    Echoed ids events ↔ ((pieces ids events).map Piece.streamId).Nodup := by
  rw [Echoed, (run_opens huni events).contents hids huni]
  refine ⟨fun h => nodup_of_length_dedup ?_, fun h => ?_⟩
  · have hlength := h.length_eq
    rw [List.length_map, List.length_map, clientStreams] at hlength
    rw [List.length_map, ← hlength]
  · rw [clientStreams, h.dedup, List.map_map]
    refine List.Perm.of_eq (List.map_congr_left fun p hp => ?_)
    exact (clientContent_of_nodup h hp).symm

/-! ### A payload in two pieces -/

/-- The ids that aioquic gives to unidirectional streams after those of HTTP/3. -/
def serverIds (n : Nat) : Nat := 15 + 4 * n

theorem serverIds_injective : Function.Injective serverIds := fun m n h => by
  unfold serverIds at h
  omega

theorem serverIds_unidirectional (n : Nat) : isUnidirectional (serverIds n) = true := by
  rw [isUnidirectional, serverIds, decide_eq_true_eq]
  omega

/-- A session on stream 0. -/
def acceptedSession : Event :=
  .headers 0 [(literal ":method", literal "CONNECT"), (literal ":protocol", literal "webtransport"),
    (literal ":path", literal "/wt/basic")]

/-- The end of the stream comes in an event of its own, and gets a server stream of its own. -/
theorem lateFin_not_echoed : ¬ Echoed serverIds
    [acceptedSession, .streamData 0 2 (literal "hi") false, .streamData 0 2 [] true] := by
  decide

/-- Two streams, each in one piece. -/
theorem onePiece_echoed : Echoed serverIds
    [acceptedSession, .streamData 0 6 (literal "a") true, .streamData 0 2 (literal "b") true] :=
  (echoed_iff serverIds serverIds_injective serverIds_unidirectional _).mpr (by decide)

end WebTransportEcho.Aioquic
