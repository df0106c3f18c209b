import WebTransportEcho.Health.Books

/-! Every future of the health client is answered right, in every state that can be reached with a
    server that echoes (`served`). The invariant ties the two histories together: what the server
    heard to what the calls sent, what arrived to what the server heard, and the tables of the client
    to what arrived. -/

namespace WebTransportEcho.Health
open Backend Delivery
open Aioquic (Effect)

section

variable {ε : Type} {server : Server ε} {policy : Policy}

/-- What the server has heard from the client. -/
def System.heard (server : Server ε) (m : System ε) : List Aioquic.Event :=
  m.up.filterMap server.hears

structure Served (server : Server ε) (policy : Policy) (m : System ε) : Prop where
  effects : m.client.effects = sends m.calls
  numbered : opened m.calls = (List.range m.client.opened).map clientStream
  arrives : Arrives (sends m.calls) (m.heard server)
  inOrder : policy.InOrder (m.heard server)
  accepted : ∀ sessionId payload s, (Call.bidiEcho sessionId payload, s) ∈ m.calls →
    policy.Accepted (m.heard server) sessionId
  answered : ∀ s, content (parts m.down s) ≠ [] → (m.heard server).filterMap (heardHeaders s) ≠ []
  expected : Expected policy m.calls m.down
  books : Books policy m.calls m.client m.down

theorem Served.new : Served server policy (newSystem ε) where
  effects := rfl
  numbered := rfl
  arrives :=
    { requests := fun _ => List.prefix_refl _
      streams := fun _ => carried_nil _
      sessions := fun _ _ _ _ h => by cases h
      datagrams := fun _ _ h => by cases h }
  inOrder front sessionId streamId data ended h := by
    rw [show (newSystem ε).heard server = [] from rfl, List.prefix_nil] at h
    simp at h
  accepted _ _ _ h := by cases h
  answered _ h := absurd rfl h
  expected :=
    { messages := fun _ => carried_nil _
      streams := fun _ _ => carried_nil _
      datagrams := fun _ _ h => by cases h
      foreign := fun _ _ _ h => by cases h }
  books :=
    { length := rfl
      requests := fun _ _ h => by cases h
      sessions := fun _ _ h => by cases h
      streamEchoes := fun _ _ h => by cases h
      datagramEchoes := fun _ _ h => by cases h
      settled := fun _ _ h => by cases h
      accepted := fun _ h => by cases h }

/-! ### A call -/

variable {m : System ε}

/-- A session that a call has returned is accepted. -/
theorem Served.session_accepted (h : Served server policy m) {sessionId : Nat}
    (hsession : some (.session sessionId) ∈ m.client.waiters) :
    policy.Accepted (m.heard server) sessionId := by
  obtain ⟨w, hw⟩ := List.mem_iff_getElem?.mp hsession
  obtain ⟨⟨c, s⟩, hc, rfl, authority, path, rfl, haccepts⟩ := h.books.settled w _ hw
  have hheard := h.answered s (h.books.accepted s hsession)
  have hrequests := h.arrives.requests s
  rw [headers_of_open (opened_nodup ⟨_, h.numbered⟩) (List.mem_of_getElem? hc)] at hrequests
  have hone : (m.heard server).filterMap (heardHeaders s) = [connectHeaders authority path] := by
    rcases List.prefix_cons_iff.mp hrequests with hnil | ⟨rest, hcons, hrest⟩
    · exact absurd hnil hheard
    · rw [hcons, List.prefix_nil.mp hrest]
  have hmem : connectHeaders authority path ∈ (m.heard server).filterMap (heardHeaders s) := by
    rw [hone]
    exact List.mem_singleton_self _
  obtain ⟨e, he, hheaders⟩ := List.mem_filterMap.mp hmem
  cases e with
  | headers s' headers =>
    rw [heardHeaders, Option.ite_none_right_eq_some] at hheaders
    obtain ⟨rfl, hheaders⟩ := hheaders
    cases hheaders
    exact ⟨authority, path, haccepts, he⟩
  | datagram => cases hheaders
  | streamData => cases hheaders

theorem Served.call (h : Served server policy m) {c : Call} (hc : m.client.Permits c) :
    Served server policy (m.call c) where
  effects := by
    rw [System.call, effects_call, h.effects, sends_append, sends_singleton]
  numbered := numbered_call h.numbered c
  arrives := by
    have harrives := h.arrives
    refine ⟨fun s => ?_, fun n => ?_, fun sessionId s data ended hmem => ?_,
      fun sessionId data hmem => ?_⟩
    · rw [System.call, sends_append, List.filterMap_append]
      exact (harrives.requests s).trans (List.prefix_append _ _)
    · have hstream := harrives.streams n
      rcases sends_call h.numbered (sentBytes_other (s := clientStream n)) c with hnone | hsame
      · rw [hnone] at hstream
        exact hstream.of_nil _
      · rw [System.call, hsame]
        exact hstream
    · rw [System.call, sends_append]
      exact List.mem_append_left _ (harrives.sessions sessionId s data ended hmem)
    · rw [System.call, sends_append]
      exact List.mem_append_left _ (harrives.datagrams sessionId data hmem)
  inOrder := h.inOrder
  accepted sessionId payload s hmem := by
    rcases List.mem_append.mp hmem with hold | hnew
    · exact h.accepted sessionId payload s hold
    · rw [List.mem_singleton] at hnew
      cases hnew
      exact h.session_accepted hc
  answered := h.answered
  expected := by
    have hexpected := h.expected
    refine ⟨fun s => ?_, fun n hn => ?_, fun sessionId data hmem => ?_, hexpected.foreign⟩
    · have hmessages := hexpected.messages s
      rcases sends_call h.numbered (sentHeaders_other (s := s)) c with hnone | hsame
      · rw [hnone] at hmessages
        exact hmessages.of_nil _
      · rw [System.call, hsame]
        exact hmessages
    · rw [System.call, sends_append, List.filterMap_append, List.append_eq_nil_iff] at hn
      have hstream := hexpected.streams n hn.1
      rcases sends_call h.numbered (sentBytes_other (s := clientStream n)) c with hnone | hsame
      · rw [hnone] at hstream
        exact hstream.of_nil _
      · rw [System.call, hsame]
        exact hstream
    · rw [System.call, sends_append]
      exact List.mem_append_left _ (hexpected.datagrams sessionId data hmem)
  books := h.books.call h.numbered h.expected c

/-! ### What the server hears -/

theorem heard_hear (m : System ε) (e : ε) :
    (m.hear e).heard server = m.heard server ++ (server.hears e).toList := by
  rw [System.heard, System.heard, System.hear, List.filterMap_append]
  cases hheard : server.hears e <;> simp [hheard]

theorem Policy.Accepted.mono {heard : List Aioquic.Event} {sessionId : Nat}
    (h : policy.Accepted heard sessionId) (more : List Aioquic.Event) :
    policy.Accepted (heard ++ more) sessionId := by
  obtain ⟨authority, path, haccepts, hmem⟩ := h
  exact ⟨authority, path, haccepts, List.mem_append_left _ hmem⟩

theorem Served.hear (h : Served server policy m) (e : ε)
    (he : Arrives m.client.effects ((m.hear e).heard server)) : Served server policy (m.hear e) := by
  rw [h.effects] at he
  refine { h with arrives := he, inOrder := ?_, accepted := fun sessionId payload s hmem => ?_,
                  answered := fun s hs => ?_ }
  · intro front sessionId s data ended hfront
    rw [heard_hear] at hfront he
    cases hheard : server.hears e with
    | none =>
      rw [hheard, Option.toList_none, List.append_nil] at hfront
      exact h.inOrder front sessionId s data ended hfront
    | some x =>
      rw [hheard, Option.toList_some] at hfront he
      rcases List.prefix_concat_iff.mp hfront with hlast | hbefore
      · obtain ⟨rfl, hx⟩ := List.append_inj' hlast rfl
        have hstream := he.sessions sessionId s data ended (by simp [← hx])
        obtain ⟨payload, hcall⟩ := mem_sends_stream hstream
        exact h.accepted sessionId payload s hcall
      · exact h.inOrder front sessionId s data ended hbefore
  · rw [heard_hear]
    exact (h.accepted sessionId payload s hmem).mono _
  · rw [heard_hear, List.filterMap_append]
    exact fun hnil => h.answered s hs (List.append_eq_nil_iff.mp hnil).1

/-! ### What the client receives -/

/-- What an event leaves as it is: a future that is settled stays so. -/
structure Protocol.Later (p q : Protocol) : Prop where
  opened : p.opened = q.opened
  effects : p.effects = q.effects
  settled : ∀ (w : Nat) (o : Outcome), q.waiters[w]? = some (some o) → p.waiters[w]? = some (some o)

theorem Protocol.Later.trans {p q r : Protocol} (h : p.Later q) (h' : q.Later r) : p.Later r :=
  ⟨h.opened.trans h'.opened, h.effects.trans h'.effects, fun w o hw => h.settled w o (h'.settled w o hw)⟩

theorem later_settle (p : Protocol) (w : Nat) (o : Outcome) : (p.settle w o).Later p := by
  refine ⟨rfl, rfl, fun i o' hi => ?_⟩
  rw [waiters_settle, hi, Option.map_some]
  split <;> rfl

theorem later_receiveEcho (p : Protocol) (s : Nat) (echo : Echo) (data : Bytes) (ended : Bool) :
    (p.receiveEcho s echo data ended).Later p := by
  cases ended with
  | false => exact ⟨rfl, rfl, fun _ _ h => h⟩
  | true => exact (later_settle _ _ _).trans ⟨rfl, rfl, fun _ _ h => h⟩

theorem later_receiveResponse (p : Protocol) (s : Nat) (r : Request) (ended : Bool) :
    (p.receiveResponse s r ended).Later p := by
  cases ended with
  | false => exact ⟨rfl, rfl, fun _ _ h => h⟩
  | true => exact (later_settle _ _ _).trans ⟨rfl, rfl, fun _ _ h => h⟩

theorem later_httpEvent (p : Protocol) (e : HttpEvent) : (handleHttpEvent p e).1.Later p := by
  have hsame : p.Later p := ⟨rfl, rfl, fun _ _ h => h⟩
  cases e with
  | datagram s data =>
    rw [handleHttpEvent]
    cases p.datagramEchoes.lookup s with
    | none => exact hsame
    | some w => exact (later_settle _ _ _).trans ⟨rfl, rfl, fun _ _ h => h⟩
  | webtransportData s data ended =>
    rw [handleHttpEvent]
    cases p.streamEchoes.lookup s with
    | none => exact hsame
    | some echo => exact later_receiveEcho p s echo data ended
  | data s data ended =>
    rw [handleHttpEvent]
    cases p.requests.lookup s with
    | none => exact hsame
    | some r => exact later_receiveResponse p s _ ended
  | headers s headers ended =>
    rw [handleHttpEvent]
    cases p.sessions.lookup s with
    | some w =>
      simp only [Protocol.receiveSession]
      split_ifs
      · exact ⟨rfl, rfl, fun _ _ h => h⟩
      · exact (later_settle _ _ _).trans ⟨rfl, rfl, fun _ _ h => h⟩
      · exact (later_settle _ _ _).trans ⟨rfl, rfl, fun _ _ h => h⟩
    | none =>
      cases p.requests.lookup s with
      | none => exact hsame
      | some r =>
        cases status headers with
        | none => exact later_receiveResponse p s _ ended
        | some text =>
          cases hint : int text with
          | none => simp only [hint]; exact hsame
          | some n => simp only [hint]; exact later_receiveResponse p s _ ended

theorem later_httpEvents : ∀ (http : List HttpEvent) (p : Protocol), (handleHttpEvents p http).Later p
  | [], p => ⟨rfl, rfl, fun _ _ h => h⟩
  | e :: http, p => by
    have hone := later_httpEvent p e
    rw [handleHttpEvents]
    generalize handleHttpEvent p e = handled at hone
    obtain ⟨p', raised⟩ := handled
    cases raised with
    | none => exact (later_httpEvents http p').trans hone
    | some _ => exact hone

theorem later_settles (o : Outcome) : ∀ (ws : List Nat) (p : Protocol),
    (ws.foldl (fun p w => p.settle w o) p).Later p
  | [], _ => ⟨rfl, rfl, fun _ _ h => h⟩
  | w :: ws, p => (later_settles o ws (p.settle w o)).trans (later_settle p w o)

theorem later_event (p : Protocol) (e : Event) : (quicEventReceived p e).Later p := by
  cases e with
  | other http => exact later_httpEvents http p
  | terminated errorCode reasonPhrase => exact later_settles _ _ p
  | streamData s data ended http =>
    rw [quicEventReceived]
    cases p.streamEchoes.lookup s with
    | none => exact later_httpEvents http p
    | some echo => exact later_receiveEcho p s echo data ended

/-- A response to what was heard is one to what was sent. -/
theorem Served.follows_respond (h : Served server policy m) (s : Nat) :
    Follows (((sends m.calls).filterMap (sentHeaders s)).flatMap policy.respond)
      (((m.heard server).filterMap (heardHeaders s)).flatMap policy.respond) := by
  have hrequests := h.arrives.requests s
  rcases sentHeaders_cases (opened_nodup ⟨_, h.numbered⟩) s with hnone | ⟨headers, hone⟩
  · rw [hnone] at hrequests ⊢
    rw [List.prefix_nil.mp hrequests]
    exact Follows.refl _
  · rw [hone] at hrequests ⊢
    rcases List.prefix_cons_iff.mp hrequests with hnil | ⟨rest, hcons, hrest⟩
    · rw [hnil]
      exact follows_nil _
    · rw [hcons, List.prefix_nil.mp hrest]
      exact Follows.refl _

theorem Served.receive (hechoes : server.Echoes policy) (hreliable : server.reliable m.up)
    (h : Served server policy m) {e : Event}
    (he : Returns m.client.effects (server.sent m.up) (m.down ++ e.heard))
    (hasked : e.Unasked m.client.effects) (hopen : Heard.terminated ∉ m.down) :
    Served server policy (m.receive e) := by
  rw [h.effects] at he hasked
  have hresponses (s : Nat) := (hechoes.messages m.up hreliable s).carried (he.messages s)
  have hexpected : Expected policy m.calls (m.down ++ e.heard) := by
    refine ⟨fun s => (h.follows_respond s).carried (hresponses s), fun n hn => ?_,
      fun sessionId data hmem => ?_, he.foreign⟩
    · have hechoed := hechoes.streams m.up hreliable h.inOrder n
      exact ((h.arrives.streams n).follows.trans hechoed).carried (he.streams n hn)
    · have hechoed := hechoes.datagrams m.up hreliable _ _ (he.datagrams sessionId data hmem)
      exact h.arrives.datagrams _ _ hechoed
  exact {
    effects := (later_event m.client e).effects.trans h.effects
    numbered := by
      rw [System.receive, (later_event m.client e).opened]
      exact h.numbered
    arrives := h.arrives
    inOrder := h.inOrder
    accepted := h.accepted
    answered := fun s hs hnothing => by
      have hfollows := (hresponses s).follows.content
      have hunheard : (m.up.filterMap server.hears).filterMap (heardHeaders s) = [] := hnothing
      rw [hunheard, List.flatMap_nil, content_nil, List.prefix_nil] at hfollows
      exact hs hfollows
    expected := hexpected
    books := h.books.event hechoes.sound ⟨_, h.numbered⟩ hopen hexpected hasked }

theorem served (hechoes : server.Echoes policy) (h : Reachable server m)
    (hreliable : server.reliable m.up) : Served server policy m := by
  induction h with
  | new => exact .new
  | call _ c hc ih => exact (ih hreliable).call hc
  | hear _ e he ih => exact (ih (hechoes.reliable _ e hreliable)).hear e he
  | @receive m _ e he hasked hopen ih =>
    have hnow : server.reliable m.up := hreliable
    exact (ih hnow).receive hechoes hnow he hasked hopen

end

end WebTransportEcho.Health
