import WebTransportEcho.Backend.Echoes

/-! A request whose response cannot be sent, and the other streams of its connection. The error of
    such a request ends the event loop, as a connection error does, unless it is the empty body of a
    404 that cannot be sent. With the loop all sessions are gone. The other streams notice exactly when
    something was still to be done for one of them before the loop would have ended anyway, or a
    session of theirs would have stayed. -/

namespace WebTransportEcho.TokioQuiche
open Backend

/-! ### The other streams -/

/-- The echoes and the responses for all streams but one. -/
@[ext]
structure Sent where
  commands : List Command
  responses : List (UInt64 × OutboundFrame)

/-- What a connection has done for all streams but one, and their sessions. -/
@[ext]
structure Others where
  sent : Sent
  sessions : UInt64 → Option String

/-- The command echoes what this stream has sent. A unidirectional echo is on a stream of its own. -/
def Command.isOwn (streamId : UInt64) (command : Command) : Bool :=
  decide (command.label = .bidiEcho ∧ command.streamId = streamId)

def Connection.sent (c : Connection) (streamId : UInt64) : Sent where
  commands := c.commands.filter fun command => !command.isOwn streamId
  responses := c.responses.filter fun response => decide (response.1 ≠ streamId)

def Connection.others (c : Connection) (streamId : UInt64) : Others where
  sent := c.sent streamId
  sessions := Function.update c.sessions streamId none

/-- Later in one run: nothing that was sent is undone. -/
structure Sent.Before (o o' : Sent) : Prop where
  commands : o.commands <+: o'.commands
  responses : o.responses <+: o'.responses

theorem prefix_antisymm {α : Type} {xs ys : List α} (h : xs <+: ys) (h' : ys <+: xs) : xs = ys :=
  h.eq_of_length (Nat.le_antisymm h.length_le h'.length_le)

theorem Sent.Before.refl (o : Sent) : o.Before o := ⟨List.prefix_rfl, List.prefix_rfl⟩

theorem Sent.Before.trans {o o' o'' : Sent} (h : o.Before o') (h' : o'.Before o'') : o.Before o'' :=
  ⟨h.commands.trans h'.commands, h.responses.trans h'.responses⟩

theorem Sent.Before.antisymm {o o' : Sent} (h : o.Before o') (h' : o'.Before o) : o = o' :=
  Sent.ext (prefix_antisymm h.commands h'.commands) (prefix_antisymm h.responses h'.responses)

/-! ### What an event does for them -/

/-- The event sends nothing for a stream but this one. -/
def Event.silent (streamId : UInt64) : Event → Bool
  | .headers s _ sent _ => decide (s = streamId) || !sent
  | .streamData _ s .bidi _ _ => decide (s = streamId)
  | .streamData _ _ .uni _ fin => !fin
  | _ => true

/-- Nothing is sent for another stream until the loop is over. -/
def Silent (streamId : UInt64) : List Event → Bool
  | [] => true
  | e :: events => e.silent streamId && (e.ends || Silent streamId events)

/-- The session of this stream is over with the event. -/
def Event.closes (s : UInt64) : Event → Bool
  | .resetStream s' => decide (s' = s)
  | .streamClosed s' => decide (s' = s)
  | _ => false

/-- No session of another stream is left: the loop ends, or each is reset or closed. -/
def Forgotten (streamId : UInt64) (sessions : UInt64 → Option String) (events : List Event) : Prop :=
  (∃ e ∈ events, e.ends = true) ∨
    ∀ s, s ≠ streamId → sessions s ≠ none → ∃ e ∈ events, e.closes s = true

theorem ended_of_live {c : Connection} (h : c.ended = false) (e : Event) :
    (handleEvent c e).ended = e.ends := by
  rw [handleEvent_ended, h, Bool.false_or]

section Events

variable (streamId : UInt64) (c : Connection)

theorem sent_respond (s : UInt64) (frame : OutboundFrame) : (c.respond s frame).sent streamId =
    { c.sent streamId with responses := (c.sent streamId).responses ++
        (if s = streamId then [] else [(s, frame)]) } := by
  by_cases hs : s = streamId <;> simp [Connection.sent, Connection.respond, List.filter_append, hs]

theorem sent_stop : c.stop.sent streamId = c.sent streamId := rfl

theorem sent_sessions (sessions : UInt64 → Option String) :
    { c with sessions }.sent streamId = c.sent streamId := rfl

theorem sent_queueStreamSend (command : Command) : (c.queueStreamSend command).sent streamId =
    { c.sent streamId with commands := (c.sent streamId).commands ++
        (if command.isOwn streamId then [] else [command]) } := by
  cases h : command.isOwn streamId <;>
    simp [Connection.sent, Connection.queueStreamSend, List.filter_append, h]

end Events

/-- A response on another stream is something sent. -/
theorem Sent.before_respond (o : Sent) (response : UInt64 × OutboundFrame)
    (more : List (UInt64 × OutboundFrame)) :
    o.Before { o with responses := o.responses ++ response :: more } :=
  ⟨List.prefix_rfl, List.prefix_append _ _⟩

theorem Sent.respond_ne (o : Sent) (response : UInt64 × OutboundFrame)
    (more : List (UInt64 × OutboundFrame)) :
    { o with responses := o.responses ++ response :: more } ≠ o := by
  intro h
  have := congrArg (fun o => o.responses.length) h
  simp at this

section Step

variable {streamId : UInt64}

/-- The response to a request is nothing that another stream sees. -/
theorem sent_handleHeaders_self (c : Connection) (headers : List Header) (sent bodySent : Bool) :
    (handleHeaders c streamId headers sent bodySent).sent streamId = c.sent streamId := by
  unfold handleHeaders
  cases sent with
  | false => rfl
  | true =>
    cases bodySent <;> simp only [Bool.not_true, Bool.false_eq_true, if_false, if_true] <;>
      split_ifs <;>
      simp [sent_sessions, sent_respond, sent_stop]

theorem sent_handleHeaders_other {s : UInt64} (hs : s ≠ streamId) (c : Connection)
    (headers : List Header) (bodySent : Bool) : ∃ response more,
    (handleHeaders c s headers true bodySent).sent streamId = { c.sent streamId with
      responses := (c.sent streamId).responses ++ response :: more } := by
  unfold handleHeaders
  cases bodySent <;> simp only [Bool.not_true, Bool.false_eq_true, if_false, if_true] <;>
    split_ifs <;>
    simp only [sent_sessions, sent_respond, sent_stop, if_neg hs, List.append_assoc] <;>
    exact ⟨_, _, rfl⟩

theorem handleEvent_before (c : Connection) (e : Event) :
    (c.sent streamId).Before ((handleEvent c e).sent streamId) := by
  cases e with
  | headers s headers sent bodySent =>
    by_cases hs : s = streamId
    · subst hs
      rw [handleEvent, sent_handleHeaders_self]
      exact .refl _
    · cases sent with
      | false => exact .refl _
      | true =>
        obtain ⟨response, more, h⟩ := sent_handleHeaders_other hs c headers bodySent
        rw [handleEvent, h]
        exact Sent.before_respond _ _ _
  | streamData sessionId s direction data fin =>
    cases direction with
    | bidi =>
      rw [handleEvent, sent_queueStreamSend]
      exact ⟨List.prefix_append _ _, List.prefix_rfl⟩
    | uni =>
      cases fin with
      | false => exact .refl _
      | true =>
        rw [handleEvent, handleUni]
        simp only [if_true, sent_queueStreamSend]
        exact ⟨List.prefix_append _ _, List.prefix_rfl⟩
  | resetStream s => exact .refl _
  | streamClosed s => exact .refl _
  | connectionError => exact .refl _
  | connectionShutdown => exact .refl _
  | other => exact .refl _

theorem handleEvent_silent_iff (c : Connection) (e : Event) :
    (handleEvent c e).sent streamId = c.sent streamId ↔ e.silent streamId = true := by
  cases e with
  | headers s headers sent bodySent =>
    by_cases hs : s = streamId
    · subst hs
      simp [handleEvent, sent_handleHeaders_self, Event.silent]
    · cases sent with
      | false => simp [handleEvent, handleHeaders, sent_stop, Event.silent]
      | true =>
        obtain ⟨response, more, h⟩ := sent_handleHeaders_other hs c headers bodySent
        rw [handleEvent, h]
        simp [Sent.respond_ne, Event.silent, hs]
  | streamData sessionId s direction data fin =>
    have hgrow (c : Connection) (command : Command) : (c.queueStreamSend command).sent streamId =
        c.sent streamId ↔ command.isOwn streamId = true := by
      rw [sent_queueStreamSend]
      cases h : command.isOwn streamId <;> simp [Sent.ext_iff]
    cases direction with
    | bidi => simp [handleEvent, hgrow, Event.silent, Command.isOwn]
    | uni =>
      cases fin with
      | false => simp [handleEvent, handleUni, Event.silent, Connection.sent]
      | true => exact (hgrow _ _).trans (by simp [Command.isOwn, uniEcho, Event.silent])
  | resetStream s => exact iff_of_true rfl rfl
  | streamClosed s => exact iff_of_true rfl rfl
  | connectionError => exact iff_of_true rfl rfl
  | connectionShutdown => exact iff_of_true rfl rfl
  | other => exact iff_of_true rfl rfl

theorem turn_before (c : Connection) (e : Event) :
    (c.sent streamId).Before ((turn c e).sent streamId) := by
  rw [turn]
  split
  · exact .refl _
  · exact handleEvent_before c e

theorem foldl_turn_before (streamId : UInt64) (events : List Event) : ∀ c : Connection,
    (c.sent streamId).Before ((events.foldl turn c).sent streamId) := by
  induction events with
  | nil => exact fun c => .refl _
  | cons e events ih => exact fun c => (turn_before c e).trans (ih (turn c e))

/-- Over a run nothing is sent for the other streams exactly when no event before the end of the loop
    sends anything for them. -/
theorem foldl_turn_silent_iff (streamId : UInt64) (events : List Event) : ∀ {c : Connection},
    c.ended = false → ((events.foldl turn c).sent streamId = c.sent streamId ↔
      Silent streamId events = true) := by
  induction events with
  | nil => exact fun _ => ⟨fun _ => rfl, fun _ => rfl⟩
  | cons e events ih =>
    intro c hc
    have hturn : turn c e = handleEvent c e := by rw [turn, hc, if_neg Bool.false_ne_true]
    have hended := ended_of_live hc e
    rw [List.foldl_cons, hturn, Silent, Bool.and_eq_true, Bool.or_eq_true,
      ← handleEvent_silent_iff c]
    have hsteps : (events.foldl turn (handleEvent c e)).sent streamId = c.sent streamId ↔
        (handleEvent c e).sent streamId = c.sent streamId ∧
        (events.foldl turn (handleEvent c e)).sent streamId =
          (handleEvent c e).sent streamId := by
      refine ⟨fun h => ?_, fun h => h.2.trans h.1⟩
      have hback := foldl_turn_before streamId events (handleEvent c e)
      rw [h] at hback
      have heq := hback.antisymm (handleEvent_before c e)
      exact ⟨heq, h.trans heq.symm⟩
    rw [hsteps]
    refine and_congr_right fun _ => ?_
    cases hends : e.ends with
    | true => simp [turns_of_ended (hended.trans hends)]
    | false => simpa using ih (hended.trans hends)

/-! ### Sessions -/

/-- A loop that is over has no sessions. -/
theorem handleHeaders_sessions (c : Connection) (s : UInt64) (headers : List Header)
    (sent bodySent : Bool) :
    ((Event.headers s headers sent bodySent).ends = true →
      (handleHeaders c s headers sent bodySent).sessions = fun _ => none) ∧
    ((Event.headers s headers sent bodySent).ends = false → ∀ s', s' ≠ s →
      (handleHeaders c s headers sent bodySent).sessions s' = c.sessions s') := by
  simp only [handleHeaders, Event.ends]
  generalize RequestHeaders.fromHeaders headers = request
  cases sent with
  | false => exact ⟨fun _ => rfl, fun h => (by cases h)⟩
  | true =>
    cases request.isHealth with
    | true =>
      cases bodySent with
      | false => exact ⟨fun _ => rfl, fun h => (by cases h)⟩
      | true => exact ⟨fun h => (by cases h), fun _ _ _ => rfl⟩
    | false =>
      simp only [Bool.not_true, Bool.false_eq_true, if_false, Bool.false_and, Bool.or_false]
      split_ifs
      · exact ⟨fun h => (by cases h), fun _ _ _ => rfl⟩
      · exact ⟨fun h => (by cases h), fun _ _ _ => rfl⟩
      · exact ⟨fun h => (by cases h), fun _ s' hs' => Function.update_of_ne hs' _ _⟩

theorem sessions_of_ends {c : Connection} {e : Event} (h : e.ends = true) :
    (handleEvent c e).sessions = fun _ => none := by
  cases e with
  | headers s headers sent bodySent => exact (handleHeaders_sessions c s headers sent bodySent).1 h
  | connectionError => rfl
  | connectionShutdown => rfl
  | streamData | resetStream | streamClosed | other => cases h

/-- An event that sends nothing for another stream at most ends a session of one. -/
theorem sessions_of_silent {c : Connection} {e : Event} (hends : e.ends = false)
    (hsilent : e.silent streamId = true) {s : UInt64} (hs : s ≠ streamId) :
    (handleEvent c e).sessions s = if e.closes s = true then none else c.sessions s := by
  have hremove (s' : UInt64) : Function.update c.sessions s' none s =
      if decide (s' = s) = true then none else c.sessions s := by
    rcases eq_or_ne s s' with rfl | hne
    · rw [Function.update_self, if_pos (decide_eq_true rfl)]
    · rw [Function.update_of_ne hne, if_neg (by simpa using hne.symm)]
  cases e with
  | headers s' headers sent bodySent =>
    have hown : s' = streamId := by
      simp only [Event.ends, Bool.or_eq_false_iff, Bool.not_eq_false'] at hends
      simpa [Event.silent, hends.1] using hsilent
    exact (handleHeaders_sessions c s' headers sent bodySent).2 hends s (hown ▸ hs)
  | streamData sessionId s' direction data fin =>
    cases direction with
    | bidi => rfl
    | uni => cases fin <;> rfl
  | resetStream s' => exact hremove s'
  | streamClosed s' => exact hremove s'
  | connectionError => cases hends
  | connectionShutdown => cases hends
  | other => rfl

/-- Over a run that sends nothing for the other streams, their sessions are gone exactly when the loop
    has ended or each was reset or closed. -/
theorem forgotten_iff (events : List Event) : ∀ {c : Connection}, c.ended = false →
    Silent streamId events = true →
    ((∀ s, s ≠ streamId → (events.foldl turn c).sessions s = none) ↔
      Forgotten streamId c.sessions events) := by
  induction events with
  | nil =>
    intro c _ _
    simp [Forgotten]
  | cons e events ih =>
    intro c hc hsilent
    rw [Silent, Bool.and_eq_true, Bool.or_eq_true] at hsilent
    have hturn : turn c e = handleEvent c e := by rw [turn, hc, if_neg Bool.false_ne_true]
    have hended := ended_of_live hc e
    rw [List.foldl_cons, hturn]
    cases hends : e.ends with
    | true =>
      rw [turns_of_ended (hended.trans hends), sessions_of_ends hends]
      exact iff_of_true (fun _ _ => rfl) (Or.inl ⟨e, List.mem_cons_self, hends⟩)
    | false =>
      rw [hends, Bool.false_eq_true, false_or] at hsilent
      rw [ih (hended.trans hends) hsilent.2]
      have hstep {s : UInt64} (hs : s ≠ streamId) := sessions_of_silent (c := c) hends hsilent.1 hs
      have hone (s : UInt64) : ((∃ e' ∈ e :: events, e'.closes s = true)) ↔
          e.closes s = true ∨ ∃ e' ∈ events, e'.closes s = true := by simp
      have hsessions : (∀ s, s ≠ streamId → (handleEvent c e).sessions s ≠ none →
            ∃ e' ∈ events, e'.closes s = true) ↔
          ∀ s, s ≠ streamId → c.sessions s ≠ none → ∃ e' ∈ e :: events, e'.closes s = true := by
        refine forall₂_congr fun s hs => ?_
        rw [hstep hs, hone]
        cases e.closes s <;> simp
      rw [Forgotten, Forgotten, hsessions]
      simp [hends]

end Step

/-! ### A response that cannot be sent -/

/-- The two runs do the same for the other streams: the one with this request's sends as they went,
    and the one in which its response was delivered. -/
def Isolated (before : List Event) (streamId : UInt64) (headers : List Header) (sent bodySent : Bool)
    (after : List Event) : Prop :=
  (serve (before ++ .headers streamId headers sent bodySent :: after)).others streamId =
    (serve (before ++ .headers streamId headers true true :: after)).others streamId

/-- The request is one whose failure ends a loop that is not over, and after it something is still to
    be sent for another stream, or a session of one stays. -/
def CutsOff (before : List Event) (streamId : UInt64) (headers : List Header) (sent bodySent : Bool)
    (after : List Event) : Prop :=
  (serve before).ended = false ∧ (Event.headers streamId headers sent bodySent).ends = true ∧
    ¬ (Silent streamId after = true ∧ Forgotten streamId (serve before).sessions after)

theorem serve_split (before : List Event) (e : Event) (after : List Event) :
    serve (before ++ e :: after) = after.foldl turn (turn (serve before) e) := by
  rw [serve, List.foldl_append, List.foldl_cons, serve]

theorem handleHeaders_responses (c : Connection) (s : UInt64) (headers : List Header)
    (sent bodySent : Bool) : ∃ issued, ∀ responses,
    handleHeaders { c with responses } s headers sent bodySent =
      { handleHeaders c s headers sent bodySent with responses := responses ++ issued } := by
  cases sent with
  | false => exact ⟨[], fun responses => by simp [handleHeaders, Connection.stop]⟩
  | true =>
    cases hhealth : (RequestHeaders.fromHeaders headers).isHealth with
    | true =>
      cases bodySent <;> simp [handleHeaders, hhealth, Connection.stop, Connection.respond]
    | false =>
      by_cases hstatus : (RequestHeaders.fromHeaders headers).status = 200 <;>
        cases bodySent <;> simp [handleHeaders, hhealth, hstatus, Connection.respond]

/-- What has been answered so far has no part in what is done next. -/
theorem turn_responses (c : Connection) (e : Event) : ∃ issued, ∀ responses,
    turn { c with responses } e = { turn c e with responses := responses ++ issued } := by
  unfold turn
  split_ifs with hended
  · exact ⟨[], fun responses => by rw [List.append_nil]⟩
  · cases e with
    | headers s headers sent bodySent => exact handleHeaders_responses c s headers sent bodySent
    | streamData sessionId s direction data fin =>
      refine ⟨[], fun responses => ?_⟩
      cases direction with
      | bidi => simp [handleEvent, Connection.queueStreamSend]
      | uni => cases fin <;> simp [handleEvent, handleUni, Connection.queueStreamSend]
    | resetStream s => exact ⟨[], fun responses => by simp [handleEvent]⟩
    | streamClosed s => exact ⟨[], fun responses => by simp [handleEvent]⟩
    | connectionError => exact ⟨[], fun responses => by simp [handleEvent, Connection.stop]⟩
    | connectionShutdown => exact ⟨[], fun responses => by simp [handleEvent, Connection.stop]⟩
    | other => exact ⟨[], fun responses => by simp [handleEvent]⟩

theorem foldl_turn_responses (events : List Event) : ∀ c : Connection, ∃ issued, ∀ responses,
    events.foldl turn { c with responses } =
      { events.foldl turn c with responses := responses ++ issued } := by
  induction events with
  | nil => exact fun c => ⟨[], fun responses => by simp⟩
  | cons e events ih =>
    intro c
    obtain ⟨issued, hturn⟩ := turn_responses c e
    obtain ⟨later, hlater⟩ := ih (turn c e)
    refine ⟨issued ++ later, fun responses => ?_⟩
    rw [List.foldl_cons, List.foldl_cons, hturn, hlater, List.append_assoc]

/-- A failure that does not end the loop leaves out a frame of the request's own stream at most. -/
theorem handleHeaders_of_not_ends {streamId : UInt64} {headers : List Header} {sent bodySent : Bool}
    (h : (Event.headers streamId headers sent bodySent).ends = false) (c : Connection) :
    ∃ own : List (UInt64 × OutboundFrame), (∀ response ∈ own, response.1 = streamId) ∧
      handleHeaders c streamId headers true true =
        { handleHeaders c streamId headers sent bodySent with
          responses := (handleHeaders c streamId headers sent bodySent).responses ++ own } := by
  simp only [Event.ends, Bool.or_eq_false_iff, Bool.not_eq_false', Bool.and_eq_false_iff] at h
  obtain ⟨rfl, hbody⟩ := h
  cases bodySent with
  | true => exact ⟨[], by simp, by rw [List.append_nil]⟩
  | false =>
    have hhealth : (RequestHeaders.fromHeaders headers).isHealth = false := by simpa using hbody
    by_cases hstatus : (RequestHeaders.fromHeaders headers).status ≠ 200
    · refine ⟨[(streamId, .body [] true)], by simp, ?_⟩
      simp [handleHeaders, hhealth, hstatus, Connection.respond]
    · refine ⟨[], by simp, ?_⟩
      simp [handleHeaders, hhealth, hstatus]

theorem isolated_iff (before : List Event) (streamId : UInt64) (headers : List Header)
    (sent bodySent : Bool) (after : List Event) : Isolated before streamId headers sent bodySent after ↔
      ¬ CutsOff before streamId headers sent bodySent after := by
  rw [Isolated, CutsOff, serve_split, serve_split]
  generalize hserved : serve before = c
  cases hended : c.ended with
  | true => simp [turn, hended]
  | false =>
    have hturn (sent bodySent : Bool) : turn c (.headers streamId headers sent bodySent) =
        handleHeaders c streamId headers sent bodySent := by
      rw [turn, hended, if_neg Bool.false_ne_true, handleEvent]
    rw [hturn, hturn]
    cases hends : (Event.headers streamId headers sent bodySent).ends with
    | true =>
      have hcut : (handleHeaders c streamId headers sent bodySent).ended = true :=
        (ended_of_live hended _).trans hends
      have hlive : (handleHeaders c streamId headers true true).ended = false :=
        (ended_of_live hended (.headers streamId headers true true)).trans (by simp [Event.ends])
      have hnone := (handleHeaders_sessions c streamId headers sent bodySent).1 hends
      have hdelivered : Forgotten streamId (handleHeaders c streamId headers true true).sessions after ↔
          Forgotten streamId c.sessions after := by
        have hkept := (handleHeaders_sessions c streamId headers true true).2 (by simp [Event.ends])
        exact or_congr_right (forall₂_congr fun s hs => by rw [hkept s hs])
      have hgone (sessions : UInt64 → Option String) : Function.update (fun _ => none) streamId none =
          Function.update sessions streamId none ↔ ∀ s, s ≠ streamId → sessions s = none := by
        rw [Function.update_eq_self, eq_comm, funext_iff]
        refine forall_congr' fun s => ?_
        rcases eq_or_ne s streamId with rfl | hs
        · simp
        · simp [hs]
      have hrun := foldl_turn_silent_iff streamId after hlive
      rw [sent_handleHeaders_self] at hrun
      rw [turns_of_ended hcut, Others.ext_iff, Connection.others, Connection.others,
        sent_handleHeaders_self, hnone, hgone, eq_comm, hrun, not_and, not_and, not_not]
      simp only [true_implies]
      refine and_congr_right fun hsilent => ?_
      rw [forgotten_iff after hlive hsilent, hdelivered]
    | false =>
      obtain ⟨own, hown, hdelivered⟩ := handleHeaders_of_not_ends hends c
      obtain ⟨issued, hissued⟩ := foldl_turn_responses after
        (handleHeaders c streamId headers sent bodySent)
      have hsame := hissued (handleHeaders c streamId headers sent bodySent).responses
      have hfilter : own.filter (fun response => decide (response.1 ≠ streamId)) = [] := by
        rw [List.filter_eq_nil_iff]
        exact fun response hresponse => by simpa using hown response hresponse
      rw [hdelivered, hissued (_ ++ own)]
      simp only [Bool.false_eq_true, false_and, and_false, not_false_eq_true, iff_true]
      refine Others.ext (Sent.ext rfl ?_) rfl
      have hresponses := congrArg Connection.responses hsame
      simp only [Connection.others, Connection.sent, List.filter_append, hfilter, List.append_nil]
      rw [hresponses, List.filter_append]

def connectHeaders : List Header :=
  [(literal ":method", literal "CONNECT"), (literal ":protocol", literal "webtransport"),
    (literal ":path", literal "/wt/basic")]

/-- A client resets its second request before the response is sent; its first session is not echoed
    from then on. -/
theorem resetRequest_cutsOff :
    ¬ Isolated [.headers 0 connectHeaders true true] 4 connectHeaders false true
      [.streamData 0 8 .bidi [1] false] := by
  intro h
  have hcommands := congrArg (fun others => others.sent.commands) h
  exact absurd hcommands (by decide +kernel)

end WebTransportEcho.TokioQuiche
