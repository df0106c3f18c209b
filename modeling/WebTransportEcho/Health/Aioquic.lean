import WebTransportEcho.Backend.Responses
import WebTransportEcho.Health.Served

/-! The health client against the aioquic backend, which reads a path up to its query. -/

namespace WebTransportEcho.Health
open Backend Delivery
open Aioquic (Effect decideRequest handleEvent serverIds run)

/-! ### The policy of the backend -/

/-- The path without its query. -/
def withoutQuery (path : String) : String :=
  String.ofList (path.toList.takeWhile fun c => c ≠ '?')

def aioquicPolicy : Policy where
  healthy path := decide (withoutQuery path = "/healthz")
  accepts path := startsWith "/wt" (withoutQuery path)
  respond headers := (aioquicEffects 0 (aioquicOutcome headers)).filterMap (sentPart 0)

def aioquicServer : Server Aioquic.Event where
  hears := some
  sent up := (run serverIds up).effects
  reliable _ := True

/-! ### Its responses -/

theorem status_cons (value : Bytes) {rest : List Header}
    (h : ∀ header ∈ rest, header.1 ≠ literal ":status") :
    status ((literal ":status", value) :: rest) = some value := by
  have hnone : rest.reverse.find? (fun h => decide (h.1 = literal ":status")) = none :=
    List.find?_eq_none.mpr fun header hmem => by simpa using h header (List.mem_reverse.mp hmem)
  rw [status, List.reverse_cons, List.find?_append, hnone]
  simp

theorem shapeHeaders_status (path : String) :
    ∀ header ∈ shapeHeaders path, header.1 ≠ literal ":status" := by
  unfold shapeHeaders
  split_ifs <;> decide

theorem field_get (authority path : String) :
    field (getHeaders authority path) ":method" = some "GET" ∧
      Aioquic.requestPath (getHeaders authority path) = withoutQuery path := by
  refine ⟨congrArg some (text_literal "GET"), ?_⟩
  have hpath : Aioquic.headerMap (getHeaders authority path) (literal ":path") =
      some (literal path) := rfl
  rw [Aioquic.requestPath, hpath, Option.getD_some, text_literal, withoutQuery]

theorem field_connect (authority path : String) : Connects (connectHeaders authority path) ∧
    Aioquic.requestPath (connectHeaders authority path) = withoutQuery path := by
  refine ⟨⟨congrArg some (text_literal "CONNECT"), Or.inl (congrArg some (text_literal "webtransport"))⟩, ?_⟩
  have hpath : Aioquic.headerMap (connectHeaders authority path) (literal ":path") =
      some (literal path) := rfl
  rw [Aioquic.requestPath, hpath, Option.getD_some, text_literal, withoutQuery]

theorem aioquicOutcome_get (authority path : String) : aioquicOutcome (getHeaders authority path) =
    if withoutQuery path = "/healthz" then .health else .notFound := by
  obtain ⟨hmethod, hpath⟩ := field_get authority path
  have hno : ¬ Connects (getHeaders authority path) := fun h => by
    rw [Connects, hmethod] at h
    exact absurd h.1 (by decide)
  rw [aioquicOutcome_eq, hmethod, hpath, if_neg (fun h => hno h.1 : ¬ (_ ∧ startsWith "/wt" _ = true))]
  simp

theorem aioquicOutcome_connect (authority path : String) :
    aioquicOutcome (connectHeaders authority path) = if startsWith "/wt" (withoutQuery path) = true then
      .accepted (Aioquic.responseHeaders (withoutQuery path) (connectHeaders authority path))
    else .notFound := by
  obtain ⟨hconnects, hpath⟩ := field_connect authority path
  have hno : field (connectHeaders authority path) ":method" ≠ some "GET" := by
    rw [hconnects.1]
    decide
  rw [aioquicOutcome_eq, hpath, if_neg (fun h => hno h.1 : ¬ (_ ∧ withoutQuery path = "/healthz"))]
  simp [hconnects]

/-- What the client offers has no say in the response, which reflects no origin either. -/
theorem status_response (authority path path' : String) :
    status (Aioquic.responseHeaders path' (connectHeaders authority path)) = some (literal "200") := by
  have htests : TestsAgree (connectHeaders authority path) := fun value hvalue => by cases hvalue
  have horigin : Aioquic.headerMap (connectHeaders authority path) (literal "origin") = none := rfl
  rw [aioquic_responseHeaders htests, horigin, List.cons_append, statusHeader]
  refine status_cons _ fun header hmem => ?_
  rcases List.mem_append.mp hmem with hshape | hyggdrasil
  · exact shapeHeaders_status path' header hshape
  · have hnames : ∀ header ∈ serverHeader :: TokioQuiche.protocolCapsuleInit ++ reflected none,
        header.1 ≠ literal ":status" := by decide
    split at hyggdrasil
    · exact hnames header hyggdrasil
    · cases hyggdrasil

theorem aioquicPolicy_sound : aioquicPolicy.Sound where
  get authority path := by
    simp only [aioquicPolicy, aioquicOutcome_get, Policy.health]
    by_cases h : withoutQuery path = "/healthz"
    · simp only [h, if_true, decide_true]
      decide
    · simp only [h, if_false, decide_false, Bool.false_eq_true]
      decide
  connect authority path := by
    simp only [aioquicPolicy, aioquicOutcome_connect]
    by_cases h : startsWith "/wt" (withoutQuery path) = true
    · simp only [h, if_true]
      exact ⟨_, [], rfl, status_response authority path _⟩
    · simp only [h]
      exact ⟨_, [], rfl, rfl⟩

/-! ### The backend echoes -/

theorem run_snoc (up : List Aioquic.Event) (e : Aioquic.Event) :
    run serverIds (up ++ [e]) = handleEvent serverIds (run serverIds up) e := List.foldl_append

theorem sentPart_effects (s s' : Nat) (outcome : Backend.Outcome) :
    (aioquicEffects s' outcome).filterMap (sentPart s) =
      if s' = s then (aioquicEffects 0 outcome).filterMap (sentPart 0) else [] := by
  cases outcome <;> by_cases h : s' = s <;> simp [aioquicEffects, sentPart, h]

theorem sentBytes_effects (s s' : Nat) (outcome : Backend.Outcome) :
    (aioquicEffects s' outcome).filterMap (sentBytes s) = [] := by
  cases outcome <;> rfl

/-- Each request has its response on its own stream. -/
theorem aioquic_messages (s : Nat) (up : List Aioquic.Event) :
    (run serverIds up).effects.filterMap (sentPart s) =
      (up.filterMap (heardHeaders s)).flatMap aioquicPolicy.respond := by
  induction up using List.reverseRecOn with
  | nil => rfl
  | append_singleton up e ih =>
    rw [run_snoc, List.filterMap_append, List.flatMap_append, ← ih]
    cases e with
    | headers s' headers =>
      rw [handleEvent, aioquic_answers, List.filterMap_append, sentPart_effects]
      by_cases h : s' = s <;> simp [heardHeaders, h, aioquicPolicy]
    | datagram sessionId data =>
      rw [handleEvent, Aioquic.handleDatagram]
      cases (run serverIds up).sessions sessionId with
      | none => exact (List.append_nil _).symm
      | some path => exact List.filterMap_append
    | streamData sessionId s' data ended =>
      rw [handleEvent, Aioquic.handleWebtransportStream]
      cases (run serverIds up).sessions sessionId with
      | none => exact (List.append_nil _).symm
      | some path => cases isUnidirectional s' <;> exact List.filterMap_append

/-- A session that was accepted stays so. -/
theorem aioquic_accepted {sessionId : Nat} (up : List Aioquic.Event)
    (h : aioquicPolicy.Accepted up sessionId) : ((run serverIds up).sessions sessionId).isSome = true := by
  obtain ⟨authority, path, haccepts, hmem⟩ := h
  induction up using List.reverseRecOn with
  | nil => cases hmem
  | append_singleton up e ih =>
    rw [run_snoc]
    rcases List.mem_append.mp hmem with hold | hnew
    · have hbefore := ih hold
      cases e with
      | headers s headers =>
        rw [handleEvent, Aioquic.handleHeaders]
        cases decideRequest headers with
        | health => exact hbefore
        | rejected => exact hbefore
        | accepted path' response =>
          simp only [Aioquic.Protocol.emit, Function.update_apply]
          split_ifs
          · rfl
          · exact hbefore
      | datagram s data =>
        rw [handleEvent, Aioquic.handleDatagram]
        cases (run serverIds up).sessions s <;> exact hbefore
      | streamData s s' data ended =>
        rw [handleEvent, Aioquic.handleWebtransportStream]
        cases (run serverIds up).sessions s with
        | none => exact hbefore
        | some path => cases isUnidirectional s' <;> exact hbefore
    · rw [List.mem_singleton] at hnew
      subst hnew
      have houtcome := aioquicOutcome_connect authority path
      rw [if_pos (show startsWith "/wt" (withoutQuery path) = true from haccepts), aioquicOutcome] at houtcome
      rw [handleEvent, Aioquic.handleHeaders]
      cases hdecision : decideRequest (connectHeaders authority path) with
      | health => simp [hdecision] at houtcome
      | rejected => simp [hdecision] at houtcome
      | accepted path' response => simp [Aioquic.Protocol.emit]

theorem clientStream_direction (n : Nat) : isUnidirectional (clientStream n) = false := by
  rw [isUnidirectional, clientStream, decide_eq_false_iff_not]
  omega

/-- What comes on a bidirectional stream of an accepted session is sent back on it. -/
theorem aioquic_streams (n : Nat) (up : List Aioquic.Event) (h : aioquicPolicy.InOrder up) :
    (run serverIds up).effects.filterMap (sentBytes (clientStream n)) =
      up.filterMap (heardBytes (clientStream n)) := by
  induction up using List.reverseRecOn with
  | nil => rfl
  | append_singleton up e ih =>
    have hbefore := ih fun front sessionId s data ended hfront =>
      h front sessionId s data ended (hfront.trans (List.prefix_append _ _))
    rw [run_snoc, List.filterMap_append, ← hbefore]
    cases e with
    | headers s headers =>
      rw [handleEvent, aioquic_answers, List.filterMap_append, sentBytes_effects]
      rfl
    | datagram sessionId data =>
      rw [handleEvent, Aioquic.handleDatagram]
      cases (run serverIds up).sessions sessionId with
      | none => exact (List.append_nil _).symm
      | some path => exact List.filterMap_append
    | streamData sessionId s data ended =>
      obtain ⟨path, hpath⟩ := Option.isSome_iff_exists.mp
        (aioquic_accepted up (h up sessionId s data ended (List.prefix_refl _)))
      simp only [handleEvent, Aioquic.handleWebtransportStream, hpath]
      cases hdirection : isUnidirectional s with
      | false =>
        simp only [Bool.false_eq_true, if_false, Aioquic.Protocol.emit, List.filterMap_append]
        rfl
      | true =>
        have hother : s ≠ clientStream n := by
          rintro rfl
          rw [clientStream_direction] at hdirection
          cases hdirection
        have hnew : serverIds (run serverIds up).opened ≠ clientStream n := by
          intro heq
          have huni := Aioquic.serverIds_unidirectional (run serverIds up).opened
          rw [heq, clientStream_direction] at huni
          cases huni
        simp only [if_true, Aioquic.Protocol.emit, List.filterMap_append]
        simp [heardBytes, hother, sentBytes, hnew, List.filterMap_cons]

theorem aioquic_datagrams {sessionId : Nat} {data : Bytes} (up : List Aioquic.Event)
    (h : Effect.sendDatagram sessionId data ∈ (run serverIds up).effects) :
    Aioquic.Event.datagram sessionId data ∈ up := by
  induction up using List.reverseRecOn with
  | nil => cases h
  | append_singleton up e ih =>
    rw [run_snoc] at h
    suffices hlast : Effect.sendDatagram sessionId data ∈ (run serverIds up).effects ∨
        e = .datagram sessionId data by
      rcases hlast with hold | rfl
      · exact List.mem_append_left _ (ih hold)
      · simp
    cases e with
    | headers s headers =>
      rw [handleEvent, aioquic_answers, List.mem_append] at h
      refine h.imp_right fun hnew => ?_
      generalize aioquicOutcome headers = outcome at hnew
      cases outcome <;> simp [aioquicEffects] at hnew
    | datagram s data' =>
      rw [handleEvent, Aioquic.handleDatagram] at h
      cases hs : (run serverIds up).sessions s with
      | none =>
        rw [hs] at h
        exact Or.inl h
      | some path =>
        rw [hs] at h
        refine (List.mem_append.mp h).imp_right fun hnew => ?_
        simp only [List.mem_singleton, Effect.sendDatagram.injEq] at hnew
        rw [hnew.1, hnew.2]
    | streamData s s' data' ended =>
      rw [handleEvent, Aioquic.handleWebtransportStream] at h
      cases hs : (run serverIds up).sessions s with
      | none =>
        rw [hs] at h
        exact Or.inl h
      | some path =>
        simp only [hs] at h
        cases hdirection : isUnidirectional s' <;> simp [hdirection, Aioquic.Protocol.emit] at h <;>
          exact Or.inl h

theorem aioquicServer_echoes : aioquicServer.Echoes aioquicPolicy where
  sound := aioquicPolicy_sound
  reliable _ _ _ := trivial
  messages up _ s := by
    have hmessages := aioquic_messages s up
    simp only [aioquicServer, List.filterMap_some]
    rw [hmessages]
    exact Follows.refl _
  streams up _ h n := by
    simp only [aioquicServer, List.filterMap_some] at h ⊢
    rw [aioquic_streams n up h]
    exact Follows.refl _
  datagrams up _ sessionId data h := by
    simp only [aioquicServer, List.filterMap_some]
    exact aioquic_datagrams up h

end WebTransportEcho.Health
