import WebTransportEcho.Health.Aioquic

/-! `probe` of `aioquic-h3-health.py`: it gets a page, connects a session, and sends a datagram and a
    stream to be echoed, one call after the other, each with a time limit. When it ends without a
    time limit that ran out or a connection that was closed, its verdict is the one the server's
    policy gives to its arguments: no echo is ever unexpected. -/

namespace WebTransportEcho.Health
open Backend
open Aioquic (run serverIds)

/-! ### What is probed -/

/-- The arguments that the probe reads once it is connected. -/
structure Args where
  connectHost : String
  port : Nat
  serverName : String
  path : String
  webtransportPath : String
  skipWebtransport : Bool

def Args.authority (args : Args) : String :=
  if args.port = 443 then args.serverName else s!"{args.serverName}:{args.port}"

/-- What is sent to be echoed. -/
def probePayload : Bytes := literal "quicast-wttest-health"

/-- `data.decode("ascii", "replace")`. -/
def asciiText (data : Bytes) : String :=
  String.ofList (data.map fun b => if b < 0x80 then Char.ofNat b.toNat else Utf8.replacement)

structure Response where
  status : Option Int
  body : String

structure Webtransport where
  bidiEcho : String
  datagramEcho : String
  path : String
  sessionId : Nat

/-- What is printed as JSON. -/
structure Printed where
  response : Response
  webtransport : Option Webtransport
  connectHost : String
  port : Nat
  serverName : String
  path : String

/-- Why the probe fails. -/
inductive Failure where
  | timeout
  | raised (exception : Outcome)
  | unexpectedDatagram (data : Bytes)
  | unexpectedBidi (data : Bytes)
  | unexpectedResponse (response : Response)

/-- What the probe awaits. -/
inductive Phase where
  | getting
  | opening (result : Response)
  | echoingDatagram (result : Response) (sessionId : Nat)
  | echoingStream (result : Response) (sessionId : Nat) (datagramEchoed : Bytes)
  | finished (printed : Option Printed) (failure : Option Failure)

def Phase.running : Phase → Bool
  | .finished _ _ => false
  | _ => true

/-- `result.update(…)` and what follows. -/
def finish (args : Args) (result : Response) (webtransport : Option Webtransport) : Phase :=
  .finished (some { response := result, webtransport, connectHost := args.connectHost, port := args.port,
                    serverName := args.serverName, path := args.path })
    (if result.status ≠ some 200 ∨ result.body ≠ "ok\n" then some (.unexpectedResponse result) else none)

/-- The probe from one await to the next call. An exception ends it. -/
def resume (args : Args) : Phase → Outcome → Phase × Option Call
  | .getting, .response status body =>
    if args.skipWebtransport then (finish args ⟨status, body⟩ none, none)
    else (.opening ⟨status, body⟩, some (.openWebtransport args.authority args.webtransportPath))
  | .opening result, .session sessionId =>
    (.echoingDatagram result sessionId, some (.datagramEcho sessionId probePayload))
  | .echoingDatagram result sessionId, .echo data =>
    (.echoingStream result sessionId data, some (.bidiEcho sessionId probePayload))
  | .echoingStream result sessionId datagramEchoed, .echo echoed =>
    if datagramEchoed ≠ probePayload then
      (.finished none (some (.unexpectedDatagram datagramEchoed)), none)
    else if echoed ≠ probePayload then (.finished none (some (.unexpectedBidi echoed)), none)
    else (finish args result (some { bidiEcho := asciiText echoed, datagramEcho := asciiText datagramEchoed,
                                     path := args.webtransportPath, sessionId }), none)
  | .finished printed failure, _ => (.finished printed failure, none)
  | _, exception => (.finished none (some (.raised exception)), none)

section

variable {ε : Type}

def System.calls? (m : System ε) (c : Option Call) : System ε := c.elim m m.call

/-- A probe on its way, the future it awaits, and the system. The time limit of a call can run out
    whenever it is awaited. -/
inductive Probing (server : Server ε) (args : Args) : Phase → Nat → System ε → Prop where
  | start : Probing server args .getting 0 ((newSystem ε).call (.get args.authority args.path))
  | hear {phase : Phase} {w : Nat} {m : System ε} (h : Probing server args phase w m) (e : ε)
    (he : Arrives m.client.effects ((m.up ++ [e]).filterMap server.hears)) :
    Probing server args phase w (m.hear e)
  | receive {phase : Phase} {w : Nat} {m : System ε} (h : Probing server args phase w m) (e : Event)
    (he : Returns m.client.effects (server.sent m.up) (m.down ++ e.heard))
    (hasked : e.Unasked m.client.effects) (hopen : Heard.terminated ∉ m.down) :
    Probing server args phase w (m.receive e)
  | resume {phase : Phase} {w : Nat} {m : System ε} (h : Probing server args phase w m) (o : Outcome)
    (ho : m.client.waiters[w]? = some (some o)) :
    Probing server args (resume args phase o).1 m.client.waiters.length
      (m.calls? (resume args phase o).2)
  | timeout {phase : Phase} {w : Nat} {m : System ε} (h : Probing server args phase w m)
    (hrunning : phase.running = true) :
    Probing server args (.finished none (some .timeout)) w m

end

/-! ### The verdict -/

def Policy.response (policy : Policy) (path : String) : Response :=
  ⟨(policy.health path).1, text (policy.health path).2⟩

/-- How a probe ends that is neither interrupted nor disconnected. -/
def Policy.verdict (policy : Policy) (args : Args) : Phase :=
  if args.skipWebtransport then finish args (policy.response args.path) none
  else if policy.accepts args.webtransportPath then
    finish args (policy.response args.path) (some { bidiEcho := asciiText probePayload,
                                                    datagramEcho := asciiText probePayload,
                                                    path := args.webtransportPath,
                                                    sessionId := clientStream 1 })
  else .finished none (some (.raised (.refused (some (literal "404")))))

/-- It is interrupted or disconnected. -/
def Interrupted : Phase → Prop
  | .finished none (some .timeout) => True
  | .finished none (some (.raised (.closed _ _))) => True
  | _ => False

/-- How far a probe is: its calls, and what they were answered. -/
def Stage (policy : Policy) (args : Args) (phase : Phase) (w : Nat) (calls : List (Call × Nat)) : Prop :=
  let get := (Call.get args.authority args.path, clientStream 0)
  let connect := (Call.openWebtransport args.authority args.webtransportPath, clientStream 1)
  let datagram := (Call.datagramEcho (clientStream 1) probePayload, clientStream 1)
  let stream := (Call.bidiEcho (clientStream 1) probePayload, clientStream 2)
  match phase with
  | .getting => calls = [get] ∧ w = 0
  | .opening result => calls = [get, connect] ∧ w = 1 ∧ args.skipWebtransport = false ∧
      result = policy.response args.path
  | .echoingDatagram result sessionId => calls = [get, connect, datagram] ∧ w = 2 ∧
      args.skipWebtransport = false ∧ policy.accepts args.webtransportPath = true ∧
      result = policy.response args.path ∧ sessionId = clientStream 1
  | .echoingStream result sessionId datagramEchoed => calls = [get, connect, datagram, stream] ∧
      w = 3 ∧ args.skipWebtransport = false ∧ policy.accepts args.webtransportPath = true ∧
      result = policy.response args.path ∧ sessionId = clientStream 1 ∧ datagramEchoed = probePayload
  | .finished printed failure => .finished printed failure = policy.verdict args ∨
      Interrupted (.finished printed failure)

/-- The session that a probe has was returned to it. -/
def Phase.Connected (phase : Phase) (p : Protocol) : Prop :=
  match phase with
  | .echoingDatagram _ sessionId => p.waiters[1]? = some (some (.session sessionId))
  | _ => True

section

variable {ε : Type} {server : Server ε} {policy : Policy} {args : Args} {phase : Phase} {w : Nat}
  {m : System ε} {o : Outcome}

theorem verdict_finished (policy : Policy) (args : Args) :
    ∃ printed failure, policy.verdict args = .finished printed failure := by
  rw [Policy.verdict]
  split_ifs <;> exact ⟨_, _, rfl⟩

theorem answers_of (hserved : Served server policy m) (ho : m.client.waiters[w]? = some (some o))
    {c : Call × Nat} (hc : m.calls[w]? = some c) : Answers policy m.calls c o := by
  obtain ⟨c', hc', hanswers⟩ := hserved.books.settled w o ho
  rw [hc] at hc'
  exact Option.some.inj hc' ▸ hanswers

theorem opened_length (hserved : Served server policy m) :
    m.client.opened = (opened m.calls).length := by
  rw [hserved.numbered, List.length_map, List.length_range]

/-- An answered call leads on to the next stage. -/
theorem stage_resume (hserved : Served server policy m) (hrunning : phase.running = true)
    (h : Stage policy args phase w m.calls) (hconnected : phase.Connected m.client)
    (ho : m.client.waiters[w]? = some (some o)) :
    (∀ c ∈ (resume args phase o).2, m.client.Permits c) ∧
      Stage policy args (resume args phase o).1 m.client.waiters.length
        (m.calls? (resume args phase o).2).calls ∧
      (resume args phase o).1.Connected (m.calls? (resume args phase o).2).client := by
  have hlength := hserved.books.length
  have hopened := opened_length hserved
  cases phase with
  | finished => cases hrunning
  | getting =>
    obtain ⟨hcalls, rfl⟩ := h
    have hanswers := answers_of hserved ho (by rw [hcalls]; rfl)
    cases o with
    | closed => exact ⟨fun _ hc => (by cases hc), Or.inr trivial, trivial⟩
    | session | refused =>
      obtain ⟨-, _, _, hother, -⟩ := hanswers
      cases hother
    | echo =>
      rcases hanswers with ⟨_, hother⟩ | ⟨_, _, _, hother, -⟩ <;> cases hother
    | response status body =>
      obtain ⟨_, _, hget, rfl, rfl⟩ := hanswers
      cases hget
      rw [resume]
      split
      · next hskip =>
        refine ⟨fun _ hc => (by cases hc), Or.inl ?_, trivial⟩
        rw [Policy.verdict, if_pos hskip]
        rfl
      · next hskip =>
        refine ⟨fun c hc => ?_, ?_, trivial⟩
        · cases hc
          trivial
        · have hone : m.client.opened = 1 := by rw [hopened, hcalls]; rfl
          refine ⟨?_, ?_, Bool.eq_false_iff.mpr hskip, rfl⟩
          · simp only [System.calls?, Option.elim_some, System.call, Protocol.target, hone, hcalls]
            rfl
          · rw [hlength, hcalls]
            rfl
  | opening result =>
    obtain ⟨hcalls, rfl, hskip, hresult⟩ := h
    have hanswers := answers_of hserved ho (by rw [hcalls]; rfl)
    cases o with
    | closed => exact ⟨fun _ hc => (by cases hc), Or.inr trivial, trivial⟩
    | response =>
      obtain ⟨_, _, hother, -⟩ := hanswers
      cases hother
    | echo =>
      rcases hanswers with ⟨_, hother⟩ | ⟨_, _, _, hother, -⟩ <;> cases hother
    | refused status =>
      obtain ⟨rfl, _, _, hopen, hrefused⟩ := hanswers
      cases hopen
      refine ⟨fun _ hc => (by cases hc), Or.inl ?_, trivial⟩
      rw [Policy.verdict, if_neg (by rw [hskip]; decide), if_neg (by rw [hrefused]; decide)]
    | session sessionId =>
      obtain ⟨rfl, _, _, hopen, haccepts⟩ := hanswers
      cases hopen
      refine ⟨fun c hc => ?_, ⟨?_, ?_, hskip, haccepts, hresult, rfl⟩, ?_⟩
      · cases hc
        trivial
      · simp only [resume, System.calls?, Option.elim_some, System.call, Protocol.target, hcalls]
        rfl
      · rw [hlength, hcalls]
        rfl
      · have hlt : 1 < m.client.waiters.length := (List.getElem?_eq_some_iff.mp ho).1
        simp only [resume, System.calls?, Option.elim_some, System.call, Phase.Connected, waiters_call]
        rw [List.getElem?_append_left hlt, ho]
  | echoingDatagram result sessionId =>
    obtain ⟨hcalls, rfl, hskip, haccepts, hresult, rfl⟩ := h
    have hanswers := answers_of hserved ho (by rw [hcalls]; rfl)
    cases o with
    | closed => exact ⟨fun _ hc => (by cases hc), Or.inr trivial, trivial⟩
    | response =>
      obtain ⟨_, _, hother, -⟩ := hanswers
      cases hother
    | session | refused =>
      obtain ⟨-, _, _, hother, -⟩ := hanswers
      cases hother
    | echo data =>
      -- the only datagram that was sent carries the payload
      obtain ⟨_, hother⟩ | ⟨_, _, _, -, hsent⟩ := hanswers
      · cases hother
      have hdata : data = probePayload := by
        rw [hcalls] at hsent
        exact And.right (by simpa using hsent)
      refine ⟨fun c hc => ?_, ⟨?_, ?_, hskip, haccepts, hresult, rfl, hdata⟩, trivial⟩
      · cases hc
        exact List.mem_of_getElem? hconnected
      · have htwo : m.client.opened = 2 := by rw [hopened, hcalls]; rfl
        simp only [resume, System.calls?, Option.elim_some, System.call, Protocol.target, htwo, hcalls]
        rfl
      · rw [hlength, hcalls]
        rfl
  | echoingStream result sessionId datagramEchoed =>
    obtain ⟨hcalls, rfl, hskip, haccepts, hresult, rfl, rfl⟩ := h
    have hanswers := answers_of hserved ho (by rw [hcalls]; rfl)
    cases o with
    | closed => exact ⟨fun _ hc => (by cases hc), Or.inr trivial, trivial⟩
    | response =>
      obtain ⟨_, _, hother, -⟩ := hanswers
      cases hother
    | session | refused =>
      obtain ⟨-, _, _, hother, -⟩ := hanswers
      cases hother
    | echo data =>
      obtain ⟨_, hstream⟩ | ⟨_, _, _, hother, -⟩ := hanswers
      · cases hstream
        have hend : resume args (.echoingStream result (clientStream 1) probePayload)
            (.echo probePayload) = (policy.verdict args, none) := by
          rw [resume, if_neg (by simp), if_neg (by simp), Policy.verdict,
            if_neg (by rw [hskip]; decide), if_pos haccepts, hresult]
        obtain ⟨printed, failure, hverdict⟩ := verdict_finished policy args
        rw [hend, hverdict]
        exact ⟨fun _ hc => (by cases hc), Or.inl hverdict.symm, trivial⟩
      · cases hother

/-- A probe makes calls on a connection like any other, in their order. -/
theorem probing_stage (hechoes : server.Echoes policy) (h : Probing server args phase w m)
    (hreliable : server.reliable m.up) :
    Reachable server m ∧ Stage policy args phase w m.calls ∧ phase.Connected m.client := by
  induction h with
  | start => exact ⟨.call .new _ trivial, ⟨rfl, rfl⟩, trivial⟩
  | hear _ e he ih =>
    obtain ⟨hreachable, hstage, hconnected⟩ := ih (hechoes.reliable _ e hreliable)
    exact ⟨hreachable.hear e he, hstage, hconnected⟩
  | @receive phase w m _ e he hasked hopen ih =>
    obtain ⟨hreachable, hstage, hconnected⟩ := ih hreliable
    refine ⟨hreachable.receive e he hasked hopen, hstage, ?_⟩
    cases phase with
    | echoingDatagram result sessionId => exact (later_event m.client e).settled 1 _ hconnected
    | getting | opening | echoingStream | finished => trivial
  | @resume phase w m _ o ho ih =>
    have hnow : server.reliable m.up := by
      cases hcall : (resume args phase o).2 with
      | none => rw [hcall] at hreliable; exact hreliable
      | some c => rw [hcall] at hreliable; exact hreliable
    obtain ⟨hreachable, hstage, hconnected⟩ := ih hnow
    cases hrunning : phase.running with
    | false =>
      cases phase with
      | finished printed failure => exact ⟨hreachable, hstage, trivial⟩
      | getting | opening | echoingDatagram | echoingStream => cases hrunning
    | true =>
      have hserved := served hechoes hreachable hnow
      obtain ⟨hpermits, hnext⟩ := stage_resume hserved hrunning hstage hconnected ho
      refine ⟨?_, hnext⟩
      cases hcall : (resume args phase o).2 with
      | none => exact hreachable
      | some c => exact hreachable.call c (hpermits c hcall)
  | timeout _ _ ih =>
    obtain ⟨hreachable, -⟩ := ih hreliable
    exact ⟨hreachable, Or.inr trivial, trivial⟩

/-- However the network delivers, a probe that ends is interrupted, disconnected, or has the verdict
    of the server's policy. -/
theorem probe_policy (hechoes : server.Echoes policy) {printed : Option Printed}
    {failure : Option Failure} (h : Probing server args (.finished printed failure) w m)
    (hreliable : server.reliable m.up) :
    .finished printed failure = policy.verdict args ∨ Interrupted (.finished printed failure) :=
  (probing_stage hechoes h hreliable).2.1

end

/-! ### The aioquic backend -/

/-- The client's futures on a connection to the aioquic backend: whatever is called when, and however
    the network cuts, delays and interleaves, a future that is settled has an answer to its own call
    and keeps it. -/
theorem aioquic_answered {m : System Aioquic.Event} (h : Reachable aioquicServer m) (w : Nat) (o : Outcome)
    (ho : m.client.waiters[w]? = some (some o)) :
    (∃ c, m.calls[w]? = some c ∧ Answers aioquicPolicy m.calls c o) ∧
      ∀ e, (quicEventReceived m.client e).waiters[w]? = some (some o) :=
  ⟨(served aioquicServer_echoes h trivial).books.settled w o ho,
    fun e => (later_event m.client e).settled w o ho⟩

/-- A probe of the aioquic backend never meets an unexpected echo, and an unexpected response only on a
    path that is no health check. -/
theorem aioquic_verdict (args : Args) {printed : Option Printed} {failure : Option Failure} {w : Nat}
    {m : System Aioquic.Event} (h : Probing aioquicServer args (.finished printed failure) w m) :
    .finished printed failure = aioquicPolicy.verdict args ∨ Interrupted (.finished printed failure) :=
  probe_policy aioquicServer_echoes h trivial

/-! ### Connections on which all is answered -/

def healthArgs : Args where
  connectHost := "127.0.0.1"
  port := 9446
  serverName := "wt.example"
  path := "/healthz"
  webtransportPath := "/wt/basic"
  skipWebtransport := false

def healthRequest : Call := .get healthArgs.authority healthArgs.path

def sessionRequest : Call := .openWebtransport healthArgs.authority healthArgs.webtransportPath

/-- The response in one packet, and its end with it. -/
def healthResponse : Event :=
  .streamData 0 [] true [.headers 0 [(literal ":status", literal "200"),
    (literal "content-type", literal "text/plain; charset=utf-8"),
    (literal "content-length", literal "3"), (literal "cache-control", literal "no-store")] false,
    .data 0 (literal "ok\n") true]

def sessionResponse : Event :=
  .streamData 4 [] false [.headers 4 [(literal ":status", literal "200")] false]

/-- A call for a page and one for a session are made, and the session is there first. -/
def connected : System Aioquic.Event :=
  (((((newSystem Aioquic.Event).call healthRequest).call sessionRequest).hear
    (.headers 4 (connectHeaders healthArgs.authority healthArgs.webtransportPath))).hear
    (.headers 0 (getHeaders healthArgs.authority healthArgs.path))).receive sessionResponse

theorem connected_reachable : Reachable aioquicServer connected :=
  ((((Reachable.new.call healthRequest trivial).call sessionRequest trivial).hear _
    (by decide +kernel)).hear _ (by decide +kernel)).receive sessionResponse (by decide +kernel)
    (by decide +kernel) (by decide +kernel)

/-- A datagram and a stream are sent to be echoed, the stream in two pieces. -/
def echoing : System Aioquic.Event :=
  ((((connected.call (.datagramEcho 4 probePayload)).call (.bidiEcho 4 probePayload)).hear
    (.streamData 4 8 (probePayload.take 5) false)).hear (.datagram 4 probePayload)).hear
    (.streamData 4 8 (probePayload.drop 5) true)

theorem echoing_reachable : Reachable aioquicServer echoing := by
  have hsession : (connected.call (.datagramEcho 4 probePayload)).client.waiters[1]? =
      some (some (.session 4)) := rfl
  exact ((((connected_reachable.call (.datagramEcho 4 probePayload) trivial).call
    (.bidiEcho 4 probePayload) (List.mem_of_getElem? hsession)).hear _ (by decide +kernel)).hear _
    (by decide +kernel)).hear _ (by decide +kernel)

/-- The stream comes back cut elsewhere, and the datagram in the middle of it; the page is still on
    its way. -/
def echoedBack : System Aioquic.Event :=
  ((echoing.receive (.streamData 8 (probePayload.take 9) false [])).receive
    (.other [.datagram 4 probePayload])).receive (.streamData 8 (probePayload.drop 9) true [])

theorem echoedBack_reachable : Reachable aioquicServer echoedBack :=
  ((echoing_reachable.receive _ (by decide +kernel) (by decide +kernel) (by decide +kernel)).receive _
    (by decide +kernel) (by decide +kernel) (by decide +kernel)).receive _ (by decide +kernel)
    (by decide +kernel) (by decide +kernel)

/-- Each call has the answer to it. -/
theorem aioquic_answered_echoed : echoedBack.client.waiters[0]? = some none ∧
    ((∃ c, echoedBack.calls[1]? = some c ∧ Answers aioquicPolicy echoedBack.calls c (.session 4)) ∧
      ∀ e, (quicEventReceived echoedBack.client e).waiters[1]? = some (some (.session 4))) ∧
    ((∃ c, echoedBack.calls[2]? = some c ∧ Answers aioquicPolicy echoedBack.calls c (.echo probePayload)) ∧
      ∀ e, (quicEventReceived echoedBack.client e).waiters[2]? = some (some (.echo probePayload))) ∧
    (∃ c, echoedBack.calls[3]? = some c ∧ Answers aioquicPolicy echoedBack.calls c (.echo probePayload)) ∧
      ∀ e, (quicEventReceived echoedBack.client e).waiters[3]? = some (some (.echo probePayload)) :=
  ⟨rfl, aioquic_answered echoedBack_reachable 1 _ rfl, aioquic_answered echoedBack_reachable 2 _ rfl,
    aioquic_answered echoedBack_reachable 3 _ rfl⟩

/-- The probe, whose calls come one after the other. -/
theorem healthArgs_probing : ∃ w m, Probing aioquicServer healthArgs
    (finish healthArgs ⟨some 200, "ok\n"⟩ (some { bidiEcho := asciiText probePayload,
                                                  datagramEcho := asciiText probePayload,
                                                  path := "/wt/basic", sessionId := 4 })) w m := by
  have hpage : Probing aioquicServer healthArgs .getting 0 _ :=
    (Probing.start.hear (.headers 0 (getHeaders healthArgs.authority healthArgs.path))
      (by decide +kernel)).receive healthResponse (by decide +kernel) (by decide +kernel)
      (by decide +kernel)
  have hsession : Probing aioquicServer healthArgs (.opening ⟨some 200, "ok\n"⟩) 1 _ :=
    ((hpage.resume (.response (some 200) "ok\n") rfl).hear
      (.headers 4 (connectHeaders healthArgs.authority healthArgs.webtransportPath))
      (by decide +kernel)).receive sessionResponse (by decide +kernel) (by decide +kernel)
      (by decide +kernel)
  have hdatagram : Probing aioquicServer healthArgs (.echoingDatagram ⟨some 200, "ok\n"⟩ 4) 2 _ :=
    ((hsession.resume (.session 4) rfl).hear (.datagram 4 probePayload) (by decide +kernel)).receive
      (.other [.datagram 4 probePayload]) (by decide +kernel) (by decide +kernel) (by decide +kernel)
  have hstream : Probing aioquicServer healthArgs
      (.echoingStream ⟨some 200, "ok\n"⟩ 4 probePayload) 3 _ :=
    (((hdatagram.resume (.echo probePayload) rfl).hear (.streamData 4 8 (probePayload.take 5) false)
      (by decide +kernel)).hear (.streamData 4 8 (probePayload.drop 5) true) (by decide +kernel)).receive
      (.streamData 8 probePayload true []) (by decide +kernel) (by decide +kernel) (by decide +kernel)
  exact ⟨_, _, hstream.resume (.echo probePayload) rfl⟩

/-- It succeeds, with both echoes. -/
theorem aioquic_verdict_echoed : ∃ printed webtransport,
    printed.webtransport = some webtransport ∧ webtransport.datagramEcho = asciiText probePayload ∧
      webtransport.bidiEcho = asciiText probePayload ∧
      (Phase.finished (some printed) none = aioquicPolicy.verdict healthArgs ∨
        Interrupted (.finished (some printed) none)) := by
  obtain ⟨w, m, hprobing⟩ := healthArgs_probing
  exact ⟨_, _, rfl, rfl, rfl, aioquic_verdict healthArgs hprobing⟩

end WebTransportEcho.Health
