import WebTransportEcho.Health.Probe

/-! No call of the health client waits for an answer that has arrived. A call that is not settled has
    its entry, and what has arrived for the entry has not ended (`Waits`); so a response or an echo
    that has arrived whole, or the headers of a session, have settled their future. -/

namespace WebTransportEcho.Health
open Backend Delivery

section

variable {policy : Policy} {calls : List (Call × Nat)} {p q : Protocol} {down down' : List Heard}

structure Waits (calls : List (Call × Nat)) (p : Protocol) (down : List Heard) : Prop where
  get : ∀ (w : Nat) authority path s, calls[w]? = some (.get authority path, s) →
    p.waiters[w]? = some none →
      (p.requests.lookup s).map Request.waiter = some w ∧ ended (parts down s) = false
  session : ∀ (w : Nat) authority path s, calls[w]? = some (.openWebtransport authority path, s) →
    p.waiters[w]? = some none → p.sessions.lookup s = some w
  stream : ∀ (w : Nat) sessionId payload s, calls[w]? = some (.bidiEcho sessionId payload, s) →
    p.waiters[w]? = some none →
      (p.streamEchoes.lookup s).map Echo.waiter = some w ∧ ended (echoed down s) = false
  closed : ∀ (w : Nat) errorCode reasonPhrase,
    p.waiters[w]? = some (some (.closed errorCode reasonPhrase)) → Heard.terminated ∈ down

/-- What a step does to the entries whose futures it leaves pending. -/
structure Keeps (p q : Protocol) (down down' : List Heard) : Prop where
  pending : ∀ w : Nat, q.waiters[w]? = some none → p.waiters[w]? = some none
  requests : ∀ s r, p.requests.lookup s = some r → q.waiters[r.waiter]? = some none →
    (q.requests.lookup s).map Request.waiter = some r.waiter ∧
      (ended (parts down s) = false → ended (parts down' s) = false)
  sessions : ∀ s w, p.sessions.lookup s = some w → q.waiters[w]? = some none →
    q.sessions.lookup s = some w
  streamEchoes : ∀ s e, p.streamEchoes.lookup s = some e → q.waiters[e.waiter]? = some none →
    (q.streamEchoes.lookup s).map Echo.waiter = some e.waiter ∧
      (ended (echoed down s) = false → ended (echoed down' s) = false)
  closed : ∀ (w : Nat) errorCode reasonPhrase,
    q.waiters[w]? = some (some (.closed errorCode reasonPhrase)) → Heard.terminated ∉ down' →
      p.waiters[w]? = some (some (.closed errorCode reasonPhrase))
  history : Heard.terminated ∈ down → Heard.terminated ∈ down'

theorem Waits.step (h : Waits calls p down) (hkeeps : Keeps p q down down') : Waits calls q down' where
  get w authority path s hcall hw := by
    obtain ⟨hentry, hended⟩ := h.get w authority path s hcall (hkeeps.pending w hw)
    obtain ⟨r, hr, rfl⟩ := Option.map_eq_some_iff.mp hentry
    obtain ⟨hnow, hstill⟩ := hkeeps.requests s r hr hw
    exact ⟨hnow, hstill hended⟩
  session w authority path s hcall hw :=
    hkeeps.sessions s w (h.session w authority path s hcall (hkeeps.pending w hw)) hw
  stream w sessionId payload s hcall hw := by
    obtain ⟨hentry, hended⟩ := h.stream w sessionId payload s hcall (hkeeps.pending w hw)
    obtain ⟨e, he, rfl⟩ := Option.map_eq_some_iff.mp hentry
    obtain ⟨hnow, hstill⟩ := hkeeps.streamEchoes s e he hw
    exact ⟨hnow, hstill hended⟩
  closed w errorCode reasonPhrase hw := by
    by_contra hopen
    have hbefore := hkeeps.closed w errorCode reasonPhrase hw hopen
    exact hopen (hkeeps.history (h.closed w errorCode reasonPhrase hbefore))

/-! ### Events -/

theorem pending_settle {w i : Nat} {o : Outcome} (h : (p.settle w o).waiters[i]? = some none) :
    p.waiters[i]? = some none ∧ i ≠ w := by
  rw [waiters_settle] at h
  obtain ⟨settled, hsettled, hor⟩ := Option.map_eq_some_iff.mp h
  split at hor
  · cases settled <;> cases hor
  · next hne => exact ⟨hor ▸ hsettled, fun heq => hne heq.symm⟩

theorem closed_settle {w i : Nat} {o : Outcome} {errorCode : Nat} {reasonPhrase : String}
    (ho : ∀ errorCode reasonPhrase, o ≠ .closed errorCode reasonPhrase)
    (h : (p.settle w o).waiters[i]? = some (some (.closed errorCode reasonPhrase))) :
    p.waiters[i]? = some (some (.closed errorCode reasonPhrase)) := by
  rw [waiters_settle] at h
  obtain ⟨settled, hsettled, hor⟩ := Option.map_eq_some_iff.mp h
  rw [hsettled]
  split at hor
  · cases settled with
    | none => exact absurd (Option.some.inj hor) (ho _ _)
    | some o' => exact congrArg some hor
  · exact congrArg some hor

theorem ended_note {x : Heard} {s : Nat} (h : partOf s x = none) :
    ended (parts down s) = false → ended (parts (down ++ [x]) s) = false := by
  have hnone : parts [x] s = [] := by simp [parts, h]
  rw [parts_append, hnone, List.append_nil]
  exact id

theorem echoed_note {x : Heard} {s : Nat} (h : bytesOf s x = none) :
    ended (echoed down s) = false → ended (echoed (down ++ [x]) s) = false := by
  have hnone : echoed [x] s = [] := by simp [echoed, h]
  rw [echoed_append, hnone, List.append_nil]
  exact id

theorem keeps_note {x : Heard} (hrequests : ∀ s r, p.requests.lookup s = some r → partOf s x = none)
    (hechoes : ∀ s e, p.streamEchoes.lookup s = some e → bytesOf s x = none) :
    Keeps p p down (down ++ [x]) where
  pending _ h := h
  requests s r hr _ := ⟨congrArg (Option.map Request.waiter) hr, ended_note (hrequests s r hr)⟩
  sessions _ _ h _ := h
  streamEchoes s e he _ := ⟨congrArg (Option.map Echo.waiter) he, echoed_note (hechoes s e he)⟩
  closed _ _ _ h _ := h
  history h := List.mem_append_left _ h

theorem keeps_receiveEcho {s : Nat} {e : Echo} {data : Bytes} {ended : Bool}
    (he : p.streamEchoes.lookup s = some e) :
    Keeps p (p.receiveEcho s e data ended) down (down ++ [.bytes s data ended]) := by
  have hother {s' : Nat} (hs : s' ≠ s) : bytesOf s' (.bytes s data ended) = none := by
    simp [bytesOf, hs.symm]
  cases ended with
  | false =>
    refine ⟨fun _ h => h, fun s' r hr _ => ⟨congrArg (Option.map Request.waiter) hr, ended_note rfl⟩,
      fun _ _ h _ => h, fun s' e' he' _ => ?_, fun _ _ _ h _ => h,
      fun h => List.mem_append_left _ h⟩
    by_cases hs : s' = s
    · subst hs
      rw [he] at he'
      cases he'
      refine ⟨?_, fun hended => ?_⟩
      · simp [Protocol.receiveEcho]
      · rw [echoed_append, ended_append, hended, Bool.false_or]
        simp [echoed, bytesOf]
    · refine ⟨?_, echoed_note (hother hs)⟩
      simp [Protocol.receiveEcho, AList.lookup_insert_ne hs, he']
  | true =>
    have hsettled : p.receiveEcho s e data true =
        Protocol.settle { p with streamEchoes := p.streamEchoes.erase s } e.waiter
          (.echo (e.body ++ data)) := rfl
    rw [hsettled]
    refine ⟨fun _ h => (pending_settle h).1, fun s' r hr _ => ⟨?_, ended_note rfl⟩,
      fun _ _ h _ => h, fun s' e' he' hw => ?_, fun _ _ _ h _ => ?_,
      fun h => List.mem_append_left _ h⟩
    · exact congrArg (Option.map Request.waiter) hr
    · have hs : s' ≠ s := by
        rintro rfl
        rw [he] at he'
        cases he'
        exact (pending_settle hw).2 rfl
      refine ⟨?_, echoed_note (hother hs)⟩
      exact congrArg (Option.map Echo.waiter) ((AList.lookup_erase_ne hs).trans he')
    · exact closed_settle (fun _ _ ho => by cases ho) h

theorem keeps_receiveResponse {s : Nat} {r r' : Request} {x : Heard} (part : Segment Part)
    (hr : p.requests.lookup s = some r) (hwaiter : r'.waiter = r.waiter)
    (hpart : partOf s x = some part) (hbytes : ∀ s', bytesOf s' x = none)
    (hothers : ∀ s', s' ≠ s → partOf s' x = none) :
    Keeps p (p.receiveResponse s r' part.2) down (down ++ [x]) := by
  cases hended : part.2 with
  | false =>
    refine ⟨fun _ h => h, fun s' r'' hr'' _ => ?_, fun _ _ h _ => h, fun s' e he _ => ⟨?_, echoed_note
      (hbytes s')⟩, fun _ _ _ h _ => h, fun h => List.mem_append_left _ h⟩
    · by_cases hs : s' = s
      · subst hs
        rw [hr] at hr''
        cases hr''
        refine ⟨?_, fun hbefore => ?_⟩
        · simp [Protocol.receiveResponse, hwaiter]
        · rw [parts_append, ended_append, hbefore, Bool.false_or]
          simp [parts, hpart, hended]
      · refine ⟨?_, ended_note (hothers s' hs)⟩
        simp [Protocol.receiveResponse, AList.lookup_insert_ne hs, hr'']
    · exact congrArg (Option.map Echo.waiter) he
  | true =>
    have hsettled : p.receiveResponse s r' true =
        Protocol.settle { p with requests := p.requests.erase s } r'.waiter
          (.response r'.status (text r'.body)) := rfl
    rw [hsettled, hwaiter]
    refine ⟨fun _ h => (pending_settle h).1, fun s' r'' hr'' hw => ?_, fun _ _ h _ => h,
      fun s' e he _ => ⟨?_, echoed_note (hbytes s')⟩, fun _ _ _ h _ => ?_,
      fun h => List.mem_append_left _ h⟩
    · have hs : s' ≠ s := by
        rintro rfl
        rw [hr] at hr''
        cases hr''
        exact (pending_settle hw).2 rfl
      refine ⟨?_, ended_note (hothers s' hs)⟩
      exact congrArg (Option.map Request.waiter) ((AList.lookup_erase_ne hs).trans hr'')
    · exact congrArg (Option.map Echo.waiter) he
    · exact closed_settle (fun _ _ ho => by cases ho) h

theorem keeps_settleSession {s w : Nat} {headers : List Header} {ended : Bool} {o : Outcome}
    (ho : ∀ errorCode reasonPhrase, o ≠ .closed errorCode reasonPhrase)
    (hw : p.sessions.lookup s = some w) (hrequest : p.requests.lookup s = none) :
    Keeps p (Protocol.settle { p with sessions := p.sessions.erase s } w o) down
      (down ++ [.http (.headers s headers ended)]) where
  pending _ h := (pending_settle h).1
  requests s' r hr _ := by
    have hs : s ≠ s' := by
      rintro rfl
      rw [hrequest] at hr
      cases hr
    exact ⟨congrArg (Option.map Request.waiter) hr, ended_note (by simp [partOf, hs])⟩
  sessions s' w' hw' hpending := by
    have hs : s' ≠ s := by
      rintro rfl
      rw [hw] at hw'
      cases hw'
      exact (pending_settle hpending).2 rfl
    exact (AList.lookup_erase_ne hs).trans hw'
  streamEchoes s' e he _ := ⟨congrArg (Option.map Echo.waiter) he, echoed_note rfl⟩
  closed _ _ _ h _ := closed_settle ho h
  history h := List.mem_append_left _ h

theorem keeps_datagram {s w : Nat} {data : Bytes} :
    Keeps p (Protocol.settle { p with datagramEchoes := p.datagramEchoes.erase s } w (.echo data)) down
      (down ++ [.http (.datagram s data)]) where
  pending _ h := (pending_settle h).1
  requests s' r hr _ := ⟨congrArg (Option.map Request.waiter) hr, ended_note rfl⟩
  sessions _ _ h _ := h
  streamEchoes s' e he _ := ⟨congrArg (Option.map Echo.waiter) he, echoed_note rfl⟩
  closed _ _ _ h _ := closed_settle (fun _ _ ho => by cases ho) h
  history h := List.mem_append_left _ h

theorem keeps_httpEvent {e : HttpEvent} (hnumbered : ∃ n, opened calls = (List.range n).map clientStream)
    (h : Books policy calls p down) (hp : Expected policy calls (down ++ [.http e]))
    (hraised : (handleHttpEvent p e).2 = none) :
    Keeps p (handleHttpEvent p e).1 down (down ++ [.http e]) := by
  have hnodup := opened_nodup hnumbered
  have hquiet {x : Heard} (hx : ∀ s, partOf s x = none) (hx' : ∀ s, bytesOf s x = none) :
      Keeps p p down (down ++ [x]) := keeps_note (fun s _ _ => hx s) fun s _ _ => hx' s
  cases e with
  | datagram s data =>
    rw [handleHttpEvent]
    cases p.datagramEchoes.lookup s with
    | none => exact hquiet (fun _ => rfl) fun _ => rfl
    | some w => exact keeps_datagram
  | webtransportData s data ended =>
    rw [handleHttpEvent]
    cases he : p.streamEchoes.lookup s with
    | none => exact hquiet (fun _ => rfl) fun _ => rfl
    | some e => exact absurd he (by rw [h.not_foreign hnumbered (hp.foreign s data ended (by simp))]; simp)
  | data s data ended =>
    rw [handleHttpEvent]
    cases hr : p.requests.lookup s with
    | none =>
      refine keeps_note (fun s' r hr' => ?_) fun _ _ _ => rfl
      have hne : s ≠ s' := by
        rintro rfl
        rw [hr] at hr'
        cases hr'
      simp [partOf, hne]
    | some r =>
      exact keeps_receiveResponse (data.map .byte, ended) hr rfl (by simp [partOf])
        (fun _ => rfl) fun s' hs' => by simp [partOf, hs'.symm]
  | headers s headers ended =>
    rw [handleHttpEvent] at hraised ⊢
    cases hw : p.sessions.lookup s with
    | some w =>
      have hrequest : p.requests.lookup s = none := by
        cases hr : p.requests.lookup s with
        | none => rfl
        | some r => rw [h.no_session hnodup hr] at hw; cases hw
      simp only [hw, Protocol.receiveSession] at hraised ⊢
      split_ifs at hraised ⊢
      · exact keeps_settleSession (fun _ _ ho => by cases ho) hw hrequest
      · exact keeps_settleSession (fun _ _ ho => by cases ho) hw hrequest
    | none =>
      cases hr : p.requests.lookup s with
      | none =>
        refine keeps_note (fun s' r hr' => ?_) fun _ _ _ => rfl
        have hne : s ≠ s' := by
          rintro rfl
          rw [hr] at hr'
          cases hr'
        simp [partOf, hne]
      | some r =>
        have hreceive (r' : Request) (hwaiter : r'.waiter = r.waiter) :
            Keeps p (p.receiveResponse s r' ended) down (down ++ [.http (.headers s headers ended)]) :=
          keeps_receiveResponse ([.headers headers], ended) hr hwaiter (by simp [partOf])
            (fun _ => rfl) fun s' hs' => by simp [partOf, hs'.symm]
        simp only [hw, hr] at hraised ⊢
        cases hstatus : status headers with
        | none => exact hreceive _ rfl
        | some text =>
          cases hint : int text with
          | none => simp [hstatus, hint] at hraised
          | some n =>
            have hnext := hreceive ⟨r.body, some n, r.waiter⟩ rfl
            simp only [hint]
            exact hnext

theorem Waits.httpEvents (hsound : policy.Sound)
    (hnumbered : ∃ n, opened calls = (List.range n).map clientStream) : ∀ {http : List HttpEvent}
    {p : Protocol} {down : List Heard}, Waits calls p down → Books policy calls p down →
    Heard.terminated ∉ down → Expected policy calls (down ++ http.map .http) →
    Waits calls (handleHttpEvents p http) (down ++ http.map .http)
  | [], p, down, h, _, _, _ => by
    rw [List.map_nil, List.append_nil, handleHttpEvents]
    exact h
  | e :: http, p, down, h, hbooks, hopen, hp => by
    rw [List.map_cons, List.append_cons] at hp ⊢
    obtain ⟨hraised, hnext⟩ := hbooks.httpEvent hsound hnumbered hopen hp.front
    have hwaits := h.step (keeps_httpEvent hnumbered hbooks hp.front hraised)
    have hevents := hwaits.httpEvents hsound hnumbered hnext (by simpa using hopen) hp
    rw [handleHttpEvents]
    generalize handleHttpEvent p e = handled at hraised hevents
    obtain ⟨p', raised⟩ := handled
    obtain rfl : raised = none := hraised
    exact hevents

theorem keeps_settle (hnow : Heard.terminated ∈ down') (hsame : Keeps p p down down') {w : Nat}
    {o : Outcome} : Keeps p (p.settle w o) down down' where
  pending _ h := (pending_settle h).1
  requests s r hr hw := hsame.requests s r hr (pending_settle hw).1
  sessions _ _ hw _ := hw
  streamEchoes s e he hw := hsame.streamEchoes s e he (pending_settle hw).1
  closed _ _ _ _ hopen := absurd hnow hopen
  history := hsame.history

theorem Waits.terminate (hnow : Heard.terminated ∈ down) (o : Outcome) : ∀ {ws : List Nat} {p : Protocol},
    Waits calls p down → Waits calls (ws.foldl (fun p w => p.settle w o) p) down
  | [], _, h => h
  | w :: ws, p, h => by
    have hsame : Keeps p p down down :=
      ⟨fun _ h => h, fun _ _ hr _ => ⟨congrArg (Option.map Request.waiter) hr, id⟩, fun _ _ h _ => h,
        fun _ _ he _ => ⟨congrArg (Option.map Echo.waiter) he, id⟩, fun _ _ _ h _ => h, id⟩
    exact (h.step (keeps_settle hnow hsame)).terminate hnow o

/-- Every event that can arrive. -/
theorem Waits.event {e : Event} (hsound : policy.Sound)
    (hnumbered : ∃ n, opened calls = (List.range n).map clientStream) (h : Waits calls p down)
    (hbooks : Books policy calls p down) (hopen : Heard.terminated ∉ down)
    (hp : Expected policy calls (down ++ e.heard)) (hasked : e.Unasked (sends calls)) :
    Waits calls (quicEventReceived p e) (down ++ e.heard) := by
  cases e with
  | other http => exact h.httpEvents hsound hnumbered hbooks hopen hp
  | terminated errorCode reasonPhrase =>
    have hnoted : Waits calls p (down ++ [.terminated]) :=
      h.step (keeps_note (fun _ _ _ => rfl) fun _ _ _ => rfl)
    exact hnoted.terminate (List.mem_append_right _ List.mem_cons_self) _
  | streamData s data ended http =>
    rw [Event.heard, List.append_cons] at hp ⊢
    rw [quicEventReceived]
    cases he : p.streamEchoes.lookup s with
    | some e =>
      obtain ⟨⟨sessionId, payload, hcall⟩, -⟩ := hbooks.streamEchoes s e he
      rw [hasked sessionId (createStream_mem (List.mem_of_getElem? hcall)), List.map_nil,
        List.append_nil]
      exact h.step (keeps_receiveEcho he)
    | none =>
      have hnoted := hbooks.unheard data ended he
      have hwaits : Waits calls p (down ++ [.bytes s data ended]) := by
        refine h.step (keeps_note (fun _ _ _ => rfl) fun s' e he' => ?_)
        have hne : s ≠ s' := by
          rintro rfl
          rw [he] at he'
          cases he'
        simp [bytesOf, hne]
      exact hwaits.httpEvents hsound hnumbered hnoted (by simpa using hopen) hp

/-! ### Calls -/

theorem old_stream (hnumbered : opened calls = (List.range p.opened).map clientStream) {w : Nat}
    {c : Call × Nat} (hc : calls[w]? = some c) (hopens : c.1.opens = true) :
    c.2 ≠ clientStream p.opened := by
  intro htarget
  have hopened : c.2 ∈ opened calls :=
    List.mem_map.mpr ⟨c, List.mem_filter.mpr ⟨List.mem_of_getElem? hc, hopens⟩, rfl⟩
  rw [hnumbered, htarget] at hopened
  obtain ⟨k, hk, heq⟩ := List.mem_map.mp hopened
  rw [clientStream_injective heq, List.mem_range] at hk
  omega

/-- The tables of a client that makes a call, away from the stream that it opens. -/
theorem lookup_call (p : Protocol) (c : Call) {s : Nat} (hs : s ≠ clientStream p.opened) :
    (p.call c).requests.lookup s = p.requests.lookup s ∧
      (p.call c).sessions.lookup s = p.sessions.lookup s ∧
      (p.call c).streamEchoes.lookup s = p.streamEchoes.lookup s := by
  cases c with
  | get => exact ⟨AList.lookup_insert_ne hs, rfl, rfl⟩
  | openWebtransport => exact ⟨rfl, AList.lookup_insert_ne hs, rfl⟩
  | bidiEcho => exact ⟨rfl, rfl, AList.lookup_insert_ne hs⟩
  | datagramEcho => exact ⟨rfl, rfl, rfl⟩

/-- A call is registered with the number of its future. -/
theorem Waits.call (hnumbered : opened calls = (List.range p.opened).map clientStream)
    (h : Waits calls p down) (hbooks : Books policy calls p down)
    (hp : Expected policy calls down) (c : Call) :
    Waits (calls ++ [(c, p.target c)]) (p.call c) down := by
  have hcalled {w : Nat} {d : Call × Nat} (hd : (calls ++ [(c, p.target c)])[w]? = some d) :
      calls[w]? = some d ∨ w = p.waiters.length ∧ (c, p.target c) = d := by
    rcases Nat.lt_or_ge w calls.length with hlt | hge
    · rw [List.getElem?_append_left hlt] at hd
      exact Or.inl hd
    · rw [List.getElem?_append_right hge] at hd
      refine Or.inr ⟨?_, ?_⟩
      · have hlast := (List.getElem?_eq_some_iff.mp hd).1
        rw [List.length_singleton] at hlast
        rw [hbooks.length]
        omega
      · exact (List.mem_singleton.mp (List.mem_of_getElem? hd)).symm
  have hpending {w : Nat} {d : Call × Nat} (hd : calls[w]? = some d)
      (hw : (p.call c).waiters[w]? = some none) : p.waiters[w]? = some none := by
    have hlt : w < p.waiters.length := hbooks.length ▸ (List.getElem?_eq_some_iff.mp hd).1
    rwa [waiters_call, List.getElem?_append_left hlt] at hw
  refine ⟨fun w authority path s hcall hw => ?_, fun w authority path s hcall hw => ?_,
    fun w sessionId payload s hcall hw => ?_, fun w errorCode reasonPhrase hw => ?_⟩
  · rcases hcalled hcall with hold | ⟨rfl, hnew⟩
    · rw [(lookup_call p c (old_stream hnumbered hold rfl)).1]
      exact h.get w authority path s hold (hpending hold hw)
    · cases hnew
      refine ⟨Option.map_eq_some_iff.mpr ⟨_, AList.lookup_insert _, rfl⟩, ?_⟩
      have hmessages := hp.messages (clientStream p.opened)
      rw [sends_fresh hnumbered sentHeaders_other] at hmessages
      exact Bool.eq_false_iff.mpr fun hended => absurd (hmessages.follows.ended hended).1 (by simp)
  · rcases hcalled hcall with hold | ⟨rfl, hnew⟩
    · rw [(lookup_call p c (old_stream hnumbered hold rfl)).2.1]
      exact h.session w authority path s hold (hpending hold hw)
    · cases hnew
      exact AList.lookup_insert _
  · rcases hcalled hcall with hold | ⟨rfl, hnew⟩
    · rw [(lookup_call p c (old_stream hnumbered hold rfl)).2.2]
      exact h.stream w sessionId payload s hold (hpending hold hw)
    · cases hnew
      refine ⟨Option.map_eq_some_iff.mpr ⟨_, AList.lookup_insert _, rfl⟩, ?_⟩
      have hstream := hp.streams p.opened (sends_fresh hnumbered sentHeaders_other)
      rw [sends_fresh hnumbered sentBytes_other] at hstream
      exact Bool.eq_false_iff.mpr fun hended => absurd (hstream.follows.ended hended).1 (by simp)
  · rw [waiters_call] at hw
    have hbefore : p.waiters[w]? = some (some (.closed errorCode reasonPhrase)) := by
      rcases Nat.lt_or_ge w p.waiters.length with hlt | hge
      · rwa [List.getElem?_append_left hlt] at hw
      · rw [List.getElem?_append_right hge] at hw
        cases hindex : w - p.waiters.length <;> simp [hindex] at hw
    exact h.closed w errorCode reasonPhrase hbefore

end

/-! ### Every state -/

section

variable {ε : Type} {server : Server ε} {policy : Policy} {m : System ε}

theorem waits (hechoes : server.Echoes policy) (h : Reachable server m)
    (hreliable : server.reliable m.up) : Waits m.calls m.client m.down := by
  induction h with
  | new => exact ⟨fun _ _ _ _ h => (by cases h), fun _ _ _ _ h => (by cases h),
      fun _ _ _ _ h => (by cases h), fun _ _ _ h => (by cases h)⟩
  | call h c hc ih =>
    have hserved := served hechoes h hreliable
    exact (ih hreliable).call hserved.numbered hserved.books hserved.expected c
  | hear _ e he ih => exact ih (hechoes.reliable _ e hreliable)
  | @receive m h e he hasked hopen ih =>
    have hnow : server.reliable m.up := hreliable
    have hserved := served hechoes h hnow
    have hnext := hserved.receive hechoes hnow he hasked hopen
    rw [hserved.effects] at hasked
    exact (ih hnow).event hechoes.sound ⟨_, hserved.numbered⟩ hserved.books hopen hnext.expected hasked

/-- The answer to a call of which enough has arrived. -/
def Arrived (policy : Policy) (down : List Heard) : Call × Nat → Option Outcome
  | (.get _ path, s) =>
    if ended (parts down s) then
      some (.response (policy.health path).1 (text (policy.health path).2))
    else none
  | (.openWebtransport _ path, s) =>
    if content (parts down s) = [] then none
    else some (if policy.accepts path then .session s else .refused (some (literal "404")))
  | (.bidiEcho _ payload, s) => if ended (echoed down s) then some (.echo payload) else none
  | (.datagramEcho _ _, _) => none

theorem arrived_settled (hechoes : server.Echoes policy) (h : Reachable server m)
    (hreliable : server.reliable m.up) (hopen : Heard.terminated ∉ m.down) (w : Nat) (c : Call × Nat)
    (o : Outcome) (hc : m.calls[w]? = some c) (ho : Arrived policy m.down c = some o) :
    m.client.waiters[w]? = some (some o) := by
  have hserved := served hechoes h hreliable
  have hwaits := waits hechoes h hreliable
  obtain ⟨call, s⟩ := c
  -- the future is there, and is not closed
  have hlt : w < m.client.waiters.length :=
    hserved.books.length ▸ (List.getElem?_eq_some_iff.mp hc).1
  have hfuture := List.getElem?_eq_getElem hlt
  rw [hfuture]
  cases hsettled : m.client.waiters[w] with
  | none =>
    rw [hsettled] at hfuture
    cases call with
    | get authority path =>
      rw [Arrived, (hwaits.get w authority path s hc hfuture).2] at ho
      cases ho
    | openWebtransport authority path =>
      have hlookup := hwaits.session w authority path s hc hfuture
      rw [Arrived, if_pos (hserved.books.sessions s w hlookup).2.1] at ho
      cases ho
    | bidiEcho sessionId payload =>
      rw [Arrived, (hwaits.stream w sessionId payload s hc hfuture).2] at ho
      cases ho
    | datagramEcho => cases ho
  | some o' =>
    rw [hsettled] at hfuture
    have hanswers := answers_of hserved hfuture hc
    have hclosed (errorCode : Nat) (reasonPhrase : String) : o' ≠ .closed errorCode reasonPhrase := by
      rintro rfl
      exact hopen (hwaits.closed w errorCode reasonPhrase hfuture)
    refine congrArg (some ∘ some) ?_
    cases call with
    | get authority path =>
      rw [Arrived, Option.ite_none_right_eq_some] at ho
      cases o' with
      | closed errorCode reasonPhrase => exact absurd rfl (hclosed errorCode reasonPhrase)
      | response status body =>
        obtain ⟨_, _, hget, rfl, rfl⟩ := hanswers
        cases hget
        exact Option.some.inj ho.2
      | session | refused =>
        obtain ⟨-, _, _, hother, -⟩ := hanswers
        cases hother
      | echo => rcases hanswers with ⟨_, hother⟩ | ⟨_, _, _, hother, -⟩ <;> cases hother
    | openWebtransport authority path =>
      rw [Arrived, Option.ite_none_left_eq_some] at ho
      cases o' with
      | closed errorCode reasonPhrase => exact absurd rfl (hclosed errorCode reasonPhrase)
      | response =>
        obtain ⟨_, _, hother, -⟩ := hanswers
        cases hother
      | session sessionId =>
        obtain ⟨rfl, _, _, hconnect, haccepts⟩ := hanswers
        cases hconnect
        rw [if_pos haccepts] at ho
        exact Option.some.inj ho.2
      | refused status =>
        obtain ⟨rfl, _, _, hconnect, haccepts⟩ := hanswers
        cases hconnect
        rw [haccepts] at ho
        exact Option.some.inj ho.2
      | echo => rcases hanswers with ⟨_, hother⟩ | ⟨_, _, _, hother, -⟩ <;> cases hother
    | bidiEcho sessionId payload =>
      rw [Arrived, Option.ite_none_right_eq_some] at ho
      cases o' with
      | closed errorCode reasonPhrase => exact absurd rfl (hclosed errorCode reasonPhrase)
      | response =>
        obtain ⟨_, _, hother, -⟩ := hanswers
        cases hother
      | session | refused =>
        obtain ⟨-, _, _, hother, -⟩ := hanswers
        cases hother
      | echo data =>
        obtain ⟨_, hstream⟩ | ⟨_, _, _, hother, -⟩ := hanswers
        · cases hstream
          exact Option.some.inj ho.2
        · cases hother
    | datagramEcho => cases ho

/-- On a connection to the aioquic backend that is not closed, whatever has arrived whole has settled
    its future, with the right answer. -/
theorem aioquic_arrived {m : System Aioquic.Event} (h : Reachable aioquicServer m)
    (hopen : Heard.terminated ∉ m.down) (w : Nat) (c : Call × Nat) (o : Outcome)
    (hc : m.calls[w]? = some c) (ho : Arrived aioquicPolicy m.down c = some o) :
    m.client.waiters[w]? = some (some o) :=
  arrived_settled aioquicServer_echoes h trivial hopen w c o hc ho

/-- The session and the stream are there while the page is on its way. -/
theorem aioquic_arrived_echoed : echoedBack.client.waiters[1]? = some (some (.session 4)) ∧
    echoedBack.client.waiters[3]? = some (some (.echo probePayload)) :=
  ⟨aioquic_arrived echoedBack_reachable (by decide) 1 (sessionRequest, 4) _ rfl rfl,
    aioquic_arrived echoedBack_reachable (by decide) 3 (.bidiEcho 4 probePayload, 8) _ rfl rfl⟩

end

end WebTransportEcho.Health
