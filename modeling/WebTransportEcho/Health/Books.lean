import WebTransportEcho.Backend.UniEcho
import WebTransportEcho.Health.System

/-! What the health client keeps while it is served: each entry of its tables belongs to a call that
    was made, and holds what has arrived for it so far. An event keeps this (`Books.event`), never
    raises, and settles a future only with the answer to its own call. -/

namespace WebTransportEcho.Health
open Backend Delivery
open Aioquic (Effect)

/-! ### What the calls send -/

def Call.sends (target : Nat) : Call → List Effect
  | .get authority path => [.sendHeaders target (getHeaders authority path) true]
  | .openWebtransport authority path => [.sendHeaders target (connectHeaders authority path) false]
  | .bidiEcho sessionId payload =>
    [.createStream sessionId target, .sendStreamData target payload true]
  | .datagramEcho _ payload => [.sendDatagram target payload]

/-- The call opens a stream. -/
def Call.opens : Call → Bool
  | .datagramEcho _ _ => false
  | _ => true

def sends (calls : List (Call × Nat)) : List Effect := calls.flatMap fun c => c.1.sends c.2

def opened (calls : List (Call × Nat)) : List Nat :=
  (calls.filter fun c => c.1.opens).map Prod.snd

theorem clientStream_injective : Function.Injective clientStream := fun m n h => by
  unfold clientStream at h
  omega

@[simp] theorem sends_append (front back : List (Call × Nat)) :
    sends (front ++ back) = sends front ++ sends back := List.flatMap_append

@[simp] theorem sends_singleton (c : Call × Nat) : sends [c] = c.1.sends c.2 :=
  List.flatMap_singleton _ _

section

variable {calls : List (Call × Nat)} {s : Nat}

/-- The call that opened a stream is the only one that sends on it. -/
theorem filterMap_sends {α : Type} {f : Effect → Option α}
    (hf : ∀ c : Call × Nat, ¬ (c.1.opens = true ∧ c.2 = s) → (c.1.sends c.2).filterMap f = [])
    (hnodup : (opened calls).Nodup) {c : Call × Nat} (hc : c ∈ calls) (hopens : c.1.opens = true)
    (hs : c.2 = s) : (sends calls).filterMap f = (c.1.sends c.2).filterMap f := by
  have hmem : c ∈ calls.filter fun c => c.1.opens := List.mem_filter.mpr ⟨hc, hopens⟩
  have hown := Aioquic.filter_key hnodup hmem
  have hrest : ∀ cs : List (Call × Nat), (sends cs).filterMap f =
      (sends ((cs.filter fun c => c.1.opens).filter fun c => decide (c.2 = s))).filterMap f := by
    intro cs
    induction cs with
    | nil => rfl
    | cons d cs ih =>
      rw [List.filter_filter] at ih ⊢
      have hcons : sends (d :: cs) = d.1.sends d.2 ++ sends cs := rfl
      rw [hcons, List.filterMap_append, ih, List.filter_cons]
      by_cases hd : d.1.opens = true ∧ d.2 = s
      · rw [if_pos (by simpa using hd.symm), ← List.filterMap_append]
        rfl
      · rw [hf d hd, List.nil_append, if_neg (by simpa using fun hs hopen => hd ⟨hopen, hs⟩)]
  rw [hrest calls, ← hs, hown, sends_singleton]

theorem sentHeaders_other (c : Call × Nat) (h : ¬ (c.1.opens = true ∧ c.2 = s)) :
    (c.1.sends c.2).filterMap (sentHeaders s) = [] := by
  obtain ⟨call, target⟩ := c
  cases call with
  | datagramEcho => rfl
  | get | openWebtransport | bidiEcho =>
    have hne : target ≠ s := fun hs => h ⟨rfl, hs⟩
    simp [Call.sends, sentHeaders, hne]

theorem sentBytes_other (c : Call × Nat) (h : ¬ (c.1.opens = true ∧ c.2 = s)) :
    (c.1.sends c.2).filterMap (sentBytes s) = [] := by
  obtain ⟨call, target⟩ := c
  cases call with
  | datagramEcho => rfl
  | get | openWebtransport | bidiEcho =>
    have hne : target ≠ s := fun hs => h ⟨rfl, hs⟩
    simp [Call.sends, sentBytes, hne]

theorem headers_of_get (hnodup : (opened calls).Nodup) {authority path : String}
    (h : (Call.get authority path, s) ∈ calls) :
    (sends calls).filterMap (sentHeaders s) = [getHeaders authority path] := by
  rw [filterMap_sends sentHeaders_other hnodup h rfl rfl]
  simp [Call.sends, sentHeaders]

theorem headers_of_open (hnodup : (opened calls).Nodup) {authority path : String}
    (h : (Call.openWebtransport authority path, s) ∈ calls) :
    (sends calls).filterMap (sentHeaders s) = [connectHeaders authority path] := by
  rw [filterMap_sends sentHeaders_other hnodup h rfl rfl]
  simp [Call.sends, sentHeaders]

theorem bytes_of_bidi (hnodup : (opened calls).Nodup) {sessionId : Nat} {payload : Bytes}
    (h : (Call.bidiEcho sessionId payload, s) ∈ calls) :
    (sends calls).filterMap (sentHeaders s) = [] ∧
      (sends calls).filterMap (sentBytes s) = [(payload, true)] := by
  rw [filterMap_sends sentHeaders_other hnodup h rfl rfl,
    filterMap_sends sentBytes_other hnodup h rfl rfl]
  refine ⟨rfl, ?_⟩
  simp [Call.sends, sentBytes, List.filterMap_cons]

/-- Two calls that opened one stream are one call. -/
theorem eq_of_opened (hnodup : (opened calls).Nodup) {c d : Call × Nat} {i j : Nat}
    (hc : calls[i]? = some c) (hd : calls[j]? = some d) (hcopens : c.1.opens = true)
    (hdopens : d.1.opens = true) (hs : c.2 = d.2) : c = d := by
  have hcmem : c ∈ calls.filter fun c => c.1.opens :=
    List.mem_filter.mpr ⟨List.mem_of_getElem? hc, hcopens⟩
  have hdmem : d ∈ calls.filter fun c => c.1.opens :=
    List.mem_filter.mpr ⟨List.mem_of_getElem? hd, hdopens⟩
  exact List.inj_on_of_nodup_map hnodup hcmem hdmem hs

theorem exists_clientStream (hnumbered : ∃ n, opened calls = (List.range n).map clientStream)
    {c : Call × Nat} (h : c ∈ calls) (hopens : c.1.opens = true) : ∃ k, c.2 = clientStream k := by
  have hopened : c.2 ∈ opened calls := List.mem_map.mpr ⟨_, List.mem_filter.mpr ⟨h, hopens⟩, rfl⟩
  obtain ⟨n, hn⟩ := hnumbered
  rw [hn] at hopened
  obtain ⟨k, -, hk⟩ := List.mem_map.mp hopened
  exact ⟨k, hk.symm⟩

theorem opened_nodup (hnumbered : ∃ n, opened calls = (List.range n).map clientStream) :
    (opened calls).Nodup := by
  obtain ⟨n, hn⟩ := hnumbered
  rw [hn]
  exact List.nodup_range.map clientStream_injective

theorem mem_sends_datagram {sessionId : Nat} {data : Bytes}
    (h : Effect.sendDatagram sessionId data ∈ sends calls) :
    ∃ session, (Call.datagramEcho session data, sessionId) ∈ calls := by
  obtain ⟨⟨call, target⟩, hmem, hsent⟩ := List.mem_flatMap.mp h
  cases call with
  | datagramEcho session payload =>
    simp only [Call.sends, List.mem_singleton, Effect.sendDatagram.injEq] at hsent
    exact ⟨session, hsent.1 ▸ hsent.2 ▸ hmem⟩
  | get | openWebtransport | bidiEcho => simp [Call.sends] at hsent

theorem createStream_mem {sessionId streamId : Nat} {payload : Bytes}
    (h : (Call.bidiEcho sessionId payload, streamId) ∈ calls) :
    Effect.createStream sessionId streamId ∈ sends calls :=
  List.mem_flatMap.mpr ⟨_, h, List.mem_cons_self⟩

theorem mem_sends_stream {sessionId streamId : Nat}
    (h : Effect.createStream sessionId streamId ∈ sends calls) :
    ∃ payload, (Call.bidiEcho sessionId payload, streamId) ∈ calls := by
  obtain ⟨⟨call, target⟩, hmem, hsent⟩ := List.mem_flatMap.mp h
  cases call with
  | bidiEcho session payload =>
    simp only [Call.sends, List.mem_cons, Effect.createStream.injEq, reduceCtorEq, List.not_mem_nil,
      or_false] at hsent
    exact ⟨payload, hsent.1 ▸ hsent.2 ▸ hmem⟩
  | get | openWebtransport | datagramEcho => simp [Call.sends] at hsent

end

/-! ### What has arrived, and what is kept of it -/

def parts (down : List Heard) (streamId : Nat) : List (Segment Part) :=
  down.filterMap (partOf streamId)

def echoed (down : List Heard) (streamId : Nat) : List (Segment UInt8) :=
  down.filterMap (bytesOf streamId)

/-- The outcome is an answer to the call. A datagram is not told from others of its session. -/
def Answers (policy : Policy) (calls : List (Call × Nat)) (c : Call × Nat) : Outcome → Prop
  | .closed _ _ => True
  | .response status body => ∃ authority path, c.1 = .get authority path ∧
      status = (policy.health path).1 ∧ body = text (policy.health path).2
  | .session sessionId => c.2 = sessionId ∧
      ∃ authority path, c.1 = .openWebtransport authority path ∧ policy.accepts path = true
  | .refused status => status = some (literal "404") ∧
      ∃ authority path, c.1 = .openWebtransport authority path ∧ policy.accepts path = false
  | .echo data => (∃ sessionId, c.1 = .bidiEcho sessionId data) ∨
      ∃ session session' payload, c.1 = .datagramEcho session payload ∧
        (Call.datagramEcho session' data, c.2) ∈ calls

/-- What can arrive at the client after these calls. -/
structure Expected (policy : Policy) (calls : List (Call × Nat)) (down : List Heard) : Prop where
  messages : ∀ s, Carried (((sends calls).filterMap (sentHeaders s)).flatMap policy.respond)
    (parts down s)
  streams : ∀ n, (sends calls).filterMap (sentHeaders (clientStream n)) = [] →
    Carried ((sends calls).filterMap (sentBytes (clientStream n))) (echoed down (clientStream n))
  datagrams : ∀ sessionId data, Heard.http (.datagram sessionId data) ∈ down →
    Effect.sendDatagram sessionId data ∈ sends calls
  foreign : ∀ s data ended, Heard.http (.webtransportData s data ended) ∈ down →
    isServerInitiated s = true

/-- The tables after what has arrived. -/
structure Books (policy : Policy) (calls : List (Call × Nat)) (p : Protocol) (down : List Heard) :
    Prop where
  length : p.waiters.length = calls.length
  requests : ∀ s r, p.requests.lookup s = some r →
    (∃ authority path, calls[r.waiter]? = some (.get authority path, s)) ∧
      readParts (content (parts down s)) = some (r.status, r.body)
  sessions : ∀ s w, p.sessions.lookup s = some w →
    (∃ authority path, calls[w]? = some (.openWebtransport authority path, s)) ∧
      content (parts down s) = [] ∧ (Heard.terminated ∉ down → p.done w = false)
  streamEchoes : ∀ s e, p.streamEchoes.lookup s = some e →
    (∃ sessionId payload, calls[e.waiter]? = some (.bidiEcho sessionId payload, s)) ∧
      e.body = content (echoed down s)
  datagramEchoes : ∀ s w, p.datagramEchoes.lookup s = some w →
    ∃ session payload, calls[w]? = some (.datagramEcho session payload, s)
  settled : ∀ (w : Nat) (o : Outcome), p.waiters[w]? = some (some o) →
    ∃ c, calls[w]? = some c ∧ Answers policy calls c o
  accepted : ∀ s, some (.session s) ∈ p.waiters → content (parts down s) ≠ []

theorem parts_append (front back : List Heard) (s : Nat) :
    parts (front ++ back) s = parts front s ++ parts back s := List.filterMap_append

theorem echoed_append (front back : List Heard) (s : Nat) :
    echoed (front ++ back) s = echoed front s ++ echoed back s := List.filterMap_append

section Books

variable {policy : Policy} {calls : List (Call × Nat)} {p : Protocol} {down : List Heard}

theorem Expected.front {back : List Heard} (h : Expected policy calls (down ++ back)) :
    Expected policy calls down where
  messages s := (h.messages s).of_front (by rw [parts_append]; exact List.prefix_append _ _)
  streams n hn := (h.streams n hn).of_front (by rw [echoed_append]; exact List.prefix_append _ _)
  datagrams s d hd := h.datagrams s d (List.mem_append_left _ hd)
  foreign s d e hd := h.foreign s d e (List.mem_append_left _ hd)

/-! ### Entries -/

theorem lookup_of_erase {β : Type} {m : AList fun _ : Nat => β} {s s' : Nat} {b : β}
    (h : (m.erase s).lookup s' = some b) : s' ≠ s ∧ m.lookup s' = some b := by
  by_cases hs : s' = s
  · rw [hs, AList.lookup_erase] at h
    cases h
  · rw [AList.lookup_erase_ne hs] at h
    exact ⟨hs, h⟩

theorem lookup_of_insert {β : Type} {m : AList fun _ : Nat => β} {s s' : Nat} {b b' : β}
    (h : (m.insert s b).lookup s' = some b') : s' = s ∧ b' = b ∨ s' ≠ s ∧ m.lookup s' = some b' := by
  by_cases hs : s' = s
  · rw [hs, AList.lookup_insert] at h
    exact Or.inl ⟨hs, (Option.some.inj h).symm⟩
  · rw [AList.lookup_insert_ne hs] at h
    exact Or.inr ⟨hs, h⟩

/-- Something arrives that the other entries do not wait for. -/
structure Unrelated (p : Protocol) (x : Heard) : Prop where
  requests : ∀ s r, p.requests.lookup s = some r → partOf s x = none
  sessions : ∀ s w, p.sessions.lookup s = some w → ∀ part ∈ partOf s x, part.1 = []
  streamEchoes : ∀ s e, p.streamEchoes.lookup s = some e → bytesOf s x = none

theorem Books.note {x : Heard} (h : Books policy calls p down) (hx : Unrelated p x) :
    Books policy calls p (down ++ [x]) where
  length := h.length
  requests s r hr := by
    have hnone : parts [x] s = [] := by simp [parts, hx.requests s r hr]
    rw [parts_append, hnone, List.append_nil]
    exact h.requests s r hr
  sessions s w hw := by
    obtain ⟨hcall, hcontent, hpending⟩ := h.sessions s w hw
    refine ⟨hcall, ?_, fun hopen => hpending fun hmem => hopen (List.mem_append_left _ hmem)⟩
    rw [parts_append, content_append, hcontent, List.nil_append]
    cases hpart : partOf s x with
    | none => simp [parts, hpart]
    | some part => simp [parts, hpart, hx.sessions s w hw part hpart]
  streamEchoes s e he := by
    have hnone : echoed [x] s = [] := by simp [echoed, hx.streamEchoes s e he]
    rw [echoed_append, hnone, List.append_nil]
    exact h.streamEchoes s e he
  datagramEchoes := h.datagramEchoes
  settled := h.settled
  accepted s hs := by
    rw [parts_append, content_append]
    exact fun hnil => h.accepted s hs (List.append_eq_nil_iff.mp hnil).1

theorem Books.eraseRequest (h : Books policy calls p down) (s : Nat) :
    Books policy calls { p with requests := p.requests.erase s } down :=
  { h with requests := fun s' r hr => h.requests s' r (lookup_of_erase hr).2 }

theorem Books.eraseSession (h : Books policy calls p down) (s : Nat) :
    Books policy calls { p with sessions := p.sessions.erase s } down :=
  { h with sessions := fun s' w hw => h.sessions s' w (lookup_of_erase hw).2 }

theorem Books.eraseEcho (h : Books policy calls p down) (s : Nat) :
    Books policy calls { p with streamEchoes := p.streamEchoes.erase s } down :=
  { h with streamEchoes := fun s' e he => h.streamEchoes s' e (lookup_of_erase he).2 }

theorem Books.eraseDatagram (h : Books policy calls p down) (s : Nat) :
    Books policy calls { p with datagramEchoes := p.datagramEchoes.erase s } down :=
  { h with datagramEchoes := fun s' w hw => h.datagramEchoes s' w (lookup_of_erase hw).2 }

theorem insert_erase {β : Type} (m : AList fun _ : Nat => β) (s : Nat) (b : β) :
    (m.erase s).insert s b = m.insert s b := by
  refine AList.ext ?_
  rw [AList.entries_insert, AList.entries_insert]
  exact congrArg _ (List.kerase_of_notMem_keys (List.notMem_keys_kerase s m.nodupKeys))

/-! ### Futures -/

theorem waiters_settle (p : Protocol) (w : Nat) (o : Outcome) (i : Nat) :
    (p.settle w o).waiters[i]? =
      p.waiters[i]?.map fun settled => if w = i then settled.or (some o) else settled :=
  List.getElem?_modify _ _ _ _

theorem Books.settle {w : Nat} {o : Outcome} {c : Call × Nat} (h : Books policy calls p down)
    (hc : calls[w]? = some c) (ho : Answers policy calls c o)
    (hsession : ∀ s, o = .session s → content (parts down s) ≠ [])
    (hfree : Heard.terminated ∉ down → ∀ s w', p.sessions.lookup s = some w' → w' ≠ w) :
    Books policy calls (p.settle w o) down := by
  have hnew {i : Nat} {o' : Outcome} (hi : (p.settle w o).waiters[i]? = some (some o')) :
      p.waiters[i]? = some (some o') ∨ i = w ∧ o' = o := by
    rw [waiters_settle] at hi
    obtain ⟨settled, hsettled, hor⟩ := Option.map_eq_some_iff.mp hi
    rw [hsettled]
    split at hor
    · next hiw =>
      cases settled with
      | none => exact Or.inr ⟨hiw.symm, (Option.some.inj hor).symm⟩
      | some o'' => exact Or.inl (congrArg some hor)
    · exact Or.inl (congrArg some hor)
  refine { h with length := ?_, sessions := fun s w' hw' => ?_, settled := fun i o' hi => ?_,
                  accepted := fun s hs => ?_ }
  · rw [← h.length]
    exact List.length_modify _ _ _
  · obtain ⟨hcall, hcontent, hpending⟩ := h.sessions s w' hw'
    refine ⟨hcall, hcontent, fun hopen => ?_⟩
    have hne := hfree hopen s w' hw'
    rw [Protocol.done, waiters_settle]
    simp only [hne.symm, if_false, Option.map_id']
    exact hpending hopen
  · rcases hnew hi with hold | ⟨rfl, rfl⟩
    · exact h.settled i o' hold
    · exact ⟨c, hc, ho⟩
  · obtain ⟨i, hi⟩ := List.mem_iff_getElem?.mp hs
    rcases hnew hi with hold | ⟨-, hsame⟩
    · exact h.accepted s (List.mem_of_getElem? hold)
    · exact hsession s hsame.symm

/-! ### Responses -/

theorem Books.insertRequest {s : Nat} {r : Request} (h : Books policy calls p down)
    (hcall : ∃ authority path, calls[r.waiter]? = some (.get authority path, s))
    (hread : readParts (content (parts down s)) = some (r.status, r.body)) :
    Books policy calls { p with requests := p.requests.insert s r } down := by
  refine { h with requests := fun s' r' hr' => ?_ }
  rcases lookup_of_insert hr' with ⟨rfl, rfl⟩ | ⟨-, hold⟩
  · exact ⟨hcall, hread⟩
  · exact h.requests s' r' hold

theorem Books.insertEcho {s : Nat} {e : Echo} (h : Books policy calls p down)
    (hcall : ∃ sessionId payload, calls[e.waiter]? = some (.bidiEcho sessionId payload, s))
    (hbody : e.body = content (echoed down s)) :
    Books policy calls { p with streamEchoes := p.streamEchoes.insert s e } down := by
  refine { h with streamEchoes := fun s' e' he' => ?_ }
  rcases lookup_of_insert he' with ⟨rfl, rfl⟩ | ⟨-, hold⟩
  · exact ⟨hcall, hbody⟩
  · exact h.streamEchoes s' e' hold

/-- The future of a call other than for a session is nobody's but its own. -/
theorem Books.free (h : Books policy calls p down) {w : Nat} {c : Call × Nat}
    (hc : calls[w]? = some c) (hother : ∀ authority path, c.1 ≠ .openWebtransport authority path) :
    Heard.terminated ∉ down → ∀ s w', p.sessions.lookup s = some w' → w' ≠ w := by
  rintro - s w' hw' rfl
  obtain ⟨⟨authority, path, hcall⟩, -⟩ := h.sessions s w' hw'
  rw [hc] at hcall
  cases hcall
  exact hother authority path rfl

/-- A stream with a response is not one of a session. -/
theorem Books.no_session (h : Books policy calls p down) (hnodup : (opened calls).Nodup) {s : Nat}
    {r : Request} (hr : p.requests.lookup s = some r) : p.sessions.lookup s = none := by
  cases hw : p.sessions.lookup s with
  | none => rfl
  | some w =>
    obtain ⟨⟨authority, path, hget⟩, -⟩ := h.requests s r hr
    obtain ⟨⟨authority', path', hopen⟩, -⟩ := h.sessions s w hw
    cases eq_of_opened hnodup hget hopen rfl rfl rfl

/-- A part of a response is read, and the last one settles the future. -/
theorem Books.receiveResponse {s : Nat} {r r' : Request} {x : Heard} (part : Segment Part)
    (hsound : policy.Sound) (hnodup : (opened calls).Nodup) (h : Books policy calls p down)
    (hp : Expected policy calls (down ++ [x])) (hr : p.requests.lookup s = some r)
    (hpart : partOf s x = some part) (hbytes : ∀ s', bytesOf s' x = none)
    (hothers : ∀ s', s' ≠ s → partOf s' x = none) (hwaiter : r'.waiter = r.waiter)
    (hread : readParts (content (parts down s) ++ part.1) = some (r'.status, r'.body)) :
    Books policy calls (p.receiveResponse s r' part.2) (down ++ [x]) := by
  obtain ⟨⟨authority, path, hcall⟩, -⟩ := h.requests s r hr
  have harrived : parts (down ++ [x]) s = parts down s ++ [part] := by
    rw [parts_append]
    simp [parts, hpart]
  have herased : Books policy calls { p with requests := p.requests.erase s } (down ++ [x]) := by
    refine (h.eraseRequest s).note ⟨fun s' r'' hr'' => ?_, fun s' w hw part' hpart' => ?_,
      fun s' _ _ => hbytes s'⟩
    · exact hothers s' (lookup_of_erase hr'').1
    · have hne : s' ≠ s := by
        rintro rfl
        rw [h.no_session hnodup hr] at hw
        cases hw
      rw [hothers s' hne] at hpart'
      cases hpart'
  have hread' : readParts (content (parts (down ++ [x]) s)) = some (r'.status, r'.body) := by
    rw [harrived, content_append, content_singleton, hread]
  rw [Protocol.receiveResponse]
  split
  · next hended =>
    have hmessages := hp.messages s
    rw [headers_of_get hnodup (List.mem_of_getElem? hcall), List.flatMap_singleton] at hmessages
    have hall := (hmessages.follows.ended (by rw [harrived]; simp [hended])).2
    rw [hall, hsound.get authority path] at hread'
    have hhealth := Option.some.inj hread'
    refine herased.settle (hwaiter ▸ hcall) ⟨authority, path, rfl, ?_, ?_⟩ (fun _ hs => by cases hs)
      (herased.free (hwaiter ▸ hcall) fun _ _ h => by cases h)
    · rw [hhealth]
    · rw [hhealth]
  · have hinserted := herased.insertRequest ⟨authority, path, hwaiter ▸ hcall⟩ hread'
    simp only [insert_erase] at hinserted
    exact hinserted

/-! ### Sessions, echoes and datagrams -/

theorem Books.receiveSession {s w : Nat} {headers : List Header} {ended : Bool}
    (hsound : policy.Sound) (hnodup : (opened calls).Nodup) (h : Books policy calls p down)
    (hopen : Heard.terminated ∉ down)
    (hp : Expected policy calls (down ++ [.http (.headers s headers ended)]))
    (hw : p.sessions.lookup s = some w) :
    (p.receiveSession s w headers).2 = none ∧ Books policy calls (p.receiveSession s w headers).1
      (down ++ [.http (.headers s headers ended)]) := by
  obtain ⟨⟨authority, path, hcall⟩, hnothing, hpending⟩ := h.sessions s w hw
  have harrived : content (parts (down ++ [.http (.headers s headers ended)]) s) =
      [.headers headers] := by
    rw [parts_append, content_append, hnothing]
    simp [parts, partOf]
  have herased : Books policy calls { p with sessions := p.sessions.erase s }
      (down ++ [.http (.headers s headers ended)]) := by
    refine (h.eraseSession s).note ⟨fun s' r hr => ?_, fun s' w' hw' part hpart => ?_, fun _ _ _ => rfl⟩
    · have hne : s ≠ s' := by
        rintro rfl
        rw [h.no_session hnodup hr] at hw
        cases hw
      simp [partOf, hne]
    · simp [partOf, (lookup_of_erase hw').1.symm] at hpart
  have hstatus : status headers = some (literal (if policy.accepts path then "200" else "404")) := by
    obtain ⟨headers', rest, hresponse, hstatus⟩ := hsound.connect authority path
    have hmessages := (hp.messages s).follows.content
    rw [harrived, headers_of_open hnodup (List.mem_of_getElem? hcall), List.flatMap_singleton, hresponse,
      List.cons_prefix_cons] at hmessages
    rw [Part.headers.inj hmessages.1, hstatus]
  have hown : ∀ s' w', (p.sessions.erase s).lookup s' = some w' → w' ≠ w := by
    rintro s' w' hw' rfl
    obtain ⟨hne, hold⟩ := lookup_of_erase hw'
    obtain ⟨⟨authority', path', hcall'⟩, -⟩ := h.sessions s' w' hold
    rw [hcall] at hcall'
    exact hne (congrArg Prod.snd (Option.some.inj hcall')).symm
  have hdone : Protocol.done { p with sessions := p.sessions.erase s } w = false := hpending hopen
  rw [Protocol.receiveSession]
  simp only [hdone, Bool.false_eq_true, if_false, hstatus]
  cases haccepts : policy.accepts path with
  | true =>
    refine ⟨rfl, herased.settle hcall ⟨rfl, authority, path, rfl, haccepts⟩ (fun s' hs' => ?_)
      fun _ => hown⟩
    cases hs'
    rw [harrived]
    exact List.cons_ne_nil _ _
  | false =>
    have hne : (some (literal "404") : Option Bytes) ≠ some (literal "200") := by decide
    simp only [Bool.false_eq_true, if_false, hne]
    exact ⟨trivial, herased.settle hcall ⟨rfl, authority, path, rfl, haccepts⟩
      (fun s' hs' => by cases hs') fun _ => hown⟩

theorem Books.receiveEcho {s : Nat} {e : Echo} {data : Bytes} {ended : Bool}
    (hnumbered : ∃ n, opened calls = (List.range n).map clientStream) (h : Books policy calls p down)
    (hp : Expected policy calls (down ++ [.bytes s data ended]))
    (he : p.streamEchoes.lookup s = some e) :
    Books policy calls (p.receiveEcho s e data ended) (down ++ [.bytes s data ended]) := by
  obtain ⟨⟨sessionId, payload, hcall⟩, hbody⟩ := h.streamEchoes s e he
  have hmem := List.mem_of_getElem? hcall
  have hnodup := opened_nodup hnumbered
  obtain ⟨k, hk⟩ := exists_clientStream hnumbered hmem rfl
  obtain rfl : s = clientStream k := hk
  have harrived : echoed (down ++ [.bytes (clientStream k) data ended]) (clientStream k) =
      echoed down (clientStream k) ++ [(data, ended)] := by
    rw [echoed_append]
    simp [echoed, bytesOf]
  have herased : Books policy calls { p with streamEchoes := p.streamEchoes.erase (clientStream k) }
      (down ++ [.bytes (clientStream k) data ended]) := by
    refine (h.eraseEcho (clientStream k)).note ⟨fun _ _ _ => rfl, fun _ _ _ part hpart => ?_,
      fun s' e' he' => ?_⟩
    · simp [partOf] at hpart
    · simp [bytesOf, (lookup_of_erase he').1.symm]
  rw [Protocol.receiveEcho]
  split
  · next hended =>
    obtain ⟨hheaders, hbytes⟩ := bytes_of_bidi hnodup hmem
    have hstream := hp.streams k hheaders
    rw [hbytes] at hstream
    have hall := (hstream.follows.ended (by rw [harrived]; simp [hended])).2
    rw [harrived, content_append, content_singleton, content_singleton, ← hbody] at hall
    refine herased.settle hcall (Or.inl ⟨sessionId, ?_⟩) (fun _ hs => by cases hs)
      (herased.free hcall fun _ _ h => by cases h)
    exact congrArg (Call.bidiEcho sessionId) hall.symm
  · have hinserted := herased.insertEcho (s := clientStream k) (e := ⟨e.body ++ data, e.waiter⟩)
      ⟨sessionId, payload, hcall⟩ (by rw [harrived, content_append, content_singleton, ← hbody])
    simp only [insert_erase] at hinserted
    exact hinserted

theorem Books.receiveDatagram {s w : Nat} {data : Bytes} (h : Books policy calls p down)
    (hp : Expected policy calls (down ++ [.http (.datagram s data)]))
    (hw : p.datagramEchoes.lookup s = some w) :
    Books policy calls (Protocol.settle { p with datagramEchoes := p.datagramEchoes.erase s } w
      (.echo data)) (down ++ [.http (.datagram s data)]) := by
  obtain ⟨session, payload, hcall⟩ := h.datagramEchoes s w hw
  have hsent := mem_sends_datagram (hp.datagrams s data (by simp))
  have herased : Books policy calls { p with datagramEchoes := p.datagramEchoes.erase s }
      (down ++ [.http (.datagram s data)]) :=
    (h.eraseDatagram s).note
      ⟨fun _ _ _ => rfl, fun _ _ _ _ hpart => (by cases hpart), fun _ _ _ => rfl⟩
  obtain ⟨session', hsent⟩ := hsent
  exact herased.settle hcall (Or.inr ⟨session, session', payload, rfl, hsent⟩)
    (fun _ hs => by cases hs) (herased.free hcall fun _ _ h => by cases h)

/-! ### Events -/

theorem readParts_append (front back : List Part) :
    readParts (front ++ back) = (readParts front).bind fun response => back.foldlM readPart response := by
  rw [readParts, List.foldlM_append]
  rfl

theorem readPart_bytes (response : Option Int × Bytes) : ∀ data : Bytes,
    (data.map Part.byte).foldlM readPart response = some (response.1, response.2 ++ data)
  | [] => by simp
  | b :: data => by
    rw [List.map_cons, List.foldlM_cons]
    have hrest := readPart_bytes (response.1, response.2 ++ [b]) data
    simpa [readPart] using hrest

/-- The front of a response can be read. -/
theorem readParts_front {front whole : List Part} (h : front <+: whole)
    (hread : (readParts whole).isSome = true) : (readParts front).isSome = true := by
  obtain ⟨back, rfl⟩ := h
  rw [readParts_append] at hread
  exact Option.isSome_of_isSome_bind hread

/-- No echo comes on a stream of the server. -/
theorem Books.not_foreign (hnumbered : ∃ n, opened calls = (List.range n).map clientStream)
    (h : Books policy calls p down) {s : Nat} (hs : isServerInitiated s = true) :
    p.streamEchoes.lookup s = none := by
  cases he : p.streamEchoes.lookup s with
  | none => rfl
  | some e =>
    obtain ⟨⟨sessionId, payload, hcall⟩, -⟩ := h.streamEchoes s e he
    obtain ⟨k, hk⟩ := exists_clientStream hnumbered (List.mem_of_getElem? hcall) rfl
    obtain rfl : s = clientStream k := hk
    rw [isServerInitiated, clientStream, decide_eq_true_eq] at hs
    omega

/-- An HTTP event raises nothing. -/
theorem Books.httpEvent (hsound : policy.Sound)
    (hnumbered : ∃ n, opened calls = (List.range n).map clientStream) {e : HttpEvent}
    (h : Books policy calls p down) (hopen : Heard.terminated ∉ down)
    (hp : Expected policy calls (down ++ [.http e])) :
    (handleHttpEvent p e).2 = none ∧ Books policy calls (handleHttpEvent p e).1 (down ++ [.http e]) := by
  have hnodup := opened_nodup hnumbered
  cases e with
  | datagram s data =>
    rw [handleHttpEvent]
    cases hw : p.datagramEchoes.lookup s with
    | none =>
      exact ⟨rfl, h.note ⟨fun _ _ _ => rfl, fun _ _ _ _ hpart => (by cases hpart), fun _ _ _ => rfl⟩⟩
    | some w => exact ⟨rfl, h.receiveDatagram hp hw⟩
  | webtransportData s data ended =>
    rw [handleHttpEvent]
    cases he : p.streamEchoes.lookup s with
    | none =>
      exact ⟨rfl, h.note ⟨fun _ _ _ => rfl, fun _ _ _ _ hpart => (by cases hpart), fun _ _ _ => rfl⟩⟩
    | some e =>
      rw [h.not_foreign hnumbered (hp.foreign s data ended (by simp))] at he
      cases he
  | data s data ended =>
    rw [handleHttpEvent]
    cases hr : p.requests.lookup s with
    | none =>
      refine ⟨rfl, h.note ⟨fun s' r hr' => ?_, fun s' w hw part hpart => ?_, fun _ _ _ => rfl⟩⟩
      · have hne : s ≠ s' := by
          rintro rfl
          rw [hr] at hr'
          cases hr'
        simp [partOf, hne]
      · -- a session's response begins with its headers
        rw [partOf, Option.mem_def, Option.ite_none_right_eq_some] at hpart
        obtain ⟨rfl, hpart⟩ := hpart
        obtain ⟨⟨authority, path, hcall⟩, hnothing, -⟩ := h.sessions s w hw
        obtain ⟨headers, rest, hresponse, -⟩ := hsound.connect authority path
        have hmessages := (hp.messages s).follows.content
        rw [parts_append, content_append, hnothing, List.nil_append,
          headers_of_open hnodup (List.mem_of_getElem? hcall), List.flatMap_singleton,
          hresponse] at hmessages
        cases hpart
        cases data with
        | nil => rfl
        | cons b data => simp [parts, partOf] at hmessages
    | some r =>
      have hread : readParts (content (parts down s) ++ data.map .byte) =
          some (r.status, r.body ++ data) := by
        rw [readParts_append, (h.requests s r hr).2, Option.bind_some, readPart_bytes]
      exact ⟨rfl, h.receiveResponse (data.map .byte, ended) hsound hnodup hp hr
        (by simp [partOf]) (fun _ => rfl) (fun s' hs' => by simp [partOf, hs'.symm]) rfl hread⟩
  | headers s headers ended =>
    rw [handleHttpEvent]
    cases hw : p.sessions.lookup s with
    | some w => exact h.receiveSession hsound hnodup hopen hp hw
    | none =>
      cases hr : p.requests.lookup s with
      | none =>
        refine ⟨rfl, h.note ⟨fun s' r hr' => ?_, fun s' w hw' part hpart => ?_, fun _ _ _ => rfl⟩⟩
        · have hne : s ≠ s' := by
            rintro rfl
            rw [hr] at hr'
            cases hr'
          simp [partOf, hne]
        · have hne : s ≠ s' := by
            rintro rfl
            rw [hw] at hw'
            cases hw'
          simp [partOf, hne] at hpart
      | some r =>
        obtain ⟨⟨authority, path, hcall⟩, hbefore⟩ := h.requests s r hr
        have hreadable : (readParts (content (parts down s) ++ [.headers headers])).isSome = true := by
          have hmessages := (hp.messages s).follows.content
          rw [headers_of_get hnodup (List.mem_of_getElem? hcall), List.flatMap_singleton, parts_append,
            content_append] at hmessages
          have hone : content (parts [.http (.headers s headers ended)] s) = [.headers headers] := by
            simp [parts, partOf]
          rw [hone] at hmessages
          exact readParts_front hmessages (by rw [hsound.get authority path]; rfl)
        rw [readParts_append, hbefore, Option.bind_some, List.foldlM_cons, readPart] at hreadable
        have hreceive (r' : Request) (hwaiter : r'.waiter = r.waiter)
            (hread : readPart (r.status, r.body) (.headers headers) = some (r'.status, r'.body)) :
            Books policy calls (p.receiveResponse s r' ended)
              (down ++ [.http (.headers s headers ended)]) := by
          refine h.receiveResponse ([.headers headers], ended) hsound hnodup hp hr
            (by simp [partOf]) (fun _ => rfl) (fun s' hs' => by simp [partOf, hs'.symm]) hwaiter ?_
          rw [readParts_append, hbefore, Option.bind_some, List.foldlM_cons, hread]
          rfl
        cases hstatus : status headers with
        | none => exact ⟨rfl, hreceive _ rfl (by rw [readPart, hstatus])⟩
        | some text =>
          cases hint : int text with
          | none =>
            rw [hstatus] at hreadable
            simp [hint] at hreadable
          | some n =>
            have hnext := hreceive ⟨r.body, some n, r.waiter⟩ rfl (by simp [readPart, hstatus, hint])
            simp only [hint]
            exact ⟨trivial, hnext⟩

/-- So none of them is lost. -/
theorem Books.httpEvents (hsound : policy.Sound)
    (hnumbered : ∃ n, opened calls = (List.range n).map clientStream) : ∀ {http : List HttpEvent}
    {p : Protocol} {down : List Heard}, Books policy calls p down → Heard.terminated ∉ down →
    Expected policy calls (down ++ http.map .http) →
    Books policy calls (handleHttpEvents p http) (down ++ http.map .http)
  | [], p, down, h, _, _ => by
    rw [List.map_nil, List.append_nil, handleHttpEvents]
    exact h
  | e :: http, p, down, h, hopen, hp => by
    rw [List.map_cons, List.append_cons] at hp ⊢
    obtain ⟨hraised, hnext⟩ := h.httpEvent hsound hnumbered hopen hp.front
    have hevents := hnext.httpEvents hsound hnumbered (by simpa using hopen) hp
    rw [handleHttpEvents]
    generalize handleHttpEvent p e = handled at hraised hevents
    obtain ⟨p', raised⟩ := handled
    obtain rfl : raised = none := hraised
    exact hevents

/-- The end of the connection settles what is still waited for. -/
theorem Books.terminate (hnow : Heard.terminated ∈ down) (errorCode : Nat) (reasonPhrase : String) :
    ∀ {ws : List Nat} {p : Protocol}, Books policy calls p down → (∀ w ∈ ws, w < calls.length) →
      Books policy calls (ws.foldl (fun p w => p.settle w (.closed errorCode reasonPhrase)) p) down
  | [], _, h, _ => h
  | w :: ws, p, h, hws => by
    obtain ⟨c, hc⟩ : ∃ c, calls[w]? = some c :=
      ⟨_, List.getElem?_eq_getElem (hws w List.mem_cons_self)⟩
    rw [List.foldl_cons]
    have hsettled := h.settle (o := .closed errorCode reasonPhrase) hc trivial (fun _ hs => by cases hs)
      fun hopen => absurd hnow hopen
    exact Books.terminate hnow errorCode reasonPhrase hsettled
      fun w' hw' => hws w' (List.mem_cons_of_mem _ hw')

theorem Books.awaited (h : Books policy calls p down) : ∀ w ∈ p.awaited, w < calls.length := by
  have hcalled {w : Nat} {c : Call × Nat} (hc : calls[w]? = some c) : w < calls.length :=
    (List.getElem?_eq_some_iff.mp hc).1
  intro w hw
  simp only [Protocol.awaited, List.mem_append, List.mem_map] at hw
  rcases hw with ((⟨e, he, rfl⟩ | ⟨e, he, rfl⟩) | ⟨e, he, rfl⟩) | ⟨e, he, rfl⟩
  · obtain ⟨⟨_, _, hc⟩, -⟩ := h.requests e.1 e.2 (AList.mem_lookup_iff.mpr he)
    exact hcalled hc
  · obtain ⟨⟨_, _, hc⟩, -⟩ := h.sessions e.1 e.2 (AList.mem_lookup_iff.mpr he)
    exact hcalled hc
  · obtain ⟨⟨_, _, hc⟩, -⟩ := h.streamEchoes e.1 e.2 (AList.mem_lookup_iff.mpr he)
    exact hcalled hc
  · obtain ⟨_, _, hc⟩ := h.datagramEchoes e.1 e.2 (AList.mem_lookup_iff.mpr he)
    exact hcalled hc

/-- Bytes on a stream whose echo is not waited for. -/
theorem Books.unheard (h : Books policy calls p down) {s : Nat} (data : Bytes) (ended : Bool)
    (he : p.streamEchoes.lookup s = none) : Books policy calls p (down ++ [.bytes s data ended]) := by
  refine h.note ⟨fun _ _ _ => rfl, fun _ _ _ _ hpart => (by cases hpart), fun s' e he' => ?_⟩
  have hne : s ≠ s' := by
    rintro rfl
    rw [he] at he'
    cases he'
  simp [bytesOf, hne]

/-- Every event that can arrive keeps the books. -/
theorem Books.event {e : Event} (hsound : policy.Sound)
    (hnumbered : ∃ n, opened calls = (List.range n).map clientStream)
    (h : Books policy calls p down) (hopen : Heard.terminated ∉ down)
    (hp : Expected policy calls (down ++ e.heard)) (hasked : e.Unasked (sends calls)) :
    Books policy calls (quicEventReceived p e) (down ++ e.heard) := by
  cases e with
  | other http => exact h.httpEvents hsound hnumbered hopen hp
  | terminated errorCode reasonPhrase =>
    have hnoted : Books policy calls p (down ++ [.terminated]) :=
      h.note ⟨fun _ _ _ => rfl, fun _ _ _ _ hpart => (by cases hpart), fun _ _ _ => rfl⟩
    exact Books.terminate (by simp [Event.heard]) errorCode reasonPhrase hnoted hnoted.awaited
  | streamData s data ended http =>
    rw [Event.heard, List.append_cons] at hp ⊢
    rw [quicEventReceived]
    cases he : p.streamEchoes.lookup s with
    | some e =>
      obtain ⟨⟨sessionId, payload, hcall⟩, -⟩ := h.streamEchoes s e he
      rw [hasked sessionId (createStream_mem (List.mem_of_getElem? hcall)), List.map_nil,
        List.append_nil] at hp ⊢
      exact h.receiveEcho hnumbered hp he
    | none => exact (h.unheard _ _ he).httpEvents hsound hnumbered (by simpa using hopen) hp

/-! ### Calls -/

/-- Nothing is sent on a stream before it is opened. -/
theorem sends_fresh {α : Type} {n : Nat} {f : Effect → Option α}
    (hnumbered : opened calls = (List.range n).map clientStream)
    (hf : ∀ c : Call × Nat, ¬ (c.1.opens = true ∧ c.2 = clientStream n) →
      (c.1.sends c.2).filterMap f = []) : (sends calls).filterMap f = [] := by
  rw [sends, List.filterMap_flatMap]
  refine List.flatMap_eq_nil_iff.mpr fun c hc => hf c ?_
  rintro ⟨hopens, htarget⟩
  have hopened : c.2 ∈ opened calls := List.mem_map.mpr ⟨c, List.mem_filter.mpr ⟨hc, hopens⟩, rfl⟩
  rw [hnumbered, htarget] at hopened
  obtain ⟨k, hk, heq⟩ := List.mem_map.mp hopened
  rw [clientStream_injective heq, List.mem_range] at hk
  omega

/-- What is sent on a stream grows only while the stream is new. -/
theorem sends_call {α : Type} {s : Nat} {f : Effect → Option α}
    (hnumbered : opened calls = (List.range p.opened).map clientStream)
    (hf : ∀ c : Call × Nat, ¬ (c.1.opens = true ∧ c.2 = s) → (c.1.sends c.2).filterMap f = [])
    (c : Call) : (sends calls).filterMap f = [] ∨
      (sends (calls ++ [(c, p.target c)])).filterMap f = (sends calls).filterMap f := by
  by_cases hown : c.opens = true ∧ p.target c = s
  · obtain ⟨hopens, rfl⟩ := hown
    have htarget : p.target c = clientStream p.opened := by
      cases c with
      | datagramEcho => cases hopens
      | get | openWebtransport | bidiEcho => rfl
    rw [htarget] at hf
    exact Or.inl (sends_fresh hnumbered hf)
  · refine Or.inr ?_
    rw [sends_append, List.filterMap_append, sends_singleton, hf _ hown, List.append_nil]

/-- A stream has one request or none. -/
theorem sentHeaders_cases (hnodup : (opened calls).Nodup) (s : Nat) :
    (sends calls).filterMap (sentHeaders s) = [] ∨
      ∃ headers, (sends calls).filterMap (sentHeaders s) = [headers] := by
  by_cases h : ∃ c ∈ calls, c.1.opens = true ∧ c.2 = s
  · obtain ⟨⟨c, s'⟩, hc, hopens, rfl⟩ := h
    cases c with
    | get authority path => exact Or.inr ⟨_, headers_of_get hnodup hc⟩
    | openWebtransport authority path => exact Or.inr ⟨_, headers_of_open hnodup hc⟩
    | bidiEcho sessionId payload => exact Or.inl (bytes_of_bidi hnodup hc).1
    | datagramEcho => cases hopens
  · refine Or.inl ?_
    rw [sends, List.filterMap_flatMap]
    exact List.flatMap_eq_nil_iff.mpr fun c hc => sentHeaders_other c fun hown => h ⟨c, hc, hown⟩

theorem opened_snoc (c : Call × Nat) :
    opened (calls ++ [c]) = opened calls ++ if c.1.opens then [c.2] else [] := by
  rw [opened, List.filter_append, List.map_append, ← opened]
  cases h : c.1.opens <;> simp [h]

theorem effects_call (c : Call) : (p.call c).effects = p.effects ++ c.sends (p.target c) := by
  cases c <;> rfl

theorem waiters_call (c : Call) : (p.call c).waiters = p.waiters ++ [none] := by
  cases c <;> rfl

theorem numbered_call (hnumbered : opened calls = (List.range p.opened).map clientStream) (c : Call) :
    opened (calls ++ [(c, p.target c)]) = (List.range (p.call c).opened).map clientStream := by
  rw [opened_snoc, hnumbered]
  cases c with
  | datagramEcho sessionId payload => exact List.append_nil _
  | get | openWebtransport | bidiEcho =>
    simp only [Call.opens, if_true, Protocol.call, Protocol.get, Protocol.openWebtransport,
      Protocol.bidiEcho, Protocol.await, Protocol.target, List.range_succ, List.map_append,
      List.map_singleton]

theorem Answers.mono {c : Call × Nat} {o : Outcome} (h : Answers policy calls c o) (d : Call × Nat) :
    Answers policy (calls ++ [d]) c o := by
  cases o with
  | echo data =>
    rcases h with hstream | ⟨session, session', payload, hc, hsent⟩
    · exact Or.inl hstream
    · exact Or.inr ⟨session, session', payload, hc, List.mem_append_left _ hsent⟩
  | response | session | refused | closed => exact h

/-- A call that has no entry yet. -/
theorem Books.extend (h : Books policy calls p down) (d : Call × Nat) (n : Nat)
    (effects : List Effect) :
    Books policy (calls ++ [d]) { p with waiters := p.waiters ++ [none], opened := n, effects } down := by
  have hold {w : Nat} {c : Call × Nat} (hc : calls[w]? = some c) : (calls ++ [d])[w]? = some c := by
    rw [List.getElem?_append_left (List.getElem?_eq_some_iff.mp hc).1, hc]
  refine ⟨by simp [h.length], fun s r hr => ?_, fun s w hw => ?_, fun s e he => ?_, fun s w hw => ?_,
    fun w o ho => ?_, fun s hs => ?_⟩
  · obtain ⟨⟨authority, path, hcall⟩, hread⟩ := h.requests s r hr
    exact ⟨⟨authority, path, hold hcall⟩, hread⟩
  · obtain ⟨⟨authority, path, hcall⟩, hnothing, hpending⟩ := h.sessions s w hw
    refine ⟨⟨authority, path, hold hcall⟩, hnothing, fun hopen => ?_⟩
    have hlt : w < p.waiters.length := h.length ▸ (List.getElem?_eq_some_iff.mp hcall).1
    rw [Protocol.done, List.getElem?_append_left hlt]
    exact hpending hopen
  · obtain ⟨⟨sessionId, payload, hcall⟩, hbody⟩ := h.streamEchoes s e he
    exact ⟨⟨sessionId, payload, hold hcall⟩, hbody⟩
  · obtain ⟨session, payload, hcall⟩ := h.datagramEchoes s w hw
    exact ⟨session, payload, hold hcall⟩
  · have hsettled : p.waiters[w]? = some (some o) := by
      rcases Nat.lt_or_ge w p.waiters.length with hlt | hge
      · rwa [List.getElem?_append_left hlt] at ho
      · rw [List.getElem?_append_right hge] at ho
        cases hindex : w - p.waiters.length <;> simp [hindex] at ho
    obtain ⟨c, hc, hanswers⟩ := h.settled w o hsettled
    exact ⟨c, hold hc, hanswers.mono d⟩
  · exact h.accepted s (by simpa using hs)

/-- A call adds its own entry. -/
theorem Books.call (hnumbered : opened calls = (List.range p.opened).map clientStream)
    (h : Books policy calls p down) (hp : Expected policy calls down) (c : Call) :
    Books policy (calls ++ [(c, p.target c)]) (p.call c) down := by
  have hnew : (calls ++ [(c, p.target c)])[p.waiters.length]? = some (c, p.target c) := by
    rw [h.length, List.getElem?_concat_length]
  have hempty : content (parts down (clientStream p.opened)) = [] := by
    have hmessages := hp.messages (clientStream p.opened)
    rw [sends_fresh hnumbered sentHeaders_other] at hmessages
    exact List.prefix_nil.mp hmessages.follows.content
  have hextended := h.extend (c, p.target c) (p.call c).opened (p.call c).effects
  cases c with
  | get authority path =>
    exact hextended.insertRequest (s := clientStream p.opened) (r := ⟨[], none, p.waiters.length⟩)
      ⟨authority, path, hnew⟩ (by rw [hempty]; rfl)
  | openWebtransport authority path =>
    refine { hextended with sessions := fun s w hw => ?_ }
    rcases lookup_of_insert hw with ⟨rfl, rfl⟩ | ⟨-, hold⟩
    · refine ⟨⟨authority, path, hnew⟩, hempty, fun _ => ?_⟩
      rw [Protocol.done, waiters_call, List.getElem?_concat_length]
      rfl
    · exact hextended.sessions s w hold
  | bidiEcho sessionId payload =>
    have hquiet : content (echoed down (clientStream p.opened)) = [] := by
      have hstream := hp.streams p.opened (sends_fresh hnumbered sentHeaders_other)
      rw [sends_fresh hnumbered sentBytes_other] at hstream
      exact List.prefix_nil.mp hstream.follows.content
    exact hextended.insertEcho (s := clientStream p.opened) (e := ⟨[], p.waiters.length⟩)
      ⟨sessionId, payload, hnew⟩ hquiet.symm
  | datagramEcho sessionId payload =>
    refine { hextended with datagramEchoes := fun s w hw => ?_ }
    rcases lookup_of_insert hw with ⟨rfl, rfl⟩ | ⟨-, hold⟩
    · exact ⟨_, _, hnew⟩
    · exact hextended.datagramEchoes s w hold

end Books

end WebTransportEcho.Health
