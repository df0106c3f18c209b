import WebTransportEcho.Server.RateLimit

/-! What becomes of the submissions to a running server. Whatever else is submitted in between, a call
    of `record` that has settled has recorded what its own submission was accepted as, or was failed
    by the clock or the files, or its submission is one that the store refuses at any time. -/

namespace WebTransportEcho.Server
open Js Store

variable {config : Config}

/-- One response with a head of this status and this text. -/
def Responds (status : Nat) (text : String) (x : Exchange) : Prop :=
  ∃ headers, x.writes = [.head status headers, .finish (.text text)]

theorem Responds.written {status status' : Nat} {text text' : String} {headers : Headers} {x : Exchange}
    (h : Responds status text x) (hwrites : x.writes = [.head status' headers, .finish (.text text')]) :
    status' = status ∧ text' = text := by
  obtain ⟨headers', h⟩ := h
  rw [h] at hwrites
  simp only [List.cons.injEq, Write.head.injEq, Write.finish.injEq, Content.text.injEq] at hwrites
  obtain ⟨⟨hstatus, -⟩, htext, -⟩ := hwrites
  exact ⟨hstatus.symm, htext.symm⟩

/-! ### The calls of a store -/

/-- The environment has failed a call with this error. -/
def Failure (events : List (Serial.Event (recordProcedure config))) (e : Error) : Prop :=
  (∃ n, .start n (.error e) ∈ events) ∨ ∃ n temporary, .resume n (.failed e temporary) ∈ events

/-- The submission was accepted at a time that the clock has shown, and this is what its call has
    resolved to. -/
def RecordedAs (events : List (Serial.Event (recordProcedure config))) (input : Json)
    (r : Recorded) : Prop :=
  ∃ s, Except.ok r.receivedAt ∈ Serial.started events ∧
    sanitizeSubmission input r.receivedAt config.requireGrease = .ok s ∧
    r.browserKey = s.browser.family.key

/-- How a call may go. -/
def Goes (events : List (Serial.Event (recordProcedure config))) :
    Serial.Call Json Frame (Except Error Recorded) → Prop
  | .waiting _ => True
  | .running input f => RecordedAs events input f.result
  | .settled input (.ok r) => RecordedAs events input r
  | .settled input (.error e) => Failure events e ∨
    ∃ receivedAt, sanitizeSubmission input receivedAt config.requireGrease = .error e

section Goes

variable {events : List (Serial.Event (recordProcedure config))}
  {e : Serial.Event (recordProcedure config)}

theorem Failure.snoc {error : Error} (h : Failure events error) : Failure (events ++ [e]) error := by
  rcases h with ⟨n, hn⟩ | ⟨n, temporary, hn⟩
  · exact .inl ⟨n, List.mem_append_left _ hn⟩
  · exact .inr ⟨n, temporary, List.mem_append_left _ hn⟩

theorem RecordedAs.snoc {input : Json} {r : Recorded} (h : RecordedAs events input r) :
    RecordedAs (events ++ [e]) input r := by
  obtain ⟨s, hclock, hs⟩ := h
  obtain ⟨e', he', heq⟩ := List.mem_filterMap.mp hclock
  exact ⟨s, List.mem_filterMap.mpr ⟨e', List.mem_append_left _ he', heq⟩, hs⟩

theorem Goes.snoc {c : Serial.Call Json Frame (Except Error Recorded)} (h : Goes events c) :
    Goes (events ++ [e]) c := by
  match c, h with
  | .waiting _, _ => trivial
  | .running _ _, h => exact RecordedAs.snoc h
  | .settled _ (.ok _), h => exact RecordedAs.snoc h
  | .settled _ (.error _), h => exact h.imp Failure.snoc id

/-- What `record` computes on a state that stands for an archive is what the submission was accepted
    as. -/
theorem prepare_cases (a : Archive) (input : Json) (receivedAt : String) :
    (∃ e, prepare config (a.toState config.maxChanges) input receivedAt = .error e ∧
      sanitizeSubmission input receivedAt config.requireGrease = .error e) ∨
    ∃ s next r, prepare config (a.toState config.maxChanges) input receivedAt = .ok (next, r) ∧
      sanitizeSubmission input receivedAt config.requireGrease = .ok s ∧
      r.browserKey = s.browser.family.key ∧ r.receivedAt = receivedAt := by
  cases hs : sanitizeSubmission input receivedAt config.requireGrease with
  | error e => exact .inl ⟨e, prepare_error hs _, rfl⟩
  | ok current =>
    obtain ⟨hat, haccepted⟩ := sanitizeSubmission_eq_ok.mp hs
    exact .inr ⟨current, _, _, prepare_toState (s := ⟨current, haccepted.wellFormed⟩) hs a, rfl, rfl, hat⟩

theorem start_error {s : Shared} {input : Json} {receivedAt : String} {e : Error}
    (h : prepare config s.state input receivedAt = .error e) :
    ((recordProcedure config).start input (.ok receivedAt) s).2 = .inr (.error e) := by
  simp only [recordProcedure, h]

theorem start_ok {s : Shared} {input : Json} {receivedAt : String} {next : StoreState} {r : Recorded}
    (h : prepare config s.state input receivedAt = .ok (next, r)) :
    ((recordProcedure config).start input (.ok receivedAt) s).2 =
      .inl { step := .mkdir, next, result := r } := by
  simp only [recordProcedure, h]

theorem goes_start (a : Archive) {s : Shared} (hstate : s.state = a.toState config.maxChanges) (n : Nat)
    (input : Json) (clock : Except Error String) : Goes (events ++ [.start n clock])
      (.after input ((recordProcedure config).start input clock s).2) := by
  have hmem : Serial.Event.start (p := recordProcedure config) n clock ∈ events ++ [.start n clock] := by
    simp
  cases clock with
  | error e => exact .inl (.inl ⟨n, hmem⟩)
  | ok receivedAt =>
    rcases prepare_cases a input receivedAt with ⟨e, hp, he⟩ | ⟨current, next, r, hp, hs, hkey, rfl⟩
    · rw [← hstate] at hp
      rw [start_error hp]
      exact .inr ⟨receivedAt, he⟩
    · rw [← hstate] at hp
      rw [start_ok hp]
      exact ⟨current, List.mem_filterMap.mpr ⟨_, hmem, rfl⟩, hs, hkey⟩

theorem goes_resume {input : Json} {f : Frame} (h : RecordedAs events input f.result) (s : Shared)
    (n : Nat) (answer : Store.Answer) : Goes (events ++ [.resume n answer])
      (.after input ((recordProcedure config).resume f answer s).2) := by
  have hgoes : RecordedAs (events ++ [.resume n answer]) input f.result := h.snoc
  obtain ⟨step, next, result⟩ := f
  have hfailed (e : Error) (temporary : Option String) (heq : answer = .failed e temporary) :
      Goes (events ++ [.resume n answer]) (.settled input (.error e)) := by
    subst heq
    exact .inl (.inr ⟨n, temporary, by simp⟩)
  cases step with
  | mkdir | write | rename =>
    cases answer with
    | done => exact hgoes
    | failed e temporary => exact hfailed e temporary rfl
  | assign => cases answer <;> exact hgoes

end Goes

/-- Every call of a store that stands for an archive goes so. -/
theorem store_goes (config : Config) (a : Archive) (file temporary : Option String)
    (events : List (Serial.Event (recordProcedure config))) : ∀ c ∈ (runStore config
      (a.toState config.maxChanges) file temporary events).calls, Goes events c := by
  induction events using List.reverseRecOn with
  | nil => intro c hc; cases hc
  | append_singleton events e ih =>
    intro c hc
    obtain ⟨n, hn⟩ := List.mem_iff_getElem?.mp hc
    rw [runStore, Serial.run, List.foldl_append] at hn
    rcases Serial.step_call_of e hn with hold | ⟨input, rfl⟩ | ⟨input, clock, rfl, rfl⟩ |
      ⟨input, f, answer, rfl, hf, rfl⟩
    · exact (ih c (List.mem_of_getElem? hold)).snoc
    · trivial
    · obtain ⟨calls, stored, h⟩ := run_sequential config a file temporary events
      have hstate := h.state
      rw [h.archive] at hstate
      exact goes_start _ hstate n input clock
    · exact goes_resume (ih _ (List.mem_of_getElem? hf)) _ n answer

/-! ### The queue of a running server -/

/-- The clock or the files have failed with this error. -/
def Fails (events : List Event) (e : Error) : Prop :=
  (∃ n, .start n (.error e) ∈ events) ∨ ∃ n temporary, .resume n (.failed e temporary) ∈ events

/-- An event of the queue that an event of the server has brought about. -/
def FromServer (events : List Event) : Serial.Event (recordProcedure config) → Prop
  | .issue _ => True
  | .start n clock => .start n clock ∈ events
  | .resume n answer => .resume n answer ∈ events

theorem FromServer.snoc {events : List Event} {q : Serial.Event (recordProcedure config)}
    (h : FromServer events q) (e : Event) : FromServer (events ++ [e]) q := by
  cases q with
  | issue input => trivial
  | start n clock => exact List.mem_append_left _ h
  | resume n answer => exact List.mem_append_left _ h

/-- What an event of the server does to the queue. -/
theorem step_queue (s : Accepting config) (e : Event) : (step s e).queue = s.queue ∨
    ∃ q, (step s e).queue = Serial.step s.queue q ∧ FromServer [e] q := by
  cases e with
  | post input now =>
    rw [step, Accepting.post]
    split
    · exact .inl rfl
    · split
      · exact .inl rfl
      · exact .inr ⟨.issue input, rfl, trivial⟩
  | start n clock => exact .inr ⟨.start n clock, rfl, List.mem_singleton_self _⟩
  | resume n answer => exact .inr ⟨.resume n answer, rfl, List.mem_singleton_self _⟩
  | answer =>
    rw [step, Accepting.answer]
    split <;> exact .inl rfl

theorem run_snoc (store : Shared) (events : List Event) (e : Event) :
    (run store (events ++ [e]) : Accepting config) = step (run store events) e := List.foldl_concat ..

/-- The queue of a server's run is that of a run of its store. -/
theorem run_queue (store : Shared) (events : List Event) :
    ∃ queued, (run store events : Accepting config).queue = Serial.run (recordProcedure config) store queued ∧
      ∀ q ∈ queued, FromServer events q := by
  induction events using List.reverseRecOn with
  | nil => exact ⟨[], rfl, fun q hq => by cases hq⟩
  | append_singleton events e ih =>
    obtain ⟨queued, hqueue, hfrom⟩ := ih
    rw [run_snoc]
    rcases step_queue (run store events : Accepting config) e with hsame | ⟨q, hstep, hq⟩
    · exact ⟨queued, hsame.trans hqueue, fun q hq => (hfrom q hq).snoc e⟩
    · refine ⟨queued ++ [q], ?_, fun q' hq' => ?_⟩
      · rw [hstep, hqueue, Serial.run, Serial.run, List.foldl_append]
        rfl
      · rcases List.mem_append.mp hq' with hold | hnew
        · exact (hfrom q' hold).snoc e
        · rw [List.mem_singleton.mp hnew]
          cases q with
          | issue input => trivial
          | start n clock => exact List.mem_append_right _ hq
          | resume n answer => exact List.mem_append_right _ hq

/-- A call keeps its number and its input. -/
theorem run_input (store : Shared) (before after : List Event) {n : Nat}
    {c : Serial.Call Json Frame (Except Error Recorded)}
    (hc : (run store before : Accepting config).queue.calls[n]? = some c) :
    ∃ c', (run store (before ++ after) : Accepting config).queue.calls[n]? = some c' ∧
      c'.input = c.input := by
  induction after using List.reverseRecOn with
  | nil => exact ⟨c, by rwa [List.append_nil], rfl⟩
  | append_singleton after e ih =>
    obtain ⟨c', hc', hinput⟩ := ih
    rw [← List.append_assoc, run_snoc]
    rcases step_queue (run store (before ++ after) : Accepting config) e with hsame | ⟨q, hstep, -⟩
    · exact ⟨c', by rw [hsame, hc'], hinput⟩
    · have hlater : ((Serial.step (run store (before ++ after) : Accepting config).queue q).calls.map
          Serial.Call.input)[n]? = some c'.input := by
        rw [Serial.step_inputs, List.getElem?_append_left, List.getElem?_map, hc']
        · rfl
        · rw [List.length_map]
          exact (List.getElem?_eq_some_iff.mp hc').1
      rw [List.getElem?_map] at hlater
      obtain ⟨c'', hc'', heq⟩ := Option.map_eq_some_iff.mp hlater
      exact ⟨c'', by rw [hstep, hc''], heq.trans hinput⟩

/-- A body passes the limit at this moment. -/
def Accepting.Passes (s : Accepting config) (input : Json) (now : Nat) : Prop :=
  ∃ key, browserKeyForSubmission input = .ok key ∧ rateLimited (s.lastSubmissionAt key) now = false

/-- A server that has started with a store that stands for an archive. -/
def serve (config : Config) (a : Archive) (file temporary : Option String) (events : List Event) :
    Accepting config :=
  run ⟨⟨a.toState config.maxChanges, file⟩, temporary⟩ events

/-- What passed the limit and has settled was recorded, or was failed by the clock or the files, or is
    refused by the store at some time. -/
theorem submission_settles (config : Config) (a : Archive) (file temporary : Option String)
    (before after : List Event) (input : Json) (now : Nat)
    (hpasses : (serve config a file temporary before).Passes input now) {i : Json}
    {r : Except Error Recorded}
    (hsettled : (serve config a file temporary (before ++ .post input now :: after)).queue.calls[
      (serve config a file temporary before).queue.calls.length]? = some (.settled i r)) :
    (∃ recorded s, r = .ok recorded ∧
      sanitizeSubmission input recorded.receivedAt config.requireGrease = .ok s ∧
      recorded.browserKey = s.browser.family.key) ∨
    ∃ e, r = .error e ∧ (Fails (before ++ .post input now :: after) e ∨
      ∃ receivedAt, sanitizeSubmission input receivedAt config.requireGrease = .error e) := by
  obtain ⟨key, hkey, hlimit⟩ := hpasses
  obtain ⟨queued, hqueue, hfrom⟩ := @run_queue config
    ⟨⟨a.toState config.maxChanges, file⟩, temporary⟩ (before ++ .post input now :: after)
  have hgoes : Goes queued (.settled i r) := by
    refine store_goes config a file temporary queued _ ?_
    rw [runStore, ← hqueue]
    exact List.mem_of_getElem? hsettled
  -- the submission is the next call, and stays it
  have hissued : (serve config a file temporary (before ++ [.post input now])).queue.calls[
      (serve config a file temporary before).queue.calls.length]? = some (.waiting input) := by
    rw [serve, run_snoc, step, Accepting.post, hkey]
    rw [serve] at hlimit
    simp only [hlimit, Bool.false_eq_true, if_false]
    exact List.getElem?_concat_length
  obtain ⟨c, hc, hinput⟩ := run_input _ _ after hissued
  rw [List.append_assoc, List.singleton_append, ← serve, hsettled] at hc
  cases hc
  obtain rfl : i = input := hinput
  cases r with
  | ok recorded =>
    obtain ⟨s, -, hs, hbrowser⟩ := hgoes
    exact .inl ⟨recorded, s, rfl, hs, hbrowser⟩
  | error e =>
    refine .inr ⟨e, rfl, ?_⟩
    rcases hgoes with hfailure | hrefused
    · rcases hfailure with ⟨n, hn⟩ | ⟨n, t, hn⟩
      · exact .inl (.inl ⟨n, hfrom _ hn⟩)
      · exact .inl (.inr ⟨n, t, hfrom _ hn⟩)
    · exact .inr hrefused

/-- The clock shows this time, and nothing fails. -/
def undisturbedCall (receivedAt : String) : List Event :=
  .start 0 (.ok receivedAt) :: List.replicate 4 (.resume 0 .done)

/-- A submission on its own is recorded. -/
theorem undisturbed_recorded (config : Config) (a : Archive) (file temporary : Option String)
    {input : Json} {now : Nat} {receivedAt : String} {s : Stored} (hnow : 2000 ≤ now)
    (h : sanitizeSubmission input receivedAt config.requireGrease = .ok s.snapshot) :
    (serve config a file temporary (.post input now :: undisturbedCall receivedAt)).queue.calls[0]? =
      some (.settled input (.ok (a.recorded s))) := by
  have hkey : browserKeyForSubmission input = .ok s.snapshot.browser.family.key :=
    bind_eq_ok.mpr ⟨s.snapshot.browser, (sanitizeSubmission_eq_ok.mp h).2.browser, rfl⟩
  have hlimit : rateLimited none now = false := by
    rw [rateLimited, decide_eq_false_iff_not]
    simp
    omega
  have hpost (store : Shared) : step (started store : Accepting config) (.post input now) =
      ⟨fun _ => none, ⟨store, [.waiting input]⟩, [⟨s.snapshot.browser.family.key, now⟩], 0⟩ := by
    rw [step, Accepting.post, hkey]
    simp only [started, hlimit]
    rfl
  have hstart : Serial.step (p := recordProcedure config)
      ⟨⟨⟨a.toState config.maxChanges, file⟩, temporary⟩, [.waiting input]⟩ (.start 0 (.ok receivedAt)) =
        ⟨⟨⟨a.toState config.maxChanges, file⟩, temporary⟩,
          [.running input ⟨.mkdir, (a.record s).toState config.maxChanges, a.recorded s⟩]⟩ := by
    have hone : (recordProcedure config).start input (.ok receivedAt)
        ⟨⟨a.toState config.maxChanges, file⟩, temporary⟩ =
          (⟨⟨a.toState config.maxChanges, file⟩, temporary⟩,
            .inl ⟨.mkdir, (a.record s).toState config.maxChanges, a.recorded s⟩) := by
      simp only [recordProcedure, prepare_toState h a]
    show Serial.State.advance (p := recordProcedure config)
      ⟨⟨⟨a.toState config.maxChanges, file⟩, temporary⟩, [.waiting input]⟩ 0 input _ = _
    rw [hone]
    rfl
  rw [serve, run, List.foldl_cons, hpost, undisturbedCall, List.foldl_cons, step]
  simp only [hstart]
  rfl
end WebTransportEcho.Server
