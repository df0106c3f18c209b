import WebTransportEcho.Server.Request
import WebTransportEcho.Store.Queue
import WebTransportEcho.Store.Loading
import Mathlib.Logic.Function.Basic

/-! The rate limit over any number of submissions at once. A handler that has read its body looks up
    when its family last submitted, and awaits `record`; only when that has settled does it enter the
    time it had looked at the clock. Handlers go on in the order in which their calls settle, which is
    the order of the queue.

    Between the check and the entry another submission of the family passes the same check. Where
    none is checked within the limit of one that is still on its way, what is accepted is as far
    apart as the limit asks (`prompt_apart`). -/

namespace WebTransportEcho.Server
open Js Store

/-! ### Submissions on their way -/

/-- A submission that has passed the limit: the family it was checked for, and when. -/
structure Submission where
  rateLimitKey : String
  now : Nat

/-- `submissions` are those whose `record` is called, in that order; of these so many have been
    answered. -/
structure Handlers (record : Serial.Procedure Shared Json Frame (Except Error Recorded)
    (Except Error String) Answer) where
  lastSubmissionAt : String → Option Nat
  queue : Serial.State record
  submissions : List Submission
  answered : Nat

abbrev Accepting (config : Config) := Handlers (recordProcedure config)

inductive Event where
  | post (input : Json) (now : Nat)
  | start (call : Nat) (clock : Except Error String)
  | resume (call : Nat) (answer : Answer)
  | answer

variable {config : Config}

/-- A body has been read. -/
def Accepting.post (s : Accepting config) (input : Json) (now : Nat) : Accepting config :=
  match browserKeyForSubmission input with
  | .error _ => s
  | .ok rateLimitKey =>
    if rateLimited (s.lastSubmissionAt rateLimitKey) now then s
    else { s with
      queue := Serial.step s.queue (.issue input)
      submissions := s.submissions ++ [{ rateLimitKey, now }] }

/-- The next handler goes on: `record` has settled. -/
def Accepting.answer (s : Accepting config) : Accepting config :=
  match s.queue.calls[s.answered]?, s.submissions[s.answered]? with
  | some (.settled _ (.ok recorded)), some submission =>
    { s with
      lastSubmissionAt := Function.update s.lastSubmissionAt recorded.browserKey submission.now
      answered := s.answered + 1 }
  | some (.settled _ (.error _)), some _ => { s with answered := s.answered + 1 }
  | _, _ => s

def step (s : Accepting config) : Event → Accepting config
  | .post input now => s.post input now
  | .start n clock => { s with queue := Serial.step s.queue (.start n clock) }
  | .resume n a => { s with queue := Serial.step s.queue (.resume n a) }
  | .answer => s.answer

/-- The server has just started, with this store. -/
def started (store : Shared) : Accepting config where
  lastSubmissionAt _ := none
  queue := { shared := store, calls := [] }
  submissions := []
  answered := 0

def run (store : Shared) (events : List Event) : Accepting config :=
  events.foldl step (started store)

/-- When the bodies were read. -/
def checkTimes (events : List Event) : List Nat :=
  events.filterMap fun
    | .post _ now => some now
    | _ => none

/-- The `n`-th submission has been answered 202: its family, and when it was checked. -/
def Accepting.accepted (s : Accepting config) (n : Nat) : Option (String × Nat) :=
  if n < s.answered then
    match s.queue.calls[n]?, s.submissions[n]? with
    | some (.settled _ (.ok recorded)), some submission => some (recorded.browserKey, submission.now)
    | _, _ => none
  else none

/-- Accepted submissions of a family were checked two seconds apart. -/
def Accepting.Apart (s : Accepting config) : Prop :=
  ∀ n m family t t', n ≠ m → s.accepted n = some (family, t) → s.accepted m = some (family, t') →
    t + 2000 ≤ t' ∨ t' + 2000 ≤ t

/-- No submission of the family is on its way that was checked within the limit. -/
def Accepting.clear (s : Accepting config) (rateLimitKey : String) (now : Nat) : Bool :=
  (s.submissions.drop s.answered).all fun w =>
    decide (w.rateLimitKey ≠ rateLimitKey) || decide (w.now + 2000 ≤ now)

/-- The event checks no submission while another one of its family that was checked within the limit
    is on its way. -/
def Accepting.promptFor (s : Accepting config) : Event → Bool
  | .post input now =>
    match browserKeyForSubmission input with
    | .error _ => true
    | .ok rateLimitKey =>
      rateLimited (s.lastSubmissionAt rateLimitKey) now || s.clear rateLimitKey now
  | _ => true

def Accepting.prompt (s : Accepting config) : List Event → Bool
  | [] => true
  | e :: events => s.promptFor e && (step s e).prompt events

/-! ### The family of a call -/

/-- The call's result, if it has one, is of the family of its input. -/
def Keyed : Serial.Call Json Frame (Except Error Recorded) → Prop
  | .waiting _ => True
  | .running input f => browserKeyForSubmission input = .ok f.result.browserKey
  | .settled input r => ∀ recorded, r = .ok recorded →
    browserKeyForSubmission input = .ok recorded.browserKey

theorem prepare_key {state next : StoreState} {input : Json} {receivedAt : String} {r : Recorded}
    (h : prepare config state input receivedAt = .ok (next, r)) :
    browserKeyForSubmission input = .ok r.browserKey := by
  obtain ⟨current, hcurrent, h⟩ := bind_eq_ok.mp h
  obtain ⟨differences, -, h⟩ := bind_eq_ok.mp h
  obtain ⟨-, haccepted⟩ := sanitizeSubmission_eq_ok.mp hcurrent
  cases h
  exact bind_eq_ok.mpr ⟨current.browser, haccepted.browser, rfl⟩

theorem keyed_start (input : Json) (clock : Except Error String) (s : Shared) :
    Keyed (.after input ((recordProcedure config).start input clock s).2) := by
  cases clock with
  | error e => rintro _ ⟨⟩
  | ok receivedAt =>
    simp only [recordProcedure]
    cases hp : prepare config s.state input receivedAt with
    | error e => rintro _ ⟨⟩
    | ok x => exact prepare_key hp

theorem keyed_resume (input : Json) (f : Frame) (a : Answer) (s : Shared)
    (h : Keyed (.running input f)) :
    Keyed (.after input ((recordProcedure config).resume f a s).2) := by
  have hfailed (e : Error) : Keyed (.settled input (.error e)) := by rintro _ ⟨⟩
  obtain ⟨step, next, result⟩ := f
  cases step with
  | mkdir | write | rename =>
    cases a with
    | done => exact h
    | failed e temporary => exact hfailed e
  | assign =>
    have hsettled : Keyed (.settled input (.ok result)) := by
      intro recorded hrecorded
      cases hrecorded
      exact h
    cases a <;> exact hsettled

theorem keyed_step {q : Serial.State (recordProcedure config)} (h : ∀ c ∈ q.calls, Keyed c)
    (e : Serial.Event (recordProcedure config)) : ∀ c ∈ (Serial.step q e).calls, Keyed c :=
  Serial.step_forall (fun _ => trivial) keyed_start keyed_resume h e

/-! ### What is kept -/

/-- The `n`-th call has failed. -/
def Accepting.Failed (s : Accepting config) (n : Nat) : Prop :=
  ∃ input e, s.queue.calls[n]? = some (.settled input (.error e))

/-- Submissions of a family are apart unless the earlier one has failed, and the last time that was
    entered is not before that of any that was accepted. -/
structure Spaced (s : Accepting config) (time : Nat) : Prop where
  length : s.queue.calls.length = s.submissions.length
  keyed : ∀ c ∈ s.queue.calls, Keyed c
  checked : ∀ (n : Nat) (c : Serial.Call Json Frame (Except Error Recorded)) (w : Submission),
    s.queue.calls[n]? = some c → s.submissions[n]? = some w →
      browserKeyForSubmission c.input = .ok w.rateLimitKey
  settled : ∀ n < s.answered, ∃ input r, s.queue.calls[n]? = some (.settled input r)
  ordered : ∀ (n m : Nat) (w v : Submission), n < m → s.submissions[n]? = some w →
    s.submissions[m]? = some v → w.now ≤ v.now
  past : ∀ w ∈ s.submissions, w.now ≤ time
  apart : ∀ (n m : Nat) (w v : Submission), n < m → s.submissions[n]? = some w →
    s.submissions[m]? = some v → w.rateLimitKey = v.rateLimitKey →
      w.now + 2000 ≤ v.now ∨ (n < s.answered ∧ s.Failed n)
  last : ∀ (n : Nat) (input : Json) (r : Recorded) (w : Submission), n < s.answered →
    s.queue.calls[n]? = some (.settled input (.ok r)) → s.submissions[n]? = some w →
      ∃ t, s.lastSubmissionAt w.rateLimitKey = some t ∧ w.now ≤ t

section Spaced

variable {s : Accepting config} {time : Nat}

theorem spaced_started (store : Shared) : Spaced (started store : Accepting config) 0 where
  length := rfl
  keyed _ hc := by cases hc
  checked _ _ _ hc := by cases hc
  settled _ hn := absurd hn (Nat.not_lt_zero _)
  ordered _ _ _ _ _ hw := by cases hw
  past _ hw := by cases hw
  apart _ _ _ _ _ hw := by cases hw
  last _ _ _ _ hn := absurd hn (Nat.not_lt_zero _)

/-- What is accepted is of the family it was checked for. -/
theorem Spaced.key (h : Spaced s time) {n : Nat} {input : Json} {r : Recorded} {w : Submission}
    (hcall : s.queue.calls[n]? = some (.settled input (.ok r))) (hw : s.submissions[n]? = some w) :
    r.browserKey = w.rateLimitKey := by
  have hkey : browserKeyForSubmission input = .ok r.browserKey :=
    h.keyed _ (List.mem_of_getElem? hcall) r rfl
  have hchecked : browserKeyForSubmission input = .ok w.rateLimitKey := h.checked n _ w hcall hw
  exact Except.ok.inj (hkey.symm.trans hchecked)

theorem step_input {n : Nat} {c : Serial.Call Json Frame (Except Error Recorded)}
    {e : Serial.Event (recordProcedure config)} (hold : n < s.queue.calls.length)
    (hc : (Serial.step s.queue e).calls[n]? = some c) :
    ∃ c', s.queue.calls[n]? = some c' ∧ c'.input = c.input := by
  have hinput : ((Serial.step s.queue e).calls.map Serial.Call.input)[n]? = some c.input := by
    rw [List.getElem?_map, hc]
    rfl
  rw [Serial.step_inputs, List.getElem?_append_left (by rwa [List.length_map]),
    List.getElem?_map] at hinput
  exact Option.map_eq_some_iff.mp hinput

/-- A call settled before an event is what it is after it. -/
theorem Spaced.step_answered (h : Spaced s time) {n : Nat} (hn : n < s.answered)
    (e : Serial.Event (recordProcedure config)) :
    (Serial.step s.queue e).calls[n]? = s.queue.calls[n]? := by
  obtain ⟨input, r, hcall⟩ := h.settled n hn
  rw [hcall, Serial.step_settled e hcall]

/-- A call on the queue takes a step. -/
theorem Spaced.work (h : Spaced s time) (e : Serial.Event (recordProcedure config))
    (he : Serial.issued [e] = []) : Spaced { s with queue := Serial.step s.queue e } time where
  length := by
    rw [Serial.length_step, he, List.length_nil, Nat.add_zero]
    exact h.length
  keyed := keyed_step h.keyed e
  checked n c w hc hw := by
    obtain ⟨hlt, -⟩ := List.getElem?_eq_some_iff.mp hw
    obtain ⟨c', hc', hinput⟩ := step_input (h.length.symm ▸ hlt) hc
    rw [← hinput]
    exact h.checked n c' w hc' hw
  settled n hn := by
    obtain ⟨input, r, hcall⟩ := h.settled n hn
    exact ⟨input, r, Serial.step_settled e hcall⟩
  ordered := h.ordered
  past := h.past
  apart n m w v hnm hw hv hkey :=
    (h.apart n m w v hnm hw hv hkey).imp id fun ⟨hn, input, error, hcall⟩ =>
      ⟨hn, input, error, Serial.step_settled e hcall⟩
  last n input r w hn hcall hw :=
    h.last n input r w hn (by rwa [h.step_answered hn] at hcall) hw

theorem Spaced.answered_lt (h : Spaced s time) {n : Nat} (hn : n < s.answered) :
    n < s.submissions.length := by
  obtain ⟨input, r, hcall⟩ := h.settled n hn
  obtain ⟨hlt, -⟩ := List.getElem?_eq_some_iff.mp hcall
  rwa [← h.length]

/-- What passes the limit is apart from the earlier submissions of its family. -/
theorem Spaced.passes (h : Spaced s time) {key : String} {now : Nat}
    (hlimit : rateLimited (s.lastSubmissionAt key) now = false) (hclear : s.clear key now = true)
    {n : Nat} {w : Submission} (hw : s.submissions[n]? = some w) (hkey : w.rateLimitKey = key) :
    w.now + 2000 ≤ now ∨ (n < s.answered ∧ s.Failed n) := by
  by_cases hn : n < s.answered
  · obtain ⟨input, r, hcall⟩ := h.settled n hn
    cases r with
    | error e => exact .inr ⟨hn, input, e, hcall⟩
    | ok recorded =>
      obtain ⟨t, ht, hle⟩ := h.last n input recorded w hn hcall hw
      rw [hkey] at ht
      rw [ht, rateLimited, decide_eq_false_iff_not, Option.getD_some] at hlimit
      exact .inl (by omega)
  · have hwaits : w ∈ s.submissions.drop s.answered := by
      refine List.mem_of_getElem? (i := n - s.answered) ?_
      rw [List.getElem?_drop, Nat.add_sub_cancel' (Nat.not_lt.mp hn)]
      exact hw
    have hspaced := List.all_eq_true.mp hclear w hwaits
    rw [Bool.or_eq_true, decide_eq_true_eq, decide_eq_true_eq] at hspaced
    exact .inl (hspaced.resolve_left fun hne => hne hkey)

/-- A submission passes the limit. -/
theorem Spaced.issue (h : Spaced s time) {input : Json} {key : String} {now : Nat}
    (hkey : browserKeyForSubmission input = .ok key) (htime : time ≤ now)
    (hlimit : rateLimited (s.lastSubmissionAt key) now = false) (hclear : s.clear key now = true) :
    Spaced { s with
      queue := Serial.step s.queue (.issue input)
      submissions := s.submissions ++ [⟨key, now⟩] } now := by
  have hsplit {n : Nat} {w : Submission} (hw : (s.submissions ++ [⟨key, now⟩])[n]? = some w) :
      s.submissions[n]? = some w ∨ (n = s.submissions.length ∧ w = ⟨key, now⟩) := by
    rw [List.getElem?_append] at hw
    split at hw
    · exact .inl hw
    · obtain rfl := List.mem_singleton.mp (List.mem_of_getElem? hw)
      obtain ⟨hlt, -⟩ := List.getElem?_eq_some_iff.mp hw
      rw [List.length_singleton] at hlt
      exact .inr ⟨by omega, rfl⟩
  have hold {n : Nat} {w : Submission} (hn : n < s.submissions.length)
      (hw : (s.submissions ++ [⟨key, now⟩])[n]? = some w) : s.submissions[n]? = some w := by
    rwa [List.getElem?_append_left hn] at hw
  have hlt {n : Nat} {w : Submission} (hw : s.submissions[n]? = some w) : n < s.submissions.length :=
    (List.getElem?_eq_some_iff.mp hw).1
  refine ⟨?_, keyed_step h.keyed _, ?_, ?_, ?_, ?_, ?_, ?_⟩
  · rw [Serial.length_step, List.length_append, h.length]
    rfl
  · intro n c w hc hw
    rcases hsplit hw with hw | ⟨rfl, rfl⟩
    · obtain ⟨c', hc', hinput⟩ := step_input (h.length.symm ▸ hlt hw) hc
      rw [← hinput]
      exact h.checked n c' w hc' hw
    · rw [← h.length, Serial.step, List.getElem?_concat_length] at hc
      cases hc
      exact hkey
  · intro n hn
    obtain ⟨i, r, hcall⟩ := h.settled n hn
    exact ⟨i, r, Serial.step_settled _ hcall⟩
  · intro n m w v hnm hw hv
    rcases hsplit hv with hv | ⟨rfl, rfl⟩
    · exact h.ordered n m w v hnm (hold (hnm.trans (hlt hv)) hw) hv
    · exact (h.past w (List.mem_of_getElem? (hold hnm hw))).trans htime
  · intro w hw
    rcases List.mem_append.mp hw with hw | hw
    · exact (h.past w hw).trans htime
    · rw [List.mem_singleton.mp hw]
  · intro n m w v hnm hw hv hsame
    have hfailed (hfailed : n < s.answered ∧ s.Failed n) : n < s.answered ∧
        ∃ i e, (Serial.step s.queue (.issue input)).calls[n]? = some (.settled i (.error e)) := by
      obtain ⟨hn, i, e, hcall⟩ := hfailed
      exact ⟨hn, i, e, Serial.step_settled _ hcall⟩
    rcases hsplit hv with hv | ⟨rfl, rfl⟩
    · exact (h.apart n m w v hnm (hold (hnm.trans (hlt hv)) hw) hv hsame).imp id hfailed
    · exact (h.passes hlimit hclear (hold hnm hw) hsame).imp id hfailed
  · intro n i r w hn hcall hw
    rw [h.step_answered hn] at hcall
    exact h.last n i r w hn hcall (hold (h.answered_lt hn) hw)

/-- The next handler enters its time, which is not before any that was entered, or answers the
    error. -/
theorem Spaced.answer (h : Spaced s time) : Spaced s.answer time := by
  have hnext {n : Nat} (hn : n < s.answered + 1) : n < s.answered ∨ n = s.answered :=
    Nat.lt_succ_iff_lt_or_eq.mp hn
  have hsettled {input : Json} {r : Except Error Recorded}
      (hcall : s.queue.calls[s.answered]? = some (.settled input r)) :
      ∀ n < s.answered + 1, ∃ i r, s.queue.calls[n]? = some (.settled i r) := by
    intro n hn
    rcases hnext hn with hn | rfl
    · exact h.settled n hn
    · exact ⟨input, r, hcall⟩
  have hapart (n m : Nat) (w v : Submission) (hnm : n < m) (hw : s.submissions[n]? = some w)
      (hv : s.submissions[m]? = some v) (hsame : w.rateLimitKey = v.rateLimitKey) :
      w.now + 2000 ≤ v.now ∨ (n < s.answered + 1 ∧ s.Failed n) :=
    (h.apart n m w v hnm hw hv hsame).imp id fun ⟨hn, hfailed⟩ => ⟨Nat.lt_succ_of_lt hn, hfailed⟩
  unfold Accepting.answer
  split
  · next input recorded w hcall hw =>
    refine ⟨h.length, h.keyed, h.checked, hsettled hcall, h.ordered, h.past, hapart, ?_⟩
    intro n i r v hn hr hv
    simp only
    by_cases hsame : v.rateLimitKey = recorded.browserKey
    · rw [hsame, Function.update_self]
      refine ⟨w.now, rfl, ?_⟩
      rcases hnext hn with hn | rfl
      · exact h.ordered n s.answered v w hn hv hw
      · rw [hw] at hv
        cases hv
        exact le_rfl
    · rw [Function.update_of_ne hsame]
      rcases hnext hn with hn | rfl
      · exact h.last n i r v hn hr hv
      · rw [hw] at hv
        cases hv
        exact absurd (h.key hcall hw).symm hsame
  · next input e w hcall hw =>
    refine ⟨h.length, h.keyed, h.checked, hsettled hcall, h.ordered, h.past, hapart, ?_⟩
    intro n i r v hn hr hv
    rcases hnext hn with hn | rfl
    · exact h.last n i r v hn hr hv
    · rw [hcall] at hr
      cases hr
  · exact h

theorem Spaced.post (h : Spaced s time) {input : Json} {now : Nat} (htime : time ≤ now)
    (hprompt : s.promptFor (.post input now) = true) : Spaced (s.post input now) now := by
  have hlater : Spaced s now := { h with past := fun w hw => (h.past w hw).trans htime }
  unfold Accepting.promptFor at hprompt
  unfold Accepting.post
  cases hkey : browserKeyForSubmission input with
  | error e => exact hlater
  | ok key =>
    simp only [hkey] at hprompt ⊢
    cases hlimit : rateLimited (s.lastSubmissionAt key) now with
    | true => exact hlater
    | false =>
      rw [hlimit, Bool.false_or] at hprompt
      exact h.issue hkey htime hlimit hprompt

/-- Accepted submissions are none that failed. -/
theorem Spaced.accepted_apart (h : Spaced s time) : s.Apart := by
  have haccepted {n : Nat} {family : String} {t : Nat} (hn : s.accepted n = some (family, t)) :
      ∃ input r w, s.queue.calls[n]? = some (.settled input (.ok r)) ∧
        s.submissions[n]? = some w ∧ w.rateLimitKey = family ∧ w.now = t := by
    unfold Accepting.accepted at hn
    split at hn
    · split at hn
      · next input r w hcall hw =>
        cases hn
        exact ⟨input, r, w, hcall, hw, (h.key hcall hw).symm, rfl⟩
      · cases hn
    · cases hn
  have hordered {n m : Nat} {family : String} {t t' : Nat} (hnm : n < m)
      (hn : s.accepted n = some (family, t)) (hm : s.accepted m = some (family, t')) :
      t + 2000 ≤ t' := by
    obtain ⟨input, r, w, hcall, hw, hkey, rfl⟩ := haccepted hn
    obtain ⟨-, -, v, -, hv, hkey', rfl⟩ := haccepted hm
    rcases h.apart n m w v hnm hw hv (hkey.trans hkey'.symm) with hle | ⟨-, _, _, hfailed⟩
    · exact hle
    · rw [hcall] at hfailed
      cases hfailed
  intro n m family t t' hne hn hm
  rcases Nat.lt_or_gt_of_ne hne with hlt | hlt
  · exact .inl (hordered hlt hn hm)
  · exact .inr (hordered hlt hm hn)

end Spaced

theorem spaced_run {s : Accepting config} {time : Nat} (h : Spaced s time) : ∀ events : List Event,
    (time :: checkTimes events).Pairwise (· ≤ ·) → s.prompt events = true →
      ∃ time', Spaced (events.foldl step s) time'
  | [], _, _ => ⟨time, h⟩
  | e :: events, hclock, hprompt => by
    obtain ⟨hfor, hprompt⟩ := Bool.and_eq_true_iff.mp hprompt
    have hskip (htimes : checkTimes (e :: events) = checkTimes events)
        (hstep : Spaced (step s e) time) : ∃ time', Spaced ((e :: events).foldl step s) time' := by
      rw [htimes] at hclock
      exact spaced_run hstep events hclock hprompt
    cases e with
    | post input now =>
      obtain ⟨htime, hclock⟩ := List.pairwise_cons.mp hclock
      exact spaced_run (h.post (htime now (by simp [checkTimes])) hfor) events hclock hprompt
    | start n clock => exact hskip rfl (h.work _ rfl)
    | resume n a => exact hskip rfl (h.work _ rfl)
    | answer => exact hskip rfl h.answer

/-- Where no submission is checked within two seconds of one of its family that is still on its way,
    those that are accepted were checked two seconds apart. -/
theorem prompt_apart (config : Config) (store : Shared) (events : List Event)
    (hclock : (checkTimes events).Pairwise (· ≤ ·))
    (hprompt : (started store : Accepting config).prompt events = true) :
    (run store events : Accepting config).Apart := by
  have hclock' : (0 :: checkTimes events).Pairwise (· ≤ ·) :=
    List.pairwise_cons.mpr ⟨fun t _ => Nat.zero_le t, hclock⟩
  obtain ⟨time, hspaced⟩ := spaced_run (spaced_started store) events hclock' hprompt
  exact hspaced.accepted_apart

/-- Two submissions of a family, the second read when the first has been answered. -/
def oneAfterTheOther : List Event :=
  [.post (idleRun .firefox) 2000, .start 0 (.ok "2026-07-16T12:00:00.000Z"), .resume 0 .done,
    .resume 0 .done, .resume 0 .done, .resume 0 .done, .answer, .post (idleRun .firefox) 4000,
    .start 1 (.ok "2026-07-16T12:00:02.000Z"), .resume 1 .done, .resume 1 .done, .resume 1 .done,
    .resume 1 .done, .answer]

set_option maxRecDepth 100000 in
theorem oneAfterTheOther_apart :
    (run ⟨⟨emptyState, none⟩, none⟩ oneAfterTheOther : Accepting ⟨100, false⟩).Apart :=
  prompt_apart ⟨100, false⟩ _ oneAfterTheOther (by decide) (by decide +kernel)

/-- Two submissions of a family, a millisecond apart: the second is read while the first is on its
    way. -/
def bothAtOnce : List Event :=
  [.post (idleRun .firefox) 2000, .start 0 (.ok "2026-07-16T12:00:00.000Z"),
    .post (idleRun .firefox) 2001, .resume 0 .done, .resume 0 .done, .resume 0 .done, .resume 0 .done, .answer,
    .start 1 (.ok "2026-07-16T12:00:00.002Z"), .resume 1 .done, .resume 1 .done, .resume 1 .done,
    .resume 1 .done, .answer]

set_option maxRecDepth 100000 in
theorem bothAtOnce_answers :
    (run ⟨⟨emptyState, none⟩, none⟩ bothAtOnce : Accepting ⟨100, false⟩).accepted 0 =
        some ("firefox", 2000) ∧
      (run ⟨⟨emptyState, none⟩, none⟩ bothAtOnce : Accepting ⟨100, false⟩).accepted 1 =
        some ("firefox", 2001) := by decide +kernel

theorem bothAtOnce_accepted : (checkTimes bothAtOnce).Pairwise (· ≤ ·) ∧
    ¬ (run ⟨⟨emptyState, none⟩, none⟩ bothAtOnce : Accepting ⟨100, false⟩).Apart := by
  refine ⟨by decide, fun h => ?_⟩
  obtain ⟨hfirst, hsecond⟩ := bothAtOnce_answers
  have hapart := h 0 1 "firefox" 2000 2001 (by decide) hfirst hsecond
  omega

end WebTransportEcho.Server
