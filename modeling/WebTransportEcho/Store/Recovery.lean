import WebTransportEcho.Store.Queue

/-! A crash, and the store that loads the file afterwards. At every moment the file holds the state
    after the calls that have settled, or after these and the one call that has renamed its own file
    into place but has not yet assigned the state. Since the text of a state reads back as that state
    (`load_text`), a new store continues from there: nothing that a call has resolved with, and
    nothing a reader of the old store could have seen, is lost. -/

namespace WebTransportEcho.Store
open Js

/-! ### The text of a state reads back -/

theorem event_plain (c : Change) : c.toJson.Plain := by
  refine plain_obj.mpr ⟨by simp, ?_⟩
  simp only [List.forall_mem_cons]
  refine ⟨trivial, trivial, trivial, ?_, plain_arr.mpr fun j hj => ?_, by simp⟩
  · cases c.browser.version <;> trivial
  · obtain ⟨t, -, rfl⟩ := List.mem_map.mp hj
    trivial

theorem mem_of_mem_sliceLast {α : Type} {n : Nat} {xs : List α} {x : α} (h : x ∈ sliceLast n xs) :
    x ∈ xs := by
  unfold sliceLast at h
  split at h
  · exact h
  · exact List.mem_of_mem_drop h

theorem state_plain (a : Archive) (maxChanges : Nat) : (a.toState maxChanges).toJson.Plain := by
  refine plain_obj.mpr ⟨by simp, ?_⟩
  simp only [List.forall_mem_cons]
  refine ⟨plain_nat (by decide), plain_obj.mpr ⟨?_, ?_⟩, plain_arr.mpr fun j hj => ?_, by simp⟩
  · have hkeys := a.distinct.map Family.key_injective
    rwa [List.map_map] at hkeys ⊢
  · intro f hf
    obtain ⟨s, -, rfl⟩ := List.mem_map.mp hf
    exact snapshot_plain s.wellFormed
  · obtain ⟨c, -, rfl⟩ := List.mem_map.mp (mem_of_mem_sliceLast hj)
    exact event_plain c

theorem get_schemaVersion (state : StoreState) :
    state.toJson.get "schemaVersion" = .json (.nat resultSchemaVersion) := by
  simp [StoreState.toJson, Json.get]

theorem get_latest_field (state : StoreState) : state.toJson.get "latest" = .json state.latest := by
  simp [StoreState.toJson, Json.get, List.lookup_cons]

theorem get_changes_field (state : StoreState) :
    state.toJson.get "changes" = .json (.arr state.changes) := by
  simp [StoreState.toJson, Json.get, List.lookup_cons]

/-- A store loads the state that was written. -/
theorem load_text (config : Config) (a : Archive) :
    load config (some (a.toState config.maxChanges).text) = .ok (a.toState config.maxChanges) := by
  have hparse := parse_stringify 2 (state_plain a config.maxChanges) "\n" (Or.inr rfl)
  have hversion : (Value.json (.nat resultSchemaVersion)).same (.json (.nat resultSchemaVersion)) =
      true := rfl
  simp only [load, parseState, StoreState.text, hparse, ok_bind, get_schemaVersion, hversion,
    Bool.not_true, Bool.false_eq_true, if_false, get_latest_field, get_changes_field]
  simp only [Archive.toState, sliceLast_sliceLast]

/-! ### A crash -/

/-- The file a store starts from: none, or one that a store has written. -/
inductive Written (config : Config) : Archive → Option String → Prop where
  | absent : Written config .empty none
  | present (a : Archive) : Written config a (some (a.toState config.maxChanges).text)

theorem Written.load {config : Config} {a : Archive} {file : Option String}
    (h : Written config a file) : load config file = .ok (a.toState config.maxChanges) := by
  cases h with
  | absent => rw [empty_toState]; rfl
  | present => exact load_text config a

theorem recordAll_append (config : Config) (d : Durable) (calls more : List (Json × Attempt)) :
    recordAll config d (calls ++ more) =
      ((recordAll config (recordAll config d calls).1 more).1,
        (recordAll config d calls).2 ++ (recordAll config (recordAll config d calls).1 more).2) := by
  induction more using List.reverseRecOn with
  | nil => simp [recordAll]
  | append_singleton more call ih =>
    rw [← List.append_assoc, recordAll_snoc, recordAll_snoc, ih, List.append_assoc]

/-- What a crash leaves: a written file, with which the calls that settled, and possibly the one on its
    way, end. -/
theorem SequentialRun.durable {config : Config} {a : Archive} {file : Option String}
    {events : List (Serial.Event (recordProcedure config))}
    {m : Serial.State (recordProcedure config)} {calls : List (Json × Attempt)} {stored : List Stored}
    (h : SequentialRun config a ⟨a.toState config.maxChanges, file⟩ events m calls stored)
    (hfile : Written config a file) : ∃ (b : Archive) (landed : List (Json × Attempt)),
      (landed = [] ∨ ∃ input frame receivedAt, landed = [(input, ⟨.ok receivedAt, .ok ()⟩)] ∧
        m.calls[calls.length]? = some (.running input frame)) ∧
      Written config b m.shared.file ∧
      (recordAll config ⟨a.toState config.maxChanges, file⟩ (calls ++ landed)).1 =
        ⟨b.toState config.maxChanges, m.shared.file⟩ := by
  rcases h.file with hsame | ⟨s, ⟨input, frame, receivedAt, hrunning, -, hs⟩, hahead⟩
  · refine ⟨a.recordList stored, [], Or.inl rfl, ?_, ?_⟩
    · rw [hsame, h.archive]
      by_cases hnil : stored = []
      · simp only [if_pos hnil]
        rw [hnil]
        exact hfile
      · simp only [if_neg hnil]
        exact .present _
    · rw [List.append_nil, hsame, h.archive]
  · refine ⟨(a.recordList stored).record s, _,
      Or.inr ⟨input, frame, receivedAt, rfl, hrunning⟩, ?_, ?_⟩
    · rw [hahead]
      exact .present _
    · rw [recordAll_snoc, h.archive, recordOne_ok (prepare_toState hs _), hahead]

/-- After a crash at any moment, a new store that loads the file has the state after all calls that
    had settled, and possibly the one that was on its way; it goes on as a store does that made
    these calls and never stopped. -/
theorem crash_recovers (config : Config) (a : Archive) (file temporary : Option String)
    (hfile : Written config a file) (events : List (Serial.Event (recordProcedure config))) :
    let d : Durable := ⟨a.toState config.maxChanges, file⟩
    let m := runStore config (a.toState config.maxChanges) file temporary events
    load config file = .ok (a.toState config.maxChanges) ∧
    ∃ calls stored landed recovered,
      SequentialRun config a d events m calls stored ∧
      (landed = [] ∨ ∃ input frame receivedAt, landed = [(input, ⟨.ok receivedAt, .ok ()⟩)] ∧
        m.calls[calls.length]? = some (.running input frame)) ∧
      load config m.shared.file = .ok recovered ∧
      (recordAll config d (calls ++ landed)).1 = ⟨recovered, m.shared.file⟩ ∧
      (∀ more, recordAll config d (calls ++ landed ++ more) =
        ((recordAll config ⟨recovered, m.shared.file⟩ more).1, (recordAll config d (calls ++ landed)).2 ++
          (recordAll config ⟨recovered, m.shared.file⟩ more).2)) ∧
      ∀ temporary' events', ∃ b calls' stored', recovered = b.toState config.maxChanges ∧
        SequentialRun config b ⟨recovered, m.shared.file⟩ events'
          (runStore config recovered m.shared.file temporary' events') calls' stored' := by
  intro d m
  obtain ⟨calls, stored, h⟩ := run_sequential config a file temporary events
  obtain ⟨b, landed, hlanded, hwritten, hdurable⟩ := h.durable hfile
  refine ⟨hfile.load, calls, stored, landed, b.toState config.maxChanges, h, hlanded, hwritten.load,
    hdurable, fun more => ?_, fun temporary' events' => ?_⟩
  · rw [recordAll_append, hdurable]
  · obtain ⟨calls', stored', h'⟩ := run_sequential config b m.shared.file temporary' events'
    exact ⟨b, calls', stored', rfl, h'⟩

/-- Two calls, the second issued before the first has persisted and started after it has. -/
def twoPosts : List (Serial.Event (recordProcedure ⟨100, false⟩)) :=
  [.issue fullEchoRun, .start 0 (.ok "2026-07-16T12:00:00.000Z"), .resume 0 .done,
    .issue fullEchoRun, .start 1 (.ok "2026-07-16T12:00:01.000Z"), .resume 0 .done, .resume 0 .done,
    .resume 0 .done, .start 1 (.ok "2026-07-16T12:00:02.000Z"), .resume 1 .done, .resume 1 .done,
    .resume 1 .done, .resume 1 .done]

/-- Two calls, of which the second has renamed its file but not yet assigned the state. -/
theorem twoPosts_crash : ∃ recovered, load ⟨100, false⟩ (runStore ⟨100, false⟩
    (Archive.empty.toState (Config.mk 100 false).maxChanges) none none
    (twoPosts.take 12)).shared.file = .ok recovered := by
  obtain ⟨-, calls, stored, landed, recovered, -, -, hload, -⟩ :=
    crash_recovers ⟨100, false⟩ .empty none none .absent (twoPosts.take 12)
  exact ⟨recovered, hload⟩

end WebTransportEcho.Store
