import WebTransportEcho.Store.Record
import WebTransportEcho.Serial
import Mathlib.Data.List.Induction

/-! `record` as calls on the store's write queue. A call begins when the one before it has settled: it
    reads the clock, computes the next state, and then awaits the steps of `persist`, a directory, a
    temporary file and a rename, each of which may fail; only after the rename does it assign the
    state. `recordAll` runs calls one at a time, and `record_serial` says that every run of the queue,
    whatever is issued when and whatever fails, is such a sequential run. -/

namespace WebTransportEcho.Store
open Js

/-! ### One call after the other -/

/-- The state in memory and the results file. -/
structure Durable where
  state : StoreState
  file : Option String

/-- What the environment does in one call: the clock's reading, and how `persist` ends. -/
structure Attempt where
  clock : Except Error String
  persist : Except Error Unit

/-- One call of `record`, on its own. -/
def recordOne (config : Config) (d : Durable) (call : Json × Attempt) :
    Durable × Except Error Recorded :=
  match call.2.clock with
  | .error e => (d, .error e)
  | .ok receivedAt =>
    match prepare config d.state call.1 receivedAt, call.2.persist with
    | .error e, _ => (d, .error e)
    | .ok _, .error e => (d, .error e)
    | .ok (next, result), .ok () => ({ state := next, file := some next.text }, .ok result)

def recordAll (config : Config) (d : Durable) (calls : List (Json × Attempt)) :
    Durable × List (Except Error Recorded) :=
  calls.foldl (fun acc call =>
    let (d, result) := recordOne config acc.1 call
    (d, acc.2 ++ [result])) (d, [])

/-! ### The calls on the queue -/

inductive PersistStep where
  | mkdir | write | rename | assign

/-- A call that awaits a step of `persist`. -/
structure Frame where
  step : PersistStep
  next : StoreState
  result : Recorded

/-- How an awaited operation ends; a failed write may leave any temporary file. -/
inductive Answer where
  | done
  | failed (e : Error) (temporary : Option String)

structure Shared extends Durable where
  temporary : Option String

def recordProcedure (config : Config) : Serial.Procedure Shared Json Frame (Except Error Recorded)
    (Except Error String) Answer where
  start input clock s :=
    match clock with
    | .error e => (s, .inr (.error e))
    | .ok receivedAt =>
      match prepare config s.state input receivedAt with
      | .error e => (s, .inr (.error e))
      | .ok (next, result) => (s, .inl { step := .mkdir, next, result })
  resume f answer s :=
    match f.step, answer with
    | .mkdir, .done => (s, .inl { f with step := .write })
    | .write, .done => ({ s with temporary := some f.next.text }, .inl { f with step := .rename })
    | .rename, .done =>
      ({ s with file := s.temporary, temporary := none }, .inl { f with step := .assign })
    | .assign, _ => ({ s with state := f.next }, .inr (.ok f.result))
    | .write, .failed e temporary => ({ s with temporary }, .inr (.error e))
    | _, .failed e _ => (s, .inr (.error e))

/-- How far a call on its own, with this reading of the clock, has got, and what it has changed. -/
def Progress (config : Config) (input : Json) (clock : Except Error String) (s s' : Shared) :
    Frame ⊕ Except Error Recorded → Prop
  | .inl f => s'.state = s.state ∧
      (∃ receivedAt, clock = .ok receivedAt ∧
        prepare config s.state input receivedAt = .ok (f.next, f.result)) ∧
      match f.step with
      | .mkdir => s'.file = s.file
      | .write => s'.file = s.file
      | .rename => s'.file = s.file ∧ s'.temporary = some f.next.text
      | .assign => s'.file = some f.next.text
  | .inr r => ∃ persist, recordOne config s.toDurable (input, ⟨clock, persist⟩) = (s'.toDurable, r)

theorem recordOne_persist_error {config : Config} {d : Durable} {input : Json} {receivedAt : String}
    {x : StoreState × Recorded} (h : prepare config d.state input receivedAt = .ok x) (e : Error) :
    recordOne config d (input, ⟨.ok receivedAt, .error e⟩) = (d, .error e) := by
  simp only [recordOne, h]

theorem recordOne_ok {config : Config} {d : Durable} {input : Json} {receivedAt : String}
    {next : StoreState} {r : Recorded} (h : prepare config d.state input receivedAt = .ok (next, r)) :
    recordOne config d (input, ⟨.ok receivedAt, .ok ()⟩) = (⟨next, some next.text⟩, .ok r) := by
  simp only [recordOne, h]

theorem progress_start (config : Config) (input : Json) (clock : Except Error String) (s : Shared) :
    Progress config input clock s ((recordProcedure config).start input clock s).1
      ((recordProcedure config).start input clock s).2 := by
  cases clock with
  | error e => exact ⟨.ok (), rfl⟩
  | ok receivedAt =>
    simp only [recordProcedure]
    cases hp : prepare config s.state input receivedAt with
    | error e => exact ⟨.ok (), by simp only [recordOne, hp]⟩
    | ok x => exact ⟨rfl, ⟨receivedAt, rfl, hp⟩, rfl⟩

theorem progress_resume {config : Config} {input : Json} {clock : Except Error String}
    {s s' : Shared} {f : Frame} (h : Progress config input clock s s' (.inl f)) (answer : Answer) :
    Progress config input clock s ((recordProcedure config).resume f answer s').1
      ((recordProcedure config).resume f answer s').2 := by
  obtain ⟨step, next, result⟩ := f
  obtain ⟨⟨state, file⟩, temporary⟩ := s
  obtain ⟨⟨state', file'⟩, temporary'⟩ := s'
  obtain ⟨rfl, ⟨receivedAt, rfl, hp⟩, hfile⟩ := h
  cases step with
  | mkdir =>
    obtain rfl : file' = file := hfile
    cases answer with
    | done => exact ⟨rfl, ⟨receivedAt, rfl, hp⟩, rfl⟩
    | failed e t => exact ⟨.error e, recordOne_persist_error hp e⟩
  | write =>
    obtain rfl : file' = file := hfile
    cases answer with
    | done => exact ⟨rfl, ⟨receivedAt, rfl, hp⟩, rfl, rfl⟩
    | failed e t => exact ⟨.error e, recordOne_persist_error hp e⟩
  | rename =>
    obtain ⟨hfile, htemporary⟩ := hfile
    obtain rfl : file' = file := hfile
    obtain rfl : temporary' = some next.text := htemporary
    cases answer with
    | done => exact ⟨rfl, ⟨receivedAt, rfl, hp⟩, rfl⟩
    | failed e t => exact ⟨.error e, recordOne_persist_error hp e⟩
  | assign =>
    obtain rfl : file' = some next.text := hfile
    have hone := recordOne_ok (d := ⟨state', file⟩) hp
    cases answer with
    | done => exact ⟨.ok (), hone⟩
    | failed e t => exact ⟨.ok (), hone⟩

theorem progress_of_exec {config : Config} {input : Json} {clock : Except Error String}
    {s : Shared} : ∀ {s' : Shared} {x : Frame ⊕ Except Error Recorded},
      Serial.Exec (recordProcedure config) input clock s s' x → Progress config input clock s s' x
  | _, _, .start => progress_start config input clock s
  | _, _, .resume h answer => progress_resume (progress_of_exec h) answer

theorem recordAll_snoc (config : Config) (d : Durable) (calls : List (Json × Attempt))
    (call : Json × Attempt) : recordAll config d (calls ++ [call]) =
      ((recordOne config (recordAll config d calls).1 call).1,
        (recordAll config d calls).2 ++ [(recordOne config (recordAll config d calls).1 call).2]) := by
  rw [recordAll, List.foldl_append]
  rfl

/-- Completed calls are those of a sequential run, with the same readings and results. -/
theorem recordAll_of_sequential {config : Config} {s₀ s : Shared}
    {done : List (Serial.Done (Except Error String) Json (Except Error Recorded))}
    (h : Serial.Sequential (recordProcedure config) s₀ done s) :
    ∃ calls, calls.map Prod.fst = done.map Serial.Done.input ∧
      calls.map (fun call => call.2.clock) = done.map Serial.Done.answer ∧
      recordAll config s₀.toDurable calls = (s.toDurable, done.map Serial.Done.outcome) := by
  induction h with
  | nil => exact ⟨[], rfl, rfl, rfl⟩
  | @snoc done s s' input clock r h hx ih =>
    obtain ⟨calls, hinputs, hclocks, hall⟩ := ih
    obtain ⟨persist, hone⟩ := progress_of_exec hx
    refine ⟨calls ++ [(input, ⟨clock, persist⟩)], ?_, ?_, ?_⟩
    · rw [List.map_append, List.map_append, hinputs]
      rfl
    · rw [List.map_append, List.map_append, hclocks]
      rfl
    · rw [recordAll_snoc, hall, hone, List.map_append]
      rfl

/-! ### Calls that fail -/

/-- The calls that resolved. -/
def succeeded (calls : List (Json × Attempt)) (results : List (Except Error Recorded)) :
    List (Json × Attempt) :=
  ((calls.zip results).filter fun c => c.2.isOk).map Prod.fst

theorem recordOne_error {config : Config} {d d' : Durable} {call : Json × Attempt} {e : Error}
    (h : recordOne config d call = (d', .error e)) : d' = d := by
  unfold recordOne at h
  split at h
  · cases h; rfl
  · split at h
    · cases h; rfl
    · cases h; rfl
    · cases h

theorem recordAll_length (config : Config) (d : Durable) (calls : List (Json × Attempt)) :
    (recordAll config d calls).2.length = calls.length := by
  induction calls using List.reverseRecOn with
  | nil => rfl
  | append_singleton calls call ih => rw [recordAll_snoc]; simp [ih]

theorem succeeded_snoc {calls : List (Json × Attempt)} {results : List (Except Error Recorded)}
    (h : results.length = calls.length) (call : Json × Attempt) (r : Except Error Recorded) :
    succeeded (calls ++ [call]) (results ++ [r]) =
      succeeded calls results ++ if r.isOk then [call] else [] := by
  rw [succeeded, List.zip_append h.symm, List.filter_append, List.map_append]
  cases r <;> rfl

/-- Without the calls that fail everything else is the same. -/
theorem recordAll_succeeded (config : Config) (d : Durable) (calls : List (Json × Attempt)) :
    recordAll config d (succeeded calls (recordAll config d calls).2) =
      ((recordAll config d calls).1, (recordAll config d calls).2.filter Except.isOk) := by
  induction calls using List.reverseRecOn with
  | nil => rfl
  | append_singleton calls call ih =>
    rw [recordAll_snoc, succeeded_snoc (recordAll_length config d calls), List.filter_append]
    cases hone : recordOne config (recordAll config d calls).1 call with
    | mk d' r =>
      cases r with
      | error e =>
        obtain rfl := recordOne_error hone
        have hfails : (Except.error e : Except Error Recorded).isOk = false := rfl
        rw [hfails, if_neg Bool.false_ne_true, List.append_nil, ih, List.filter_cons_of_neg (by simp [hfails]),
          List.filter_nil, List.append_nil]
      | ok r =>
        have hworks : (Except.ok r : Except Error Recorded).isOk = true := rfl
        rw [hworks, if_pos rfl, recordAll_snoc, ih, hone, List.filter_cons_of_pos hworks,
          List.filter_nil]

/-! ### What the calls that succeed make of the archive -/

def Archive.recordList (a : Archive) (ss : List Stored) : Archive := ss.foldl Archive.record a

theorem recordList_snoc (a : Archive) (ss : List Stored) (s : Stored) :
    a.recordList (ss ++ [s]) = (a.recordList ss).record s := List.foldl_append

/-- A successful call, and the snapshot its submission was accepted as. -/
def AcceptedAs (config : Config) (call : Json × Attempt) (s : Stored) : Prop :=
  ∃ receivedAt, call.2.clock = .ok receivedAt ∧
    sanitizeSubmission call.1 receivedAt config.requireGrease = .ok s.snapshot

/-- One call on a state that stands for an archive: it fails, or it records a snapshot. -/
theorem recordOne_toState (config : Config) (a : Archive) (file : Option String)
    (call : Json × Attempt) :
    (∃ e, recordOne config ⟨a.toState config.maxChanges, file⟩ call =
      (⟨a.toState config.maxChanges, file⟩, .error e)) ∨
    ∃ s, AcceptedAs config call s ∧ recordOne config ⟨a.toState config.maxChanges, file⟩ call =
      (⟨(a.record s).toState config.maxChanges, some ((a.record s).toState config.maxChanges).text⟩,
        .ok (a.recorded s)) := by
  obtain ⟨input, clock, persist⟩ := call
  cases clock with
  | error e => exact .inl ⟨e, rfl⟩
  | ok receivedAt =>
    cases hs : sanitizeSubmission input receivedAt config.requireGrease with
    | error e =>
      refine .inl ⟨e, ?_⟩
      simp only [recordOne, prepare_error hs]
    | ok current =>
      let s : Stored := ⟨current, (sanitizeSubmission_eq_ok.mp hs).2.wellFormed⟩
      have hp := prepare_toState (s := s) hs a
      cases persist with
      | error e =>
        refine .inl ⟨e, ?_⟩
        simp only [recordOne, hp]
      | ok _ =>
        refine .inr ⟨s, ⟨receivedAt, rfl, hs⟩, ?_⟩
        simp only [recordOne, hp]

/-- The successful calls, in order, are recorded in the archive; the others do nothing. -/
theorem recordAll_toState (config : Config) (a : Archive) (file : Option String)
    (calls : List (Json × Attempt)) : ∃ ss : List Stored,
      List.Forall₂ (AcceptedAs config)
        (succeeded calls (recordAll config ⟨a.toState config.maxChanges, file⟩ calls).2) ss ∧
      (recordAll config ⟨a.toState config.maxChanges, file⟩ calls).1 =
        ⟨(a.recordList ss).toState config.maxChanges,
          if ss = [] then file else some ((a.recordList ss).toState config.maxChanges).text⟩ := by
  induction calls using List.reverseRecOn with
  | nil => exact ⟨[], .nil, rfl⟩
  | append_singleton calls call ih =>
    obtain ⟨ss, haccepted, hall⟩ := ih
    rw [recordAll_snoc, succeeded_snoc (recordAll_length ..), hall]
    rcases recordOne_toState config (a.recordList ss)
      (if ss = [] then file else some ((a.recordList ss).toState config.maxChanges).text) call with
      ⟨e, hone⟩ | ⟨s, hs, hone⟩
    · refine ⟨ss, ?_, by rw [hone]⟩
      rw [hone]
      simpa [Except.isOk, Except.toBool] using haccepted
    · refine ⟨ss ++ [s], ?_, ?_⟩
      · rw [hone]
        simp only [Except.isOk, Except.toBool, if_true]
        exact List.rel_append haccepted (.cons hs .nil)
      · rw [hone, recordList_snoc, if_neg (by simp)]

/-! ### Every run of the queue -/

/-- The queue of a store after the given events. -/
def runStore (config : Config) (state : StoreState) (file temporary : Option String)
    (events : List (Serial.Event (recordProcedure config))) :
    Serial.State (recordProcedure config) :=
  Serial.run (recordProcedure config) ⟨⟨state, file⟩, temporary⟩ events

/-- The call with this number is on its way, and its submission was accepted as `s` at the time it
    read when it started. -/
def OnItsWay (config : Config) (events : List (Serial.Event (recordProcedure config)))
    (m : Serial.State (recordProcedure config)) (n : Nat) (s : Stored) : Prop :=
  ∃ input frame receivedAt, m.calls[n]? = some (.running input frame) ∧
    Except.ok receivedAt ∈ Serial.started events ∧
    sanitizeSubmission input receivedAt config.requireGrease = .ok s.snapshot

/-- A state of the queue is the one after `calls` one at a time, in call order, from `a`. `stored` are
    the snapshots of those that succeeded. -/
structure SequentialRun (config : Config) (a : Archive) (d : Durable)
    (events : List (Serial.Event (recordProcedure config)))
    (m : Serial.State (recordProcedure config)) (calls : List (Json × Attempt))
    (stored : List Stored) : Prop where
  /-- The calls that have settled are the first ones, each with its own reading and result. -/
  inputs : calls.map Prod.fst = (Serial.issued events).take calls.length
  clocks : (calls.map fun call => call.2.clock).Sublist (Serial.started events)
  settled : m.calls.take calls.length =
    List.zipWith (fun call r => .settled call.1 r) calls (recordAll config d calls).2
  unsettled : ∀ c ∈ m.calls.drop calls.length, c.isSettled = false
  /-- The state is theirs, and so is the file, unless the next call has renamed its own into place. -/
  state : m.shared.state = (recordAll config d calls).1.state
  file : m.shared.file = (recordAll config d calls).1.file ∨
    ∃ s, OnItsWay config events m calls.length s ∧
      m.shared.file = some (((a.recordList stored).record s).toState config.maxChanges).text
  /-- It would be the same, with the same results of the others, without the calls that failed. -/
  erased : recordAll config d (succeeded calls (recordAll config d calls).2) =
    ((recordAll config d calls).1, (recordAll config d calls).2.filter Except.isOk)
  /-- A snapshot is kept under the key of its browser. -/
  keyed : ∀ key j, m.shared.state.latest.get key = .json j →
    (j.get "browser").optional "key" = .json (.str key)
  /-- State and file stand for the archive of what was stored, which is what succeeded. -/
  accepted : List.Forall₂ (AcceptedAs config) (succeeded calls (recordAll config d calls).2) stored
  archive : (recordAll config d calls).1 = ⟨(a.recordList stored).toState config.maxChanges,
    if stored = [] then d.file else some ((a.recordList stored).toState config.maxChanges).text⟩

theorem toState_keyed (a : Archive) (maxChanges : Nat) (key : String) (j : Json)
    (h : (a.toState maxChanges).latest.get key = .json j) :
    (j.get "browser").optional "key" = .json (.str key) := by
  simp only [Archive.toState, Json.get] at h
  split at h
  · next hlookup =>
    cases h
    obtain ⟨front, back, hsplit, -⟩ := List.lookup_eq_some_iff.mp hlookup
    have hmem : (key, j) ∈ a.latest.map fun s => (s.family.key, s.snapshot.toJson) := by
      rw [hsplit]
      simp
    obtain ⟨s, -, hs⟩ := List.mem_map.mp hmem
    cases hs
    rw [Snapshot.get_browser]
    exact Browser.get_key _
  · unfold Json.inherited at h
    split at h <;> cases h

/-- While a call is on its way the file is as before, or already the one the call leaves. -/
theorem Progress.file_cases {config : Config} {input : Json} {clock : Except Error String}
    {s s' : Shared} {frame : Frame} (h : Progress config input clock s s' (.inl frame)) {a : Archive}
    (ha : s.state = a.toState config.maxChanges) : s'.file = s.file ∨ ∃ (t : Stored) (receivedAt : String),
      clock = .ok receivedAt ∧ sanitizeSubmission input receivedAt config.requireGrease = .ok t.snapshot ∧
      s'.file = some ((a.record t).toState config.maxChanges).text := by
  obtain ⟨step, next, result⟩ := frame
  obtain ⟨-, ⟨receivedAt, hclock, hp⟩, hfile⟩ := h
  cases step with
  | mkdir => exact .inl hfile
  | write => exact .inl hfile
  | rename => exact .inl hfile.1
  | assign =>
    rw [ha] at hp
    cases hs : sanitizeSubmission input receivedAt config.requireGrease with
    | error e =>
      rw [prepare_error hs] at hp
      cases hp
    | ok current =>
      let t : Stored := ⟨current, (sanitizeSubmission_eq_ok.mp hs).2.wellFormed⟩
      rw [prepare_toState (s := t) hs] at hp
      cases hp
      exact .inr ⟨t, receivedAt, hclock, hs, hfile⟩

theorem zipWith_settled {φ : Type} : ∀ {calls : List (Json × Attempt)}
    {done : List (Serial.Done (Except Error String) Json (Except Error Recorded))},
    calls.map Prod.fst = done.map Serial.Done.input → Serial.settledCalls (φ := φ) done =
      List.zipWith (fun call r => .settled call.1 r) calls (done.map Serial.Done.outcome)
  | [], [], _ => rfl
  | call :: calls, d :: done, h => by
    obtain ⟨hhead, htail⟩ := List.cons.inj h
    rw [List.map_cons, List.zipWith_cons_cons, ← zipWith_settled htail, hhead]
    rfl

/-- Every run of the queue on a state that stands for an archive is a sequential one. -/
theorem run_sequential (config : Config) (a : Archive) (file temporary : Option String)
    (events : List (Serial.Event (recordProcedure config))) : ∃ calls stored,
      SequentialRun config a ⟨a.toState config.maxChanges, file⟩ events
        (runStore config (a.toState config.maxChanges) file temporary events) calls stored := by
  have hinputs := Serial.run_inputs (recordProcedure config)
    ⟨⟨a.toState config.maxChanges, file⟩, temporary⟩ events
  obtain ⟨done, hserial⟩ := Serial.run_serialised (recordProcedure config)
    ⟨⟨a.toState config.maxChanges, file⟩, temporary⟩ events
  obtain ⟨s, hsequential, hprogress⟩ : ∃ s, Serial.Sequential (recordProcedure config)
      ⟨⟨a.toState config.maxChanges, file⟩, temporary⟩ done s ∧
      (s = (runStore config (a.toState config.maxChanges) file temporary events).shared ∨
        ∃ input clock frame, (runStore config (a.toState config.maxChanges) file temporary
          events).calls[done.length]? = some (.running input frame) ∧
          clock ∈ Serial.started events ∧ Progress config input clock s
          (runStore config (a.toState config.maxChanges) file temporary events).shared (.inl frame)) := by
    rcases hserial.shared_cases with h | ⟨s, input, clock, frame, h, hx, hrunning, hanswers⟩
    · exact ⟨_, h, .inl rfl⟩
    · exact ⟨s, h, .inr ⟨input, clock, frame, hrunning, hanswers.subset (by simp), progress_of_exec hx⟩⟩
  obtain ⟨calls, hfst, hclocks, hall⟩ := recordAll_of_sequential hsequential
  obtain ⟨stored, haccepted, harchive⟩ := recordAll_toState config a file calls
  have hlength : calls.length = done.length := by simpa using congrArg List.length hfst
  have hsstate : s.state = (a.recordList stored).toState config.maxChanges := by
    have := congrArg Durable.state harchive
    rwa [hall] at this
  have hstate : (runStore config (a.toState config.maxChanges) file temporary events).shared.state =
      s.state := by
    rcases hprogress with rfl | ⟨input, clock, frame, -, -, h⟩
    · rfl
    · exact h.1
  refine ⟨calls, stored, ?_⟩
  exact {
    inputs := by rw [hfst, hserial.inputs, hlength, hinputs]
    clocks := by rw [hclocks]; exact hserial.answers_sublist
    settled := by rw [hlength, hall, ← zipWith_settled hfst]; exact hserial.take_calls
    unsettled := by rw [hlength]; exact hserial.drop_calls
    state := by rw [hstate, hall]
    file := by
      rw [hall, hlength]
      rcases hprogress with rfl | ⟨input, clock, frame, hrunning, hstarted, h⟩
      · exact .inl rfl
      · exact (h.file_cases hsstate).imp id fun ⟨s', receivedAt, hclock, hs', hfile⟩ =>
          ⟨s', ⟨input, frame, receivedAt, hrunning, hclock ▸ hstarted, hs'⟩, hfile⟩
    erased := recordAll_succeeded config _ calls
    keyed := by rw [hstate, hsstate]; exact toState_keyed _ _
    accepted := haccepted
    archive := harchive }

theorem empty_toState (maxChanges : Nat) : Archive.empty.toState maxChanges = emptyState := by
  simp [Archive.toState, Archive.empty, emptyState, sliceLast]

/-- However calls are issued, answered and interleaved, a store is the one after its calls one at a
    time, in call order: its changes are the last ones of the log, oldest first. -/
theorem record_serial (config : Config) (hmax : 1 ≤ config.maxChanges)
    (file temporary : Option String) (events : List (Serial.Event (recordProcedure config))) :
    ∃ calls stored, SequentialRun config .empty ⟨emptyState, file⟩ events
        (runStore config emptyState file temporary events) calls stored ∧
      (runStore config emptyState file temporary events).shared.state.changes =
        ((Archive.empty.recordList stored).log.map Change.toJson).drop
          ((Archive.empty.recordList stored).log.length - config.maxChanges) := by
  obtain ⟨calls, stored, h⟩ := run_sequential config .empty file temporary events
  rw [empty_toState] at h
  refine ⟨calls, stored, h, ?_⟩
  rw [h.state, h.archive]
  simp only [Archive.toState, sliceLast, if_neg (Nat.one_le_iff_ne_zero.mp hmax), List.length_map]

/-- Two calls. The file of the first is not written whole, and the second is issued before that. -/
def failingPosts : List (Serial.Event (recordProcedure ⟨100, false⟩)) :=
  [.issue fullEchoRun, .start 0 (.ok "2026-07-16T12:00:00.000Z"), .resume 0 .done, .issue poolingRun,
    .start 1 (.ok "2026-07-16T12:00:00.000Z"),
    .resume 0 (.failed (.error "ENOSPC: no space left on device") (some "\x7b")),
    .start 1 (.ok "2026-07-16T12:00:01.000Z"), .resume 1 .done, .resume 1 .done, .resume 1 .done,
    .resume 1 .done]

/-- What the calls of a queue that have settled came to. -/
def outcomes {config : Config} (m : Serial.State (recordProcedure config)) : List (Option Bool) :=
  m.calls.map fun
    | .settled _ r => some r.isOk
    | _ => none

set_option maxRecDepth 100000 in
theorem failingPosts_outcomes :
    outcomes (runStore ⟨100, false⟩ emptyState none none failingPosts) = [some false, some true] := by
  decide +kernel

/-- The queue goes on behind the call that failed. -/
theorem failingPosts_serial :
    outcomes (runStore ⟨100, false⟩ emptyState none none failingPosts) = [some false, some true] ∧
    ∃ calls stored, SequentialRun ⟨100, false⟩ .empty ⟨emptyState, none⟩ failingPosts
      (runStore ⟨100, false⟩ emptyState none none failingPosts) calls stored := by
  obtain ⟨calls, stored, h, -⟩ := record_serial ⟨100, false⟩ (by decide) none none failingPosts
  exact ⟨failingPosts_outcomes, calls, stored, h⟩

end WebTransportEcho.Store
