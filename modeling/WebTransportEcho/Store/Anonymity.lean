import WebTransportEcho.Store.Recovery
import WebTransportEcho.Store.Reduced
import WebTransportEcho.Store.Vocabulary

/-! What a store keeps of its clients. Two runs of the queue on submissions that agree in the reduced
    schema, with the same clock and the same I/O, end in the same state, the same file and the same
    results; and whatever was submitted, every text in the file is a phrase or a reading of the
    clock. -/

namespace WebTransportEcho.Store
open Js

/-! ### Submissions that agree -/

theorem prepare_agree {x y : Json} (h : submissionSchema sameVersion (.json x) (.json y))
    (config : Config) (state : StoreState) (receivedAt : String) :
    prepare config state x receivedAt = prepare config state y receivedAt := by
  rw [prepare, prepare, sanitizeSubmission_agree h]

theorem start_agree (config : Config) (x y : Json)
    (h : submissionSchema sameVersion (.json x) (.json y)) :
    (recordProcedure config).start x = (recordProcedure config).start y := by
  funext clock s
  cases clock with
  | error e => rfl
  | ok receivedAt => simp only [recordProcedure, prepare_agree h]

/-! ### The texts of an archive -/

/-- The times are `ok`, and everything else that is logged is a phrase. -/
structure Archive.Anonymous (ok : String → Prop) (a : Archive) : Prop where
  latest : ∀ s ∈ a.latest, ok s.snapshot.receivedAt
  time : ∀ c ∈ a.log, ok c.receivedAt
  version : ∀ c ∈ a.log, ∀ v ∈ c.browser.version, IsVersion v
  changes : ∀ c ∈ a.log, ∀ t ∈ c.changes, Phrase t

section

attribute [local simp] recordKeys sentences

variable {ok : String → Prop} {a : Archive}

theorem empty_anonymous : Archive.empty.Anonymous ok := by
  constructor <;> exact fun _ h => by cases h

theorem mem_putLatest {s t : Stored} : ∀ {ts : List Stored}, t ∈ putLatest s ts → t = s ∨ t ∈ ts
  | [], h => .inl (List.mem_singleton.mp h)
  | u :: us, h => by
    rw [putLatest] at h
    split at h
    · exact (List.mem_cons.mp h).imp id (List.mem_cons_of_mem u)
    · rcases List.mem_cons.mp h with rfl | h
      · exact .inr (by simp)
      · exact (mem_putLatest h).imp id (List.mem_cons_of_mem u)

theorem phrase_changesFor {s : Stored} {changes : List String} (h : a.changesFor s = some changes) :
    ∀ t ∈ changes, Phrase t := by
  intro t ht
  cases hold : a.find s.family with
  | none =>
    rw [Archive.changesFor, hold] at h
    cases h
    rw [List.mem_singleton.mp ht]
    exact phrase_sentence (by simp)
  | some old =>
    rw [differences_of_changesFor hold] at h
    split at h
    · cases h
    · cases h
      exact phrase_differences old.wellFormed s.wellFormed ht

/-- Recording a snapshot adds its time, its version and phrases. -/
theorem Archive.Anonymous.record (h : a.Anonymous ok) {s : Stored} (hs : ok s.snapshot.receivedAt) :
    (a.record s).Anonymous ok := by
  have hlog (c : Change) (hc : c ∈ (a.record s).log) : c ∈ a.log ∨ c.receivedAt = s.snapshot.receivedAt ∧
      c.browser = s.snapshot.browser ∧ a.changesFor s = some c.changes := by
    rw [Archive.record, List.mem_append, Option.mem_toList] at hc
    refine hc.imp id fun hc => ?_
    obtain ⟨changes, hchanges, rfl⟩ := Option.map_eq_some_iff.mp hc
    exact ⟨rfl, rfl, hchanges⟩
  refine ⟨fun t ht => ?_, fun c hc => ?_, fun c hc => ?_, fun c hc => ?_⟩
  · rcases mem_putLatest ht with rfl | ht
    · exact hs
    · exact h.latest t ht
  · rcases hlog c hc with hc | ⟨htime, -, -⟩
    · exact h.time c hc
    · rwa [htime]
  · rcases hlog c hc with hc | ⟨-, hbrowser, -⟩
    · exact h.version c hc
    · rw [hbrowser]
      exact s.wellFormed.version
  · rcases hlog c hc with hc | ⟨-, -, hchanges⟩
    · exact h.changes c hc
    · exact phrase_changesFor hchanges

theorem Archive.Anonymous.recordList (h : a.Anonymous ok) {ss : List Stored}
    (hss : ∀ s ∈ ss, ok s.snapshot.receivedAt) : (a.recordList ss).Anonymous ok := by
  induction ss using List.reverseRecOn with
  | nil => exact h
  | append_singleton ss s ih =>
    rw [recordList_snoc]
    exact (ih fun t ht => hss t (by simp [ht])).record (hss s (by simp))

theorem texts_event (hok : ∀ t, Phrase t → ok t) {c : Change} (hat : ok c.receivedAt)
    (hversion : ∀ v ∈ c.browser.version, IsVersion v) (hchanges : ∀ t ∈ c.changes, Phrase t) :
    Texts ok c.toJson := by
  refine texts_record hok (by simp) ?_
  simp only [List.forall_mem_cons]
  refine ⟨hat, hok _ (.word (.familyKey _)), hok _ (.word (.familyName _)), ?_,
    texts_arr.mpr fun j hj => ?_, by simp⟩
  · cases hv : c.browser.version with
    | none => trivial
    | some v => exact hok _ (.version (hversion v hv))
  · obtain ⟨t, ht, rfl⟩ := List.mem_map.mp hj
    exact hok _ (hchanges t ht)

theorem Archive.Anonymous.texts (hok : ∀ t, Phrase t → ok t) (h : a.Anonymous ok) (maxChanges : Nat) :
    Texts ok (a.toState maxChanges).toJson := by
  refine texts_record hok (by simp) ?_
  simp only [List.forall_mem_cons]
  refine ⟨trivial, texts_obj.mpr fun f hf => ?_, texts_arr.mpr fun j hj => ?_, by simp⟩
  · obtain ⟨s, hs, rfl⟩ := List.mem_map.mp hf
    exact ⟨hok _ (.word (.familyKey _)), texts_snapshot hok s.wellFormed (h.latest s hs)⟩
  · obtain ⟨c, hc, rfl⟩ := List.mem_map.mp (mem_of_mem_sliceLast hj)
    exact texts_event hok (h.time c hc) (h.version c hc) (h.changes c hc)

end

/-! ### Runs -/

/-- A phrase, or a time that the clock gave to a call. -/
def Anonymous {config : Config} (events : List (Serial.Event (recordProcedure config))) (t : String) :
    Prop :=
  Phrase t ∨ Except.ok t ∈ Serial.started events

theorem AcceptedAs.receivedAt {config : Config} {call : Json × Attempt} {s : Stored}
    (h : AcceptedAs config call s) : call.2.clock = .ok s.snapshot.receivedAt := by
  obtain ⟨receivedAt, hclock, hs⟩ := h
  rw [hclock, (sanitizeSubmission_eq_ok.mp hs).1]

theorem SequentialRun.stored_times {config : Config} {a : Archive} {d : Durable}
    {events : List (Serial.Event (recordProcedure config))}
    {m : Serial.State (recordProcedure config)} {calls : List (Json × Attempt)} {stored : List Stored}
    (h : SequentialRun config a d events m calls stored) {s : Stored} (hs : s ∈ stored) :
    Except.ok s.snapshot.receivedAt ∈ Serial.started events := by
  obtain ⟨call, hcall, haccepted⟩ := exists_of_forall₂_right h.accepted hs
  have hmem : call ∈ calls := by
    obtain ⟨c, hc, rfl⟩ := List.mem_map.mp hcall
    exact (List.of_mem_zip (List.mem_of_mem_filter hc)).1
  rw [← haccepted.receivedAt]
  exact h.clocks.subset (List.mem_map_of_mem hmem)

/-- What the queue has made of anonymous texts is anonymous, in memory and in the file. -/
theorem SequentialRun.anonymous {config : Config} {a : Archive} {file : Option String}
    {events : List (Serial.Event (recordProcedure config))}
    {m : Serial.State (recordProcedure config)} {calls : List (Json × Attempt)} {stored : List Stored}
    (h : SequentialRun config a ⟨a.toState config.maxChanges, file⟩ events m calls stored)
    (ha : a.Anonymous (Anonymous events)) : Texts (Anonymous events) m.shared.state.toJson ∧
      (m.shared.file = file ∨ ∃ document, m.shared.file.map parse = some (.ok document) ∧
        Texts (Anonymous events) document) := by
  have hok (t : String) (ht : Phrase t) : Anonymous events t := .inl ht
  have hstored := ha.recordList fun s hs => .inr (h.stored_times hs)
  have hwritten {b : Archive} (hb : b.Anonymous (Anonymous events))
      (hfile : m.shared.file = some (b.toState config.maxChanges).text) :
      ∃ document, m.shared.file.map parse = some (.ok document) ∧ Texts (Anonymous events) document := by
    refine ⟨_, ?_, hb.texts hok config.maxChanges⟩
    rw [hfile, Option.map_some, StoreState.text,
      parse_stringify 2 (state_plain b config.maxChanges) "\n" (Or.inr rfl)]
  refine ⟨?_, ?_⟩
  · rw [h.state, h.archive]
    exact hstored.texts hok config.maxChanges
  · rcases h.file with hfile | ⟨s, ⟨input, frame, receivedAt, -, hstarted, hs⟩, hfile⟩
    · rw [h.archive] at hfile
      by_cases hnil : stored = []
      · exact .inl (by simpa [hnil] using hfile)
      · exact .inr (hwritten hstored (by simpa [hnil] using hfile))
    · refine .inr (hwritten (hstored.record (s := s) (.inr ?_)) hfile)
      rwa [(sanitizeSubmission_eq_ok.mp hs).1]

/-- Runs on submissions that agree in the schema, with the same answers from the clock and the disk,
    cannot be told apart, and whatever is submitted, what is written is anonymous. -/
theorem record_anonymous (config : Config) (events events' : List (Serial.Event (recordProcedure config)))
    (h : List.Forall₂ (Serial.Event.Rel fun x y => submissionSchema sameVersion (.json x) (.json y))
      events events') (state : StoreState) (file temporary : Option String) :
    (let m := runStore config state file temporary events
      let m' := runStore config state file temporary events'
      m.shared = m'.shared ∧ m.calls.map Serial.Call.outcome = m'.calls.map Serial.Call.outcome ∧
        ∀ localeCompare generatedAt, publicSnapshot localeCompare generatedAt m.shared.state =
          publicSnapshot localeCompare generatedAt m'.shared.state) ∧
    let m := runStore config emptyState none temporary events
    Texts (Anonymous events) m.shared.state.toJson ∧ ∀ text, m.shared.file = some text →
      ∃ document, parse text = .ok document ∧ Texts (Anonymous events) document := by
  have hrel := Serial.run_rel (start_agree config) ⟨⟨state, file⟩, temporary⟩ h
  refine ⟨⟨hrel.shared, Serial.outcome_rel hrel.calls, fun localeCompare generatedAt => ?_⟩, ?_⟩
  · rw [runStore, runStore, hrel.shared]
  · obtain ⟨calls, stored, hrun⟩ := run_sequential config .empty none temporary events
    obtain ⟨hstate, hfile⟩ := hrun.anonymous empty_anonymous
    rw [empty_toState] at hstate hfile
    refine ⟨hstate, fun text htext => ?_⟩
    rcases hfile with hnone | ⟨document, hparse, htexts⟩
    · rw [hnone] at htext
      cases htext
    · rw [htext, Option.map_some] at hparse
      exact ⟨document, Option.some.inj hparse, htexts⟩

/-! ### Submissions with another browser -/

/-- The run in which everything passes, from this browser. -/
def runFrom (browser : Json) : Json :=
  .obj (("browser", browser) :: fullEchoRun.entries.filter fun f => decide (f.1 ≠ "browser"))

theorem alike_fields {α : Type} (keys : List α) (name : α → String) :
    ∀ f ∈ keys.map fun k => (name k, Alike), ∀ v, f.2 v v := by
  intro f hf v
  obtain ⟨k, -, rfl⟩ := List.mem_map.mp hf
  exact .refl v

theorem pathSchema_refl : ∀ v, pathSchema v v := by
  have hratio : ∀ v, ratioSchema v v := Record.refl (by simp [Alike.refl])
  have heffect : ∀ v, effectSchema v v := Record.refl (by simp [Alike.refl, hratio])
  have hcombination : ∀ v, combinationSchema v v := by
    refine Record.refl ?_
    simp only [List.forall_mem_cons]
    exact ⟨.refl, Items.refl .refl, alike_fields combinationStageKeys Stage.key⟩
  refine Record.refl ?_
  simp only [List.forall_mem_cons]
  exact ⟨.refl, .refl, Items.refl heffect, Items.refl hcombination,
    alike_fields pathMetrics fun m => m.1.key⟩

theorem greaseSchema_refl : ∀ v, greaseSchema v v := by
  have hprobe : ∀ v, probeSchema v v := Record.refl (alike_fields greaseProbeKeys Stage.key)
  exact Record.refl (by simp [hprobe])

/-- Two browsers that agree make submissions that do. -/
theorem runFrom_agree {version : Agreement} {x y : Json}
    (h : browserSchema version (.json x) (.json y)) :
    submissionSchema version (.json (runFrom x)) (.json (runFrom y)) := by
  have hcapabilities : ∀ v, capabilitiesSchema v v := Record.refl (by simp [Alike.refl])
  have hrun : ∀ v, runSchema v v := Record.refl (by simp [Alike.refl])
  have hmetrics : ∀ v, metricsSchema v v := Record.refl (alike_fields metrics fun m => m.1.key)
  refine Record.of_field _ ?_ ?_
  · simp only [List.forall_mem_cons]
    exact ⟨fun _ => .refl, fun hne => absurd rfl hne, fun _ => hcapabilities, fun _ => hrun,
      fun _ => hmetrics, fun _ => Items.refl pathSchema_refl, fun _ => greaseSchema_refl, by simp⟩
  · intro R hR
    obtain rfl : R = browserSchema version := by simpa using hR
    exact h

def browserOf (name version : Json) : Json := .obj [("name", name), ("version", version)]

theorem browserOf_agree {version : Agreement} {n n' v v' : Json} (hname : sameFamily (.json n) (.json n'))
    (hversion : version (.json v) (.json v')) :
    browserSchema version (.json (browserOf n v)) (.json (browserOf n' v')) := by
  refine ⟨.objects _ _, ?_⟩
  simp only [List.forall_mem_cons]
  exact ⟨by simpa [browserOf, Json.get] using hname,
    by simpa [browserOf, Json.get, List.lookup_cons] using hversion, by simp⟩

/-- A run in which one submission is recorded. -/
def onePost (input : Json) : List (Serial.Event (recordProcedure ⟨100, false⟩)) :=
  [.issue input, .start 0 (.ok "2026-07-16T12:00:00.000Z"), .resume 0 .done, .resume 0 .done,
    .resume 0 .done, .resume 0 .done]

theorem onePost_agree {version : Agreement} {x y : Json}
    (h : browserSchema version (.json x) (.json y)) :
    List.Forall₂ (Serial.Event.Rel fun x y => submissionSchema version (.json x) (.json y))
      (onePost (runFrom x)) (onePost (runFrom y)) := by
  refine .cons (.issue (runFrom_agree h)) (.cons (.start 0 _) ?_)
  exact .cons (.resume 0 _) (.cons (.resume 0 _) (.cons (.resume 0 _) (.cons (.resume 0 _) .nil)))

/-- Two spellings of one browser and its version. -/
theorem spelling_anonymous :
    (runStore ⟨100, false⟩ emptyState none none
      (onePost (runFrom (browserOf (.str "Firefox") (.str "141"))))).shared =
    (runStore ⟨100, false⟩ emptyState none none
      (onePost (runFrom (browserOf (.str "FIREFOX") (.str "141.0.2 nightly"))))).shared := by
  have hname : sameFamily (.json (.str "Firefox")) (.json (.str "FIREFOX")) := by
    unfold sameFamily
    decide
  have hdigits : leadingDigits "141" = leadingDigits "141.0.2 nightly" := by decide
  have hversion : sameVersion (.json (.str "141")) (.json (.str "141.0.2 nightly")) :=
    congrArg Except.ok hdigits
  exact (record_anonymous ⟨100, false⟩ _ _ (onePost_agree (browserOf_agree hname hversion)) emptyState
    none none).1.1

/-- The relation that also ignores the properties of a version that is an object. -/
def sameVersionOrObjects : Agreement := fun v w =>
  sameVersion v w ∨ ∃ fs gs, v = .json (.obj fs) ∧ w = .json (.obj gs)

set_option maxRecDepth 100000 in
/-- An extra property `toString` of a version that is an object is not ignored: without it the version
    has a text, with it `String` throws and nothing is stored. -/
theorem versionObject_distinguished :
    let plain := onePost (runFrom (browserOf (.str "Firefox") (.obj [])))
    let extra := onePost (runFrom (browserOf (.str "Firefox") (.obj [("toString", .nat 1)])))
    List.Forall₂ (Serial.Event.Rel fun x y =>
      submissionSchema sameVersionOrObjects (.json x) (.json y)) plain extra ∧
    (runStore ⟨100, false⟩ emptyState none none plain).shared.file.isSome = true ∧
    (runStore ⟨100, false⟩ emptyState none none extra).shared.file.isSome = false :=
  ⟨onePost_agree (browserOf_agree rfl (.inr ⟨_, _, rfl, rfl⟩)), by decide, by decide⟩

end WebTransportEcho.Store
