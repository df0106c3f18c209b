import WebTransportEcho.Store.Diff

/-! The texts a store can write. `vocabulary` are the fixed words of the source; a `Phrase` is made of
    them, of counts up to 4096 and of versions of one to four digits, with fixed text in between, so
    that no two numbers meet. Every key and string of a stored snapshot but its time is a phrase,
    and so is every text of a difference. -/

namespace WebTransportEcho.Store
open Js

/-! ### Phrases -/

/-- The properties of the records. -/
def recordKeys : List String :=
  ["schemaVersion", "latest", "changes", "at", "browserKey", "browserName", "browserVersion",
    "receivedAt", "browser", "key", "name", "version", "capabilities", "secureContext",
    "webTransport", "run", "mode", "plannedCases", "completedCases", "cancelled", "metrics",
    "conclusion", "paths", "path", "total", "effects", "withOption", "withoutOption", "ready",
    "combinations", "mask", "options", "signal", "grease", "control", "enabled", "verdict"]

/-- Whole texts, and the words that longer ones begin or end with. -/
def sentences : List String :=
  ["exhaustive", "WebTransport API unavailable", "Full datagram and stream echo works",
    "Ready and stream echo work; datagram API unavailable",
    "Ready and stream echo work; datagram echo failed", "Ready works; complete stream echo did not",
    "WebTransport exists; no case reached ready", "All constructor calls failed",
    "No combination reached ready", "Every tested combination reached ready",
    "Mixed or interacting option effects", "ready only with", "ready only without",
    "Initial result recorded", "Version", "Secure context", "WebTransport API", "Planned cases",
    "GREASE", "GREASE stage outcomes changed", "option signal changed", "option matrix changed",
    "added", "unknown", "available", "unavailable", "true", "false"]

attribute [local simp] recordKeys sentences

/-- The fixed texts of the source. -/
inductive Word : String → Prop where
  | key {w : String} (h : w ∈ recordKeys) : Word w
  | sentence {w : String} (h : w ∈ sentences) : Word w
  | path (p : ResultPath) : Word p.text
  | familyKey (f : Family) : Word f.key
  | familyName (f : Family) : Word f.name
  | metricKey (m : Metric) : Word m.key
  | metricLabel {m : Metric × String} (h : m ∈ metrics) : Word m.2
  | pathMetricLabel {m : PathMetric × String} (h : m ∈ pathMetrics) : Word m.2
  | option (k : OptionKey) : Word k.text
  | optionLabel (k : OptionKey) : Word k.label
  | outcome (o : Outcome) : Word o.text
  | verdict (v : Verdict) : Word v.text

/-- What stands between two parts of a text. -/
def glue : List String := [" ", " -> ", ", ", "; ", ": ", "/"]

inductive Phrase : String → Prop where
  | word {w : String} (h : Word w) : Phrase w
  | count {n : Nat} (h : n ≤ 4096) : Phrase (toString n)
  | version {v : String} (h : IsVersion v) : Phrase v
  | join {s t : String} (hs : Phrase s) (w : String) (hw : w ∈ glue) (ht : Phrase t) :
    Phrase (s ++ w ++ t)

mutual
/-- Every key and string of the document has the property. -/
def Texts (ok : String → Prop) : Json → Prop
  | .str s => ok s
  | .arr items => TextsItems ok items
  | .obj fields => TextsFields ok fields
  | _ => True

def TextsItems (ok : String → Prop) : List Json → Prop
  | [] => True
  | j :: js => Texts ok j ∧ TextsItems ok js

def TextsFields (ok : String → Prop) : List (String × Json) → Prop
  | [] => True
  | (k, j) :: fs => ok k ∧ Texts ok j ∧ TextsFields ok fs
end

section Texts

variable {ok : String → Prop}

theorem texts_arr {js : List Json} : Texts ok (.arr js) ↔ ∀ j ∈ js, Texts ok j := by
  rw [Texts]
  induction js with
  | nil => simp [TextsItems]
  | cons j js ih => simp [TextsItems, ih]

theorem texts_obj {fs : List (String × Json)} :
    Texts ok (.obj fs) ↔ ∀ f ∈ fs, ok f.1 ∧ Texts ok f.2 := by
  rw [Texts]
  induction fs with
  | nil => simp [TextsFields]
  | cons f fs ih => simp [TextsFields, ih, and_assoc]

end Texts

theorem phrase_intercalate {w : String} (hw : w ∈ glue) : ∀ {ts : List String}, ts ≠ [] →
    (∀ t ∈ ts, Phrase t) → Phrase (String.intercalate w ts)
  | [], h, _ => absurd rfl h
  | [t], _, h => by
    rw [String.intercalate_singleton]
    exact h t (by simp)
  | t :: u :: ts, _, h => by
    rw [String.intercalate_cons_cons]
    exact (h t (by simp)).join w hw (phrase_intercalate hw (by simp) fun x hx => h x (by simp [hx]))

theorem phrase_arrow {label a b : String} (hlabel : Word label) (ha : Phrase a) (hb : Phrase b) :
    Phrase (label ++ " " ++ a ++ " -> " ++ b) :=
  ((Phrase.word hlabel).join " " (by decide) ha).join " -> " (by decide) hb

theorem phrase_key {w : String} (h : w ∈ recordKeys) : Phrase w := .word (.key h)

theorem phrase_sentence {w : String} (h : w ∈ sentences) : Phrase w := .word (.sentence h)

theorem phrase_bool (b : Bool) : Phrase (toString b) := by
  cases b
  · show Phrase "false"
    exact phrase_sentence (by simp)
  · show Phrase "true"
    exact phrase_sentence (by simp)

theorem phrase_api (b : Bool) : Phrase (apiName b) := by
  cases b <;> exact phrase_sentence (by simp [apiName])

theorem phrase_version {b : Browser} (h : ∀ v ∈ b.version, IsVersion v) : Phrase (versionName b) := by
  unfold versionName
  cases hb : b.version with
  | none => exact phrase_sentence (by simp)
  | some v => exact .version (h v hb)

theorem phrase_verdictName (g : Option Grease) : Phrase (verdictName g) := by
  cases g with
  | none => exact phrase_sentence (by simp [verdictName])
  | some g => exact .word (.verdict g.verdict)

/-! ### Derived texts -/

theorem phrase_signalPart (intro : String) (hintro : Word intro) {es : List Effect} {t : String}
    (ht : t ∈ signalPart (intro ++ " ") es) : Phrase t := by
  unfold signalPart at ht
  split at ht
  · cases ht
  · next hne =>
    rw [List.mem_singleton] at ht
    subst ht
    refine (Phrase.word hintro).join " " (by decide) (phrase_intercalate (by decide) ?_ ?_)
    · simpa using hne
    · intro u hu
      obtain ⟨e, -, rfl⟩ := List.mem_map.mp hu
      exact .word (.optionLabel e.key)

theorem phrase_signal (total ready : Nat) (effects : List Effect) (capabilities : Capabilities) :
    Phrase (optionSignal total ready effects capabilities) := by
  unfold optionSignal
  split_ifs
  · exact phrase_sentence (by simp)
  · exact phrase_sentence (by simp)
  · exact phrase_sentence (by simp)
  · unfold effectSignal
    simp only
    split
    · exact phrase_sentence (by simp)
    · next hne =>
      refine phrase_intercalate (by decide) (by simpa using hne) fun t ht => ?_
      rcases List.mem_append.mp ht with ht | ht
      · exact phrase_signalPart "ready only with" (.sentence (by simp)) ht
      · exact phrase_signalPart "ready only without" (.sentence (by simp)) ht

theorem phrase_conclusion (capabilities : Capabilities) (metrics : Metric → Nat) :
    Phrase (conclusionFor capabilities metrics) := by
  unfold conclusionFor
  split_ifs <;> exact phrase_sentence (by simp)

/-! ### The documents of a snapshot -/

section Documents

variable {ok : String → Prop} (hok : ∀ t, Phrase t → ok t)

include hok

theorem key_ok {w : String} (h : w ∈ recordKeys) : ok w := hok _ (phrase_key h)

/-- A record whose property names are all of the source. -/
theorem texts_record {fs : List (String × Json)} (hkeys : ∀ k ∈ fs.map Prod.fst, k ∈ recordKeys)
    (h : ∀ f ∈ fs, Texts ok f.2) : Texts ok (.obj fs) :=
  texts_obj.mpr fun f hf => ⟨key_ok hok (hkeys _ (List.mem_map_of_mem hf)), h f hf⟩

theorem texts_stages (keys : List Stage) (outcome : Stage → Outcome) :
    ∀ f ∈ stagesJson keys outcome, ok f.1 ∧ Texts ok f.2 := by
  intro f hf
  obtain ⟨s, -, rfl⟩ := List.mem_map.mp hf
  exact ⟨hok _ (.word (.metricKey (.stage s))), hok _ (.word (.outcome _))⟩

theorem texts_browser {b : Browser} (h : ∀ v ∈ b.version, IsVersion v) : Texts ok b.toJson := by
  refine texts_record hok (by simp) ?_
  simp only [List.forall_mem_cons]
  refine ⟨hok _ (.word (.familyKey _)), hok _ (.word (.familyName _)), ?_, by simp⟩
  cases hv : b.version with
  | none => trivial
  | some v => exact hok _ (.version (h v hv))

theorem texts_capabilities (c : Capabilities) : Texts ok c.toJson := by
  refine texts_record hok (by simp) ?_
  simp only [List.forall_mem_cons]
  exact ⟨trivial, trivial, by simp⟩

theorem texts_run (r : Run) : Texts ok r.toJson := by
  refine texts_record hok (by simp) ?_
  simp only [List.forall_mem_cons]
  exact ⟨hok _ (phrase_sentence (by simp)), trivial, trivial, trivial, by simp⟩

theorem texts_metrics (m : Metric → Nat) : Texts ok (metricsJson m) := by
  refine texts_obj.mpr fun f hf => ?_
  obtain ⟨e, -, rfl⟩ := List.mem_map.mp hf
  exact ⟨hok _ (.word (.metricKey e.1)), trivial⟩

theorem texts_ratio (r : Ratio) : Texts ok r.toJson := by
  refine texts_record hok (by simp) ?_
  simp only [List.forall_mem_cons]
  exact ⟨trivial, trivial, by simp⟩

theorem texts_effect (e : Effect) : Texts ok e.toJson := by
  refine texts_record hok (by simp) ?_
  simp only [List.forall_mem_cons]
  exact ⟨hok _ (.word (.option _)), texts_ratio hok _, texts_ratio hok _, by simp⟩

theorem texts_combination (c : Combination) : Texts ok c.toJson := by
  refine texts_obj.mpr ?_
  simp only [List.forall_mem_cons]
  refine ⟨⟨key_ok hok (by simp), trivial⟩, ⟨key_ok hok (by simp), texts_arr.mpr fun j hj => ?_⟩,
    texts_stages hok _ _⟩
  obtain ⟨k, -, rfl⟩ := List.mem_map.mp hj
  exact hok _ (.word (.option k))

theorem texts_path {p : PathResult} (h : Phrase p.signal) : Texts ok p.toJson := by
  refine texts_obj.mpr ?_
  simp only [List.cons_append, List.forall_mem_cons, List.forall_mem_append]
  refine ⟨⟨key_ok hok (by simp), hok _ (.word (.path _))⟩, ⟨key_ok hok (by simp), trivial⟩,
    fun f hf => ?_, ⟨key_ok hok (by simp), texts_arr.mpr fun j hj => ?_⟩,
    ⟨key_ok hok (by simp), texts_arr.mpr fun j hj => ?_⟩, ⟨key_ok hok (by simp), hok _ h⟩, by simp⟩
  · obtain ⟨e, -, rfl⟩ := List.mem_map.mp hf
    exact ⟨hok _ (.word (.metricKey (.path e.1))), trivial⟩
  · obtain ⟨e, -, rfl⟩ := List.mem_map.mp hj
    exact texts_effect hok e
  · obtain ⟨c, -, rfl⟩ := List.mem_map.mp hj
    exact texts_combination hok c

theorem texts_probe (p : Probe) : Texts ok (probeJson p) := texts_obj.mpr (texts_stages hok _ _)

theorem texts_grease (g : Grease) : Texts ok g.toJson := by
  refine texts_record hok (by simp) ?_
  simp only [List.forall_mem_cons]
  exact ⟨texts_probe hok _, texts_probe hok _, hok _ (.word (.verdict _)), by simp⟩

/-- In a stored snapshot only the time is not a phrase. -/
theorem texts_snapshot {s : Snapshot} (h : s.WellFormed) (hat : ok s.receivedAt) :
    Texts ok s.toJson := by
  refine texts_record hok (by simp [Snapshot.fields]) ?_
  simp only [Snapshot.fields, List.forall_mem_cons]
  refine ⟨hat, texts_browser hok h.version, texts_capabilities hok _, texts_run hok _,
    texts_metrics hok _, hok _ ?_, texts_arr.mpr fun j hj => ?_, ?_, by simp⟩
  · rw [h.conclusion]
    exact phrase_conclusion _ _
  · obtain ⟨p, hp, rfl⟩ := List.mem_map.mp hj
    refine texts_path hok ?_
    rw [h.signal p hp]
    exact phrase_signal _ _ _ _
  · cases s.grease with
    | none => trivial
    | some g => exact texts_grease hok g

end Documents

/-! ### The texts of a difference -/

theorem mem_note {c : Prop} [Decidable c] {text t : String} : t ∈ note c text ↔ c ∧ t = text := by
  unfold note
  split <;> simp_all

theorem phrase_notes {old path : PathResult} (hold : old.WellFormed) (hpath : path.WellFormed)
    {t : String} (ht : t ∈ old.notes path) : Phrase t := by
  simp only [PathResult.notes, List.mem_append, List.mem_flatMap] at ht
  rcases ht with (⟨m, hm, ht⟩ | ht) | ht
  · have hcount {p : PathResult} (hp : p.WellFormed) :
        Phrase (toString (p.count m.1) ++ "/" ++ toString p.total) := by
      have hle := hp.count_le m.1
      have htotal := hp.total_le
      exact (Phrase.count (by omega)).join "/" (by decide) (.count (by omega))
    have hjoin := phrase_arrow (.pathMetricLabel hm) (hcount hold) (hcount hpath)
    rw [(mem_note.mp ht).2]
    simpa [toString, String.append_assoc] using hjoin
  · rw [(mem_note.mp ht).2]
    exact phrase_sentence (by simp)
  · rw [(mem_note.mp ht).2]
    exact phrase_sentence (by simp)

theorem phrase_pathNotes {old : List PathResult} {path : PathResult} (hold : ∀ p ∈ old, p.WellFormed)
    (hpath : path.WellFormed) {t : String} (ht : t ∈ pathNotes old path) : Phrase t := by
  unfold pathNotes at ht
  split at ht
  · have hadded : Phrase "added" := phrase_sentence (by simp)
    rw [List.mem_singleton.mp ht]
    simpa [toString, String.append_assoc] using (Phrase.word (.path path.path)).join " " (by decide) hadded
  · next p hp =>
    have hwf := hold p (List.mem_of_find?_eq_some hp)
    obtain ⟨hne, rfl⟩ := mem_note.mp ht
    exact (Phrase.word (.path path.path)).join ": " (by decide)
      (phrase_intercalate (by decide) hne fun u hu => phrase_notes hwf hpath hu)

theorem phrase_greaseNotes {old new : Option Grease} {t : String} (ht : t ∈ greaseNotes old new) :
    Phrase t := by
  unfold greaseNotes at ht
  split at ht
  · split at ht
    · rw [(mem_note.mp ht).2]
      exact phrase_sentence (by simp)
    · cases ht
  · rw [List.mem_singleton.mp ht]
    simpa [toString] using phrase_arrow (.sentence (w := "GREASE") (by simp))
      (phrase_verdictName old) (phrase_verdictName new)

/-- Every text of a difference is a phrase. -/
theorem phrase_differences {old new : Snapshot} (hold : old.WellFormed) (hnew : new.WellFormed)
    {t : String} (ht : t ∈ differences old new) : Phrase t := by
  simp only [differences, List.mem_append, List.mem_flatMap] at ht
  rcases ht with (((((ht | ht) | ht) | ht) | ⟨m, hm, ht⟩) | ht) | ⟨p, hp, ht⟩
  · rw [(mem_note.mp ht).2]
    simpa [toString] using phrase_arrow (.sentence (w := "Version") (by simp))
      (phrase_version hold.version) (phrase_version hnew.version)
  · rw [(mem_note.mp ht).2]
    simpa [toString] using phrase_arrow (.sentence (w := "Secure context") (by simp))
      (phrase_bool old.capabilities.secureContext) (phrase_bool new.capabilities.secureContext)
  · rw [(mem_note.mp ht).2]
    simpa [toString] using phrase_arrow (.sentence (w := "WebTransport API") (by simp))
      (phrase_api old.capabilities.webTransport) (phrase_api new.capabilities.webTransport)
  · rw [(mem_note.mp ht).2]
    simpa [toString] using phrase_arrow (.sentence (w := "Planned cases") (by simp))
      (.count hold.planned_le) (.count hnew.planned_le)
  · have hle {s : Snapshot} (h : s.WellFormed) : s.metrics m.1 ≤ 4096 :=
      (h.metrics_le m.1).trans (h.completed_le.trans h.planned_le)
    rw [(mem_note.mp ht).2]
    exact phrase_arrow (.metricLabel hm) (.count (hle hold)) (.count (hle hnew))
  · exact phrase_greaseNotes ht
  · exact phrase_pathNotes hold.path (hnew.path p hp) ht

end WebTransportEcho.Store
