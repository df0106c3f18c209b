import WebTransportEcho.Store.Document

/-! `diffSnapshots`: the texts of a change event. The previous snapshot can come from a file, so both
    sides are read as JSON documents, with the throws of a read that fails.

    On the documents of two well-formed snapshots nothing throws, and the list is the one
    `differences` spells out (`diffSnapshots_toJson`). It is empty exactly when the snapshots agree
    in everything but the time and the effects: a field it does not compare is determined by the
    ones it does, and a text of `JSON.stringify` by the document. -/

namespace WebTransportEcho.Store
open Js

/-! ### The comparison of two documents -/

/-- `` `${value ?? "unknown"}` ``. -/
def display (value : Value) : Except Error String :=
  if value.isNullish then .ok "unknown" else value.toText

/-- `JSON.stringify(value)`, which is `undefined` for what is not a document. -/
def stringifyValue : Value → Option String
  | .json j => some (stringify 0 j)
  | _ => none

/-- `if (old !== new) differences.push(text);` -/
def pushWhen (differs : Bool) (text : Except Error String) : Except Error (List String) :=
  if differs then do
    let t ← text
    .ok [t]
  else .ok []

/-- `Map.prototype.get`, where the result is truthy. -/
def mapGet (m : List (Value × Json)) (key : Value) : Option Json :=
  ((m.find? fun e => e.1.same key).map Prod.snd).filter Json.truthy

/-- What a `for … of` loop goes through. -/
def iterate (value : Value) (name : String) : Except Error (List Json) :=
  match value with
  | .json (.arr items) => .ok items
  | .json (.str s) => .ok (s.toList.map fun c => .str (String.ofList [c]))
  | _ => .error (.typeError s!"{name} is not iterable")

def versionDifference (previous current : Value) : Except Error (List String) := do
  let old ← (← previous.dot "browser").dot "version"
  let new ← (← current.dot "browser").dot "version"
  pushWhen (!old.same new) do
    .ok s!"Version {← display old} -> {← display new}"

def secureContextDifference (previous current : Value) : Except Error (List String) := do
  let old ← (← previous.dot "capabilities").dot "secureContext"
  let new ← (← current.dot "capabilities").dot "secureContext"
  pushWhen (!old.same new) do
    .ok s!"Secure context {← old.toText} -> {← new.toText}"

def webTransportDifference (previous current : Value) : Except Error (List String) := do
  let old ← (← previous.dot "capabilities").dot "webTransport"
  let new ← (← current.dot "capabilities").dot "webTransport"
  let name (v : Value) := if v.truthy then "available" else "unavailable"
  pushWhen (!old.same new) (.ok s!"WebTransport API {name old} -> {name new}")

def plannedDifference (previous current : Value) : Except Error (List String) := do
  let old ← (← previous.dot "run").dot "plannedCases"
  let new ← (← current.dot "run").dot "plannedCases"
  pushWhen (!old.same new) do
    .ok s!"Planned cases {← old.toText} -> {← new.toText}"

def metricDifference (previous current : Value) (m : Metric × String) :
    Except Error (List String) := do
  let old ← (← previous.dot "metrics").dot m.1.key
  let new ← (← current.dot "metrics").dot m.1.key
  pushWhen (!old.same new) do
    .ok s!"{m.2} {← old.toText} -> {← new.toText}"

def greaseDifference (previous current : Value) : Except Error (List String) := do
  let old ← previous.dot "grease"
  let new ← current.dot "grease"
  let verdicts := pushWhen true do
    let before ← display (old.optional "verdict")
    let after ← display (new.optional "verdict")
    .ok s!"GREASE {before} -> {after}"
  let stages := pushWhen (old.truthy && new.truthy && stringifyValue old != stringifyValue new)
    (.ok "GREASE stage outcomes changed")
  if (old.optional "verdict").same (new.optional "verdict") then stages else verdicts

def countDifference (old path : Json) (m : PathMetric × String) : Except Error (List String) :=
  pushWhen (!(old.get m.1.key).same (path.get m.1.key) ||
      !(old.get "total").same (path.get "total")) do
    let before ← (old.get m.1.key).toText
    let beforeTotal ← (old.get "total").toText
    let after ← (path.get m.1.key).toText
    let afterTotal ← (path.get "total").toText
    .ok s!"{m.2} {before}/{beforeTotal} -> {after}/{afterTotal}"

/-- `value ?? []`. -/
def orEmpty (value : Value) : Value := if value.isNullish then .json (.arr []) else value

def pathDifferences (old path : Json) : Except Error (List String) := do
  let counts ← pathMetrics.mapM (countDifference old path)
  let signal ← pushWhen (!(old.get "signal").same (path.get "signal")) (.ok "option signal changed")
  let matrix ← pushWhen (stringifyValue (orEmpty (old.get "combinations")) !=
      stringifyValue (orEmpty (path.get "combinations")))
    (.ok (if (old.get "combinations").truthy then "option matrix changed" else "option matrix added"))
  .ok (counts.flatten ++ signal ++ matrix)

def pathDifference (previousPaths : List (Value × Json)) (path : Json) :
    Except Error (List String) := do
  let key ← (Value.json path).dot "path"
  match mapGet previousPaths key with
  | none => pushWhen true do
    .ok s!"{← key.toText} added"
  | some old => do
    let ds ← pathDifferences old path
    pushWhen (!ds.isEmpty) do
      let name ← key.toText
      let joined := String.intercalate ", " ds
      .ok s!"{name}: {joined}"

/-- `new Map(paths.map((item) => [item.path, item]))`. -/
def pathMap (paths : Value) : Except Error (List (Value × Json)) :=
  match paths with
  | .json (.arr items) => do
    let keys ← items.mapM fun item => (Value.json item).dot "path"
    .ok ((keys.zip items).foldl (fun m e => mapSet e.1 e.2 m) [])
  | .undefined => .error (.typeError "Cannot read properties of undefined (reading 'map')")
  | .json .null => .error (.typeError "Cannot read properties of null (reading 'map')")
  | _ => .error (.typeError "previous.paths.map is not a function")

/-- All differences, before the cap on their number. -/
def allDifferences (previous current : Value) : Except Error (List String) := do
  let version ← versionDifference previous current
  let secureContext ← secureContextDifference previous current
  let webTransport ← webTransportDifference previous current
  let planned ← plannedDifference previous current
  let counts ← metrics.mapM (metricDifference previous current)
  let grease ← greaseDifference previous current
  let previousPaths ← pathMap (← previous.dot "paths")
  let paths ← (← iterate (← current.dot "paths") "current.paths").mapM (pathDifference previousPaths)
  .ok (version ++ secureContext ++ webTransport ++ planned ++ counts.flatten ++ grease ++
    paths.flatten)

def diffSnapshots (previous current : Value) : Except Error (List String) :=
  if !previous.truthy then .ok []
  else do
    let differences ← allDifferences previous current
    .ok (differences.take 64)

/-! ### The difference of two snapshots -/

/-- The text, when the condition holds. -/
def note (c : Prop) [Decidable c] (text : String) : List String := if c then [text] else []

@[simp] theorem note_eq_nil (c : Prop) [Decidable c] (text : String) : note c text = [] ↔ ¬ c := by
  unfold note
  split <;> simp_all

theorem note_length_le (c : Prop) [Decidable c] (text : String) : (note c text).length ≤ 1 := by
  unfold note
  split <;> simp

def apiName (webTransport : Bool) : String := if webTransport then "available" else "unavailable"

def versionName (b : Browser) : String := b.version.getD "unknown"

def verdictName (g : Option Grease) : String := (g.map fun g => g.verdict.text).getD "unknown"

def greaseNotes (old new : Option Grease) : List String :=
  if old.map Grease.verdict = new.map Grease.verdict then
    match old, new with
    | some a, some b =>
      note (stringify 0 a.toJson ≠ stringify 0 b.toJson) "GREASE stage outcomes changed"
    | _, _ => []
  else [s!"GREASE {verdictName old} -> {verdictName new}"]

def PathResult.notes (old path : PathResult) : List String :=
  pathMetrics.flatMap (fun m => note (old.count m.1 ≠ path.count m.1 ∨ old.total ≠ path.total)
    s!"{m.2} {old.count m.1}/{old.total} -> {path.count m.1}/{path.total}") ++
  note (old.signal ≠ path.signal) "option signal changed" ++
  note (stringify 0 (combinationsJson old.combinations) ≠
    stringify 0 (combinationsJson path.combinations)) "option matrix changed"

/-- What is noted about a path of the new snapshot. -/
def pathNotes (old : List PathResult) (path : PathResult) : List String :=
  match old.find? fun p => decide (p.path = path.path) with
  | none => [s!"{path.path.text} added"]
  | some p =>
    let joined := String.intercalate ", " (p.notes path)
    note (p.notes path ≠ []) s!"{path.path.text}: {joined}"

/-- The difference of two snapshots, without a cap. -/
def differences (old new : Snapshot) : List String :=
  note (old.browser.version ≠ new.browser.version)
    s!"Version {versionName old.browser} -> {versionName new.browser}" ++
  note (old.capabilities.secureContext ≠ new.capabilities.secureContext)
    s!"Secure context {old.capabilities.secureContext} -> {new.capabilities.secureContext}" ++
  note (old.capabilities.webTransport ≠ new.capabilities.webTransport)
    s!"WebTransport API {apiName old.capabilities.webTransport} -> {apiName new.capabilities.webTransport}" ++
  note (old.run.plannedCases ≠ new.run.plannedCases)
    s!"Planned cases {old.run.plannedCases} -> {new.run.plannedCases}" ++
  metrics.flatMap (fun m => note (old.metrics m.1 ≠ new.metrics m.1)
    s!"{m.2} {old.metrics m.1} -> {new.metrics m.1}") ++
  greaseNotes old.grease new.grease ++
  new.paths.flatMap (pathNotes old.paths)

/-! ### On documents of snapshots nothing throws -/

theorem pushWhen_note (c : Prop) [Decidable c] (text : String) :
    pushWhen (decide c) (.ok text) = .ok (note c text) := by
  unfold pushWhen note
  by_cases h : c <;> simp [h]

@[simp] theorem toText_nat (n : Nat) : (Value.json (.nat n)).toText = .ok (toString n) := rfl

theorem same_nat (m n : Nat) : (!(Value.json (.nat m)).same (.json (.nat n))) = decide (m ≠ n) := by
  simp [Value.same, Num.same]

theorem same_str (s t : String) : (!(Value.json (.str s)).same (.json (.str t))) = decide (s ≠ t) := by
  simp [Value.same]

theorem same_bool (a b : Bool) : (!(Value.json (.bool a)).same (.json (.bool b))) = decide (a ≠ b) := by
  simp [Value.same]

theorem same_version (a b : Option String) :
    (!(Value.json (a.elim .null .str)).same (.json (b.elim .null .str))) = decide (a ≠ b) := by
  cases a <;> cases b <;> simp [Value.same]

theorem display_version (x : Browser) :
    display (.json (x.version.elim .null .str)) = .ok (versionName x) := by
  unfold versionName
  cases x.version <;> rfl

theorem stringify_differs (i j : Json) : (stringifyValue (.json i) != stringifyValue (.json j)) =
    decide (stringify 0 i ≠ stringify 0 j) := by
  rw [Bool.eq_iff_iff]
  simp [stringifyValue]

theorem snapshot_dot (s : Snapshot) (key : String) :
    (Value.json s.toJson).dot key = .ok (s.toJson.get key) := rfl

theorem browser_dot (x : Browser) (key : String) :
    (Value.json x.toJson).dot key = .ok (x.toJson.get key) := rfl

theorem capabilities_dot (x : Capabilities) (key : String) :
    (Value.json x.toJson).dot key = .ok (x.toJson.get key) := rfl

theorem run_dot (x : Run) (key : String) :
    (Value.json x.toJson).dot key = .ok (x.toJson.get key) := rfl

theorem metrics_dot (m : Metric → Nat) (key : String) :
    (Value.json (metricsJson m)).dot key = .ok ((metricsJson m).get key) := rfl

theorem path_dot (p : PathResult) (key : String) :
    (Value.json p.toJson).dot key = .ok (p.toJson.get key) := rfl

section

variable (a b : Snapshot)

theorem versionDifference_toJson : versionDifference (.json a.toJson) (.json b.toJson) =
    .ok (note (a.browser.version ≠ b.browser.version)
      s!"Version {versionName a.browser} -> {versionName b.browser}") := by
  simp only [versionDifference, snapshot_dot, Snapshot.get_browser, ok_bind, browser_dot,
    Browser.get_version, same_version, display_version, pushWhen_note]

theorem secureContextDifference_toJson :
    secureContextDifference (.json a.toJson) (.json b.toJson) =
      .ok (note (a.capabilities.secureContext ≠ b.capabilities.secureContext)
        s!"Secure context {a.capabilities.secureContext} -> {b.capabilities.secureContext}") := by
  have htext (x : Bool) : (Value.json (.bool x)).toText = .ok (toString x) := by cases x <;> rfl
  simp only [secureContextDifference, snapshot_dot, Snapshot.get_capabilities, ok_bind,
    capabilities_dot, Capabilities.get_secureContext, same_bool, htext, pushWhen_note]
  rfl

theorem webTransportDifference_toJson :
    webTransportDifference (.json a.toJson) (.json b.toJson) =
      .ok (note (a.capabilities.webTransport ≠ b.capabilities.webTransport)
        s!"WebTransport API {apiName a.capabilities.webTransport} -> {apiName b.capabilities.webTransport}") := by
  have hname (x : Bool) : (if (Value.json (.bool x)).truthy then "available" else "unavailable") =
      apiName x := by cases x <;> rfl
  simp only [webTransportDifference, snapshot_dot, Snapshot.get_capabilities, ok_bind,
    capabilities_dot, Capabilities.get_webTransport, same_bool, hname, pushWhen_note]

theorem plannedDifference_toJson : plannedDifference (.json a.toJson) (.json b.toJson) =
    .ok (note (a.run.plannedCases ≠ b.run.plannedCases)
      s!"Planned cases {a.run.plannedCases} -> {b.run.plannedCases}") := by
  simp only [plannedDifference, snapshot_dot, Snapshot.get_run, ok_bind, run_dot,
    Run.get_plannedCases, same_nat, toText_nat, pushWhen_note]
  rfl

theorem metricDifference_toJson (m : Metric × String) :
    metricDifference (.json a.toJson) (.json b.toJson) m =
      .ok (note (a.metrics m.1 ≠ b.metrics m.1)
        s!"{m.2} {a.metrics m.1} -> {b.metrics m.1}") := by
  simp only [metricDifference, snapshot_dot, Snapshot.get_metrics, ok_bind, metrics_dot,
    metricsJson_get, same_nat, toText_nat, pushWhen_note]
  rfl

theorem greaseDifference_toJson : greaseDifference (.json a.toJson) (.json b.toJson) =
    .ok (greaseNotes a.grease b.grease) := by
  simp only [greaseDifference, snapshot_dot, Snapshot.get_grease, ok_bind]
  cases a.grease with
  | none => cases b.grease <;> rfl
  | some g =>
    cases b.grease with
    | none => rfl
    | some h =>
      have hsame : (Value.json (.str g.verdict.text)).same (.json (.str h.verdict.text)) =
          decide (g.verdict = h.verdict) := by
        simp only [Value.same, Verdict.text_injective.eq_iff]
      have htruthy (x : Grease) : (Value.json x.toJson).truthy = true := rfl
      have hdisplay (x : Grease) : display (.json (.str x.verdict.text)) = .ok x.verdict.text := rfl
      simp only [Option.elim_some, Value.optional_json, Grease.get_verdict, hsame, htruthy, hdisplay,
        Bool.true_and, stringify_differs, pushWhen_note, greaseNotes, Option.map_some, Option.some.injEq,
        decide_eq_true_eq, ok_bind]
      split <;> rfl

/-- The entry of a `Map` whose keys are the texts of distinct paths. -/
def pathEntry (p : PathResult) : Value × Json := (.json (.str p.path.text), p.toJson)

theorem mapSet_append (p : PathResult) : ∀ {ps : List PathResult}, p.path ∉ ps.map PathResult.path →
    mapSet (.json (.str p.path.text)) p.toJson (ps.map pathEntry) = (ps ++ [p]).map pathEntry
  | [], _ => rfl
  | q :: ps, h => by
    simp only [List.map_cons, List.mem_cons, not_or] at h
    have hne : (Value.json (.str q.path.text)).same (.json (.str p.path.text)) = false := by
      simp only [Value.same, decide_eq_false_iff_not, ResultPath.text_injective.eq_iff]
      exact fun he => h.1 he.symm
    rw [List.map_cons, mapSet, pathEntry, if_neg (by simp [hne]), mapSet_append p h.2]
    rfl

theorem foldl_mapSet : ∀ (ps qs : List PathResult), ((qs ++ ps).map PathResult.path).Nodup →
    (ps.map pathEntry).foldl (fun m e => mapSet e.1 e.2 m) (qs.map pathEntry) =
      (qs ++ ps).map pathEntry
  | [], qs, _ => by simp
  | p :: ps, qs, h => by
    have hfresh : p.path ∉ qs.map PathResult.path := by
      rw [List.map_append, List.map_cons] at h
      exact fun hmem => (List.nodup_append.mp h).2.2 _ hmem _ (by simp) rfl
    have hstep := mapSet_append p hfresh
    rw [List.map_cons, List.foldl_cons]
    simp only [pathEntry] at hstep ⊢
    rw [hstep]
    have ih := foldl_mapSet ps (qs ++ [p]) (by rwa [List.append_assoc])
    rwa [List.append_assoc] at ih

theorem pathMap_toJson {ps : List PathResult} (h : (ps.map PathResult.path).Nodup) :
    pathMap (.json (.arr (ps.map PathResult.toJson))) = .ok (ps.map pathEntry) := by
  have hkeys : (ps.map PathResult.toJson).mapM (fun item => (Value.json item).dot "path") =
      .ok (ps.map fun p => .json (.str p.path.text)) := by
    rw [mapM_eq_ok, List.forall₂_map_left_iff, List.forall₂_map_right_iff]
    exact List.forall₂_same.mpr fun p _ => by rw [path_dot, PathResult.get_path]
  rw [pathMap, hkeys, ok_bind, List.zip_map']
  exact congrArg Except.ok (foldl_mapSet ps [] h)

theorem mapGet_entries (ps : List PathResult) (path : ResultPath) :
    mapGet (ps.map pathEntry) (.json (.str path.text)) =
      (ps.find? fun p => decide (p.path = path)).map PathResult.toJson := by
  have hsame : ((fun e : Value × Json => e.1.same (.json (.str path.text))) ∘ pathEntry) =
      fun p => decide (p.path = path) := by
    funext p
    simp only [Function.comp_def, pathEntry, Value.same, ResultPath.text_injective.eq_iff]
  rw [mapGet, List.find?_map, hsame, Option.map_map]
  cases ps.find? fun p => decide (p.path = path) with
  | none => rfl
  | some p => rfl

theorem countDifference_toJson (p q : PathResult) (m : PathMetric × String) :
    countDifference p.toJson q.toJson m =
      .ok (note (p.count m.1 ≠ q.count m.1 ∨ p.total ≠ q.total)
        s!"{m.2} {p.count m.1}/{p.total} -> {q.count m.1}/{q.total}") := by
  simp only [countDifference, PathResult.get_count, PathResult.get_total, same_nat, toText_nat,
    ok_bind, ← Bool.decide_or, pushWhen_note]
  rfl

theorem mapM_ok {ε α β : Type} {f : α → Except ε β} {g : α → β} {xs : List α}
    (h : ∀ x ∈ xs, f x = .ok (g x)) : xs.mapM f = .ok (xs.map g) := by
  rw [mapM_eq_ok, List.forall₂_map_right_iff]
  exact List.forall₂_same.mpr h

theorem pathDifferences_toJson (p q : PathResult) :
    pathDifferences p.toJson q.toJson = .ok (p.notes q) := by
  have hcombinations (x : PathResult) : orEmpty (.json (combinationsJson x.combinations)) =
      .json (combinationsJson x.combinations) := rfl
  have htruthy : (Value.json (combinationsJson p.combinations)).truthy = true := rfl
  rw [pathDifferences, mapM_ok fun m _ => countDifference_toJson p q m]
  simp only [ok_bind, PathResult.get_signal, PathResult.get_combinations, same_str, hcombinations,
    htruthy, if_true, stringify_differs, pushWhen_note, PathResult.notes, List.flatMap_def]

theorem pathDifference_toJson (ps : List PathResult) (q : PathResult) :
    pathDifference (ps.map pathEntry) q.toJson = .ok (pathNotes ps q) := by
  have htext : (Value.json (.str q.path.text)).toText = .ok q.path.text := rfl
  simp only [pathDifference, path_dot, PathResult.get_path, ok_bind, mapGet_entries, pathNotes]
  cases ps.find? fun p => decide (p.path = q.path) with
  | none => rfl
  | some p =>
    have hempty : (!(p.notes q).isEmpty) = decide (p.notes q ≠ []) := by cases p.notes q <;> rfl
    simp only [Option.map_some, pathDifferences_toJson, ok_bind, htext, hempty, pushWhen_note]

/-- On two snapshots nothing throws, and the list is the one spelled out. -/
theorem allDifferences_toJson (ha : (a.paths.map PathResult.path).Nodup) :
    allDifferences (.json a.toJson) (.json b.toJson) = .ok (differences a b) := by
  have hpaths : (b.paths.map PathResult.toJson).mapM (pathDifference (a.paths.map pathEntry)) =
      .ok (b.paths.map (pathNotes a.paths)) := by
    rw [mapM_eq_ok, List.forall₂_map_left_iff, List.forall₂_map_right_iff]
    exact List.forall₂_same.mpr fun q _ => pathDifference_toJson a.paths q
  rw [allDifferences, mapM_ok fun m _ => metricDifference_toJson a b m]
  simp only [versionDifference_toJson, secureContextDifference_toJson, webTransportDifference_toJson,
    plannedDifference_toJson, greaseDifference_toJson, snapshot_dot, Snapshot.get_paths, ok_bind,
    pathMap_toJson ha, iterate, hpaths, differences, List.flatMap_def]

theorem diffSnapshots_toJson (ha : (a.paths.map PathResult.path).Nodup) :
    diffSnapshots (.json a.toJson) (.json b.toJson) = .ok ((differences a b).take 64) := by
  have htruthy : (Value.json a.toJson).truthy = true := rfl
  rw [diffSnapshots, htruthy, allDifferences_toJson a b ha]
  rfl

end

/-! ### The difference is empty exactly when the snapshots agree -/

/-- A snapshot without what a difference is not about: the time and the effects' ratios. -/
def Snapshot.material (s : Snapshot) : Snapshot :=
  { s with receivedAt := "", paths := s.paths.map fun p => { p with effects := [] } }

theorem flatMap_length_le {α : Type} {f : α → List String} :
    ∀ (xs : List α), (∀ x ∈ xs, (f x).length ≤ 1) → (xs.flatMap f).length ≤ xs.length
  | [], _ => Nat.le_refl _
  | x :: xs, h => by
    have hx := h x (by simp)
    have ih := flatMap_length_le xs fun y hy => h y (List.mem_cons_of_mem x hy)
    rw [List.flatMap_cons, List.length_append, List.length_cons]
    omega

theorem greaseNotes_length_le (g h : Option Grease) : (greaseNotes g h).length ≤ 1 := by
  unfold greaseNotes
  split
  · cases g <;> cases h <;> simp [note_length_le]
  · simp

theorem pathNotes_length_le (old : List PathResult) (path : PathResult) :
    (pathNotes old path).length ≤ 1 := by
  unfold pathNotes
  split
  · simp
  · exact note_length_le _ _

/-- At most one text for each field, each count and each path: 21 in all. -/
theorem differences_length_le {a b : Snapshot} (hb : b.WellFormed) :
    (differences a b).length ≤ 21 := by
  have h₁ := note_length_le (a.browser.version ≠ b.browser.version)
    s!"Version {versionName a.browser} -> {versionName b.browser}"
  have h₂ := note_length_le (a.capabilities.secureContext ≠ b.capabilities.secureContext)
    s!"Secure context {a.capabilities.secureContext} -> {b.capabilities.secureContext}"
  have h₃ := note_length_le (a.capabilities.webTransport ≠ b.capabilities.webTransport)
    s!"WebTransport API {apiName a.capabilities.webTransport} -> {apiName b.capabilities.webTransport}"
  have h₄ := note_length_le (a.run.plannedCases ≠ b.run.plannedCases)
    s!"Planned cases {a.run.plannedCases} -> {b.run.plannedCases}"
  have h₅ := flatMap_length_le metrics fun m _ => note_length_le
    (a.metrics m.1 ≠ b.metrics m.1) s!"{m.2} {a.metrics m.1} -> {b.metrics m.1}"
  have h₆ := greaseNotes_length_le a.grease b.grease
  have h₇ := flatMap_length_le b.paths fun p _ => pathNotes_length_le a.paths p
  have hmetrics : metrics.length = 8 := rfl
  have hpaths := congrArg List.length hb.order
  rw [List.length_map] at hpaths
  have hresult : resultPaths.length = 8 := rfl
  simp only [differences, List.length_append]
  omega

theorem path_notes_eq_nil_iff {p q : PathResult} (hp : p.WellFormed) (hq : q.WellFormed) :
    p.notes q = [] ↔ p.total = q.total ∧ p.count = q.count ∧ p.signal = q.signal ∧
      p.combinations = q.combinations := by
  have htext : stringify 0 (combinationsJson p.combinations) =
      stringify 0 (combinationsJson q.combinations) ↔ p.combinations = q.combinations :=
    ⟨fun h => combinationsJson_injective
      (stringify_injective 0 (combinations_plain hp) (combinations_plain hq) h), fun h => by rw [h]⟩
  simp only [PathResult.notes, List.append_eq_nil_iff, List.flatMap_eq_nil_iff, note_eq_nil, not_or,
    not_not, ne_eq, htext]
  constructor
  · rintro ⟨⟨hcounts, hsignal⟩, hmatrix⟩
    have hcount (k : PathMetric) : p.count k = q.count k ∧ p.total = q.total := by
      obtain ⟨m, hm, rfl⟩ := List.mem_map.mp (mem_pathMetrics k)
      exact hcounts m hm
    exact ⟨(hcount .datagramUnavailable).2, funext fun k => (hcount k).1, hsignal, hmatrix⟩
  · rintro ⟨htotal, hcount, hsignal, hmatrix⟩
    exact ⟨⟨fun m _ => ⟨congrFun hcount m.1, htotal⟩, hsignal⟩, hmatrix⟩

theorem greaseNotes_eq_nil_iff (g h : Option Grease) : greaseNotes g h = [] ↔ g = h := by
  unfold greaseNotes
  cases g with
  | none => cases h <;> simp
  | some x =>
    cases h with
    | none => simp
    | some y =>
      have htext : stringify 0 x.toJson = stringify 0 y.toJson ↔ x = y :=
        ⟨fun h => grease_injective (stringify_injective 0 (grease_plain x) (grease_plain y) h),
          fun h => by rw [h]⟩
      simp only [Option.map_some, Option.some.injEq]
      split
      · rw [note_eq_nil, ne_eq, not_not, htext]
      · next hne => simpa using fun h : x = y => hne (congrArg Grease.verdict h)

/-- Two lists with the same distinct keys agree in what agrees key by key. -/
theorem map_eq_of_keys {α κ β : Type} {key : α → κ} {f : α → β} : ∀ {xs ys : List α},
    xs.map key = ys.map key → (∀ x ∈ xs, ∀ y ∈ ys, key x = key y → f x = f y) → xs.map f = ys.map f
  | [], [], _, _ => rfl
  | x :: xs, y :: ys, hkeys, h => by
    obtain ⟨hkey, hkeys⟩ := List.cons.inj hkeys
    rw [List.map_cons, List.map_cons, h x (by simp) y (by simp) hkey,
      map_eq_of_keys hkeys fun x hx y hy => h x (by simp [hx]) y (by simp [hy])]

theorem resultPaths_nodup : resultPaths.Nodup := by decide

theorem Snapshot.WellFormed.paths_nodup {s : Snapshot} (h : s.WellFormed) :
    (s.paths.map PathResult.path).Nodup := by
  rw [h.order]
  exact resultPaths_nodup

/-- The path of the old snapshot that a path of the new one is compared with. -/
theorem find_path {a b : Snapshot} (ha : a.WellFormed) (hb : b.WellFormed) {q : PathResult}
    (hq : q ∈ b.paths) : ∃ p ∈ a.paths, p.path = q.path ∧
      a.paths.find? (fun p => decide (p.path = q.path)) = some p := by
  have hmem : q.path ∈ a.paths.map PathResult.path := by
    rw [ha.order, ← hb.order]
    exact List.mem_map_of_mem hq
  obtain ⟨p, hp, hpath⟩ := List.mem_map.mp hmem
  cases hfind : a.paths.find? fun p => decide (p.path = q.path) with
  | none => exact absurd hpath (by simpa using List.find?_eq_none.mp hfind p hp)
  | some p' =>
    exact ⟨p', List.mem_of_find?_eq_some hfind, by simpa using List.find?_some hfind, rfl⟩

/-- The path parts are all empty exactly when the paths agree but for their effects. -/
theorem pathNotes_eq_nil_iff {a b : Snapshot} (ha : a.WellFormed) (hb : b.WellFormed) :
    b.paths.flatMap (pathNotes a.paths) = [] ↔ a.material.paths = b.material.paths := by
  rw [List.flatMap_eq_nil_iff]
  constructor
  · intro h
    refine map_eq_of_keys (ha.order.trans hb.order.symm) fun p hp q hq hpath => ?_
    obtain ⟨p', hp', hpath', hfind⟩ := find_path ha hb hq
    obtain rfl : p' = p :=
      List.inj_on_of_nodup_map ha.paths_nodup hp' hp (hpath'.trans hpath.symm)
    have hnotes := h q hq
    rw [pathNotes, hfind] at hnotes
    simp only [note_eq_nil, ne_eq, not_not] at hnotes
    obtain ⟨htotal, hcount, hsignal, hmatrix⟩ :=
      (path_notes_eq_nil_iff (ha.path _ hp) (hb.path _ hq)).mp hnotes
    simp only [PathResult.mk.injEq]
    exact ⟨hpath, htotal, hcount, trivial, hmatrix, hsignal⟩
  · intro h q hq
    obtain ⟨p, hp, hpath, hfind⟩ := find_path ha hb hq
    have hmem : ({ q with effects := [] } : PathResult) ∈ a.material.paths := by
      rw [h]
      exact List.mem_map_of_mem hq
    obtain ⟨p', hp', heq⟩ := List.mem_map.mp hmem
    simp only [PathResult.mk.injEq] at heq
    obtain ⟨hpath', htotal, hcount, -, hmatrix, hsignal⟩ := heq
    obtain rfl : p' = p :=
      List.inj_on_of_nodup_map ha.paths_nodup hp' hp (hpath'.trans hpath.symm)
    rw [pathNotes, hfind]
    simp only [note_eq_nil, ne_eq, not_not]
    exact (path_notes_eq_nil_iff (ha.path _ hp) (hb.path _ hq)).mpr ⟨htotal, hcount, hsignal, hmatrix⟩

theorem material_eq_iff {a b : Snapshot} : a.material = b.material ↔
    a.browser = b.browser ∧ a.capabilities = b.capabilities ∧ a.run = b.run ∧
      a.metrics = b.metrics ∧ a.conclusion = b.conclusion ∧
      a.material.paths = b.material.paths ∧ a.grease = b.grease := by
  simp only [Snapshot.material, Snapshot.mk.injEq, true_and]

/-- The number of completed cases follows from the planned ones and the API. -/
theorem Snapshot.WellFormed.completed_eq {s : Snapshot} (h : s.WellFormed) :
    s.run.completedCases = if s.capabilities.webTransport then s.run.plannedCases else 0 := by
  cases hw : s.capabilities.webTransport
  · exact h.empty hw
  · exact h.complete hw

theorem differences_eq_nil_iff {a b : Snapshot} (ha : a.WellFormed) (hb : b.WellFormed)
    (hfamily : a.browser.family = b.browser.family) :
    differences a b = [] ↔ a.material = b.material := by
  have hpaths := pathNotes_eq_nil_iff ha hb
  simp only [differences, List.append_eq_nil_iff, note_eq_nil, ne_eq, not_not,
    greaseNotes_eq_nil_iff, hpaths]
  rw [material_eq_iff, List.flatMap_eq_nil_iff]
  simp only [note_eq_nil, not_not]
  constructor
  · rintro ⟨⟨⟨⟨⟨⟨hversion, hsecure⟩, hweb⟩, hplanned⟩, hcounts⟩, hgrease⟩, hpaths⟩
    have hmetrics : a.metrics = b.metrics := by
      funext k
      obtain ⟨m, hm, rfl⟩ := List.mem_map.mp (mem_metrics k)
      exact hcounts m hm
    have hcompleted : a.run.completedCases = b.run.completedCases := by
      rw [ha.completed_eq, hb.completed_eq, hweb, hplanned]
    have hbrowser : a.browser = b.browser := by
      rw [Browser.mk.injEq]
      exact ⟨hfamily, hversion⟩
    have hcapabilities : a.capabilities = b.capabilities := by
      rw [Capabilities.mk.injEq]
      exact ⟨hsecure, hweb⟩
    have hrun : a.run = b.run := by
      rw [Run.mk.injEq]
      exact ⟨hplanned, hcompleted⟩
    have hconclusion : a.conclusion = b.conclusion := by
      rw [ha.conclusion, hb.conclusion, hcapabilities, hmetrics]
    exact ⟨hbrowser, hcapabilities, hrun, hmetrics, hconclusion, hpaths, hgrease⟩
  · rintro ⟨hbrowser, hcapabilities, hrun, hmetrics, -, hpaths, hgrease⟩
    rw [hbrowser, hcapabilities, hrun, hmetrics]
    exact ⟨⟨⟨⟨⟨⟨rfl, rfl⟩, rfl⟩, rfl⟩, fun m _ => rfl⟩, hgrease⟩, hpaths⟩

end WebTransportEcho.Store
