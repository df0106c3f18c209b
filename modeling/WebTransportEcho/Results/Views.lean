import WebTransportEcho.Results.Page
import WebTransportEcho.Server.Overview

/-! What the overview page is to show. The views are written for the snapshots themselves, as the server
    has stored them: what each cell says of a browser, its paths, its matrix and its changes. The
    page's functions, which know nothing of the document that they are given, make just these of it
    (`…_stored`), and throw nothing. -/

namespace WebTransportEcho.Results
open Js Store Server

/-! ### What is to be shown -/

def shade (value total : Nat) : String :=
  if total = 0 then "muted" else if value = total then "good" else if 0 < value then "warn" else "bad"

def countCell (value total : Nat) : Cell := textCell s!"{value}/{total}" (shade value total)

def Browser.label (b : Browser) : String :=
  match b.version with
  | some version => if version = "" then b.family.name else s!"{b.family.name} {version}"
  | none => b.family.name

def Dates.text (dates : Dates) (value : String) : String :=
  match dates.parse value with
  | none => "unknown"
  | some t => dates.format t

def outcomeCell : Outcome → Cell
  | .pass => textCell "pass" "good"
  | .fail => textCell "fail" "bad"
  | .unavailable => textCell "not exposed" "warn"
  | .notRun => textCell "not run" "muted"

/-- A browser that echoes streams and never had datagrams. -/
def Snapshot.HidesDatagrams (s : Snapshot) : Prop :=
  0 < s.metrics .streamEcho ∧ s.metrics .streamEcho ≤ s.metrics (.path .datagramUnavailable)

instance (s : Snapshot) : Decidable (Snapshot.HidesDatagrams s) :=
  inferInstanceAs (Decidable (_ ∧ _))

def metricView (s : Snapshot) (m : Metric) : Cell := countCell (s.metrics m) s.run.completedCases

def conclusionShade (s : Snapshot) : String :=
  if s.capabilities.webTransport = false ∨ s.metrics (.stage .ready) = 0 then "bad"
  else if 0 < s.metrics .fullEcho then "good" else "warn"

def latestView (dates : Dates) (s : Snapshot) : Row :=
  [textCell (Browser.label s.browser) "", textCell (dates.text s.receivedAt) "",
    if s.capabilities.webTransport then textCell "available" "good" else textCell "unavailable" "bad",
    textCell s!"{s.run.completedCases}/{s.run.plannedCases}" "",
    metricView s (.stage .constructor), metricView s (.stage .ready),
    metricView s (.stage .bidirectionalStream), metricView s (.stage .unidirectionalStream),
    if Snapshot.HidesDatagrams s then textCell "not exposed" "warn" else metricView s (.stage .datagram),
    textCell s.conclusion (conclusionShade s)]

/-! ### Cells -/

theorem toText_nat (n : Nat) : (Value.json (.nat n)).toText = .ok (toString n) := rfl

theorem ratio_nat (value total : Nat) :
    ratio (.json (.nat value)) (.json (.nat total)) = .ok s!"{value}/{total}" := rfl

theorem same_nat (m n : Nat) : (Value.json (.nat m)).same (.json (.nat n)) = decide (m = n) := by
  simp [Value.same, Num.same]

theorem metricClass_nat (value total : Nat) :
    metricClass (.json (.nat value)) (.json (.nat total)) = .ok (shade value total) := by
  rw [metricClass, zero, same_nat, same_nat, Value.above_nat, shade]
  simp only [decide_eq_true_eq, ok_bind]
  split_ifs <;> rfl

theorem appendMetric_nat (value total : Nat) :
    appendMetric (.json (.nat value)) (.json (.nat total)) = .ok (countCell value total) := by
  rw [appendMetric, ratio_nat, metricClass_nat]
  rfl

theorem appendOutcome_text (o : Outcome) : appendOutcome (.json (.str o.text)) = .ok (outcomeCell o) := by
  cases o <;> rfl

theorem formatDate_str (dates : Dates) (text : String) :
    dates.formatDate (.json (.str text)) = .ok (dates.text text) := by
  have htime : dates.time (.json (.str text)) = .ok (dates.parse text) := rfl
  rw [Dates.formatDate, htime, ok_bind, Dates.text]
  cases dates.parse text <;> rfl

/-- What is written for a date that is not there. -/
def Dates.missing (dates : Dates) : String :=
  match dates.ofNumber notANumber with
  | none => "unknown"
  | some t => dates.format t

theorem formatDate_undefined (dates : Dates) :
    dates.formatDate .undefined = .ok dates.missing := by
  have htime : dates.time .undefined = .ok (dates.ofNumber notANumber) := rfl
  rw [Dates.formatDate, htime, ok_bind, Dates.missing]
  cases dates.ofNumber notANumber <;> rfl

theorem browserLabel_stored (b : Browser) :
    browserLabel (.json (.str b.family.name)) (.json (b.version.elim .null .str)) =
      .ok (.json (.str (Browser.label b))) := by
  rw [browserLabel, Browser.label]
  cases b.version with
  | none => rfl
  | some version =>
    simp only [Option.elim_some, Value.truthy, Json.truthy, Bool.not_eq_true', decide_eq_false_iff_not]
    split_ifs <;> rfl

/-! ### Fields -/

section Fields

variable (s : Snapshot)

theorem get_receivedAt : s.toJson.get "receivedAt" = .json (.str s.receivedAt) := by
  simp [Snapshot.toJson, Snapshot.fields, Json.get]

theorem get_conclusion : s.toJson.get "conclusion" = .json (.str s.conclusion) := by
  simp [Snapshot.toJson, Snapshot.fields, Json.get, List.lookup_cons]

theorem metrics_dot (key : String) (m : Metric) (h : m.key = key) :
    (Value.json (metricsJson s.metrics)).dot key = .ok (.json (.nat (s.metrics m))) := by
  rw [← h]
  exact congrArg Except.ok (metricsJson_get s.metrics m)

theorem field_metrics (key : String) (m : Metric) (h : m.key = key) :
    field (.json s.toJson) "metrics" key = .ok (.json (.nat (s.metrics m))) := by
  rw [field, snapshot_dot, Snapshot.get_metrics, ok_bind]
  exact metrics_dot s key m h

theorem field_completed :
    field (.json s.toJson) "run" "completedCases" = .ok (.json (.nat s.run.completedCases)) := by
  rw [field, snapshot_dot, Snapshot.get_run, ok_bind, run_dot]
  simp [Run.toJson, Json.get, List.lookup_cons]

theorem field_planned :
    field (.json s.toJson) "run" "plannedCases" = .ok (.json (.nat s.run.plannedCases)) := by
  rw [field, snapshot_dot, Snapshot.get_run, ok_bind, run_dot, Run.get_plannedCases]

theorem field_webTransport :
    field (.json s.toJson) "capabilities" "webTransport" = .ok (.json (.bool s.capabilities.webTransport)) := by
  rw [field, snapshot_dot, Snapshot.get_capabilities, ok_bind, capabilities_dot,
    Capabilities.get_webTransport]

theorem labelOf_stored : labelOf (.json s.toJson) = .ok (.json (.str (Browser.label s.browser))) := by
  rw [labelOf, snapshot_dot, Snapshot.get_browser, ok_bind, browser_dot, Browser.get_version, ok_bind,
    browser_dot, Browser.get_name, ok_bind]
  exact browserLabel_stored s.browser

end Fields

/-! ### The latest results -/

theorem metricCell_stored (s : Snapshot) (key : String) (m : Metric) (h : m.key = key) :
    metricCell (.json s.toJson) key = .ok (metricView s m) := by
  rw [metricCell, field_metrics s key m h, ok_bind, field_completed, ok_bind]
  exact appendMetric_nat _ _

theorem notExposed_stored (s : Snapshot) :
    notExposed (.json s.toJson) = .ok (decide (Snapshot.HidesDatagrams s)) := by
  rw [notExposed, snapshot_dot, Snapshot.get_metrics, ok_bind, metrics_dot s "streamEcho" .streamEcho rfl, ok_bind,
    metrics_dot s "datagramUnavailable" (.path .datagramUnavailable) rfl, zero, Value.above_nat, ok_bind, ok_bind,
    Value.atLeast_nat]
  by_cases h : 0 < s.metrics .streamEcho <;> simp [h, Snapshot.HidesDatagrams]

theorem datagramText_stored (s : Snapshot) : datagramText (.json s.toJson) =
    .ok (if Snapshot.HidesDatagrams s then "not exposed"
      else s!"{s.metrics (.stage .datagram)}/{s.run.completedCases}") := by
  rw [datagramText, notExposed_stored, ok_bind, field_metrics s "datagram" (.stage .datagram) rfl, ok_bind,
    field_completed, ok_bind, ratio_nat]
  simp only [decide_eq_true_eq]
  split_ifs <;> rfl

theorem ratio_ne (value total : Nat) : s!"{value}/{total}" ≠ "not exposed" := by
  intro h
  have hslash : '/' ∈ "not exposed".toList := by
    rw [← h, String.toList_append, String.toList_append]
    exact List.mem_append_left _ (List.mem_append_right _ (by decide))
  revert hslash
  decide

theorem datagramClass_stored (s : Snapshot) : datagramClass (.json s.toJson) =
    .ok (if Snapshot.HidesDatagrams s then "warn"
      else shade (s.metrics (.stage .datagram)) s.run.completedCases) := by
  rw [datagramClass, datagramText_stored, ok_bind, field_metrics s "datagram" (.stage .datagram) rfl, ok_bind,
    field_completed, ok_bind, metricClass_nat]
  by_cases h : Snapshot.HidesDatagrams s
  · rw [if_pos h, if_pos h]
    rfl
  · rw [if_neg h, if_neg h, if_neg (ratio_ne _ _)]

theorem conclusionClass_stored (s : Snapshot) :
    conclusionClass (.json s.toJson) = .ok (conclusionShade s) := by
  rw [conclusionClass, field_webTransport, ok_bind, field_metrics s "ready" (.stage .ready) rfl, ok_bind,
    field_metrics s "fullEcho" .fullEcho rfl, ok_bind, zero, same_nat, Value.above_nat, conclusionShade]
  simp only [Value.truthy, Json.truthy, ok_bind, Bool.or_eq_true, Bool.not_eq_true', decide_eq_true_eq]
  split_ifs <;> rfl

theorem latestRow_stored (dates : Dates) (s : Snapshot) :
    latestRow dates (.json s.toJson) = .ok (latestView dates s) := by
  rw [latestRow, labelOf_stored, ok_bind, snapshot_dot, get_receivedAt, snapshot_dot, get_conclusion]
  simp only [ok_bind, formatDate_str, field_webTransport, field_completed, field_planned, ratio_nat,
    metricCell_stored s "constructor" (.stage .constructor) rfl, metricCell_stored s "ready" (.stage .ready) rfl,
    metricCell_stored s "bidirectionalStream" (.stage .bidirectionalStream) rfl,
    metricCell_stored s "unidirectionalStream" (.stage .unidirectionalStream) rfl, datagramText_stored, datagramClass_stored,
    conclusionClass_stored]
  rw [latestView]
  by_cases h : Snapshot.HidesDatagrams s
  · simp only [if_pos h]
    rfl
  · simp only [if_neg h]
    rfl

/-! ### GREASE -/

/-- What a probe has echoed. -/
def echoCell (p : Probe) : Cell :=
  if p .ready ≠ .pass then textCell "not run" "muted"
  else if p .bidirectionalStream ≠ .pass ∨ p .unidirectionalStream ≠ .pass then textCell "failed" "bad"
  else match p .datagram with
    | .pass => textCell "full echo" "good"
    | .unavailable => textCell "stream echo" "warn"
    | _ => textCell "stream echo only" "warn"

def verdictCell : Verdict → Cell
  | .apiUnavailable => textCell "API unavailable" "muted"
  | .controlFailed => textCell "Control failed" "warn"
  | .affected => textCell "Affected by GREASE" "bad"
  | .degraded => textCell "Post-ready behavior changed" "warn"
  | .tolerant => textCell "GREASE tolerated" "good"

def greaseView (s : Snapshot) (g : Grease) : Row :=
  [textCell (Browser.label s.browser) "", outcomeCell (g.control .ready), outcomeCell (g.enabled .ready),
    echoCell g.control, echoCell g.enabled, verdictCell g.verdict]

theorem probe_optional (p : Probe) (key : String) (stage : Stage) (h : stage.key = key) :
    (Value.json (probeJson p)).optional key = .json (.str (p stage).text) := by
  rw [← h]
  exact probeJson_get p stage

theorem echo_stored (p : Probe) : textCell (greaseEchoText (.json (probeJson p)))
    (greaseEchoClass (.json (probeJson p))) = echoCell p := by
  have hready := probe_optional p "ready" .ready rfl
  have hdatagram := probe_optional p "datagram" .datagram rfl
  have hbidi := probe_optional p "bidirectionalStream" .bidirectionalStream rfl
  have huni := probe_optional p "unidirectionalStream" .unidirectionalStream rfl
  rw [greaseEchoClass, greaseEchoText, hready, hdatagram, hbidi, huni, echoCell]
  generalize p .ready = ready
  generalize p .datagram = datagram
  generalize p .bidirectionalStream = bidi
  generalize p .unidirectionalStream = uni
  cases ready <;> cases datagram <;> cases bidi <;> cases uni <;> decide

theorem field_control (s : Snapshot) {g : Grease} (h : s.grease = some g) :
    field (.json s.toJson) "grease" "control" = .ok (.json (probeJson g.control)) := by
  rw [field, snapshot_dot, Snapshot.get_grease, ok_bind, h]
  simp [Grease.toJson, Value.dot, Value.optional, Json.get]

theorem field_enabled (s : Snapshot) {g : Grease} (h : s.grease = some g) :
    field (.json s.toJson) "grease" "enabled" = .ok (.json (probeJson g.enabled)) := by
  rw [field, snapshot_dot, Snapshot.get_grease, ok_bind, h]
  simp [Grease.toJson, Value.dot, Value.optional, Json.get, List.lookup_cons]

theorem field_verdict (s : Snapshot) {g : Grease} (h : s.grease = some g) :
    field (.json s.toJson) "grease" "verdict" = .ok (.json (.str g.verdict.text)) := by
  rw [field, snapshot_dot, Snapshot.get_grease, ok_bind, h]
  simp [Grease.toJson, Value.dot, Value.optional, Json.get, List.lookup_cons]

theorem probe_dot (p : Probe) (key : String) (stage : Stage) (h : stage.key = key) :
    (Value.json (probeJson p)).dot key = .ok (.json (.str (p stage).text)) :=
  congrArg Except.ok (probe_optional p key stage h)

theorem greaseRow_stored (s : Snapshot) {g : Grease} (h : s.grease = some g) :
    greaseRow (.json s.toJson) = .ok (greaseView s g) := by
  have hverdict : greaseVerdictText (.json (.str g.verdict.text)) = .ok (verdictCell g.verdict).text := by
    cases g.verdict <;> rfl
  have hclass : greaseVerdictClass (.json (.str g.verdict.text)) = (verdictCell g.verdict).className := by
    cases g.verdict <;> rfl
  rw [greaseRow, labelOf_stored, ok_bind, field_control s h, field_enabled s h, field_verdict s h]
  simp only [ok_bind, probe_dot _ "ready" .ready rfl, appendOutcome_text, hverdict, hclass, echo_stored]
  rfl

/-! ### Paths -/

def pathCellView (p : PathResult) (m : PathMetric) : Cell := countCell (p.count m) p.total

def PathResult.HidesDatagrams (p : PathResult) : Prop :=
  p.count .datagramUnavailable = p.count (.stage .ready) ∧ 0 < p.count (.stage .ready)

instance (p : PathResult) : Decidable (PathResult.HidesDatagrams p) :=
  inferInstanceAs (Decidable (_ ∧ _))

def pathView (p : PathResult) : Row :=
  [textCell p.path.text "", pathCellView p (.stage .constructor), pathCellView p (.stage .ready),
    pathCellView p (.stage .bidirectionalStream), pathCellView p (.stage .unidirectionalStream),
    if PathResult.HidesDatagrams p then textCell "not exposed" "warn" else pathCellView p (.stage .datagram),
    textCell p.signal (if 0 < p.count (.stage .ready) then "muted" else "bad")]

def detailView (dates : Dates) (s : Snapshot) : Detail where
  title := Browser.label s.browser
  received := dates.text s.receivedAt
  head := pathHead
  rows := s.paths.map pathView

section Paths

variable (p : PathResult)

theorem path_dot (key : String) : (Value.json p.toJson).dot key = .ok (p.toJson.get key) := rfl

theorem count_dot (key : String) (m : PathMetric) (h : m.key = key) :
    (Value.json p.toJson).dot key = .ok (.json (.nat (p.count m))) := by
  rw [path_dot, ← h, PathResult.get_count]

theorem pathCell_stored (key : String) (m : PathMetric) (h : m.key = key) :
    pathCell (.json p.toJson) key = .ok (pathCellView p m) := by
  rw [pathCell, count_dot p key m h, path_dot, PathResult.get_total]
  exact appendMetric_nat _ _

theorem datagramCell_stored : datagramCell (.json p.toJson) = .ok
    (if PathResult.HidesDatagrams p then textCell "not exposed" "warn"
      else pathCellView p (.stage .datagram)) := by
  have hhidden : pathNotExposed (.json p.toJson) = .ok (decide (PathResult.HidesDatagrams p)) := by
    rw [pathNotExposed, count_dot p "datagramUnavailable" .datagramUnavailable rfl,
      count_dot p "ready" (.stage .ready) rfl, ok_bind, ok_bind, same_nat, zero, Value.above_nat]
    by_cases h : p.count .datagramUnavailable = p.count (.stage .ready) <;>
      simp [h, PathResult.HidesDatagrams]
  rw [datagramCell, hhidden, pathCell_stored p "datagram" (.stage .datagram) rfl, ok_bind]
  simp only [decide_eq_true_eq]
  split_ifs <;> rfl

theorem pathRow_stored : pathRow (.json p.toJson) = .ok (pathView p) := by
  rw [pathRow, path_dot, PathResult.get_path, path_dot p "signal", PathResult.get_signal,
    pathCell_stored p "constructor" (.stage .constructor) rfl,
    pathCell_stored p "ready" (.stage .ready) rfl,
    pathCell_stored p "bidirectionalStream" (.stage .bidirectionalStream) rfl,
    pathCell_stored p "unidirectionalStream" (.stage .unidirectionalStream) rfl,
    datagramCell_stored, count_dot p "ready" (.stage .ready) rfl]
  simp only [ok_bind, zero, Value.above_nat, decide_eq_true_eq]
  rfl

end Paths

theorem mapM_ok {α β : Type} {f : α → Except Error β} {g : α → β} : ∀ {items : List α},
    (∀ x ∈ items, f x = .ok (g x)) → items.mapM f = .ok (items.map g)
  | [], _ => rfl
  | x :: items, h => by
    rw [List.mapM_cons, h x List.mem_cons_self, ok_bind,
      mapM_ok fun y hy => h y (List.mem_cons_of_mem _ hy)]
    rfl

theorem heading_stored (dates : Dates) (s : Snapshot) :
    heading dates (.json s.toJson) = .ok (Browser.label s.browser, dates.text s.receivedAt) := by
  rw [heading, labelOf_stored, ok_bind, snapshot_dot, get_receivedAt]
  simp only [ok_bind, formatDate_str]
  rfl

theorem pathDetail_stored (dates : Dates) (s : Snapshot) :
    pathDetail dates (.json s.toJson) = .ok (detailView dates s) := by
  have hrows : (s.paths.map fun p => Value.json p.toJson).mapM pathRow = .ok (s.paths.map pathView) := by
    rw [List.mapM_map]
    exact mapM_ok fun p _ => pathRow_stored p
  have hitems : iterate (.json (.arr (s.paths.map PathResult.toJson))) =
      .ok (s.paths.map fun p => Value.json p.toJson) := by
    rw [iterate, List.map_map]
    rfl
  rw [pathDetail, heading_stored, ok_bind]
  simp only [snapshot_dot, Snapshot.get_paths, ok_bind, hitems, hrows]
  rfl

/-! ### Matrices -/

def optionsView (c : Combination) : String :=
  if c.options = [] then "no options" else String.intercalate " + " (c.options.map OptionKey.label)

def combinationView (c : Combination) : Row :=
  [textCell (optionsView c) "", outcomeCell (c.outcome .constructor), outcomeCell (c.outcome .ready),
    outcomeCell (c.outcome .bidirectionalStream), outcomeCell (c.outcome .unidirectionalStream),
    outcomeCell (c.outcome .datagram)]

theorem elementTexts_str : ∀ texts : List String,
    Json.elementTexts (texts.map Json.str) = .ok texts
  | [] => rfl
  | t :: texts => by
    rw [List.map_cons, Json.elementTexts]
    · rw [elementTexts_str texts]
      rfl
    · simp

theorem optionLabel_key (k : OptionKey) : optionLabel (.str k.text) = .str k.label := by
  have hlabel : (optionKeys.map fun k => (k.text, k.label)).lookup k.text = some k.label := by
    cases k <;> decide
  rw [optionLabel, hlabel]
  rfl

theorem optionText_stored (c : Combination) :
    optionText (.json (.arr (c.options.map fun k => .str k.text))) = .ok (optionsView c) := by
  rw [optionsView]
  cases h : c.options with
  | nil => rfl
  | cons k ks =>
    have hlabels : ((k :: ks).map fun k => Json.str k.text).map optionLabel =
        ((k :: ks).map OptionKey.label).map Json.str := by
      rw [List.map_map, List.map_map]
      exact List.map_congr_left fun k _ => optionLabel_key k
    rw [List.map_cons] at hlabels
    rw [if_neg (List.cons_ne_nil _ _), List.map_cons, optionText, hlabels, joinTexts, elementTexts_str]
    rfl

section Combinations

variable (c : Combination)

theorem combination_dot (key : String) (stage : Stage) (h : stage.key = key) :
    (Value.json c.toJson).dot key = .ok (.json (.str (c.outcome stage).text)) := by
  rw [← h]
  cases stage <;>
    simp [Combination.toJson, stagesJson, combinationStageKeys, Stage.key, Value.dot, Value.optional,
      Json.get, List.lookup_cons]

theorem combination_options :
    (Value.json c.toJson).dot "options" = .ok (.json (.arr (c.options.map fun k => .str k.text))) := by
  simp [Combination.toJson, Value.dot, Value.optional, Json.get, List.lookup_cons]

theorem combinationRow_stored : combinationRow (.json c.toJson) = .ok (combinationView c) := by
  rw [combinationRow, combination_options]
  simp only [ok_bind, optionText_stored, combination_dot c "constructor" .constructor rfl,
    combination_dot c "ready" .ready rfl, combination_dot c "bidirectionalStream" .bidirectionalStream rfl,
    combination_dot c "unidirectionalStream" .unidirectionalStream rfl,
    combination_dot c "datagram" .datagram rfl, appendOutcome_text]
  rfl

end Combinations

/-- The paths that have a matrix. -/
def matrixPaths (s : Snapshot) : List PathResult := s.paths.filter fun p => !p.combinations.isEmpty

/-- The matrix of a browser, with the path chosen. -/
def matrixView (dates : Dates) (s : Snapshot) (chosen : Nat) : Matrix where
  title := Browser.label s.browser
  received := dates.text s.receivedAt
  options := (matrixPaths s).map fun p => (p.path.text, p.path.text)
  head := matrixHead
  rows := ((matrixPaths s)[chosen]?.map fun p => p.combinations.map combinationView).getD []
  paths := (matrixPaths s).map PathResult.toJson

theorem hasCombinations_stored (p : PathResult) :
    hasCombinations p.toJson = .ok !p.combinations.isEmpty := by
  rw [hasCombinations, path_dot, PathResult.get_combinations, combinationsJson, ok_bind]
  simp only [List.isEmpty_map]

theorem filterE_ok {α : Type} {f : α → Json} {p : Json → Except Error Bool} {q : α → Bool} :
    ∀ {items : List α}, (∀ x ∈ items, p (f x) = .ok (q x)) →
      filterE p (items.map f) = .ok ((items.filter q).map f)
  | [], _ => rfl
  | x :: items, h => by
    rw [List.map_cons, filterE, h x List.mem_cons_self, ok_bind,
      filterE_ok fun y hy => h y (List.mem_cons_of_mem _ hy), ok_bind, List.filter_cons]
    split_ifs <;> rfl

theorem someE_ok {α : Type} {f : α → Json} {p : Json → Except Error Bool} {q : α → Bool} :
    ∀ {items : List α}, (∀ x ∈ items, p (f x) = .ok (q x)) → someE p (items.map f) = .ok (items.any q)
  | [], _ => rfl
  | x :: items, h => by
    rw [List.map_cons, someE, h x List.mem_cons_self, ok_bind,
      someE_ok fun y hy => h y (List.mem_cons_of_mem _ hy), List.any_cons]
    cases q x <;> rfl

theorem hasMatrix_stored (s : Snapshot) : hasMatrix s.toJson = .ok !(matrixPaths s).isEmpty := by
  rw [hasMatrix, snapshot_dot, Snapshot.get_paths, ok_bind]
  simp only
  rw [someE_ok fun p _ => hasCombinations_stored p, matrixPaths]
  refine congrArg Except.ok (Bool.eq_iff_iff.mpr ?_)
  rw [List.any_eq_true, Bool.not_eq_true', ← Bool.not_eq_true, List.isEmpty_iff, List.filter_eq_nil_iff]
  push Not
  rfl

/-- The path that is chosen by its name. -/
theorem selectedPath_stored {ps : List PathResult} (hnodup : (ps.map PathResult.path).Nodup)
    {p : PathResult} (hp : p ∈ ps) :
    selectedPath (ps.map PathResult.toJson) p.path.text = some p.toJson := by
  have hfind : (ps.map PathResult.toJson).find? (fun item => (item.get "path").isStr p.path.text) =
      some p.toJson := by
    have hpred : (fun item => (item.get "path").isStr p.path.text) ∘ PathResult.toJson =
        fun q => decide (q.path = p.path) := by
      funext q
      rw [Function.comp, PathResult.get_path, Bool.eq_iff_iff, Value.isStr_iff, decide_eq_true_eq]
      simpa using ResultPath.text_injective.eq_iff
    rw [List.find?_map, hpred, find?_of_nodup hnodup hp]
    rfl
  rw [selectedPath, hfind]
  rfl

theorem matrixPaths_nodup (s : Stored) : ((matrixPaths s.snapshot).map PathResult.path).Nodup :=
  s.wellFormed.paths_nodup.sublist (List.filter_sublist.map _)

theorem combinationsOf_stored (p : PathResult) :
    combinationsOf p.toJson = p.combinations.map Combination.toJson := by
  rw [combinationsOf, PathResult.get_combinations, combinationsJson]

theorem rows_stored (p : PathResult) : (combinationsOf p.toJson).mapM (fun c => combinationRow (.json c)) =
    .ok (p.combinations.map combinationView) := by
  rw [combinationsOf_stored, List.mapM_map]
  exact mapM_ok fun c _ => combinationRow_stored c

theorem rowsUntil_stored (cs : List Combination) :
    rowsUntil (cs.map Combination.toJson) = cs.map combinationView := by
  induction cs with
  | nil => rfl
  | cons c cs ih =>
    rw [List.map_cons, rowsUntil, combinationRow_stored, List.map_cons]
    simp only [ih]

theorem matrixDetail_stored (dates : Dates) (s : Stored) (h : matrixPaths s.snapshot ≠ []) :
    matrixDetail dates s.snapshot.toJson = .ok (matrixView dates s.snapshot 0) := by
  have hfilter : filterE hasCombinations (s.snapshot.paths.map PathResult.toJson) =
      .ok ((matrixPaths s.snapshot).map PathResult.toJson) :=
    filterE_ok fun p _ => hasCombinations_stored p
  have hoptions : ((matrixPaths s.snapshot).map PathResult.toJson).mapM optionOf =
      .ok ((matrixPaths s.snapshot).map fun p => (p.path.text, p.path.text)) := by
    rw [List.mapM_map]
    refine mapM_ok fun p _ => ?_
    show optionOf p.toJson = _
    rw [optionOf, path_dot, PathResult.get_path]
    rfl
  obtain ⟨first, rest, hcons⟩ := List.exists_cons_of_ne_nil h
  have hselected := selectedPath_stored (matrixPaths_nodup s) (hcons ▸ List.mem_cons_self : first ∈ _)
  have hhead : ((((matrixPaths s.snapshot).map fun p => (p.path.text, p.path.text)).head?).map
      Prod.fst).getD "" = first.path.text := by
    rw [hcons]
    rfl
  rw [matrixDetail, snapshot_dot, Snapshot.get_paths, ok_bind]
  simp only [hfilter, ok_bind, heading_stored, hoptions, hhead, hselected, Option.map_some,
    Option.getD_some, rows_stored]
  rw [matrixView, hcons]
  rfl

/-- The reader chooses a path. -/
theorem choose_stored (dates : Dates) (s : Stored) (chosen option : Nat) :
    (matrixView dates s.snapshot chosen).choose option = matrixView dates s.snapshot
      (if option < (matrixPaths s.snapshot).length then option else chosen) := by
  rw [Matrix.choose]
  have hoptions : (matrixView dates s.snapshot chosen).options[option]? =
      (matrixPaths s.snapshot)[option]?.map fun p => (p.path.text, p.path.text) := List.getElem?_map
  rw [hoptions]
  by_cases hlt : option < (matrixPaths s.snapshot).length
  · have hget := List.getElem?_eq_getElem hlt
    have hselected := selectedPath_stored (matrixPaths_nodup s) (List.getElem_mem hlt)
    have hpaths : (matrixView dates s.snapshot chosen).paths =
        (matrixPaths s.snapshot).map PathResult.toJson := rfl
    rw [hget, if_pos hlt, Option.map_some]
    simp only [hpaths, hselected, Option.map_some, Option.getD_some, combinationsOf_stored,
      rowsUntil_stored]
    rw [matrixView, matrixView, hget]
    rfl
  · rw [List.getElem?_eq_none (Nat.le_of_not_lt hlt), if_neg hlt]
    rfl

/-! ### Changes -/

def changeView (dates : Dates) (c : Change) : Row :=
  [textCell (dates.text c.receivedAt) "", textCell (Browser.label c.browser) "",
    textCell (String.intercalate "; " c.changes) ""]

theorem changeRow_stored (dates : Dates) (c : Change) :
    changeRow dates (.json c.toJson) = .ok (changeView dates c) := by
  have hdot (key : String) : (Value.json c.toJson).dot key = .ok (c.toJson.get key) := rfl
  have hat : c.toJson.get "at" = .json (.str c.receivedAt) := by
    simp [Change.toJson, changeEvent, Json.get]
  have hname : c.toJson.get "browserName" = .json (.str c.browser.family.name) := by
    simp [Change.toJson, changeEvent, Json.get, List.lookup_cons]
  have hversion : c.toJson.get "browserVersion" = .json (c.browser.version.elim .null .str) := by
    simp [Change.toJson, changeEvent, Json.get, List.lookup_cons]
  have hchanges : c.toJson.get "changes" = .json (.arr (c.changes.map .str)) := by
    simp [Change.toJson, changeEvent, Json.get, List.lookup_cons]
  rw [changeRow, hdot, hat, hdot, hname, hdot, hversion, hdot, hchanges]
  simp only [ok_bind, formatDate_str, browserLabel_stored, joinTexts, elementTexts_str]
  rfl

end WebTransportEcho.Results
