import WebTransportEcho.Page.Probe
import Mathlib.Data.List.Perm.Subperm

/-! The report of a matrix run, and what the page makes of it when the run is over: why it is not
    shared, or the payload that is posted. The texts of paths, options and outcomes are the ones the
    store has, and where a count of the analysis is missing it is taken over the results. -/

namespace WebTransportEcho.Page
open Js Store

/-! ### What the page knows -/

structure Profile where
  name : String
  version : Option String
  secureContext : Bool
  webTransportConstructible : Bool

/-- The GREASE part of the configuration. A property that is no string is missing. -/
structure GreaseConfig where
  controlBase : Option String
  enabledBase : Option String
  path : Option String

structure RuntimeConfig where
  resultsEnabled : Bool
  targetBase : Option String
  greaseDifferential : Option GreaseConfig
  autorun : Bool
  defaultMode : Option String

inductive Mode where
  | exhaustive | selected
  deriving DecidableEq

def Mode.text : Mode → String
  | .exhaustive => "exhaustive"
  | .selected => "selected"

structure RunInfo where
  mode : Mode
  targetBase : String
  paths : List String
  plannedCases : Nat
  greaseDifferential : Bool
  constructorVariants : List Variant

structure Differential where
  control : Option CaseResult
  enabled : Option CaseResult
  verdict : String

structure Report where
  run : RunInfo
  cancelled : Bool
  summary : Option Summary
  pathAnalysis : List (PathAnalysis OptionKey)
  greaseDifferential : Option Differential
  results : List CaseResult

def greaseConfigured (config : Option RuntimeConfig) : Bool :=
  config.any fun c => c.greaseDifferential.isSome

/-- `origin` is `normalizedOrigin`, `none` for what is no URL. -/
def certificateMetadataMatchesTarget (origin : String → Option String)
    (config : Option RuntimeConfig) (targetBase : String) : Bool :=
  match config.bind RuntimeConfig.targetBase with
  | none => true
  | some configured => decide (origin configured = origin targetBase)

/-! ### Publication of results -/

def publicationStage : Option StageResult → Outcome
  | none => .notRun
  | some r => if r.ok then .pass else if r.status = .notRun then .notRun else .fail

/-- The outcome of each stage. A datagram can also be unavailable. -/
def publicationOutcome (stage : Stages) (s : Stage) : Outcome :=
  if s = .datagram ∧ datagramUnavailable (stage .datagram) = true then .unavailable
  else publicationStage (stage s)

def publicationGreaseProbe (result : Option CaseResult) : Probe :=
  publicationOutcome (result.elim (fun _ => none) ResultOf.stage)

def hexValue (c : Char) : Option Nat :=
  if c.isDigit then some (c.toNat - '0'.toNat)
  else if 'a' ≤ c ∧ c ≤ 'f' then some (c.toNat - 'a'.toNat + 10)
  else none

/-- `Number.parseInt(text, 16)` of text without blank, sign or `0x`, where `none` is `NaN`. -/
def parseHex (text : String) : Option Nat :=
  let digits := (text.toList.map hexValue).takeWhile Option.isSome
  if digits.isEmpty then none else some (digits.foldl (fun n d => 16 * n + d.getD 0) 0)

/-- The id of a variant without `exhaustive-` at its beginning. -/
def dropExhaustive (variantId : String) : String :=
  let intro := "exhaustive-".toList
  if intro <+: variantId.toList then String.ofList (variantId.toList.drop intro.length) else variantId

structure PublishedCombination where
  mask : Option Nat
  options : List OptionKey
  outcome : Stage → Outcome

def publicationCombination (result : CaseResult) : PublishedCombination where
  mask := parseHex (dropExhaustive result.variantId)
  options := result.optionKeys
  outcome := publicationOutcome result.stage

/-- `left.mask - right.mask` is not positive; a difference with `NaN` counts as zero. -/
def PublishedCombination.comesFirst (left right : PublishedCombination) : Prop :=
  match left.mask, right.mask with
  | some l, some r => l ≤ r
  | _, _ => True

instance (left right : PublishedCombination) : Decidable (left.comesFirst right) := by
  unfold PublishedCombination.comesFirst
  split <;> infer_instance

structure PublishedPath where
  path : String
  total : Nat
  count : PathMetric → Nat
  effects : List Effect
  combinations : List PublishedCombination

def publicationPath (report : Report) (path : String) : PublishedPath :=
  let analyzed := report.pathAnalysis.find? fun item => decide (item.path = path)
  let cases := report.results.filter fun item => decide (item.path = path)
  let counted (analysis : PathAnalysis OptionKey → Nat) (s : Stage) : Nat :=
    (analyzed.map analysis).getD (countFulfilled cases s)
  { path
    total := (analyzed.map PathAnalysis.total).getD cases.length
    count
      | .stage .constructor => countFulfilled cases .constructor
      | .stage .ready => counted PathAnalysis.ready .ready
      | .stage .bidirectionalStream => counted PathAnalysis.bidirectionalStream .bidirectionalStream
      | .stage .unidirectionalStream =>
        counted PathAnalysis.unidirectionalStream .unidirectionalStream
      | .stage .datagram => counted PathAnalysis.datagram .datagram
      | .datagramUnavailable => (analyzed.map PathAnalysis.datagramUnavailable).getD
          (cases.filter fun item => datagramUnavailable (item.stage .datagram)).length
    effects := ((analyzed.map PathAnalysis.effects).getD []).map fun e =>
      { key := e.key, withOption := e.withOption, withoutOption := e.withoutOption }
    combinations := (cases.map publicationCombination).insertionSort
      PublishedCombination.comesFirst }

/-! ### The payload -/

/-- `NaN` is printed as `null`. -/
def PublishedCombination.toJson (c : PublishedCombination) : Json :=
  .obj (("mask", c.mask.elim .null .nat) ::
    ("options", .arr (c.options.map fun k => .str k.text)) :: stagesJson combinationStageKeys c.outcome)

def PublishedPath.toJson (p : PublishedPath) : Json :=
  .obj (("path", .str p.path) :: ("total", .nat p.total) ::
    (pathMetrics.map fun e => (e.1.key, .nat (p.count e.1))) ++
    [("effects", .arr (p.effects.map Effect.toJson)),
      ("combinations", .arr (p.combinations.map PublishedCombination.toJson))])

/-- `version?.split(".")[0] ?? null`. -/
def majorVersion (version : Option String) : Option String :=
  version.map fun v => String.ofList (v.toList.takeWhile fun c => c ≠ '.')

def publicationGreaseDifferential (report : Report) : Json :=
  report.greaseDifferential.elim .null fun d =>
    .obj [("control", probeJson (publicationGreaseProbe d.control)),
      ("enabled", probeJson (publicationGreaseProbe d.enabled))]

def publicationPayload (profile : Profile) (report : Report) (summary : Summary) : Json :=
  .obj [("schemaVersion", .nat 1),
    ("browser", .obj [("name", .str profile.name),
      ("version", (majorVersion profile.version).elim .null .str)]),
    ("capabilities", .obj [("secureContext", .bool profile.secureContext),
      ("webTransport", .bool profile.webTransportConstructible)]),
    ("run", .obj [("mode", .str report.run.mode.text), ("plannedCases", .nat summary.plannedCases),
      ("completedCases", .nat summary.completedCases), ("cancelled", .bool report.cancelled)]),
    ("metrics", metricsJson summary.count),
    ("paths", .arr (pagePaths.map fun path => (publicationPath report path).toJson)),
    ("grease", publicationGreaseDifferential report)]

/-! ### Why a report is not shared -/

def publicationBlockReason (origin : String → Option String) (sharing : Bool)
    (config : Option RuntimeConfig) (profile : Profile) (report : Option Report) : Option String :=
  if !sharing then some "Anonymous sharing is off."
  else if !config.any RuntimeConfig.resultsEnabled then some "Shared browser overview is disabled."
  else match report with
    | none => some "No completed result to share."
    | some report =>
      match report.summary with
      | none => some "No completed result to share."
      | some summary =>
        if report.cancelled then some "Stopped runs remain local."
        else if report.run.mode ≠ .exhaustive then some "Selected runs remain local."
        else if greaseConfigured config && !report.run.greaseDifferential then
          some "GREASE A/B was disabled; this exhaustive run remains local."
        else if greaseConfigured config && report.greaseDifferential.isNone then
          some "GREASE A/B did not complete; this exhaustive run remains local."
        else if !certificateMetadataMatchesTarget origin config report.run.targetBase then
          some "Custom-target runs remain local."
        else if report.run.paths.length ≠ pagePaths.length ∨
            ∃ path ∈ pagePaths, path ∉ report.run.paths then some "Partial-path runs remain local."
        else if profile.webTransportConstructible ∧
            summary.completedCases ≠ summary.plannedCases then some "Incomplete runs remain local."
        else none

/-- The conditions a report is shared under. -/
structure Shareable (origin : String → Option String) (config : Option RuntimeConfig)
    (profile : Profile) (report : Report) (summary : Summary) : Prop where
  summarized : report.summary = some summary
  finished : report.cancelled = false
  mode : report.run.mode = .exhaustive
  requested : greaseConfigured config = true → report.run.greaseDifferential = true
  probed : greaseConfigured config = true → report.greaseDifferential.isSome = true
  target : certificateMetadataMatchesTarget origin config report.run.targetBase = true
  length : report.run.paths.length = pagePaths.length
  paths : ∀ path ∈ pagePaths, path ∈ report.run.paths
  complete : profile.webTransportConstructible = true →
    summary.completedCases = summary.plannedCases

/-- As many paths as the page has, and each of the page's among them, are those of the page. -/
theorem pagePaths_perm {paths : List String} (hlength : paths.length = pagePaths.length)
    (hpaths : ∀ path ∈ pagePaths, path ∈ paths) : pagePaths.Perm paths :=
  ((show pagePaths.Nodup by decide).subperm hpaths).perm_of_length_le hlength.le

theorem block_eq_none {c : Prop} [Decidable c] {reason : String} {rest : Option String} :
    (if c then some reason else rest) = none ↔ ¬ c ∧ rest = none := by
  by_cases h : c
  · simp [h]
  · simp [h]

theorem publicationBlockReason_eq_none {origin : String → Option String} {sharing : Bool}
    {config : Option RuntimeConfig} {profile : Profile} {report : Report}
    (h : publicationBlockReason origin sharing config profile (some report) = none) :
    ∃ summary, Shareable origin config profile report summary := by
  simp only [publicationBlockReason, block_eq_none] at h
  obtain ⟨-, -, h⟩ := h
  cases hsummary : report.summary with
  | none =>
    rw [hsummary] at h
    cases h
  | some summary =>
    rw [hsummary] at h
    simp only [block_eq_none, not_or, not_exists, not_and, Bool.and_eq_true, Bool.not_eq_true',
      not_not, Bool.not_eq_false, Bool.not_eq_true] at h
    obtain ⟨h₁, h₂, h₃, h₄, h₅, h₆, h₇, -⟩ := h
    refine ⟨summary, hsummary, h₁, h₂, h₃, fun hc => ?_, h₅, h₆.1, h₆.2, h₇⟩
    have hprobed := h₄ hc
    rwa [Option.isNone_eq_false_iff] at hprobed

/-! ### The GREASE differential -/

/-- `GREASE_STAGE_KEYS`. -/
def greaseStageKeys : List Stage :=
  [.constructor, .ready, .datagram, .bidirectionalStream, .unidirectionalStream]

def greaseVerdict (profile : Profile) (control enabled : Option CaseResult) : String :=
  if !profile.webTransportConstructible then "api-unavailable"
  else match control, enabled with
    | some c, some e =>
      if !c.passed .ready then "control-failed"
      else if !e.passed .ready then "affected"
      else if ∃ s ∈ greaseStageKeys,
          publicationGreaseProbe (some c) s ≠ publicationGreaseProbe (some e) s then "degraded"
      else "tolerant"
    | _, _ => "not-run"

/-- The differential of the results that there are. -/
def differential (profile : Profile) (control enabled : Option CaseResult) : Differential where
  control := control
  enabled := enabled
  verdict := greaseVerdict profile control enabled

/-- Where the two probes go. -/
structure GreaseTarget where
  controlBase : String
  enabledBase : String
  path : String

/-- `configuredGreaseDifferential`, where both bases are there and the target is the configured one. -/
def configuredGreaseDifferential (origin : String → Option String) (config : Option RuntimeConfig)
    (targetBase : String) : Option GreaseTarget :=
  if !certificateMetadataMatchesTarget origin config targetBase then none
  else match config.bind RuntimeConfig.greaseDifferential with
    | none => none
    | some configured =>
      match configured.controlBase, configured.enabledBase with
      | some controlBase, some enabledBase =>
        some
          { controlBase := String.ofList (dropSlash controlBase.toList)
            enabledBase := String.ofList (dropSlash enabledBase.toList)
            path := configured.path.getD "/wt/yggdrasil" }
      | _, _ => none

/-- `GREASE_PROBE_VARIANT`. -/
def greaseProbeVariant : Variant where
  id := "grease-probe"
  optionKeys := [.allowPooling, .requireUnreliable, .congestionControl, .protocols]

/-- Both probes of the pair came to their end, and nothing stopped them. -/
def Differential.Complete (d : Differential) : Prop :=
  ∃ path c e, d.control = some c ∧ d.enabled = some e ∧ Ran path greaseProbeVariant c ∧
    Ran path greaseProbeVariant e

end WebTransportEcho.Page
