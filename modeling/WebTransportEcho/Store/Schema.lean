import WebTransportEcho.Js.Loop

/-! The reduced schema of a stored browser result: the fixed vocabulary of `result-store.mjs`
    (paths, stages, outcomes, option keys, browser families, with the texts the source gives them)
    and the records a snapshot is made of.

    A record the source fills in a loop over a key list (`metrics[key]`, `sanitized[key]`,
    `combination[key]`, `probe[key]`) is a function of the key. `toJson` lists the properties in
    the order the source creates them, which is the order `JSON.stringify` prints. -/

namespace WebTransportEcho.Store
open Js

def resultSchemaVersion : Nat := 1

/-! ### Vocabulary -/

inductive ResultPath where
  | basic | protocol | capsule | init | draft | h3Token | yggdrasil | auto
  deriving DecidableEq, Repr

def ResultPath.text : ResultPath → String
  | .basic => "/wt/basic"
  | .protocol => "/wt/protocol"
  | .capsule => "/wt/capsule"
  | .init => "/wt/init"
  | .draft => "/wt/draft"
  | .h3Token => "/wt/h3-token"
  | .yggdrasil => "/wt/yggdrasil"
  | .auto => "/wt/auto"

def resultPaths : List ResultPath :=
  [.basic, .protocol, .capsule, .init, .draft, .h3Token, .yggdrasil, .auto]

inductive Family where
  | brave | chrome | firefox | edge | safari | other
  deriving DecidableEq, Repr

def Family.key : Family → String
  | .brave => "brave"
  | .chrome => "chrome"
  | .firefox => "firefox"
  | .edge => "edge"
  | .safari => "safari"
  | .other => "other"

def Family.name : Family → String
  | .brave => "Brave"
  | .chrome => "Chrome"
  | .firefox => "Firefox"
  | .edge => "Microsoft Edge"
  | .safari => "Safari"
  | .other => "Other"

/-- The known families by lower-case name. -/
def browserFamilies : List (String × Family) :=
  [("brave", .brave), ("chrome", .chrome), ("firefox", .firefox), ("microsoft edge", .edge),
    ("safari", .safari)]

/-- What a WebTransport test goes through, one after the other. -/
inductive Stage where
  | constructor | ready | datagram | bidirectionalStream | unidirectionalStream
  deriving DecidableEq, Repr

def Stage.key : Stage → String
  | .constructor => "constructor"
  | .ready => "ready"
  | .datagram => "datagram"
  | .bidirectionalStream => "bidirectionalStream"
  | .unidirectionalStream => "unidirectionalStream"

/-- A count kept for each path. -/
inductive PathMetric where
  | stage (s : Stage)
  | datagramUnavailable
  deriving DecidableEq, Repr

def PathMetric.key : PathMetric → String
  | .stage s => s.key
  | .datagramUnavailable => "datagramUnavailable"

/-- A count kept for the whole run. -/
inductive Metric where
  | path (m : PathMetric)
  | streamEcho
  | fullEcho
  deriving DecidableEq, Repr

def Metric.key : Metric → String
  | .path m => m.key
  | .streamEcho => "streamEcho"
  | .fullEcho => "fullEcho"

abbrev Metric.stage (s : Stage) : Metric := .path (.stage s)

/-- `METRICS`: the run's counts with their labels. -/
def metrics : List (Metric × String) :=
  [(.stage .constructor, "Constructor"), (.stage .ready, "Ready"), (.stage .datagram, "Datagram"),
    (.path .datagramUnavailable, "Datagram unavailable"), (.stage .bidirectionalStream, "Bidi"),
    (.stage .unidirectionalStream, "Uni"), (.streamEcho, "Stream echo"), (.fullEcho, "Full echo")]

/-- `PATH_METRICS`: a path's counts with their labels. -/
def pathMetrics : List (PathMetric × String) :=
  [(.stage .constructor, "constructor"), (.stage .ready, "ready"),
    (.stage .bidirectionalStream, "bidi"), (.stage .unidirectionalStream, "uni"),
    (.stage .datagram, "datagram"), (.datagramUnavailable, "datagram unavailable")]

inductive OptionKey where
  | allowPooling | requireUnreliable | congestionControl | protocols | serverCertificateHashes
  deriving DecidableEq, Repr

def OptionKey.text : OptionKey → String
  | .allowPooling => "allowPooling"
  | .requireUnreliable => "requireUnreliable"
  | .congestionControl => "congestionControl"
  | .protocols => "protocols"
  | .serverCertificateHashes => "serverCertificateHashes"

/-- `OPTION_LABELS`. -/
def OptionKey.label : OptionKey → String
  | .allowPooling => "allowPooling=false"
  | .requireUnreliable => "requireUnreliable=true"
  | .congestionControl => "congestionControl=low-latency"
  | .protocols => "protocols=quicast-wt-v0"
  | .serverCertificateHashes => "serverCertificateHashes=sha-256"

def optionKeys : List OptionKey :=
  [.allowPooling, .requireUnreliable, .congestionControl, .protocols, .serverCertificateHashes]

/-- `COMBINATION_STAGE_KEYS`. -/
def combinationStageKeys : List Stage :=
  [.constructor, .ready, .bidirectionalStream, .unidirectionalStream, .datagram]

/-- `GREASE_PROBE_KEYS`. -/
def greaseProbeKeys : List Stage :=
  [.constructor, .ready, .datagram, .bidirectionalStream, .unidirectionalStream]

/-- `GREASE_STREAM_KEYS`. -/
def greaseStreamKeys : List Stage := [.bidirectionalStream, .unidirectionalStream]

inductive Outcome where
  | pass | fail | unavailable | notRun
  deriving DecidableEq, Repr

def Outcome.text : Outcome → String
  | .pass => "pass"
  | .fail => "fail"
  | .unavailable => "unavailable"
  | .notRun => "not-run"

/-- `COMBINATION_OUTCOMES`. -/
def combinationOutcomes : List Outcome := [.pass, .fail, .unavailable, .notRun]

inductive Verdict where
  | apiUnavailable | controlFailed | affected | degraded | tolerant
  deriving DecidableEq, Repr

def Verdict.text : Verdict → String
  | .apiUnavailable => "api-unavailable"
  | .controlFailed => "control-failed"
  | .affected => "affected"
  | .degraded => "degraded"
  | .tolerant => "tolerant"

/-! ### Records -/

structure Browser where
  family : Family
  version : Option String
  deriving DecidableEq

structure Capabilities where
  secureContext : Bool
  webTransport : Bool
  deriving DecidableEq

/-- A published run; its `mode` is always `exhaustive` and its `cancelled` always `false`. -/
structure Run where
  plannedCases : Nat
  completedCases : Nat
  deriving DecidableEq

structure Ratio where
  ready : Nat
  total : Nat
  deriving DecidableEq

structure Effect where
  key : OptionKey
  withOption : Ratio
  withoutOption : Ratio
  deriving DecidableEq

/-- One constructor-option combination of a path's matrix. -/
structure Combination where
  mask : Nat
  options : List OptionKey
  outcome : Stage → Outcome

structure PathResult where
  path : ResultPath
  total : Nat
  count : PathMetric → Nat
  effects : List Effect
  combinations : List Combination
  signal : String

abbrev Probe := Stage → Outcome

structure Grease where
  control : Probe
  enabled : Probe
  verdict : Verdict

structure Snapshot where
  receivedAt : String
  browser : Browser
  capabilities : Capabilities
  run : Run
  metrics : Metric → Nat
  conclusion : String
  paths : List PathResult
  grease : Option Grease

/-! ### The records as JavaScript objects -/

def Browser.toJson (b : Browser) : Json :=
  .obj [("key", .str b.family.key), ("name", .str b.family.name),
    ("version", b.version.elim .null .str)]

def Capabilities.toJson (c : Capabilities) : Json :=
  .obj [("secureContext", .bool c.secureContext), ("webTransport", .bool c.webTransport)]

def Run.toJson (r : Run) : Json :=
  .obj [("mode", .str "exhaustive"), ("plannedCases", .nat r.plannedCases),
    ("completedCases", .nat r.completedCases), ("cancelled", .bool false)]

def metricsJson (m : Metric → Nat) : Json :=
  .obj (metrics.map fun e => (e.1.key, .nat (m e.1)))

def Ratio.toJson (r : Ratio) : Json := .obj [("ready", .nat r.ready), ("total", .nat r.total)]

def Effect.toJson (e : Effect) : Json :=
  .obj [("key", .str e.key.text), ("withOption", e.withOption.toJson),
    ("withoutOption", e.withoutOption.toJson)]

def stagesJson (keys : List Stage) (outcome : Stage → Outcome) : List (String × Json) :=
  keys.map fun s => (s.key, .str (outcome s).text)

def Combination.toJson (c : Combination) : Json :=
  .obj (("mask", .nat c.mask) :: ("options", .arr (c.options.map fun k => .str k.text)) ::
    stagesJson combinationStageKeys c.outcome)

def combinationsJson (cs : List Combination) : Json := .arr (cs.map Combination.toJson)

def PathResult.toJson (p : PathResult) : Json :=
  .obj (("path", .str p.path.text) :: ("total", .nat p.total) ::
    (pathMetrics.map fun e => (e.1.key, .nat (p.count e.1))) ++
    [("effects", .arr (p.effects.map Effect.toJson)),
      ("combinations", combinationsJson p.combinations), ("signal", .str p.signal)])

def probeJson (p : Probe) : Json := .obj (stagesJson greaseProbeKeys p)

def Grease.toJson (g : Grease) : Json :=
  .obj [("control", probeJson g.control), ("enabled", probeJson g.enabled),
    ("verdict", .str g.verdict.text)]

def Snapshot.fields (s : Snapshot) : List (String × Json) :=
  [("receivedAt", .str s.receivedAt), ("browser", s.browser.toJson),
    ("capabilities", s.capabilities.toJson), ("run", s.run.toJson),
    ("metrics", metricsJson s.metrics), ("conclusion", .str s.conclusion),
    ("paths", .arr (s.paths.map PathResult.toJson)),
    ("grease", s.grease.elim .null Grease.toJson)]

def Snapshot.toJson (s : Snapshot) : Json := .obj s.fields

/-- `{ schemaVersion: 1, ...snapshot }`: a snapshot as a submission. -/
def Snapshot.submission (s : Snapshot) : Json :=
  .obj (("schemaVersion", .nat resultSchemaVersion) :: s.fields)

/-! ### The vocabulary is told apart by its texts -/

theorem ResultPath.text_injective : Function.Injective ResultPath.text := by
  intro a b h; revert h; cases a <;> cases b <;> decide

theorem Family.key_injective : Function.Injective Family.key := by
  intro a b h; revert h; cases a <;> cases b <;> decide

theorem OptionKey.text_injective : Function.Injective OptionKey.text := by
  intro a b h; revert h; cases a <;> cases b <;> decide

theorem Outcome.text_injective : Function.Injective Outcome.text := by
  intro a b h; revert h; cases a <;> cases b <;> decide

theorem Verdict.text_injective : Function.Injective Verdict.text := by
  intro a b h; revert h; cases a <;> cases b <;> decide

theorem mem_resultPaths (p : ResultPath) : p ∈ resultPaths := by cases p <;> decide

theorem mem_combinationStageKeys (s : Stage) : s ∈ combinationStageKeys := by cases s <;> decide

theorem mem_greaseProbeKeys (s : Stage) : s ∈ greaseProbeKeys := by cases s <;> decide

theorem mem_metrics (m : Metric) : m ∈ metrics.map Prod.fst := by
  rcases m with (s | _) | _ | _ <;> first | decide | (cases s <;> decide)

theorem mem_pathMetrics (m : PathMetric) : m ∈ pathMetrics.map Prod.fst := by
  rcases m with s | _
  · cases s <;> decide
  · decide

end WebTransportEcho.Store
