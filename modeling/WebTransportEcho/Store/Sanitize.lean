import WebTransportEcho.Store.Schema
import Mathlib.Data.List.Sort

/-! `sanitizeSubmission` and the sanitizers it calls: what the store reads of a submission, what it
    refuses and with which message, and the snapshot it builds. Reads that come before a check of
    the same value are in the source's order, so the first failing check is the one reported.

    A count is a natural number; the source's `-0`, which passes the range check and is
    indistinguishable from `0` in every later comparison and text, is the count `0`. -/

namespace WebTransportEcho.Store
open Js

/-! ### Scalars -/

def requiredBoolean (value : Value) (label : String) : Except Error Bool :=
  match value with
  | .json (.bool b) => .ok b
  | _ => .error (.typeError s!"{label} must be boolean")

/-- The count a value is: a safe integer between 0 and 4096. -/
def asCount : Value → Option Nat
  | .json (.num (.int n)) =>
    if !(Num.int n).isSafeInteger ∨ n < 0 ∨ 4096 < n then none else some n.toNat
  | .json (.num .negZero) => some 0
  | _ => none

def requiredCount (value : Value) (label : String) : Except Error Nat :=
  match asCount value with
  | some n => .ok n
  | none => .error (.typeError s!"{label} must be an integer between 0 and 4096")

/-- The outcome a value names. -/
def asOutcome (value : Value) : Option Outcome :=
  combinationOutcomes.find? fun o => value.isStr o.text

def requiredCombinationOutcome (value : Value) (label : String) : Except Error Outcome :=
  match asOutcome value with
  | some o => .ok o
  | none => .error (.typeError s!"{label} has an invalid outcome")

/-- `if (!Array.isArray(value) || !ok(value)) throw new TypeError(message);` -/
def requiredArray (value : Value) (ok : List Json → Bool) (message : String) :
    Except Error (List Json) :=
  match value with
  | .json (.arr items) => if ok items then .ok items else .error (.typeError message)
  | _ => .error (.typeError message)

/-! ### Browser -/

/-- Lower case of one character. Outside ASCII only the Kelvin sign and the dotted capital I lower
    to text with an ASCII letter in it; what the others lower to is in no family's name. -/
def lowerChar (c : Char) : List Char :=
  if 0x41 ≤ c.toNat ∧ c.toNat ≤ 0x5a then [Char.ofNat (c.toNat + 0x20)]
  else if c.toNat = 0x212a then ['k']
  else if c.toNat = 0x130 then ['i', Char.ofNat 0x307]
  else [c]

def toLowerCase (s : String) : String := String.ofList (s.toList.flatMap lowerChar)

/-- `text.match(/^(\d{1,4})/)?.[1] ?? null`. -/
def leadingDigits (text : String) : Option String :=
  let ds := (text.toList.takeWhile Char.isDigit).take 4
  if ds.isEmpty then none else some (String.ofList ds)

/-- `String(version ?? "")`. -/
def versionText (version : Value) : Except Error String :=
  if version.isNullish then .ok "" else version.toText

def normalizeBrowser (input : Value) : Except Error Browser := do
  let suppliedName :=
    match input.optional "name" with
    | .json (.str s) => toLowerCase s
    | _ => ""
  let family := (browserFamilies.lookup suppliedName).getD .other
  let text ← versionText (input.optional "version")
  .ok { family, version := leadingDigits text }

def browserKeyForSubmission (input : Json) : Except Error String := do
  let browser ← normalizeBrowser ((Value.json input).optional "browser")
  .ok browser.family.key

/-! ### Run and metrics -/

def sanitizeRun (input : Value) (capabilities : Capabilities) : Except Error Run := do
  throwIf (¬ (input.optional "mode").isStr "exhaustive") "only exhaustive runs can be published"
  throwIf (¬ (input.optional "cancelled").same (.json (.bool false)))
    "cancelled runs cannot be published"
  let plannedCases ← requiredCount (input.optional "plannedCases") "plannedCases"
  let completedCases ← requiredCount (input.optional "completedCases") "completedCases"
  throwIf (plannedCases = 0 ∨ plannedCases < completedCases) "invalid run coverage"
  throwIf (capabilities.webTransport ∧ completedCases ≠ plannedCases)
    "incomplete runs cannot be published"
  throwIf (¬ capabilities.webTransport ∧ completedCases ≠ 0)
    "API-unavailable runs cannot contain cases"
  .ok { plannedCases, completedCases }

/-- A count read from a property, with the bound it must not exceed. -/
def boundedCount (input : Value) (key label : String) (bound : Nat) (exceeds : String) :
    Except Error Nat := do
  let n ← requiredCount (input.optional key) label
  throwIf (bound < n) exceeds
  .ok n

def sanitizeMetrics (input : Value) (completedCases : Nat) : Except Error (Metric → Nat) :=
  fill (fun m => boundedCount input m.key m.key completedCases s!"{m.key} exceeds completedCases")
    (metrics.map Prod.fst) fun _ => 0

/-! ### Option effects and the signal derived from them -/

def sanitizeRatio (input : Value) (label : String) : Except Error Ratio := do
  let ready ← requiredCount (input.optional "ready") s!"{label}.ready"
  let total ← requiredCount (input.optional "total") s!"{label}.total"
  throwIf (total < ready) s!"{label}.ready exceeds total"
  .ok { ready, total }

/-- The option a value names. -/
def asOptionKey (value : Value) : Option OptionKey := optionKeys.find? fun k => value.isStr k.text

def sanitizeEffect (path : ResultPath) (seen : List OptionKey) (effect : Json) :
    Except Error Effect := do
  let invalid := s!"{path.text}.effects contains an invalid option"
  match asOptionKey ((Value.json effect).optional "key") with
  | none => .error (.typeError invalid)
  | some key =>
    throwIf (key ∈ seen) invalid
    let label := s!"{path.text}.{key.text}"
    let withOption ← sanitizeRatio (effect.get "withOption") s!"{label}.withOption"
    let withoutOption ← sanitizeRatio (effect.get "withoutOption") s!"{label}.withoutOption"
    .ok { key, withOption, withoutOption }

def sanitizeEffects (input : Value) (path : ResultPath) : Except Error (List Effect) :=
  match input with
  | .undefined => .ok []
  | _ => do
    let items ← requiredArray input (fun items => decide (items.length ≤ optionKeys.length))
      s!"{path.text}.effects is invalid"
    mapUnique (sanitizeEffect path) Effect.key [] items

/-- `ready only with A, B` for the effects that pass the test; nothing when none does. -/
def signalPart (intro : String) (effects : List Effect) : List String :=
  if effects.isEmpty then []
  else [intro ++ String.intercalate ", " (effects.map fun e => e.key.label)]

def onlyWith (effects : List Effect) : List Effect :=
  effects.filter fun e => decide (0 < e.withOption.ready ∧ e.withoutOption.ready = 0)

def onlyWithout (effects : List Effect) : List Effect :=
  effects.filter fun e => decide (0 < e.withoutOption.ready ∧ e.withOption.ready = 0)

/-- The signal of a path whose ready count is neither zero nor its total. -/
def effectSignal (effects : List Effect) : String :=
  let signals := signalPart "ready only with " (onlyWith effects) ++
    signalPart "ready only without " (onlyWithout effects)
  if signals.isEmpty then "Mixed or interacting option effects" else String.intercalate "; " signals

def optionSignal (total ready : Nat) (effects : List Effect) (capabilities : Capabilities) :
    String :=
  if ¬ capabilities.webTransport ∧ total = 0 then "WebTransport API unavailable"
  else if ready = 0 then "No combination reached ready"
  else if ready = total then "Every tested combination reached ready"
  else effectSignal effects

/-! ### The option matrix of a path -/

/-- The options whose bit is set in the mask. -/
def expectedOptions (mask : Nat) : List OptionKey :=
  (optionKeys.zipIdx.filter fun k => decide (mask &&& (1 <<< k.2) ≠ 0)).map Prod.fst

/-- The supplied list names exactly the expected options, in order. -/
def optionsMatch (expected : List OptionKey) (options : List Json) : Bool :=
  decide (options.length = expected.length) &&
    (options.zip expected).all fun p => (Value.json p.1).isStr p.2.text

def sanitizeCombination (path : ResultPath) (total : Nat) (seen : List Nat) (item : Json) :
    Except Error Combination := do
  let mask ← requiredCount ((Value.json item).optional "mask") s!"{path.text}.combination.mask"
  throwIf (total ≤ mask ∨ mask ∈ seen) s!"{path.text}.combinations contains an invalid option mask"
  let expected := expectedOptions mask
  let _ ← requiredArray (item.get "options") (optionsMatch expected)
    s!"{path.text}.combination {mask} has invalid options"
  let outcome ← fill
    (fun s => requiredCombinationOutcome (item.get s.key)
      s!"{path.text}.combination {mask}.{s.key}")
    combinationStageKeys fun _ => .notRun
  .ok { mask, options := expected, outcome }

def sortByMask (cs : List Combination) : List Combination :=
  cs.insertionSort fun l r => l.mask ≤ r.mask

def sanitizeCombinations (input : Value) (path : ResultPath) (total : Nat) :
    Except Error (List Combination) := do
  let items ← requiredArray input (fun items => decide (items.length = total))
    s!"{path.text}.combinations must contain one entry per case"
  if total = 0 then .ok []
  else do
    throwIf (total ≠ 16 ∧ total ≠ 32)
      s!"{path.text}.combinations has an unsupported exhaustive size"
    let supplied ← mapUnique (sanitizeCombination path total) Combination.mask [] items
    let combinations := sortByMask supplied
    throwIf (¬ ∀ mask ∈ List.range total, (combinations[mask]?).map Combination.mask = some mask)
      s!"{path.text}.combinations must cover every exhaustive option mask"
    .ok combinations

/-- How many combinations have this outcome at this stage. -/
def outcomeCount (cs : List Combination) (s : Stage) (o : Outcome) : Nat :=
  (cs.filter fun c => decide (c.outcome s = o)).length

def validateCombinationCounts (path : ResultPath) (count : PathMetric → Nat)
    (cs : List Combination) : Except Error Unit := do
  forEach (fun s => throwIf (outcomeCount cs s .pass ≠ count (.stage s))
    s!"{path.text}.{s.key} does not match its option matrix") combinationStageKeys
  throwIf (outcomeCount cs .datagram .unavailable ≠ count .datagramUnavailable)
    s!"{path.text}.datagramUnavailable does not match its option matrix"

/-! ### Paths -/

/-- `Map.prototype.set`: an existing key keeps its place and gets the new value. -/
def mapSet (key : Value) (item : Json) : List (Value × Json) → List (Value × Json)
  | [] => [(key, item)]
  | e :: rest => if e.1.same key then (e.1, item) :: rest else e :: mapSet key item rest

/-- `new Map(input.map((item) => [item?.path, item]))`. -/
def suppliedPaths (items : List Json) : List (Value × Json) :=
  items.foldl (fun m item => mapSet ((Value.json item).optional "path") item m) []

/-- `supplied.get(path)`, where it is there and truthy. -/
def findPath (supplied : List (Value × Json)) (path : ResultPath) : Option Json :=
  ((supplied.find? fun e => e.1.isStr path.text).map Prod.snd).filter Json.truthy

def sanitizePath (capabilities : Capabilities) (supplied : List (Value × Json))
    (path : ResultPath) : Except Error PathResult :=
  match findPath supplied path with
  | none => .error (.typeError s!"missing response path {path.text}")
  | some item => do
    let total ← requiredCount (item.get "total") s!"{path.text}.total"
    let count ← fill
      (fun m => boundedCount (.json item) m.key s!"{path.text}.{m.key}" total
        s!"{path.text}.{m.key} exceeds total")
      (pathMetrics.map Prod.fst) fun _ => 0
    let effects ← sanitizeEffects (item.get "effects") path
    let combinations ← sanitizeCombinations (item.get "combinations") path total
    validateCombinationCounts path count combinations
    let signal := optionSignal total (count (.stage .ready)) effects capabilities
    .ok { path, total, count, effects, combinations, signal }

def sanitizePaths (input : Value) (run : Run) (capabilities : Capabilities) :
    Except Error (List PathResult) := do
  let items ← requiredArray input (fun items => decide (items.length = resultPaths.length))
    "all response paths are required"
  let supplied := suppliedPaths items
  throwIf (supplied.length ≠ resultPaths.length) "response paths must be unique"
  let paths ← resultPaths.mapM (sanitizePath capabilities supplied)
  let totalCases := (paths.map PathResult.total).sum
  throwIf (totalCases ≠ run.completedCases) "path totals do not match completedCases"
  .ok paths

/-! ### GREASE -/

def sanitizeGreaseProbe (input : Value) (label : String) : Except Error Probe := do
  let probe ← fill
    (fun s => requiredCombinationOutcome (input.optional s.key) s!"{label}.{s.key}")
    greaseProbeKeys fun _ => .notRun
  forEach (fun s => throwIf (probe s = .unavailable) s!"{label}.{s.key} cannot be unavailable")
    (Stage.constructor :: .ready :: greaseStreamKeys)
  throwIf (probe .constructor ≠ .pass ∧ probe .ready ≠ .notRun)
    s!"{label}.ready must not run when construction fails"
  let echoKeys := Stage.datagram :: greaseStreamKeys
  throwIf (probe .ready ≠ .pass ∧ ∃ s ∈ echoKeys, probe s ≠ .notRun)
    s!"{label} echo stages must not run before ready"
  throwIf (probe .ready = .pass ∧ ∃ s ∈ echoKeys, probe s = .notRun)
    s!"{label} is incomplete after ready"
  .ok probe

def sanitizeGrease (input : Value) (capabilities : Capabilities) :
    Except Error (Option Grease) :=
  if input.isNullish then .ok none
  else do
    let control ← sanitizeGreaseProbe (input.optional "control") "grease.control"
    let enabled ← sanitizeGreaseProbe (input.optional "enabled") "grease.enabled"
    if ¬ capabilities.webTransport then
      throwIf (∃ s ∈ greaseProbeKeys, control s ≠ .notRun ∨ enabled s ≠ .notRun)
        "GREASE probes cannot run without a WebTransport API"
      .ok (some { control, enabled, verdict := .apiUnavailable })
    else if control .ready ≠ .pass then .ok (some { control, enabled, verdict := .controlFailed })
    else if enabled .ready ≠ .pass then .ok (some { control, enabled, verdict := .affected })
    else if ∃ s ∈ greaseProbeKeys, control s ≠ enabled s then
      .ok (some { control, enabled, verdict := .degraded })
    else .ok (some { control, enabled, verdict := .tolerant })

/-! ### The whole submission -/

def conclusionFor (capabilities : Capabilities) (metrics : Metric → Nat) : String :=
  if ¬ capabilities.webTransport then "WebTransport API unavailable"
  else if 0 < metrics .fullEcho then "Full datagram and stream echo works"
  else if 0 < metrics .streamEcho ∧ metrics .streamEcho ≤ metrics (.path .datagramUnavailable) then
    "Ready and stream echo work; datagram API unavailable"
  else if 0 < metrics .streamEcho then "Ready and stream echo work; datagram echo failed"
  else if 0 < metrics (.stage .ready) then "Ready works; complete stream echo did not"
  else if 0 < metrics (.stage .constructor) then "WebTransport exists; no case reached ready"
  else "All constructor calls failed"

def sanitizeSubmission (input : Json) (receivedAt : String) (requireGrease : Bool) :
    Except Error Snapshot := do
  let input := Value.json input
  throwIf (¬ (input.optional "schemaVersion").same (.json (.nat resultSchemaVersion)))
    "unsupported result schema"
  let browser ← normalizeBrowser (input.optional "browser")
  let secureContext ←
    requiredBoolean ((input.optional "capabilities").optional "secureContext") "secureContext"
  let webTransport ←
    requiredBoolean ((input.optional "capabilities").optional "webTransport") "webTransport"
  let capabilities : Capabilities := { secureContext, webTransport }
  let run ← sanitizeRun (input.optional "run") capabilities
  let metrics ← sanitizeMetrics (input.optional "metrics") run.completedCases
  let paths ← sanitizePaths (input.optional "paths") run capabilities
  let grease ← sanitizeGrease (input.optional "grease") capabilities
  throwIf (requireGrease ∧ grease.isNone) "GREASE differential result is required"
  .ok { receivedAt, browser, capabilities, run, metrics,
        conclusion := conclusionFor capabilities metrics, paths, grease }

end WebTransportEcho.Store
