import WebTransportEcho.Store.Sanitize
import Mathlib.Data.List.Infix

/-! The matrix page's cases and what it counts over their results. A case is a response path with a
    constructor variant; its result has a `StageResult` for each stage it got to. The page has its
    own copies of the paths, the option keys and their labels, and counts on its own. What it counts
    does not depend on how options are named: `κ` are the names, and the page's own are `OptionKey`.

    A variant's options object is the one its option keys spell: each key always comes with the same
    value. -/

namespace WebTransportEcho.Page
open Js Store

/-- `PATHS`. -/
def pagePaths : List String :=
  ["/wt/basic", "/wt/protocol", "/wt/capsule", "/wt/init", "/wt/draft", "/wt/h3-token",
    "/wt/yggdrasil", "/wt/auto"]

/-! ### Variants -/

structure Axis (κ : Type) where
  key : κ
  label : String

/-- `EXHAUSTIVE_AXES`. -/
def exhaustiveAxes : List (Axis OptionKey) :=
  [⟨.allowPooling, "allowPooling=false"⟩, ⟨.requireUnreliable, "requireUnreliable=true"⟩,
    ⟨.congestionControl, "congestionControl=low-latency"⟩, ⟨.protocols, "protocols=quicast-wt-v0"⟩]

/-- `CERTIFICATE_AXIS`. -/
def certificateAxis : Axis OptionKey := ⟨.serverCertificateHashes, "serverCertificateHashes=sha-256"⟩

def axes (includeCertificateHash : Bool) : List (Axis OptionKey) :=
  if includeCertificateHash then exhaustiveAxes ++ [certificateAxis] else exhaustiveAxes

structure Variant where
  id : String
  optionKeys : List OptionKey
  deriving DecidableEq

/-- `optionsNeedHash`: the options ask for the certificate hash. -/
def Variant.needsHash (v : Variant) : Bool := v.optionKeys.contains .serverCertificateHashes

structure ExhaustiveVariant extends Variant where
  mask : Nat
  deriving DecidableEq

/-- `for (let current = value; current > 0; current >>= 1) count += current & 1;` -/
def bitCountLoop : Nat → Nat → Nat
  | 0, _ => 0
  | fuel + 1, current => if current = 0 then 0 else current % 2 + bitCountLoop fuel (current / 2)

def bitCount (value : Nat) : Nat := bitCountLoop value value

/-- `mask.toString(16)`. -/
def toHex (mask : Nat) : String := String.ofList (Nat.toDigits 16 mask)

def exhaustiveVariant (axes : List (Axis OptionKey)) (mask : Nat) : ExhaustiveVariant where
  id := "exhaustive-" ++ toHex mask
  optionKeys := (axes.zipIdx.filter fun a => decide (mask &&& (1 <<< a.2) ≠ 0)).map fun a => a.1.key
  mask := mask

/-- The comparator of the sort is not positive. -/
def comesFirst (includeCertificateHash : Bool) (left right : ExhaustiveVariant) : Bool :=
  if includeCertificateHash && left.needsHash != right.needsHash then left.needsHash
  else decide (bitCount left.mask < bitCount right.mask ∨
    (bitCount left.mask = bitCount right.mask ∧ left.mask ≤ right.mask))

def buildExhaustiveVariants (includeCertificateHash : Bool) : List ExhaustiveVariant :=
  ((List.range (2 ^ (axes includeCertificateHash).length)).map
    (exhaustiveVariant (axes includeCertificateHash))).insertionSort
      fun l r => comesFirst includeCertificateHash l r = true

/-- The option keys of `VARIANTS`, in its order. -/
def curatedOptionKeys : List (List OptionKey) :=
  [[], [.requireUnreliable], [.allowPooling, .requireUnreliable],
    [.allowPooling, .requireUnreliable, .congestionControl],
    [.allowPooling, .requireUnreliable, .congestionControl, .protocols],
    [.requireUnreliable, .serverCertificateHashes],
    [.allowPooling, .requireUnreliable, .congestionControl, .protocols, .serverCertificateHashes]]

/-- The variants whose boxes are checked. -/
def selectedCuratedVariants (checked : Nat → Bool) : List Variant :=
  (curatedOptionKeys.zipIdx.filter fun v => checked v.2).map fun v =>
    { id := "curated-" ++ toString v.2, optionKeys := v.1 }

/-! ### Results -/

inductive Status where
  | fulfilled | timeout | rejected | notRun
  deriving DecidableEq, Repr

structure StageResult where
  ok : Bool
  status : Status
  detail : String
  deriving DecidableEq

/-- `/unavailable/i.test(detail)`. Only ASCII letters match without regard to case. -/
def mentionsUnavailable (detail : String) : Bool :=
  decide ("unavailable".toList <:+: detail.toList.map Char.toLower)

def datagramUnavailable (value : Option StageResult) : Bool :=
  value.any fun v => decide (v.status = .notRun) && mentionsUnavailable v.detail

/-- The result of one case. A stage that was not come to is `null`. -/
structure ResultOf (κ : Type) where
  url : String
  path : String
  variantId : String
  optionKeys : List κ
  stage : Stage → Option StageResult
  cancelled : Bool

abbrev CaseResult := ResultOf OptionKey

/-- `result[key]?.ok === true`. -/
def ResultOf.passed {κ : Type} (c : ResultOf κ) (s : Stage) : Bool := (c.stage s).any StageResult.ok

def countFulfilled {κ : Type} (cases : List (ResultOf κ)) (s : Stage) : Nat :=
  (cases.filter fun c => c.passed s).length

/-! ### The summary -/

structure Summary where
  plannedCases : Nat
  completedCases : Nat
  count : Metric → Nat

def summarizeResults (cases : List CaseResult) (plannedCases : Nat) : Summary where
  plannedCases := plannedCases
  completedCases := cases.length
  count
    | .path (.stage s) => countFulfilled cases s
    | .path .datagramUnavailable =>
      (cases.filter fun c => datagramUnavailable (c.stage .datagram)).length
    | .streamEcho => (cases.filter fun c => c.passed .ready && c.passed .bidirectionalStream &&
        c.passed .unidirectionalStream).length
    | .fullEcho => (cases.filter fun c => c.passed .ready && c.passed .datagram &&
        c.passed .bidirectionalStream && c.passed .unidirectionalStream).length

/-! ### The analysis of the paths -/

structure AxisEffect (κ : Type) where
  key : κ
  label : String
  withOption : Ratio
  withoutOption : Ratio

structure PathAnalysis (κ : Type) where
  path : String
  total : Nat
  ready : Nat
  bidirectionalStream : Nat
  unidirectionalStream : Nat
  datagram : Nat
  datagramUnavailable : Nat
  signal : String
  effects : List (AxisEffect κ)

/-- `intro` followed by the labels; nothing when there are none. -/
def namePart (intro : String) (labels : List String) : List String :=
  if labels.isEmpty then [] else [intro ++ String.intercalate ", " labels]

/-- The text that lists these labels under `ready only with` and those under `ready only without`. -/
def signalText (only without : List String) : String :=
  let signals := namePart "ready only with " only ++ namePart "ready only without " without
  if signals.isEmpty then "Mixed or interacting option effects" else String.intercalate "; " signals

section Analysis

variable {κ : Type}

def readyRatio (cases : List (ResultOf κ)) : Ratio where
  ready := countFulfilled cases .ready
  total := cases.length

def onlyWith (effects : List (AxisEffect κ)) : List (AxisEffect κ) :=
  effects.filter fun e => decide (0 < e.withOption.ready ∧ e.withoutOption.ready = 0)

def onlyWithout (effects : List (AxisEffect κ)) : List (AxisEffect κ) :=
  effects.filter fun e => decide (0 < e.withoutOption.ready ∧ e.withOption.ready = 0)

/-- The signal of a path's analysis, from its ready count, its number of cases and its effects. -/
def analysisSignal (ready total : Nat) (effects : List (AxisEffect κ)) : String :=
  if ready = 0 then "No combination reached ready"
  else if ready = total then "Every tested combination reached ready"
  else signalText ((onlyWith effects).map AxisEffect.label) ((onlyWithout effects).map AxisEffect.label)

def casesOf (cases : List (ResultOf κ)) (path : String) : List (ResultOf κ) :=
  cases.filter fun c => decide (c.path = path)

variable [DecidableEq κ]

def axisEffect (pathCases : List (ResultOf κ)) (axis : Axis κ) : AxisEffect κ where
  key := axis.key
  label := axis.label
  withOption := readyRatio (pathCases.filter fun c => c.optionKeys.contains axis.key)
  withoutOption := readyRatio (pathCases.filter fun c => !c.optionKeys.contains axis.key)

def analyzePath (cases : List (ResultOf κ)) (axes : List (Axis κ)) (path : String) : PathAnalysis κ :=
  let pathCases := casesOf cases path
  let effects := axes.map (axisEffect pathCases)
  let ready := countFulfilled pathCases .ready
  { path, total := pathCases.length, ready,
    bidirectionalStream := countFulfilled pathCases .bidirectionalStream
    unidirectionalStream := countFulfilled pathCases .unidirectionalStream
    datagram := countFulfilled pathCases .datagram
    -- counted over the cases that got ready only
    datagramUnavailable := ((pathCases.filter fun c => c.passed .ready).filter fun c =>
      Page.datagramUnavailable (c.stage .datagram)).length
    signal := analysisSignal ready pathCases.length effects, effects }

def analyzePaths (cases : List (ResultOf κ)) (axes : List (Axis κ)) : List (PathAnalysis κ) :=
  (cases.map ResultOf.path).eraseDups.map (analyzePath cases axes)

end Analysis

end WebTransportEcho.Page
