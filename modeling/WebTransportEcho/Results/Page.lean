import WebTransportEcho.Js.Compare
import WebTransportEcho.Js.Returns
import WebTransportEcho.Store.Schema
import WebTransportEcho.Store.Reading

/-! The overview page, `results.js`. It loads the overview from its server, at the start and whenever
    the reader asks for it, and writes what it is given into its tables; in a matrix the reader
    chooses whose rows are shown. What the page is given is a document, of which nothing is known.

    What `render` throws is caught by `loadResults`, and the tables stay as far as they were written.
    How the reader's browser reads and writes dates is a parameter. Of the properties that every
    object inherits only `constructor` is known to `Json.get`. -/

namespace WebTransportEcho.Results
open Js Store

/-! ### What is written -/

structure Cell where
  text : String
  className : String
  deriving DecidableEq, Repr

abbrev Row := List Cell

/-- What is shown of one browser, below a heading. -/
structure Detail where
  title : String
  received : String
  head : List String
  rows : List Row

/-- The same for a matrix. The listener of its options has the paths at hand. -/
structure Matrix where
  title : String
  received : String
  options : List (String × String)
  head : List String
  rows : List Row
  paths : List Json

structure Dom where
  status : String
  refreshDisabled : Bool
  browserCount : String
  changeCount : String
  lastResult : String
  latestEmptyHidden : Bool
  latestWrapHidden : Bool
  latestBody : List Row
  greaseHidden : Bool
  greaseBody : List Row
  pathHidden : Bool
  pathDetails : List Detail
  matrixHidden : Bool
  matrixDetails : List Matrix
  changesEmptyHidden : Bool
  changesWrapHidden : Bool
  changesBody : List Row

/-- Dates in the reader's browser: the times of texts and of numbers, and how a time is written. -/
structure Dates where
  parse : String → Option Int
  ofNumber : Js.Num → Option Int
  format : Int → String

/-- A date of a value; an invalid one is `none`. -/
def Dates.time (dates : Dates) (value : Value) : Except Error (Option Int) := do
  match ← value.primitive with
  | .json (.str s) => .ok (dates.parse s)
  | v => .ok (dates.ofNumber v.number)

def Dates.formatDate (dates : Dates) (value : Value) : Except Error String := do
  match ← dates.time value with
  | none => .ok "unknown"
  | some t => .ok (dates.format t)

/-- `Date.parse(value)`. -/
def Dates.parseDate (dates : Dates) (value : Value) : Except Error (Option Int) := do
  let text ← value.toText
  .ok (dates.parse text)

/-! ### Cells -/

def zero : Value := .json (.nat 0)

/-- What an element shows whose text is set to a value. -/
def textContent (value : Value) : Except Error String :=
  if value.isNullish then .ok "" else value.toText

def appendCell (value : Value) (className : String) : Except Error Cell := do
  let text ← value.toText
  .ok { text, className }

def textCell (text className : String) : Cell := { text, className }

def browserLabel (name version : Value) : Except Error Value :=
  if version.truthy then do
    let n ← name.toText
    let v ← version.toText
    .ok (.json (.str s!"{n} {v}"))
  else .ok name

/-- `browserLabel(result.browser)`. -/
def labelOf (result : Value) : Except Error Value := do
  let browser ← result.dot "browser"
  let version ← browser.dot "version"
  let name ← browser.dot "name"
  browserLabel name version

def ratio (value total : Value) : Except Error String := do
  let v ← value.toText
  let t ← total.toText
  .ok s!"{v}/{t}"

def metricClass (value total : Value) : Except Error String :=
  if total.same zero then .ok "muted"
  else if value.same total then .ok "good"
  else do
    if ← value.above zero then .ok "warn" else .ok "bad"

def appendMetric (value total : Value) : Except Error Cell := do
  let text ← ratio value total
  let className ← metricClass value total
  .ok { text, className }

/-- `{ ...entries }[key] ?? fallback`. -/
def labelled (entries : List (String × String)) (key : Value) (fallback : String) :
    Except Error String := do
  let name ← key.toText
  let found := (Json.obj (entries.map fun e => (e.1, .str e.2))).get name
  if found.isNullish then .ok fallback else found.toText

def outcomeLabels : List (String × String) :=
  [("pass", "pass"), ("fail", "fail"), ("unavailable", "not exposed"), ("not-run", "not run")]

def outcomeClasses : List (String × String) :=
  [("pass", "good"), ("fail", "bad"), ("unavailable", "warn"), ("not-run", "muted")]

def appendOutcome (outcome : Value) : Except Error Cell := do
  let text ← labelled outcomeLabels outcome "unknown"
  let className ← labelled outcomeClasses outcome "muted"
  .ok { text, className }

/-! ### The latest results -/

def notExposed (result : Value) : Except Error Bool := do
  let metrics ← result.dot "metrics"
  let streamEcho ← metrics.dot "streamEcho"
  if ← streamEcho.above zero then
    let unavailable ← metrics.dot "datagramUnavailable"
    unavailable.atLeast streamEcho
  else .ok false

/-- `result[record][key]`. -/
def field (result : Value) (record key : String) : Except Error Value := do
  let r ← result.dot record
  r.dot key

def datagramText (result : Value) : Except Error String := do
  if ← notExposed result then .ok "not exposed"
  else
    let datagram ← field result "metrics" "datagram"
    let completed ← field result "run" "completedCases"
    ratio datagram completed

def datagramClass (result : Value) : Except Error String := do
  let text ← datagramText result
  if text = "not exposed" then .ok "warn"
  else
    let datagram ← field result "metrics" "datagram"
    let completed ← field result "run" "completedCases"
    metricClass datagram completed

def conclusionClass (result : Value) : Except Error String := do
  let available ← field result "capabilities" "webTransport"
  let ready ← field result "metrics" "ready"
  if !available.truthy || ready.same zero then .ok "bad"
  else
    let fullEcho ← field result "metrics" "fullEcho"
    if ← fullEcho.above zero then .ok "good" else .ok "warn"

/-- `appendMetric(row, result.metrics[key], result.run.completedCases)`. -/
def metricCell (result : Value) (key : String) : Except Error Cell := do
  let value ← field result "metrics" key
  let completed ← field result "run" "completedCases"
  appendMetric value completed

def latestRow (dates : Dates) (result : Value) : Except Error Row := do
  let label ← labelOf result
  let browser ← appendCell label ""
  let receivedAt ← result.dot "receivedAt"
  let received ← dates.formatDate receivedAt
  let available ← field result "capabilities" "webTransport"
  let completed ← field result "run" "completedCases"
  let planned ← field result "run" "plannedCases"
  let coverage ← ratio completed planned
  let constructor ← metricCell result "constructor"
  let ready ← metricCell result "ready"
  let bidi ← metricCell result "bidirectionalStream"
  let uni ← metricCell result "unidirectionalStream"
  let datagram ← datagramText result
  let datagramShade ← datagramClass result
  let conclusion ← result.dot "conclusion"
  let conclusionShade ← conclusionClass result
  let verdict ← appendCell conclusion conclusionShade
  .ok [browser, textCell received "",
    if available.truthy then textCell "available" "good" else textCell "unavailable" "bad",
    textCell coverage "", constructor, ready, bidi, uni, textCell datagram datagramShade, verdict]

/-! ### GREASE -/

def greaseEchoText (probe : Value) : String :=
  if !(probe.optional "ready").isStr "pass" then "not run"
  else if (probe.optional "datagram").isStr "pass" ∧ (probe.optional "bidirectionalStream").isStr "pass" ∧
      (probe.optional "unidirectionalStream").isStr "pass" then "full echo"
  else if (probe.optional "bidirectionalStream").isStr "pass" ∧
      (probe.optional "unidirectionalStream").isStr "pass" then
    if (probe.optional "datagram").isStr "unavailable" then "stream echo" else "stream echo only"
  else "failed"

def greaseEchoClass (probe : Value) : String :=
  let text := greaseEchoText probe
  if text = "full echo" then "good"
  else if text = "not run" then "muted"
  else if "stream echo".toList.isPrefixOf text.toList then "warn"
  else "bad"

def greaseVerdictText (verdict : Value) : Except Error String :=
  labelled
    [("api-unavailable", "API unavailable"), ("control-failed", "Control failed"),
      ("affected", "Affected by GREASE"), ("degraded", "Post-ready behavior changed"),
      ("tolerant", "GREASE tolerated")] verdict "Not tested"

def greaseVerdictClass (verdict : Value) : String :=
  if verdict.isStr "tolerant" then "good"
  else if verdict.isStr "affected" then "bad"
  else if verdict.isStr "degraded" then "warn"
  else if verdict.isStr "control-failed" then "warn"
  else "muted"

def greaseRow (result : Value) : Except Error Row := do
  let label ← labelOf result
  let browser ← appendCell label ""
  let control ← field result "grease" "control"
  let controlReady ← control.dot "ready"
  let controlCell ← appendOutcome controlReady
  let enabled ← field result "grease" "enabled"
  let enabledReady ← enabled.dot "ready"
  let enabledCell ← appendOutcome enabledReady
  let verdict ← field result "grease" "verdict"
  let verdictText ← greaseVerdictText verdict
  .ok [browser, controlCell, enabledCell, textCell (greaseEchoText control) (greaseEchoClass control),
    textCell (greaseEchoText enabled) (greaseEchoClass enabled),
    textCell verdictText (greaseVerdictClass verdict)]

/-! ### Paths -/

/-- The datagram of a path is not exposed. -/
def pathNotExposed (path : Value) : Except Error Bool := do
  let unavailable ← path.dot "datagramUnavailable"
  let ready ← path.dot "ready"
  if unavailable.same ready then ready.above zero else .ok false

/-- `appendMetric(row, path[key], path.total)`. -/
def pathCell (path : Value) (key : String) : Except Error Cell := do
  let value ← path.dot key
  let total ← path.dot "total"
  appendMetric value total

def datagramCell (path : Value) : Except Error Cell := do
  if ← pathNotExposed path then .ok (textCell "not exposed" "warn")
  else pathCell path "datagram"

def pathRow (path : Value) : Except Error Row := do
  let name ← path.dot "path"
  let nameCell ← appendCell name ""
  let constructor ← pathCell path "constructor"
  let ready ← pathCell path "ready"
  let bidi ← pathCell path "bidirectionalStream"
  let uni ← pathCell path "unidirectionalStream"
  let datagram ← datagramCell path
  let signal ← path.dot "signal"
  let count ← path.dot "ready"
  let connected ← count.above zero
  let signalCell ← appendCell signal (if connected then "muted" else "bad")
  .ok [nameCell, constructor, ready, bidi, uni, datagram, signalCell]

/-- What `for … of` goes through. -/
def iterate : Value → Except Error (List Value)
  | .json (.arr items) => .ok (items.map .json)
  | .json (.str s) => .ok (s.toList.map fun c => .json (.str (String.ofList [c])))
  | _ => .error (.typeError "object is not iterable")

def pathHead : List String :=
  ["Path", "Constructor", "Ready", "Bidi", "Uni", "Datagram", "Option signal"]

/-- The title of a browser's details, and the date. -/
def heading (dates : Dates) (result : Value) : Except Error (String × String) := do
  let label ← labelOf result
  let title ← textContent label
  let receivedAt ← result.dot "receivedAt"
  let received ← dates.formatDate receivedAt
  .ok (title, received)

def pathDetail (dates : Dates) (result : Value) : Except Error Detail := do
  let (title, received) ← heading dates result
  let paths ← result.dot "paths"
  let items ← iterate paths
  let rows ← items.mapM pathRow
  .ok { title, received, head := pathHead, rows }

/-! ### Matrices -/

def joinTexts (separator : String) (items : List Json) : Except Error String := do
  let texts ← Json.elementTexts items
  .ok (String.intercalate separator texts)

/-- `OPTION_LABELS.get(key) ?? key`. -/
def optionLabel : Json → Json
  | .str key => .str (((optionKeys.map fun k => (k.text, k.label)).lookup key).getD key)
  | key => key

def optionText : Value → Except Error String
  | .json (.arr (key :: keys)) => joinTexts " + " ((key :: keys).map optionLabel)
  | _ => .ok "no options"

def combinationRow (combination : Value) : Except Error Row := do
  let options ← combination.dot "options"
  let text ← optionText options
  let constructor ← combination.dot "constructor"
  let constructorCell ← appendOutcome constructor
  let ready ← combination.dot "ready"
  let readyCell ← appendOutcome ready
  let bidi ← combination.dot "bidirectionalStream"
  let bidiCell ← appendOutcome bidi
  let uni ← combination.dot "unidirectionalStream"
  let uniCell ← appendOutcome uni
  let datagram ← combination.dot "datagram"
  let datagramCell ← appendOutcome datagram
  .ok [textCell text "", constructorCell, readyCell, bidiCell, uniCell, datagramCell]

/-- `Array.isArray(path.combinations) && path.combinations.length > 0`. -/
def hasCombinations (path : Json) : Except Error Bool := do
  match ← (Value.json path).dot "combinations" with
  | .json (.arr combinations) => .ok !combinations.isEmpty
  | _ => .ok false

def someE (p : Json → Except Error Bool) : List Json → Except Error Bool
  | [] => .ok false
  | j :: js => do
    if ← p j then .ok true else someE p js

def filterE (p : Json → Except Error Bool) : List Json → Except Error (List Json)
  | [] => .ok []
  | j :: js => do
    let keep ← p j
    let rest ← filterE p js
    .ok (if keep then j :: rest else rest)

/-- `result.paths?.some(…)`. -/
def hasMatrix (result : Json) : Except Error Bool := do
  match ← (Value.json result).dot "paths" with
  | .undefined => .ok false
  | .json .null => .ok false
  | .json (.arr paths) => someE hasCombinations paths
  | _ => .error (.typeError "result.paths?.some is not a function")

def matrixHead : List String := ["Options", "Constructor", "Ready", "Bidi", "Uni", "Datagram"]

/-- `paths.find((item) => item.path === value) ?? paths[0]`. -/
def selectedPath (paths : List Json) (value : String) : Option Json :=
  (paths.find? fun item => (item.get "path").isStr value).or paths.head?

/-- The combinations of a path that has some. -/
def combinationsOf (path : Json) : List Json :=
  match path.get "combinations" with
  | .json (.arr combinations) => combinations
  | _ => []

def optionOf (path : Json) : Except Error (String × String) := do
  let name ← (Value.json path).dot "path"
  let value ← name.toText
  let text ← textContent name
  .ok (value, text)

def matrixDetail (dates : Dates) (result : Json) : Except Error Matrix := do
  let all ← (Value.json result).dot "paths"
  let paths ← match all with
    | .json (.arr paths) => filterE hasCombinations paths
    | _ => .error (.typeError "result.paths.filter is not a function")
  let (title, received) ← heading dates (.json result)
  let options ← paths.mapM optionOf
  let selected := selectedPath paths ((options.head?.map Prod.fst).getD "")
  let rows ← ((selected.map combinationsOf).getD []).mapM fun c => combinationRow (.json c)
  .ok { title, received, options, head := matrixHead, rows, paths }

/-- The rows up to one that throws. -/
def rowsUntil : List Json → List Row
  | [] => []
  | c :: cs =>
    match combinationRow (.json c) with
    | .ok row => row :: rowsUntil cs
    | .error _ => []

/-- The reader has chosen an option. -/
def Matrix.choose (m : Matrix) (option : Nat) : Matrix :=
  match m.options[option]? with
  | none => m
  | some o => { m with rows := rowsUntil (((selectedPath m.paths o.1).map combinationsOf).getD []) }

/-! ### Changes -/

def changeRow (dates : Dates) (change : Value) : Except Error Row := do
  let when ← change.dot "at"
  let date ← dates.formatDate when
  let name ← change.dot "browserName"
  let version ← change.dot "browserVersion"
  let label ← browserLabel name version
  let browser ← appendCell label ""
  let changes ← change.dot "changes"
  let text ← match changes with
    | .json (.arr items) => joinTexts "; " items
    | _ => .ok ""
  .ok [textCell date "", browser, textCell text ""]

/-! ### Rendering -/

abbrev Script := ExceptT Error (StateM Dom)

def evaluate {α : Type} : Except Error α → Script α
  | .ok a => pure a
  | .error e => throw e

/-- Each row is appended when it is made. -/
def appendAll {β : Type} (make : Json → Except Error β) (append : β → Dom → Dom) :
    List Json → Script Unit
  | [] => pure ()
  | j :: js => do
    let made ← evaluate (make j)
    modify (append made)
    appendAll make append js

def renderLatest (dates : Dates) (latest : List Json) : Script Unit := do
  modify fun d => { d with
    latestBody := [], latestEmptyHidden := !latest.isEmpty, latestWrapHidden := latest.isEmpty }
  appendAll (fun j => latestRow dates (.json j))
    (fun row d => { d with latestBody := d.latestBody ++ [row] }) latest

def hasGrease (result : Json) : Except Error Bool := do
  let grease ← (Value.json result).dot "grease"
  .ok grease.truthy

def renderGrease (latest : List Json) : Script Unit := do
  let results ← evaluate (filterE hasGrease latest)
  modify fun d => { d with greaseBody := [], greaseHidden := results.isEmpty }
  appendAll (fun j => greaseRow (.json j))
    (fun row d => { d with greaseBody := d.greaseBody ++ [row] }) results

def renderPaths (dates : Dates) (latest : List Json) : Script Unit := do
  modify fun d => { d with pathDetails := [], pathHidden := latest.isEmpty }
  appendAll (fun j => pathDetail dates (.json j))
    (fun detail d => { d with pathDetails := d.pathDetails ++ [detail] }) latest

def renderMatrices (dates : Dates) (latest : List Json) : Script Unit := do
  let results ← evaluate (filterE hasMatrix latest)
  modify fun d => { d with matrixDetails := [], matrixHidden := results.isEmpty }
  appendAll (matrixDetail dates)
    (fun detail d => { d with matrixDetails := d.matrixDetails ++ [detail] }) results

def renderChanges (dates : Dates) (changes : List Json) : Script Unit := do
  modify fun d => { d with
    changesBody := [], changesEmptyHidden := !changes.isEmpty, changesWrapHidden := changes.isEmpty }
  appendAll (fun j => changeRow dates (.json j))
    (fun row d => { d with changesBody := d.changesBody ++ [row] }) changes

/-- `Array.isArray(value) ? value : []`. -/
def listOf : Value → List Json
  | .json (.arr items) => items
  | _ => []

/-- One step of the search for the newest date. -/
def laterOf (dates : Dates) (latestDate : Value) (item : Json) : Except Error Value := do
  let receivedAt ← (Value.json item).dot "receivedAt"
  let a ← dates.parseDate receivedAt
  let b ← dates.parseDate latestDate
  match a, b with
  | some s, some t => .ok (if t < s then receivedAt else latestDate)
  | _, _ => .ok latestDate

def lastResult (dates : Dates) : List Json → Except Error String
  | [] => .ok "None"
  | first :: rest => do
    let start ← (Value.json first).dot "receivedAt"
    let newest ← (first :: rest).foldlM (laterOf dates) start
    dates.formatDate newest

def render (dates : Dates) (data : Value) : Script Unit := do
  let latestValue ← evaluate (data.dot "latest")
  let changesValue ← evaluate (data.dot "changes")
  let latest := listOf latestValue
  let changes := listOf changesValue
  modify fun d => { d with browserCount := toString latest.length, changeCount := toString changes.length }
  let last ← evaluate (lastResult dates latest)
  modify fun d => { d with lastResult := last }
  renderLatest dates latest
  renderGrease latest
  renderPaths dates latest
  renderMatrices dates latest
  renderChanges dates changes

/-! ### Loading -/

/-- What `fetch` resolves to. -/
structure Response where
  status : Nat
  text : Except Error String

def Response.ok (response : Response) : Bool := decide (200 ≤ response.status ∧ response.status ≤ 299)

/-- `await response.json().catch(() => ({}))`. -/
def Response.body (response : Response) : Json :=
  match response.text.bind parse with
  | .ok body => body
  | .error _ => .obj []

/-- What is inside the `try`, once `fetch` has settled. -/
def showResults (dates : Dates) (fetched : Except Error Response) : Script Unit := do
  let response ← evaluate fetched
  let body := Value.json response.body
  if !response.ok then
    let error ← evaluate (body.dot "error")
    let message ← evaluate (if error.isNullish then .ok s!"results request failed: {response.status}"
      else error.toText)
    throw (.error message)
  else
    render dates body
    let generatedAt ← evaluate (body.dot "generatedAt")
    let date ← evaluate (dates.formatDate generatedAt)
    modify fun d => { d with status := s!"Updated {date}" }

/-- `error.message`. -/
def message : Error → String
  | .typeError text => text
  | .syntaxError text => text
  | .error text => text

inductive Event where
  | refresh
  | fetched (response : Except Error Response)
  | choose (matrix option : Nat)

/-- A load is under way as long as the button is disabled. -/
def step (dates : Dates) (d : Dom) : Event → Dom
  | .refresh =>
    if d.refreshDisabled then d
    else { d with refreshDisabled := true, status := "Loading latest browser results" }
  | .fetched response =>
    if !d.refreshDisabled then d
    else match (showResults dates response).run.run d with
      | (.ok (), d') => { d' with refreshDisabled := false }
      | (.error e, d') => { d' with status := message e, refreshDisabled := false }
  | .choose matrix option =>
    { d with matrixDetails := d.matrixDetails.modify matrix fun m => m.choose option }

/-- The page as it is when its script has run. -/
def opened : Dom where
  status := "Loading latest browser results"
  refreshDisabled := true
  browserCount := "0"
  changeCount := "0"
  lastResult := "None"
  latestEmptyHidden := true
  latestWrapHidden := false
  latestBody := []
  greaseHidden := true
  greaseBody := []
  pathHidden := true
  pathDetails := []
  matrixHidden := true
  matrixDetails := []
  changesEmptyHidden := true
  changesWrapHidden := false
  changesBody := []

def run (dates : Dates) (events : List Event) : Dom := events.foldl (step dates) opened

end WebTransportEcho.Results
