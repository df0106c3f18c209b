import WebTransportEcho.Page.Report

/-! A session of the page: its shared variables, the calls of `runMatrix` that are on their way, and
    what happens between them. A call goes from one await to the next; the answer to an await comes
    at any time, and so do edits of the form. A click is handled when no call has anything left to do
    before its next await (`Run.due`).

    `cancelRequested`, `report` and the controls are shared by all calls. Every `report` that was
    made is kept, since a call writes its GREASE differential to the one it started with. -/

namespace WebTransportEcho.Page
open Js Store

/-! ### What a session is made of -/

/-- The form: the target base as it is read, without the space around it, the boxes of `path` and
    `variant`, and a delay between cases that is not zero. -/
structure Form where
  targetBase : String
  delay : Bool
  path : String → Bool
  variant : Nat → Bool
  runGrease : Bool
  publishResult : Bool

/-- The certificate's metadata; `hashUsable` when it is a boolean. -/
structure CertHash where
  hashUsable : Option Bool

/-- The browser the page runs in, and the query of its URL: whether `autorun` is there and `1`, and
    whether the exhaustive mode is asked for. -/
structure Environment where
  origin : String → Option String
  secureContext : Bool
  webTransportConstructible : Bool
  autorun : Option Bool
  exhaustive : Bool

/-- What `detectBrowserProfile` finds: a name and a version, and what the browser can do. -/
def Environment.profile (env : Environment) (name : String) (version : Option String) : Profile where
  name := name
  version := version
  secureContext := env.secureContext
  webTransportConstructible := env.webTransportConstructible

/-- What a call of `runMatrix` reads first. -/
structure Inputs where
  mode : Mode
  base : String
  delay : Bool
  paths : List String
  runGrease : Bool

abbrev Case := String × Variant

/-- What a call keeps past its guards. -/
structure Started where
  mode : Mode
  base : String
  delay : Bool
  plannedCases : Nat
  usesHash : Bool

/-- A call of `runMatrix`, by what it awaits. -/
inductive Run where
  | detecting (i : Inputs)
  | loadingCert (i : Inputs)
  | guards (i : Inputs)
  | next (r : Started) (rest : List Case)
  | testing (r : Started) (rest : List Case) (f : Frame)
  | pausing (r : Started) (rest : List Case)
  | control (report : Nat) (configured : GreaseTarget) (f : Frame)
  | greaseNext (report : Nat) (configured : GreaseTarget) (control : CaseResult)
  | enabled (report : Nat) (control : CaseResult) (f : Frame)
  | publishing
  | ended

/-- The call has something to do before its next await. -/
def Run.due : Run → Bool
  | .guards _ => true
  | .next _ _ => true
  | .greaseNext _ _ _ => true
  | _ => false

/-- What `initialize` awaits. -/
inductive Init where
  | config | detecting | cert | done

/-- A payload that was posted, by which call, and the report it was made from. -/
structure Post where
  run : Nat
  report : Report
  payload : Json

structure Session where
  form : Form
  runtimeConfig : Option RuntimeConfig
  browserProfile : Option Profile
  certHash : Option CertHash
  init : Init
  reports : List Report
  cancelRequested : Bool
  running : Bool
  runs : List Run
  posts : List Post

/-- The answer to an await. A fetch that fails answers `none`. -/
inductive Answer where
  | config (c : Option RuntimeConfig)
  | profile (name : String) (version : Option String)
  | cert (c : Option CertHash)
  | go
  | construct (threw : Option String)
  | probe (a : ProbeAnswer)
  | elapsed
  | published

inductive Event where
  | edit (form : Form)
  | init (a : Answer)
  | click (mode : Mode)
  | stop
  | resume (run : Nat) (a : Answer)

/-! ### Reports -/

/-- `report`. -/
def Session.report (s : Session) : Option Report := s.reports.getLast?

/-- An assignment to properties of `report`. -/
def Session.setReport (s : Session) (f : Report → Report) : Session :=
  { s with reports := s.reports.modify (s.reports.length - 1) f }

/-- `report.summary = summarizeResults(results, …);` -/
def Session.summarize (s : Session) (plannedCases : Nat) : Session :=
  s.setReport fun report => { report with summary := some (summarizeResults report.results plannedCases) }

def Session.setRunControls (s : Session) (running : Bool) : Session := { s with running }

/-- `publishReport` and what follows it: a report that is not shared ends the call. -/
def publishReport (env : Environment) (s : Session) (run : Nat) : Session × Run :=
  match s.browserProfile, s.report with
  | some profile, some report =>
    match publicationBlockReason env.origin s.form.publishResult s.runtimeConfig profile (some report),
      report.summary with
    | none, some summary => ({ s with posts := s.posts ++
        [{ run, report, payload := publicationPayload profile report summary }] }, .publishing)
    | _, _ => (s.setRunControls false, .ended)
  | _, _ => (s.setRunControls false, .ended)

/-! ### `runMatrix` -/

def selectedPaths (form : Form) : List String := pagePaths.filter form.path

def Session.inputs (s : Session) (mode : Mode) : Inputs where
  mode := mode
  base := s.form.targetBase
  delay := s.form.delay
  paths := selectedPaths s.form
  runGrease := greaseConfigured s.runtimeConfig && s.form.runGrease

def Session.hashUsable (s : Session) : Option Bool := s.certHash.bind CertHash.hashUsable

/-- The variants of a run that is about to start. -/
def Session.variants (s : Session) (mode : Mode) : List Variant :=
  let variants := match mode with
    | .exhaustive => (buildExhaustiveVariants (s.hashUsable = some true)).map
        ExhaustiveVariant.toVariant
    | .selected => selectedCuratedVariants s.form.variant
  if s.hashUsable = some false then variants.filter fun v => !v.needsHash else variants

/-- The guards let the call go on. -/
def Session.admits (s : Session) (i : Inputs) : Bool :=
  !i.paths.isEmpty && !(s.variants i.mode).isEmpty

/-- The call awaits what the page does not know yet. -/
def Session.runMatrix (s : Session) (i : Inputs) : Run :=
  if s.browserProfile.isNone then .detecting i
  else if s.certHash.isNone then .loadingCert i
  else .guards i

def plan (paths : List String) (variants : List Variant) : List Case :=
  paths.flatMap fun path => variants.map fun variant => (path, variant)

/-- `report` at the start of a run. -/
def newReport (i : Inputs) (variants : List Variant) (plannedCases : Nat) : Report where
  run :=
    { mode := i.mode
      targetBase := i.base
      paths := i.paths
      plannedCases
      greaseDifferential := i.runGrease
      constructorVariants := variants }
  cancelled := false
  summary := none
  pathAnalysis := []
  greaseDifferential := none
  results := []

/-- The differential of a run without a WebTransport API: no probe is started. -/
def unavailableDifferential (env : Environment) (s : Session) (i : Inputs) (profile : Profile) :
    Option Differential :=
  if i.runGrease then
    (configuredGreaseDifferential env.origin s.runtimeConfig i.base).map fun _ =>
      differential profile none none
  else none

/-- The call past its guards, up to its first case. -/
def startMatrix (env : Environment) (s : Session) (run : Nat) (i : Inputs) : Session × Run :=
  let variants := s.variants i.mode
  let plannedCases := i.paths.length * variants.length
  let s := { s with
    reports := s.reports ++ [newReport i variants plannedCases]
    cancelRequested := false
    running := true }
  match s.browserProfile with
  | none => (s.setRunControls false, .ended)
  | some profile =>
    if !profile.webTransportConstructible then
      publishReport env ((s.summarize plannedCases).setReport fun report =>
        { report with greaseDifferential := unavailableDifferential env s i profile }) run
    else
      let started : Started :=
        { mode := i.mode
          base := i.base
          delay := i.delay
          plannedCases
          usesHash := variants.any Variant.needsHash }
      (s, .next started (plan i.paths variants))

/-- A case has its result. -/
def caseDone (s : Session) (r : Started) (rest : List Case) (c : CaseResult) : Session × Run :=
  ((s.setReport fun report => { report with results := report.results ++ [c] }).summarize
      r.plannedCases,
    if !s.cancelRequested && r.delay then .pausing r rest else .next r rest)

/-- `report.greaseDifferential = …`, on the report the probes were started with. -/
def finishGrease (env : Environment) (s : Session) (run report : Nat) (control : CaseResult)
    (enabled : Option CaseResult) : Session × Run :=
  match s.browserProfile with
  | none => (s.setRunControls false, .ended)
  | some profile =>
    publishReport env { s with reports := s.reports.modify report fun r =>
      { r with greaseDifferential := some (differential profile (some control) enabled) } } run

/-- What is entered in the report when the loop over the cases is over. -/
def closeMatrix (s : Session) (r : Started) : Session :=
  let s := (s.setReport fun report => { report with cancelled := s.cancelRequested }).summarize
    r.plannedCases
  if r.mode = .exhaustive ∧ s.cancelRequested = false then
    s.setReport fun report =>
      { report with pathAnalysis := analyzePaths report.results (axes r.usesHash) }
  else s

/-- `runGreaseDifferential`, unless the run was stopped, up to the first await of the control probe. -/
def startGrease (env : Environment) (s : Session) (run : Nat) (r : Started) (threw : Option String) :
    Session × Run :=
  let unprobed := s.setReport fun report => { report with greaseDifferential := none }
  if s.cancelRequested then publishReport env s run
  else if (s.report.any fun report => report.run.greaseDifferential) = false then
    publishReport env unprobed run
  else match configuredGreaseDifferential env.origin s.runtimeConfig r.base with
    | none => publishReport env unprobed run
    | some configured =>
      match startOne configured.controlBase configured.path greaseProbeVariant threw with
      | .inl f => (s, .control (s.reports.length - 1) configured f)
      | .inr c => (s, .greaseNext (s.reports.length - 1) configured c)

def endMatrix (env : Environment) (s : Session) (run : Nat) (r : Started) (threw : Option String) :
    Session × Run :=
  startGrease env (closeMatrix s r) run r threw

/-- A call from one await to the next. An answer to something else changes nothing. -/
def resumeRun (env : Environment) (s : Session) (run : Nat) (state : Run) (a : Answer) : Session × Run :=
  match state, a with
  | .detecting i, .profile name version =>
    let s := { s with browserProfile := some (env.profile name version) }
    (s, s.runMatrix i)
  | .loadingCert i, .cert c => ({ s with certHash := c.or s.certHash }, .guards i)
  | .guards i, .go => if s.admits i then startMatrix env s run i else (s, .ended)
  | .next r [], .construct threw => endMatrix env s run r threw
  | .next r (case :: rest), .construct threw =>
    if s.cancelRequested then endMatrix env s run r threw
    else match startOne r.base case.1 case.2 threw with
      | .inl f => (s, .testing r rest f)
      | .inr c => caseDone s r rest c
  | .testing r rest f, .probe a =>
    match resumeOne s.cancelRequested f a with
    | .inl f => (s, .testing r rest f)
    | .inr c => caseDone s r rest c
  | .pausing r rest, .elapsed => (s, .next r rest)
  | .control report configured f, .probe a =>
    match resumeOne s.cancelRequested f a with
    | .inl f => (s, .control report configured f)
    | .inr c => (s, .greaseNext report configured c)
  | .greaseNext report configured control, .construct threw =>
    if s.cancelRequested then finishGrease env s run report control none
    else match startOne configured.enabledBase configured.path greaseProbeVariant threw with
      | .inl f => (s, .enabled report control f)
      | .inr e => finishGrease env s run report control (some e)
  | .enabled report control f, .probe a =>
    match resumeOne s.cancelRequested f a with
    | .inl f => (s, .enabled report control f)
    | .inr e => finishGrease env s run report control (some e)
  | .publishing, .published => (s.setRunControls false, .ended)
  | state, _ => (s, state)

/-! ### The events of a session -/

/-- No call is due, so that a click is handled. -/
def Session.quiet (s : Session) : Bool := s.runs.all fun r => !r.due

def Session.canClick (s : Session) : Bool := s.quiet && !s.running

def Session.canStop (s : Session) : Bool := s.quiet && s.running

/-- `runMatrix(mode)` is called. -/
def Session.call (s : Session) (mode : Mode) : Session :=
  { s with runs := s.runs ++ [s.runMatrix (s.inputs mode)] }

/-- `autorun`, and the mode it is started in. -/
def autorunMode (env : Environment) (config : Option RuntimeConfig) : Option Mode :=
  if env.autorun.getD (config.any RuntimeConfig.autorun) then
    some (if env.exhaustive ∨ config.bind RuntimeConfig.defaultMode = some "exhaustive" then .exhaustive
      else .selected)
  else none

/-- `initialize` from one await to the next. -/
def initializePage (env : Environment) (s : Session) (a : Answer) : Session :=
  match s.init, a with
  | .config, .config c => { s with runtimeConfig := c, init := .detecting }
  | .detecting, .profile name version =>
    { s with init := .cert, browserProfile := some (env.profile name version) }
  | .cert, .cert c =>
    let s := { s with certHash := c.or s.certHash, init := .done }
    match autorunMode env s.runtimeConfig with
    | some mode => s.call mode
    | none => s
  | _, _ => s

def step (env : Environment) (s : Session) : Event → Session
  | .edit form => { s with form }
  | .init a => initializePage env s a
  | .click mode => if s.canClick then s.call mode else s
  | .stop => if s.canStop then { s with cancelRequested := true } else s
  | .resume run a =>
    match s.runs[run]? with
    | none => s
    | some state =>
      let (s, state) := resumeRun env s run state a
      { s with runs := s.runs.set run state }

/-- A page that was just opened. -/
def opened (form : Form) : Session where
  form := form
  runtimeConfig := none
  browserProfile := none
  certHash := none
  init := .config
  reports := []
  cancelRequested := false
  running := false
  runs := []
  posts := []

def session (env : Environment) (form : Form) (events : List Event) : Session :=
  events.foldl (step env) (opened form)

end WebTransportEcho.Page
