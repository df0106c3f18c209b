import WebTransportEcho.Page.Report
import WebTransportEcho.Server.Startup
import WebTransportEcho.Server.BodyLimit

/-! The configuration on its way from the environment of the page server to the page. The page reads
    what the server was started with (`started_configures`): it shares its results where they are
    taken, at the target that is served, and it runs the GREASE comparison where the store asks
    for one. -/

namespace WebTransportEcho.Page
open Js Store Server

/-! ### What the page reads -/

/-- `value`, if it is a string. -/
def stringOf : Value → Option String
  | .json (.str s) => some s
  | _ => none

def GreaseConfig.ofJson (configured : Json) : GreaseConfig where
  controlBase := stringOf (configured.get "controlBase")
  enabledBase := stringOf (configured.get "enabledBase")
  path := stringOf (configured.get "path")

/-- What is read of `runtimeConfig`. `typeof` says `"object"` of an array, too. -/
def RuntimeConfig.ofJson (config : Json) : RuntimeConfig where
  resultsEnabled := (config.get "resultsEnabled").same (.json (.bool true))
  targetBase := stringOf (config.get "targetBase")
  greaseDifferential :=
    match config.get "greaseDifferential" with
    | .json (.obj fields) => some (.ofJson (.obj fields))
    | .json (.arr items) => some (.ofJson (.arr items))
    | _ => none
  autorun := (config.get "autorun").same (.json (.bool true))
  defaultMode := stringOf (config.get "defaultMode")

/-- `loadRuntimeConfig`, but for the form: the response's status and text. -/
def loadRuntimeConfig (status : Nat) (text : String) : Option RuntimeConfig :=
  if 200 ≤ status ∧ status < 300 then
    match parse text with
    | .ok .null => none
    | .ok config => some (.ofJson config)
    | .error _ => none
  else none

/-- What a page gets from a response. -/
def configOf : List Write → Option RuntimeConfig
  | [.head status _, .finish (.text text)] => loadRuntimeConfig status text
  | _ => none

/-- The probes of a comparison that a server is configured with. -/
def probeTarget (targets : GreaseTargets) : GreaseTarget where
  controlBase := String.ofList (dropSlash targets.controlBase.toList)
  enabledBase := String.ofList (dropSlash targets.enabledBase.toList)
  path := targets.path

/-- The page is told what the server was started with. -/
structure Configures (s : StartedServer) (c : RuntimeConfig) : Prop where
  enabled : c.resultsEnabled = s.server.resultsEnabled
  target : c.targetBase = some s.server.wtTargetBase
  required : greaseConfigured (some c) = s.config.requireGrease
  autorun : c.autorun = s.server.defaultAutorun
  mode : c.defaultMode = some s.server.defaultMode
  /-- The page runs the comparison that the store asks for. -/
  probed : s.config.requireGrease = true → ∀ origin base,
    certificateMetadataMatchesTarget origin (some c) base = true →
      configuredGreaseDifferential origin (some c) base = s.server.greaseDifferential.map probeTarget

/-! ### What the server sends -/

/-- A server whose configuration has the same text, with numbers that can be read back. -/
def PageServer.withNumbers (server : PageServer) (timeout delay probe : Json) : PageServer :=
  { server with
    defaultTimeoutMs := timeout
    defaultBetweenCasesMs := delay
    greaseDifferential := server.greaseDifferential.map fun targets => { targets with timeoutMs := probe } }

section Sent

variable {server : PageServer} {timeout delay probe : Js.Num} {timeout' delay' probe' : Json}

theorem matrixConfig_sameText (htimeout : server.defaultTimeoutMs = .num timeout)
    (hdelay : server.defaultBetweenCasesMs = .num delay)
    (hprobe : ∀ targets ∈ server.greaseDifferential, targets.timeoutMs = .num probe)
    (hsent : timeout.sent = some timeout') (hsent' : delay.sent = some delay')
    (hsent'' : probe.sent = some probe') : SameText server.matrixConfig
      (PageServer.withNumbers server timeout' delay' probe').matrixConfig := by
  have hgrease : SameText ((server.greaseDifferential.map GreaseTargets.toJson).getD .null)
      (((PageServer.withNumbers server timeout' delay' probe').greaseDifferential.map
        GreaseTargets.toJson).getD .null) := by
    cases hg : server.greaseDifferential with
    | none =>
      simp only [PageServer.withNumbers, hg]
      exact sameText_refl _
    | some targets =>
      have hnumber := hprobe targets hg
      simp only [PageServer.withNumbers, hg, Option.map_some, Option.getD_some, GreaseTargets.toJson,
        hnumber]
      exact sameText_obj (.cons ⟨rfl, sameText_refl _⟩ (.cons ⟨rfl, sameText_refl _⟩
        (.cons ⟨rfl, sameText_refl _⟩ (.cons ⟨rfl, sent_sameText hsent''⟩ .nil))))
  have hnumber : SameText server.defaultTimeoutMs timeout' := htimeout ▸ sent_sameText hsent
  have hnumber' : SameText server.defaultBetweenCasesMs delay' := hdelay ▸ sent_sameText hsent'
  exact sameText_obj (.cons ⟨rfl, sameText_refl _⟩ (.cons ⟨rfl, hnumber⟩ (.cons ⟨rfl, hnumber'⟩
    (.cons ⟨rfl, sameText_refl _⟩ (.cons ⟨rfl, sameText_refl _⟩ (.cons ⟨rfl, sameText_refl _⟩
      (.cons ⟨rfl, sameText_refl _⟩ (.cons ⟨rfl, hgrease⟩ .nil))))))))

theorem matrixConfig_plain (hsent : timeout.sent = some timeout') (hsent' : delay.sent = some delay')
    (hsent'' : probe.sent = some probe') :
    (PageServer.withNumbers server timeout' delay' probe').matrixConfig.Plain := by
  refine plain_obj.mpr ⟨by simp, ?_⟩
  simp only [List.forall_mem_cons]
  refine ⟨trivial, sent_plain hsent, sent_plain hsent', plain_arr.mpr fun j hj => ?_, trivial, trivial,
    trivial, ?_, by simp⟩
  · obtain ⟨path, -, rfl⟩ := List.mem_map.mp hj
    trivial
  · cases hg : server.greaseDifferential with
    | none =>
      simp only [PageServer.withNumbers, hg]
      trivial
    | some targets =>
      simp only [PageServer.withNumbers, hg, Option.map_some, Option.getD_some, GreaseTargets.toJson]
      refine plain_obj.mpr ⟨by simp, ?_⟩
      simp only [List.forall_mem_cons]
      exact ⟨trivial, trivial, trivial, sent_plain hsent'', by simp⟩

end Sent

/-- What is put into the configuration for the page to read. -/
def told (server : PageServer) : RuntimeConfig where
  resultsEnabled := server.resultsEnabled
  targetBase := some server.wtTargetBase
  greaseDifferential := server.greaseDifferential.map fun targets =>
    { controlBase := some targets.controlBase, enabledBase := some targets.enabledBase
      path := some targets.path }
  autorun := server.defaultAutorun
  defaultMode := some server.defaultMode

theorem ofJson_matrixConfig (server : PageServer) : .ofJson server.matrixConfig = told server := by
  have hgrease : (match server.matrixConfig.get "greaseDifferential" with
      | .json (.obj fields) => some (GreaseConfig.ofJson (.obj fields))
      | .json (.arr items) => some (.ofJson (.arr items))
      | _ => none) = (told server).greaseDifferential := by
    cases hg : server.greaseDifferential with
    | none => simp [told, PageServer.matrixConfig, Json.get, hg, List.lookup_cons]
    | some targets =>
      simp [told, PageServer.matrixConfig, Json.get, hg, List.lookup_cons, GreaseTargets.toJson,
        GreaseConfig.ofJson, stringOf]
  rw [RuntimeConfig.ofJson, hgrease]
  simp [told, PageServer.matrixConfig, Json.get, List.lookup_cons, stringOf, Value.same]

theorem told_withNumbers (server : PageServer) (timeout delay probe : Json) :
    told (PageServer.withNumbers server timeout delay probe) = told server := by
  simp only [told, PageServer.withNumbers, Option.map_map]
  rfl

theorem told_configures {lib : Libraries} {world : Surroundings} {s : StartedServer}
    (h : StartedFrom lib world s) : Configures s (told s.server) := by
  refine ⟨rfl, rfl, ?_, rfl, rfl, fun hrequired origin base hmatches => ?_⟩
  · rw [h.required]
    simp [greaseConfigured, told]
  · rw [h.required] at hrequired
    obtain ⟨targets, htargets⟩ := Option.isSome_iff_exists.mp hrequired
    rw [configuredGreaseDifferential, hmatches]
    simp [told, htargets, probeTarget]

/-! ### A page that asks the server -/

/-- The numbers of the configuration. -/
def numbersOf (world : Surroundings) : List Js.Num :=
  [world.number "WT_DEFAULT_TIMEOUT_MS" 5000, world.number "WT_BETWEEN_CASES_MS" 150,
    world.number "WT_GREASE_TIMEOUT_MS" 5000]

theorem loadRuntimeConfig_started {lib : Libraries} {world : Surroundings} {s : StartedServer}
    (h : StartedFrom lib world s) (hnumbers : ∀ n ∈ numbersOf world, n.sent.isSome = true) :
    loadRuntimeConfig 200 (stringify 0 s.server.matrixConfig) = some (told s.server) := by
  have hsome (n : Js.Num) (hn : n ∈ numbersOf world) : ∃ j, n.sent = some j :=
    Option.isSome_iff_exists.mp (hnumbers n hn)
  obtain ⟨timeout, htimeout⟩ := hsome (world.number "WT_DEFAULT_TIMEOUT_MS" 5000) (by simp [numbersOf])
  obtain ⟨delay, hdelay⟩ := hsome (world.number "WT_BETWEEN_CASES_MS" 150) (by simp [numbersOf])
  obtain ⟨probe, hprobe⟩ := hsome (world.number "WT_GREASE_TIMEOUT_MS" 5000) (by simp [numbersOf])
  obtain ⟨indexHtml, grease, hgrease, hserver⟩ := h.served
  have hsame : SameText s.server.matrixConfig
      (PageServer.withNumbers s.server timeout delay probe).matrixConfig := by
    refine matrixConfig_sameText ?_ ?_ (fun targets ht => ?_) htimeout hdelay hprobe
    · rw [hserver]
      rfl
    · rw [hserver]
      rfl
    · rw [hserver] at ht
      exact greaseDifferential_timeout hgrease targets ht
  rw [hsame.stringify, loadRuntimeConfig, if_pos (by decide),
    parse_stringify_self 0 (matrixConfig_plain htimeout hdelay hprobe)]
  exact congrArg some ((ofJson_matrixConfig _).trans (told_withNumbers ..))

theorem configOf_served {lib : Libraries} {world : Surroundings} {s : StartedServer}
    (h : StartedFrom lib world s) (hnumbers : ∀ n ∈ numbersOf world, n.sent.isSome = true)
    {newUrl : String → String → Option String} (a : Answers) {req : Request}
    (hurl : newUrl (req.url.getD "/") req.base = some "/matrix-config.json") :
    configOf ((requestHandler newUrl s.server a req).run.run fresh).2.writes = some (told s.server) := by
  rw [← loadRuntimeConfig_started h hnumbers, requestHandler, hurl]
  rfl

/-- However the page's request is answered, the page is told what the server was started with. -/
theorem started_configures (lib : Libraries) (world : Surroundings) {s : StartedServer}
    (h : start lib world = .ok s) (hnumbers : ∀ n ∈ numbersOf world, n.sent.isSome = true)
    (newUrl : String → String → Option String) (a : Answers) (req : Request)
    (hurl : newUrl (req.url.getD "/") req.base = some "/matrix-config.json") :
    (1 ≤ s.config.maxChanges ∧ s.config.maxChanges ≤ 500) ∧
      ∃ c, configOf ((requestHandler newUrl s.server a req).run.run fresh).2.writes = some c ∧
        Configures s c := by
  have hstarted := started_from h
  exact ⟨hstarted.bounded, _, configOf_served hstarted hnumbers a hurl, told_configures hstarted⟩

/-! ### A deployment -/

/-- TLS ends before the page server, and nothing was stored yet. -/
def deployed : Surroundings where
  env name := [("PAGE_TLS", "0"), ("PAGE_PUBLIC_ORIGIN", "https://wttest.quicast.de"),
    ("WT_TARGET_BASE", "https://wttest.quicast.de:9446"), ("WT_DEFAULT_TIMEOUT_MS", "5000"),
    ("WT_GREASE_CONTROL_BASE", "https://wttest.quicast.de:9447"),
    ("WT_GREASE_ENABLED_BASE", "https://wttest.quicast.de:9448")].lookup name
  root := "/opt/quicast/webtransport-echo"
  readFile file := if file = "/opt/quicast/webtransport-echo/public/index.html" then
      .ok "<!doctype html>"
    else .error (.error "ENOENT: no such file or directory")
  results := .ok none

/-- Of the page's text nothing is hashed, and no certificate is there. -/
def noHashes : Libraries where
  sha256Base64 _ := ""
  sha256Hex _ := ""
  decodeBase64 _ := []
  certificateMetadata _ := .error (.error "no certificate")

def quiet : Answers where
  now := 0
  lastSubmissionAt _ := none
  recorded := .error (.error "nothing is recorded")
  snapshot := .error (.error "no snapshot is taken")
  readFile _ := .error (.error "ENOENT: no such file or directory")

theorem deployed_starts : ∃ s, start noHashes deployed = .ok s := by
  have hstarts : (start noHashes deployed).toOption.isSome = true := by decide +kernel
  cases hs : start noHashes deployed with
  | error e => rw [hs] at hstarts; cases hstarts
  | ok s => exact ⟨s, rfl⟩

theorem deployed_numbers : ∀ n ∈ numbersOf deployed, n.sent.isSome = true := by decide +kernel

theorem deployed_configures : ∃ s c, start noHashes deployed = .ok s ∧
    configOf ((requestHandler plainUrl s.server quiet (getRequest "/matrix-config.json")).run.run
      fresh).2.writes = some c ∧ Configures s c := by
  obtain ⟨s, hs⟩ := deployed_starts
  obtain ⟨-, c, hc, hconfigures⟩ := started_configures noHashes deployed hs deployed_numbers plainUrl
    quiet (getRequest "/matrix-config.json") rfl
  exact ⟨s, c, hs, hc, hconfigures⟩

end WebTransportEcho.Page
