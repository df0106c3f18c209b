import WebTransportEcho.Server.Request
import WebTransportEcho.Server.Certificate
import WebTransportEcho.Js.Compare

/-! How the page server starts. Its environment says what it serves, and the server does not start when
    it names one of the two GREASE targets without the other, a number of changes that is out of
    bounds, or a file that cannot be read. The store it starts with asks for a GREASE comparison
    exactly when the page is told of the targets.

    The hashes and what is read of an X.509 certificate are not given here. The port and the host that
    are listened on and the file of the results are left out; what the file holds is an argument. -/

namespace WebTransportEcho.Server
open Js Store Backend Quinn Split

/-! ### Numbers and texts -/

/-- `text.replace(/\/$/, "")`. -/
def dropSlash (text : String) : String :=
  if text.toList.getLast? = some '/' then String.ofList text.toList.dropLast else text

def optionalString (value : Option String) : Option String :=
  let normalized := dropSlash (String.ofList (trim isBlank (value.getD "").toList))
  if normalized = "" then none else some normalized

/-- `-0` is taken for `0`. -/
def boundedInteger (value : Option String) (fallback minimum maximum : Nat) : Except Error Nat :=
  let outside (text : String) : Except Error Nat := .error (.error
    s!"expected integer between {minimum} and {maximum}, got {text}")
  match value with
  | none => .ok fallback
  | some "" => .ok fallback
  | some text =>
    match toNumber text with
    | .int n =>
      if (Js.Num.int n).isSafeInteger ∧ (minimum : Int) ≤ n ∧ n ≤ (maximum : Int) then .ok n.toNat
      else outside text
    | .negZero => if minimum = 0 then .ok 0 else outside text
    | .other _ => outside text

/-! ### The headers of every response -/

/-- The front of a text, letters compared without regard to case. -/
def stripTag : Text → Text → Option Text
  | [], text => some text
  | _ :: _, [] => none
  | m :: mark, c :: text => if m.toLower = c.toLower then stripTag mark text else none

/-- `<tag(?:\s[^>]*)?>`, at the front of the text. -/
def openTag (tag text : Text) : Option Text :=
  match stripTag ('<' :: tag) text with
  | some ('>' :: rest) => some rest
  | some (c :: rest) => if isBlank c then (rest.dropWhile (· ≠ '>')).tail? else none
  | _ => none

/-- `([\s\S]*?)<\/tag>`, at the front: what is captured, and what follows. -/
def closeTag (tag : Text) : Text → Option (Text × Text)
  | [] => none
  | c :: text =>
    match stripTag ('<' :: '/' :: (tag ++ ['>'])) (c :: text) with
    | some rest => some ([], rest)
    | none => (closeTag tag text).map fun p => (c :: p.1, p.2)

/-- What `html.matchAll(expression)` captures. A match is not shorter than one character. -/
def inlineBodies (tag : Text) : Nat → Text → List Text
  | 0, _ => []
  | _, [] => []
  | fuel + 1, c :: text =>
    match (openTag tag (c :: text)).bind (closeTag tag) with
    | some (body, rest) => body :: inlineBodies tag fuel rest
    | none => inlineBodies tag fuel text

def inlineHashes (sha256Base64 : String → String) (html tag : String) : List String :=
  (inlineBodies tag.toList html.length html.toList).map fun body =>
    "'sha256-" ++ sha256Base64 (String.ofList body) ++ "'"

def buildSecurityHeaders (sha256Base64 : String → String) (html : String) : Headers :=
  let scriptHashes := String.intercalate " " (inlineHashes sha256Base64 html "script")
  let styleHashes := String.intercalate " " (inlineHashes sha256Base64 html "style")
  let csp := String.intercalate "; "
    ["default-src 'none'", "base-uri 'none'", "connect-src 'self' https:", "form-action 'none'",
      "frame-ancestors 'none'", "img-src 'self' data:",
      "script-src 'self' " ++ scriptHashes, "style-src 'self' " ++ styleHashes]
  [("content-security-policy", csp), ("cross-origin-opener-policy", "same-origin"),
    ("cross-origin-resource-policy", "same-origin"),
    ("permissions-policy", "camera=(), microphone=(), geolocation=()"),
    ("referrer-policy", "no-referrer"),
    ("strict-transport-security", "max-age=31536000; includeSubDomains"),
    ("x-content-type-options", "nosniff"), ("x-frame-options", "DENY")]

/-! ### Starting -/

/-- What is not given here. `certificateMetadata` is read of the certificate in a PEM text. -/
structure Libraries where
  sha256Base64 : String → String
  sha256Hex : Bytes → String
  decodeBase64 : Text → Bytes
  certificateMetadata : String → Except Error (List (String × Json))

/-- `process.env`, the directory of the program, and its files. A results file may be missing. -/
structure Surroundings where
  env : String → Option String
  root : String
  readFile : String → Except Error String
  results : Except Error (Option String)

/-- `Number(process.env[name] ?? fallback)`. -/
def Surroundings.number (world : Surroundings) (name : String) (fallback : Nat) : Js.Num :=
  (world.env name).elim (.int fallback) toNumber

def Surroundings.cert (world : Surroundings) : String :=
  (world.env "WT_CERT").getD (join [world.root, "certs", "localhost.pem"])

def Surroundings.publicOrigin (world : Surroundings) : String :=
  let port := world.number "PAGE_PORT" 8443
  dropSlash ((world.env "PAGE_PUBLIC_ORIGIN").getD ("https://localhost:" ++ port.text))

/-- One of the two bases alone is refused. -/
def Surroundings.greaseDifferential (world : Surroundings) : Except Error (Option GreaseTargets) :=
  match optionalString (world.env "WT_GREASE_CONTROL_BASE"),
    optionalString (world.env "WT_GREASE_ENABLED_BASE") with
  | none, none => .ok none
  | some controlBase, some enabledBase =>
    .ok (some
      { controlBase
        enabledBase
        path := (world.env "WT_GREASE_PATH").getD "/wt/yggdrasil"
        timeoutMs := .num (world.number "WT_GREASE_TIMEOUT_MS" 5000) })
  | _, _ => .error (.error
    "WT_GREASE_CONTROL_BASE and WT_GREASE_ENABLED_BASE must be configured together")

/-- `(process.env.WT_DEFAULT_PATHS ?? "").split(",")…`. -/
def Surroundings.defaultPaths (world : Surroundings) : List String :=
  (((((world.env "WT_DEFAULT_PATHS").getD "").toList.splitOn ',').map (trim isBlank)).filter
    fun value => !value.isEmpty).map String.ofList

def errorMessage : Error → String
  | .typeError message => message
  | .syntaxError message => message
  | .error message => message

def targetCertificatePayload (lib : Libraries) (world : Surroundings) (path : String) : Json :=
  let payload : Except Error Json := do
    let pem ← world.readFile path
    let valueHex ← (certificateSha256Hex lib.decodeBase64 lib.sha256Hex path pem.toList).mapError .error
    let metadata ← lib.certificateMetadata pem
    .ok (.obj (metadata.foldl (fun fields f => Json.setField f.1 f.2 fields)
      [("algorithm", .str "sha-256"), ("valueHex", .str valueHex), ("cert", .str path),
        ("available", .bool true)]))
  match payload with
  | .ok payload => payload
  | .error e => .obj [("algorithm", .str "sha-256"), ("valueHex", .null), ("cert", .str path),
      ("available", .bool false), ("currentlyValid", .bool false), ("isSelfSigned", .bool false),
      ("publicKeyType", .null), ("validityDays", .null), ("hashUsable", .bool false),
      ("error", .str s!"target certificate unavailable: {errorMessage e}")]

/-- What is served. -/
def Surroundings.server (lib : Libraries) (world : Surroundings) (indexHtml : String)
    (greaseDifferential : Option GreaseTargets) : PageServer where
  root := world.root
  publicOrigin := world.publicOrigin
  resultsEnabled := decide (world.env "WT_RESULTS_ENABLED" ≠ some "0")
  wtTargetBase := (world.env "WT_TARGET_BASE").getD "https://localhost:9443"
  defaultTimeoutMs := .num (world.number "WT_DEFAULT_TIMEOUT_MS" 5000)
  defaultBetweenCasesMs := .num (world.number "WT_BETWEEN_CASES_MS" 150)
  defaultPaths := world.defaultPaths
  defaultMode := if world.env "WT_DEFAULT_MODE" = some "exhaustive" then "exhaustive" else "selected"
  defaultAutorun := decide (world.env "WT_AUTORUN" = some "1")
  greaseDifferential := greaseDifferential
  certHashPayload := targetCertificatePayload lib world ((world.env "WT_TARGET_CERT").getD world.cert)
  securityHeaders := buildSecurityHeaders lib.sha256Base64 indexHtml

/-- The server, its store's configuration, and what the store has loaded. -/
structure StartedServer where
  server : PageServer
  config : Config
  state : StoreState

/-- The certificate and the key of the page itself. -/
def Surroundings.readTls (world : Surroundings) : Except Error Unit :=
  if world.env "PAGE_TLS" = some "0" then .ok ()
  else do
    let _ ← world.readFile world.cert
    let _ ← world.readFile ((world.env "WT_KEY").getD (join [world.root, "certs", "localhost-key.pem"]))
    .ok ()

/-- `if (resultsEnabled) await resultStore.load();` -/
def Surroundings.loadResults (world : Surroundings) (server : PageServer) (config : Config) :
    Except Error StoreState :=
  if server.resultsEnabled then world.results.bind (load config) else .ok emptyState

def start (lib : Libraries) (world : Surroundings) : Except Error StartedServer := do
  let indexHtml ← world.readFile (join [resolve (join [world.root, "public"]), "index.html"])
  let greaseDifferential ← world.greaseDifferential
  let maxChanges ← boundedInteger (world.env "WT_RESULTS_MAX_CHANGES") 100 1 500
  world.readTls
  let server := world.server lib indexHtml greaseDifferential
  let config : Config := { maxChanges, requireGrease := greaseDifferential.isSome }
  let state ← world.loadResults server config
  .ok { server, config, state }

/-! ### What a started server is like -/

theorem boundedInteger_bounds {value : Option String} {fallback minimum maximum n : Nat}
    (h : boundedInteger value fallback minimum maximum = .ok n) (hmin : minimum ≤ fallback)
    (hmax : fallback ≤ maximum) : minimum ≤ n ∧ n ≤ maximum := by
  unfold boundedInteger at h
  split at h
  · cases h
    exact ⟨hmin, hmax⟩
  · cases h
    exact ⟨hmin, hmax⟩
  · split at h
    · split_ifs at h with hbounds
      cases h
      omega
    · split_ifs at h with hzero
      cases h
      omega
    · cases h

theorem greaseDifferential_timeout {world : Surroundings} {grease : Option GreaseTargets}
    (h : world.greaseDifferential = .ok grease) :
    ∀ targets ∈ grease, targets.timeoutMs = .num (world.number "WT_GREASE_TIMEOUT_MS" 5000) := by
  unfold Surroundings.greaseDifferential at h
  split at h
  · cases h
    rintro targets ⟨⟩
  · cases h
    rintro targets ⟨⟩
    rfl
  · cases h

/-- What a server was started with. -/
structure StartedFrom (lib : Libraries) (world : Surroundings) (s : StartedServer) : Prop where
  served : ∃ indexHtml grease, world.greaseDifferential = .ok grease ∧
    s.server = world.server lib indexHtml grease
  required : s.config.requireGrease = s.server.greaseDifferential.isSome
  bounded : 1 ≤ s.config.maxChanges ∧ s.config.maxChanges ≤ 500
  loaded : s.server.resultsEnabled = true →
    ∃ file, world.results = .ok file ∧ load s.config file = .ok s.state

theorem started_from {lib : Libraries} {world : Surroundings} {s : StartedServer}
    (h : start lib world = .ok s) : StartedFrom lib world s := by
  obtain ⟨indexHtml, -, h⟩ := bind_eq_ok.mp h
  obtain ⟨grease, hgrease, h⟩ := bind_eq_ok.mp h
  obtain ⟨maxChanges, hmax, h⟩ := bind_eq_ok.mp h
  obtain ⟨-, -, h⟩ := bind_eq_ok.mp h
  obtain ⟨state, hstate, h⟩ := bind_eq_ok.mp h
  cases h
  refine ⟨⟨indexHtml, grease, hgrease, rfl⟩, rfl,
    boundedInteger_bounds hmax (by decide) (by decide), fun henabled => ?_⟩
  rw [Surroundings.loadResults, if_pos henabled] at hstate
  cases hresults : world.results with
  | error e =>
    rw [hresults] at hstate
    cases hstate
  | ok file =>
    rw [hresults] at hstate
    exact ⟨file, rfl, hstate⟩

end WebTransportEcho.Server
