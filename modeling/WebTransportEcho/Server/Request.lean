import WebTransportEcho.Store.Record
import WebTransportEcho.Utf8

/-! One request to the page server. `requestHandler` is the source's: it writes to the response and
    may throw, and what it throws past its own `try` rejects its promise. What it awaits or asks of
    something else, the body, the clock, the store and the files, is answered by `Answers`.

    Of the URL constructor only this is known: it returns a URL, of which the path name is read, or
    throws a `TypeError`. What is written to a response need not reach a client that is gone. -/

namespace WebTransportEcho.Server
open Js Store

/-! ### Requests and responses -/

/-- The chunks of a body, and the error that ends it early. -/
structure Body where
  chunks : List (List UInt8)
  failure : Option Error

structure Request where
  url : Option String
  method : String
  host : Option String
  origin : Option String
  contentType : Option String
  body : Body

abbrev Headers := List (String × String)

/-- `{ ...headers, [name]: value }`. -/
def setHeader (headers : Headers) (header : String × String) : Headers :=
  match headers with
  | [] => [header]
  | h :: rest => if h.1 = header.1 then header :: rest else h :: setHeader rest header

/-- `{ ...headers, ...more }`. -/
def spread (headers more : Headers) : Headers := more.foldl setHeader headers

inductive Content where
  | text (s : String)
  | bytes (b : List UInt8)

/-- A call on the response. -/
inductive Write where
  | head (status : Nat) (headers : Headers)
  | finish (content : Content)

/-- What is thrown: an error of the language or of Node, or a `RequestBodyError`. -/
inductive Thrown where
  | js (e : Error)
  | requestBody (status : Nat) (message : String)

/-- What a handler has done: the calls on its response, and the entry it has made in
    `lastSubmissionAt`. -/
structure Exchange where
  writes : List Write
  submission : Option (String × Nat)

abbrev Handler := ExceptT Thrown (StateM Exchange)

/-- What the handler is answered. `lastSubmissionAt` is the map when it is read. -/
structure Answers where
  now : Nat
  lastSubmissionAt : String → Option Nat
  recorded : Except Error Recorded
  snapshot : Except Error Json
  readFile : String → Except Error (List UInt8)

/-! ### The server -/

structure GreaseTargets where
  controlBase : String
  enabledBase : String
  path : String
  timeoutMs : Json

structure PageServer where
  root : String
  publicOrigin : String
  resultsEnabled : Bool
  wtTargetBase : String
  defaultTimeoutMs : Json
  defaultBetweenCasesMs : Json
  defaultPaths : List String
  defaultMode : String
  defaultAutorun : Bool
  greaseDifferential : Option GreaseTargets
  certHashPayload : Json
  securityHeaders : Headers

def GreaseTargets.toJson (targets : GreaseTargets) : Json :=
  .obj [("controlBase", .str targets.controlBase), ("enabledBase", .str targets.enabledBase),
    ("path", .str targets.path), ("timeoutMs", targets.timeoutMs)]

def PageServer.matrixConfig (server : PageServer) : Json :=
  .obj [("targetBase", .str server.wtTargetBase), ("defaultTimeoutMs", server.defaultTimeoutMs),
    ("defaultBetweenCasesMs", server.defaultBetweenCasesMs),
    ("defaultPaths", .arr (server.defaultPaths.map .str)), ("defaultMode", .str server.defaultMode),
    ("autorun", .bool server.defaultAutorun), ("resultsEnabled", .bool server.resultsEnabled),
    ("greaseDifferential", (server.greaseDifferential.map GreaseTargets.toJson).getD .null)]

/-! ### Files -/

def segments (path : String) : List String := (path.toList.splitOn '/').map String.ofList

def resolveSegments (path : List String) : List String :=
  path.foldl (fun done s =>
    if s = "" ∨ s = "." then done else if s = ".." then done.dropLast else done ++ [s]) []

/-- `resolve(path)` of an absolute path. -/
def resolve (path : String) : String := "/" ++ String.intercalate "/" (resolveSegments (segments path))

/-- `join(...parts)`, left for `resolve` to normalise. -/
def join (parts : List String) : String := String.intercalate "/" (parts.filter fun part => part ≠ "")

def PageServer.publicRoot (server : PageServer) : String := resolve (join [server.root, "public"])

/-- `extname(file)` of a resolved path: a dot that begins a name begins no extension. -/
def extname (file : String) : String :=
  let name := ((segments file).getLast?.getD "").toList
  let ending := (name.reverse.takeWhile (· ≠ '.')).reverse
  if name.length ≤ ending.length + 1 then "" else String.ofList ('.' :: ending)

/-- `text.startsWith(start)`. -/
def startsWith (text start : String) : Bool := start.toList.isPrefixOf text.toList

def mime : List (String × String) :=
  [(".html", "text/html; charset=utf-8"), (".css", "text/css; charset=utf-8"),
    (".js", "text/javascript; charset=utf-8"), (".json", "application/json; charset=utf-8")]

example : resolve (join ["/srv/app", "public", "/../x/./results.js"]) = "/srv/app/x/results.js" ∧
    extname "/srv/app/x/results.js" = ".js" ∧ extname "/srv/.js" = "" := by decide

/-! ### Writing a response -/

def raise {α : Type} (e : Thrown) : Handler α := throw e

/-- The value of something that may throw. -/
def attempt {α : Type} (x : Except Error α) : Handler α :=
  match x with
  | .ok a => pure a
  | .error e => raise (.js e)

/-- `res.writeHead(status, headers)`, which throws when a head was written before. -/
def writeHead (status : Nat) (headers : Headers) : Handler Unit := do
  let x ← get
  match x.writes with
  | [] => set { x with writes := [.head status headers] }
  | _ => raise (.js (.error "Cannot write headers after they are sent to the client"))

/-- `res.end(content)`. -/
def endResponse (content : Content) : Handler Unit :=
  modify fun x => { x with writes := x.writes ++ [.finish content] }

def writeResponseHead (server : PageServer) (status : Nat) (headers : Headers) : Handler Unit :=
  writeHead status (spread server.securityHeaders headers)

/-- `writeResponseHead` and `res.end`. -/
def respond (server : PageServer) (status : Nat) (headers : Headers) (content : Content) :
    Handler Unit := do
  writeResponseHead server status headers
  endResponse content

def sendJson (server : PageServer) (status : Nat) (body : Json) (headers : Headers) : Handler Unit :=
  respond server status
    (spread [("content-type", "application/json; charset=utf-8"), ("cache-control", "no-store")]
      headers) (.text (stringify 0 body))

/-- `{ error: message }`. -/
def errorBody (message : String) : Json := .obj [("error", .str message)]

/-! ### The results -/

/-- The loop over the chunks. -/
def readChunks (maxBytes : Nat) (failure : Option Error) : List UInt8 → List (List UInt8) →
    Except Thrown (List UInt8)
  | read, [] =>
    match failure with
    | none => .ok read
    | some e => .error (.js e)
  | read, chunk :: rest =>
    if maxBytes < (read ++ chunk).length then .error (.requestBody 413 "request body too large")
    else readChunks maxBytes failure (read ++ chunk) rest

def readJsonBody (body : Body) (maxBytes : Nat) : Handler Json := do
  match readChunks maxBytes body.failure [] body.chunks with
  | .error e => raise e
  | .ok [] => raise (.requestBody 400 "request body required")
  | .ok bytes => attempt (parse (String.ofList (Utf8.decode bytes)))

/-- `now - (last ?? 0) < 2000`. -/
def rateLimited (last : Option Nat) (now : Nat) : Bool :=
  decide ((now : Int) - (last.getD 0 : Int) < 2000)

def recordedBody (recorded : Recorded) : Json :=
  .obj [("accepted", .bool true), ("browserKey", .str recorded.browserKey),
    ("changed", .bool recorded.changed), ("receivedAt", .str recorded.receivedAt)]

/-- What is inside the `try`. -/
def acceptSubmission (server : PageServer) (a : Answers) (body : Body) : Handler Unit := do
  let input ← readJsonBody body (64 * 1024)
  let rateLimitKey ← attempt (browserKeyForSubmission input)
  if rateLimited (a.lastSubmissionAt rateLimitKey) a.now then
    sendJson server 429 (errorBody "submission rate limited") [("retry-after", "2")]
  else
    let recorded ← attempt a.recorded
    modify fun x => { x with submission := some (recorded.browserKey, a.now) }
    sendJson server 202 (recordedBody recorded) []

/-- What is inside the `catch`. -/
def answerError (server : PageServer) : Thrown → Handler Unit
  | .requestBody status message => sendJson server status (errorBody message) []
  | .js (.typeError message) => sendJson server 400 (errorBody message) []
  | .js (.syntaxError message) => sendJson server 400 (errorBody message) []
  | .js (.error _) => sendJson server 500 (errorBody "result persistence failed") []

def handleBrowserResults (server : PageServer) (a : Answers) (req : Request) : Handler Unit :=
  if !server.resultsEnabled then
    sendJson server 503 (errorBody "browser results are disabled") []
  else if req.method = "GET" then do
    let snapshot ← attempt a.snapshot
    sendJson server 200 snapshot []
  else if req.method ≠ "POST" then
    sendJson server 405 (errorBody "method not allowed") [("allow", "GET, POST")]
  else if req.origin ≠ some server.publicOrigin then
    sendJson server 403 (errorBody "same-origin submission required") []
  else if !startsWith (toLowerCase (req.contentType.getD "")) "application/json" then
    sendJson server 415 (errorBody "application/json required") []
  else
    tryCatch (acceptSubmission server a req.body) (answerError server)

/-! ### Every request -/

def plainText : String × String := ("content-type", "text/plain; charset=utf-8")

def noStore : String × String := ("cache-control", "no-store")

def applicationJson : String × String := ("content-type", "application/json; charset=utf-8")

def serveFile (server : PageServer) (a : Answers) (pathname : String) : Handler Unit :=
  let file := resolve (join [server.root, "public", pathname])
  if !startsWith file (server.publicRoot ++ "/") ∧ file ≠ server.publicRoot then
    respond server 403 [plainText] (.text "forbidden")
  else
    tryCatch
      (do
        let body ← attempt (a.readFile file)
        respond server 200 [("content-type", (mime.lookup (extname file)).getD
          "application/octet-stream"), noStore] (.bytes body))
      fun _ => respond server 404 [plainText] (.text s!"not found: {pathname}\n")

/-- The base that a request's target is resolved against. -/
def Request.base (req : Request) : String := "https://" ++ req.host.getD "localhost"

/-- `newUrl` gives the path name of the URL; `none` when the constructor throws. -/
def requestHandler (newUrl : String → String → Option String) (server : PageServer) (a : Answers)
    (req : Request) : Handler Unit :=
  match newUrl (req.url.getD "/") req.base with
  | none => raise (.js (.typeError "Invalid URL"))
  | some pathname =>
    if pathname = "/api/browser-results" then handleBrowserResults server a req
    else if pathname = "/cert-sha256.json" then
      respond server 200 [applicationJson, noStore] (.text (stringify 0 server.certHashPayload))
    else if pathname = "/matrix-config.json" then
      respond server 200 [applicationJson, noStore] (.text (stringify 0 server.matrixConfig))
    else if pathname = "/healthz" then respond server 200 [plainText, noStore] (.text "ok\n")
    else serveFile server a (if pathname = "/" then "/index.html" else pathname)

end WebTransportEcho.Server
