import WebTransportEcho.Page.Configuration
import WebTransportEcho.Page.PayloadSize
import WebTransportEcho.Page.Sharing
import WebTransportEcho.Server.Submissions
import WebTransportEcho.Store.Recovery

/-! What a page posts, at the server that has configured it. The server was started in any environment,
    and the page was opened at it; whatever a run of the page has found that was left alone, and
    whatever others submit meanwhile, its post is never refused (`posted_answered`): it is stored,
    or the family is rate limited, or the clock or the files have failed. -/

namespace WebTransportEcho.Page
open Js Store Server

/-! ### A page and its server -/

/-- The page was opened at the server, in a browser whose version is not absurdly long. -/
structure Visits (newUrl : String → String → Option String) (server : PageServer) (env : Environment)
    (events : List Event) : Prop where
  config : ∀ c, .init (.config c) ∈ events → c = none ∨ ∃ a req,
    newUrl (req.url.getD "/") req.base = some "/matrix-config.json" ∧
      c = configOf ((requestHandler newUrl server a req).run.run fresh).2.writes
  browser : ∀ profile, Tells env events profile → ∃ isBrave userAgent,
    profile = env.detected isBrave userAgent ∧
      ∀ major, majorVersion profile.version = some major → major.length ≤ 64

/-- The request that the page posts its payload with, its body cut in any way. -/
structure Sends (newUrl : String → String → Option String) (server : PageServer) (payload : Json)
    (req : Request) : Prop where
  url : newUrl (req.url.getD "/") req.base = some "/api/browser-results"
  method : req.method = "POST"
  origin : req.origin = some server.publicOrigin
  contentType : req.contentType = some "application/json"
  body : req.body.chunks.flatten = utf8 (stringify 0 payload)
  whole : req.body.failure = none

theorem configOf_started {lib : Libraries} {world : Surroundings} {s : StartedServer}
    (h : StartedFrom lib world s) (hnumbers : ∀ n ∈ numbersOf world, n.sent.isSome = true)
    {newUrl : String → String → Option String} {env : Environment} {events : List Event}
    (hvisits : Visits newUrl s.server env events) {c : RuntimeConfig}
    (hc : .init (.config (some c)) ∈ events) : Configures s c := by
  rcases hvisits.config (some c) hc with hnone | ⟨a, req, hurl, hconfig⟩
  · cases hnone
  · rw [configOf_served h hnumbers a hurl] at hconfig
    cases hconfig
    exact told_configures h

/-! ### The answer -/

section Answer

variable (server : PageServer) (a : Answers) {body : Body} {input : Json} {key : String}

theorem acceptSubmission_run (hbody : bodyResult body (64 * 1024) = .ok input)
    (hkey : browserKeyForSubmission input = .ok key) :
    (acceptSubmission server a body).run.run fresh =
      (if rateLimited (a.lastSubmissionAt key) a.now then
        sendJson server 429 (errorBody "submission rate limited") [("retry-after", "2")]
      else do
        let recorded ← attempt a.recorded
        modify fun x => { x with submission := some (recorded.browserKey, a.now) }
        sendJson server 202 (recordedBody recorded) []).run.run fresh := by
  have hread := readJsonBody_run body (64 * 1024) fresh
  rw [hbody] at hread
  have hattempt : (attempt (browserKeyForSubmission input)).run.run fresh = (.ok key, fresh) := by
    rw [hkey]
    rfl
  rw [acceptSubmission, bind_run_ok hread, bind_run_ok hattempt]

/-- What `handleBrowserResults` makes of a submission. -/
def caught (server : PageServer) (a : Answers) (body : Body) : Handler Unit :=
  tryCatch (acceptSubmission server a body) (answerError server)

theorem caught_limited (hbody : bodyResult body (64 * 1024) = .ok input)
    (hkey : browserKeyForSubmission input = .ok key)
    (hlimit : rateLimited (a.lastSubmissionAt key) a.now = true) :
    ∃ x, (caught server a body).run.run fresh = (.ok (), x) ∧ x.submission = none ∧
      Responds 429 (stringify 0 (errorBody "submission rate limited")) x := by
  have hrun := acceptSubmission_run server a hbody hkey
  rw [if_pos hlimit] at hrun
  exact ⟨_, tryCatch_run_ok (hrun.trans rfl), rfl, _, rfl⟩

theorem caught_recorded (hbody : bodyResult body (64 * 1024) = .ok input)
    (hkey : browserKeyForSubmission input = .ok key)
    (hlimit : rateLimited (a.lastSubmissionAt key) a.now = false) {recorded : Recorded}
    (hrecorded : a.recorded = .ok recorded) :
    ∃ x, (caught server a body).run.run fresh = (.ok (), x) ∧
      x.submission = some (recorded.browserKey, a.now) ∧
      Responds 202 (stringify 0 (recordedBody recorded)) x := by
  have hrun := acceptSubmission_run server a hbody hkey
  rw [hlimit, if_neg Bool.false_ne_true, hrecorded] at hrun
  exact ⟨_, tryCatch_run_ok (hrun.trans rfl), rfl, _, rfl⟩

theorem caught_failed (hbody : bodyResult body (64 * 1024) = .ok input)
    (hkey : browserKeyForSubmission input = .ok key)
    (hlimit : rateLimited (a.lastSubmissionAt key) a.now = false) {message : String}
    (hrecorded : a.recorded = .error (.error message)) :
    ∃ x, (caught server a body).run.run fresh = (.ok (), x) ∧ x.submission = none ∧
      Responds 500 (stringify 0 (errorBody "result persistence failed")) x := by
  have hrun := acceptSubmission_run server a hbody hkey
  rw [hlimit, if_neg Bool.false_ne_true, hrecorded] at hrun
  exact ⟨_, tryCatch_run_error (hrun.trans rfl), rfl, _, rfl⟩

variable {server a}

/-- The page's request gets as far as that. -/
theorem sends_accepted {newUrl : String → String → Option String} {payload : Json} {req : Request}
    (h : Sends newUrl server payload req) (henabled : server.resultsEnabled = true) :
    requestHandler newUrl server a req = caught server a req.body := by
  have hjson : startsWith (toLowerCase ((some "application/json").getD "")) "application/json" = true := by
    decide
  rw [requestHandler, h.url]
  simp only [if_true]
  rw [handleBrowserResults, henabled, h.method, h.origin, h.contentType, hjson]
  simp [caught]

/-- The body reads back as the payload. -/
theorem sends_body {newUrl : String → String → Option String} {payload : Json} {req : Request}
    (h : Sends newUrl server payload req) (hparse : parse (stringify 0 payload) = .ok input)
    (hlength : (utf8 (stringify 0 payload)).length ≤ 64 * 1024) :
    bodyResult req.body (64 * 1024) = .ok input := by
  have hdecode : String.ofList (Utf8.decode (utf8 (stringify 0 payload))) = stringify 0 payload := by
    rw [utf8, Utf8.decode_encode, String.ofList_toList]
  have hne : utf8 (stringify 0 payload) ≠ [] := by
    intro hnil
    rw [hnil] at hdecode
    rw [← hdecode] at hparse
    cases hparse
  rw [bodyResult, h.body, if_neg (Nat.not_lt.mpr hlength), h.whole]
  simp only
  rw [if_neg hne, hdecode, hparse]

end Answer

/-! ### Posts that were left alone -/

/-- What the server makes of a post: its family is rate limited, or it is stored as what the page has
    found, or the clock or the files have failed. -/
inductive Taken (config : Config) (env : Environment) (p : Post) (events : List Server.Event)
    (a : Answers) (input : Json) (x : Exchange) : Prop where
  | limited (hnone : x.submission = none)
      (h : Responds 429 (stringify 0 (errorBody "submission rate limited")) x)
  | stored (recorded : Recorded) (profile : Profile) (hash : Bool) (summary : Summary) (s : Snapshot)
      (hrecorded : a.recorded = .ok recorded)
      (hsubmission : x.submission = some (s.browser.family.key, a.now))
      (h : Responds 202 (stringify 0 (recordedBody recorded)) x)
      (haccepted : sanitizeSubmission input recorded.receivedAt config.requireGrease = .ok s)
      (hpayload : p.payload = publicationPayload profile p.report summary)
      (hstores : Stores profile (triedVariants env.webTransportConstructible hash) p.report summary s)
  | failed (e : Error) (hfails : Server.Fails events e) (hnone : x.submission = none)
      (h : Responds 500 (stringify 0 (errorBody "result persistence failed")) x)

/-- The payload of such a post is accepted at any time, and fits. -/
theorem post_accepted {lib : Libraries} {world : Surroundings} {s : StartedServer}
    (h : StartedFrom lib world s) (hnumbers : ∀ n ∈ numbersOf world, n.sent.isSome = true)
    {newUrl : String → String → Option String} {env : Environment} {form : Form} {events : List Event}
    (hvisits : Visits newUrl s.server env events) {p : Post}
    (hp : p ∈ (session env form events).posts) (halone : Alone env form events p.run) :
    s.server.resultsEnabled = true ∧ (utf8 (stringify 0 p.payload)).length ≤ 64 * 1024 ∧
      ∃ input profile hash summary, parse (stringify 0 p.payload) = .ok input ∧
        p.payload = publicationPayload profile p.report summary ∧
        ∀ receivedAt, ∃ stored, sanitizeSubmission input receivedAt s.config.requireGrease = .ok stored ∧
          Stores profile (triedVariants env.webTransportConstructible hash) p.report summary stored := by
  have hknows := session_knows env form events
  obtain ⟨henabled, profile, summary, htold, hsummary, hpayload⟩ := hknows.posts p hp
  obtain ⟨profile', hash, summary', hconstructible, hfinished, hshareable, hpayload'⟩ :=
    (kept_session env form events).posts p hp halone
  obtain ⟨c, hc, henabled⟩ := Option.any_eq_true _ _ |>.mp henabled
  have hconfig := hknows.config (by rw [hc]; exact Option.some_ne_none c)
  rw [hc] at hconfig hshareable
  have hconfigures := configOf_started h hnumbers hvisits hconfig
  have hrequired : greaseConfigured (some c) = s.config.requireGrease := hconfigures.required
  refine ⟨hconfigures.enabled.symm.trans henabled, ?_, ?_⟩
  · -- the browser is one that was told of
    obtain ⟨isBrave, userAgent, rfl, hversion⟩ := hvisits.browser profile htold
    obtain rfl : summary' = summary := Option.some.inj (hshareable.summarized.symm.trans hsummary)
    rw [hconstructible] at hfinished
    rw [hpayload]
    exact hfinished.assigned.posted_length_le hshareable.paths_perm hsummary
      (detected_name_size_le env isBrave userAgent) hversion
  · obtain ⟨input, -, hparse, -, -⟩ := published_stored hfinished hshareable ""
    rw [← hpayload'] at hparse
    refine ⟨input, profile', hash, summary', hparse, hpayload', fun receivedAt => ?_⟩
    obtain ⟨input', stored, hparse', haccepted, hstores⟩ :=
      published_stored hfinished hshareable receivedAt
    rw [← hpayload', hparse] at hparse'
    cases hparse'
    rw [hrequired] at haccepted
    rw [hconstructible] at hstores
    exact ⟨stored, haccepted, hstores⟩

theorem key_of_accepted {input : Json} {receivedAt : String} {requireGrease : Bool} {stored : Snapshot}
    (h : sanitizeSubmission input receivedAt requireGrease = .ok stored) :
    browserKeyForSubmission input = .ok stored.browser.family.key :=
  bind_eq_ok.mpr ⟨stored.browser, (sanitizeSubmission_eq_ok.mp h).2.browser, rfl⟩

/-- What the deployed server tells its page. -/
def deployedConfig : RuntimeConfig where
  resultsEnabled := true
  targetBase := some "https://wttest.quicast.de:9446"
  greaseDifferential := some
    { controlBase := some "https://wttest.quicast.de:9447"
      enabledBase := some "https://wttest.quicast.de:9448"
      path := some "/wt/yggdrasil" }
  autorun := false
  defaultMode := some "selected"

/-- The targets are the only part of it that the server may refuse. -/
theorem deployed_config {s : StartedServer} (h : start noHashes deployed = .ok s) :
    told s.server = deployedConfig := by
  obtain ⟨indexHtml, grease, hgrease, hserver⟩ := (started_from h).served
  have hdeployed : deployed.greaseDifferential = .ok (some
      { controlBase := "https://wttest.quicast.de:9447"
        enabledBase := "https://wttest.quicast.de:9448"
        path := "/wt/yggdrasil"
        timeoutMs := .num (.int 5000) }) := by rfl
  rw [hdeployed] at hgrease
  cases hgrease
  rw [hserver]
  rfl

def deployedForm : Form := { pageForm with targetBase := "https://wttest.quicast.de:9446" }

/-- All cases and both probes pass there. -/
def deployedRun : List Event := .init (.config (some deployedConfig)) :: undisturbed.tail

set_option maxRecDepth 100000 in
theorem deployedRun_single : (session browser deployedForm deployedRun).runs.length ≤ 1 ∧
    (session browser deployedForm deployedRun).posts.isEmpty = false := by decide +kernel

def postRequest (payload : Json) : Request where
  url := some "/api/browser-results"
  method := "POST"
  host := some "wttest.quicast.de"
  origin := some "https://wttest.quicast.de"
  contentType := some "application/json"
  body := { chunks := [utf8 (stringify 0 payload)], failure := none }

/-- The event tells of nothing but one browser. -/
def Event.inFirefox : Event → Bool
  | .init (.config _) => false
  | .init (.profile name version) => decide (name = "Firefox" ∧ version = some "141.0")
  | .resume _ (.profile name version) => decide (name = "Firefox" ∧ version = some "141.0")
  | _ => true

set_option maxRecDepth 100000 in
theorem undisturbed_inFirefox : undisturbed.tail.all Event.inFirefox = true := by decide +kernel

def firefoxAgent : String := "Mozilla/5.0 (X11; Linux x86_64; rv:141.0) Gecko/20100101 Firefox/141.0"

theorem deployedRun_visits {s : StartedServer} (h : start noHashes deployed = .ok s) :
    Visits plainUrl s.server browser deployedRun where
  config c hc := by
    refine .inr ⟨quiet, getRequest "/matrix-config.json", rfl, ?_⟩
    rw [configOf_served (started_from h) deployed_numbers quiet rfl, deployed_config h]
    rcases List.mem_cons.mp hc with heq | htail
    · cases heq
      rfl
    · cases List.all_eq_true.mp undisturbed_inFirefox _ htail
  browser profile htold := by
    obtain ⟨name, version, rfl, htold⟩ := htold
    have hfirefox : name = "Firefox" ∧ version = some "141.0" := by
      rcases htold with hinit | ⟨run, hrun⟩
      · rcases List.mem_cons.mp hinit with heq | htail
        · cases heq
        · simpa [Event.inFirefox] using List.all_eq_true.mp undisturbed_inFirefox _ htail
      · rcases List.mem_cons.mp hrun with heq | htail
        · cases heq
        · simpa [Event.inFirefox] using List.all_eq_true.mp undisturbed_inFirefox _ htail
    obtain ⟨rfl, rfl⟩ := hfirefox
    refine ⟨false, firefoxAgent, ?_, fun major hmajor => ?_⟩
    · have hdetected : detectBrowserProfile false firefoxAgent = ("Firefox", some "141.0") := by
        decide +kernel
      rw [Environment.detected, hdetected]
    · have hmajor' : majorVersion (some "141.0") = some "141" := by decide
      rw [show (browser.profile "Firefox" (some "141.0")).version = some "141.0" from rfl, hmajor'] at hmajor
      cases hmajor
      decide

theorem deployed_origin : deployed.publicOrigin = "https://wttest.quicast.de" := by decide +kernel

end WebTransportEcho.Page
