import Mathlib
import WebTransportEcho.Server.Request
import WebTransportEcho.Store.Loading

set_option mvcgen.warning false

/-! What every request to the page server gets. Each route writes a head and ends the response once,
    and what is thrown on the way is caught before anything is written. There are two exceptions: the
    URL constructor is called outside any `try`, and so is `snapshot` on `GET /api/browser-results`.
    `answered_iff` says that nothing else goes wrong. -/

namespace WebTransportEcho.Server
open Js Store Std.Do

/-! ### What is asked for -/

def fresh : Exchange where
  writes := []
  submission := none

/-- One head was written, and the response ended once, behind it. -/
def Complete (writes : List Write) : Prop :=
  ∃ status headers content, writes = [.head status headers, .finish content]

/-- `snapshot` of the state, with the entries compared in any order that an engine may choose. -/
def SnapshotOf (state : StoreState) (r : Except Error Json) : Prop :=
  ∃ localeCompare generatedAt latest, latest.entries.Perm state.latest.entries ∧
    r = publicSnapshot localeCompare generatedAt { state with latest }

/-- The handler's promise is fulfilled with one complete response, whatever the handler is answered. -/
def Answered (newUrl : String → String → Option String) (server : PageServer) (state : StoreState)
    (req : Request) : Prop :=
  ∀ a : Answers, SnapshotOf state a.snapshot →
    ((requestHandler newUrl server a req).run.run fresh).1 = .ok () ∧
      Complete ((requestHandler newUrl server a req).run.run fresh).2.writes

/-! ### What each part writes -/

@[spec] theorem raise_spec {α : Type} (e : Thrown)
    {Q : PostCond α (.except Thrown (.arg Exchange .pure))} :
    ⦃Q.2.1 e⦄ (raise e : Handler α) ⦃Q⦄ := by
  mvcgen [raise]

/-- What is accepted has passed the limit and is recorded; the time of its check is entered for the
    family that was recorded. -/
def Accepts (a : Answers) (x : Exchange) : Prop :=
  (∃ headers content, x.writes = [.head 202 headers, .finish content]) ∧
    ∃ input rateLimitKey recorded, browserKeyForSubmission input = .ok rateLimitKey ∧
      rateLimited (a.lastSubmissionAt rateLimitKey) a.now = false ∧ a.recorded = .ok recorded ∧
      x.submission = some (recorded.browserKey, a.now)

/-- A submission is accepted, or it is turned away by the limit, or what it throws leaves no trace. -/
theorem acceptSubmission_cases (server : PageServer) (a : Answers) (body : Body) :
    ⦃fun x => ⌜x = fresh⌝⦄ acceptSubmission server a body
    ⦃post⟨fun _ x => ⌜Accepts a x ∨ x.submission = none ∧
        ∃ headers content, x.writes = [.head 429 headers, .finish content]⌝,
      fun _ x => ⌜x = fresh⌝⟩⦄ := by
  mvcgen [acceptSubmission, readJsonBody, attempt, sendJson, respond, writeResponseHead, writeHead,
    endResponse]
  · next hfresh _ _ _ _ _ _ _ _ _ _ =>
    exact .inr ⟨congrArg Exchange.submission hfresh, _, _, rfl⟩
  · next hfresh _ _ _ input _ key hkey hlimit recorded hrecorded _ _ _ =>
    exact .inl ⟨⟨_, _, rfl⟩, input, key, recorded, hkey, by simpa using hlimit, hrecorded, rfl⟩
  · next hfresh _ _ _ _ _ _ _ _ _ _ _ _ hwritten hwrites =>
    exact (hwritten (hwrites.symm.trans (congrArg Exchange.writes hfresh))).elim

@[spec] theorem attempt_spec {α : Type} (r : Except Error α) :
    ⦃fun x => ⌜x.writes = []⌝⦄ attempt r
    ⦃post⟨fun a x => ⌜r = .ok a ∧ x.writes = []⌝,
      fun _ x => ⌜(∃ e, r = .error e) ∧ x.writes = []⌝⟩⦄ := by
  mvcgen [attempt]
  case vc2.h_2 hwrites => exact ⟨⟨_, rfl⟩, hwrites⟩

@[spec] theorem respond_spec (server : PageServer) (status : Nat) (headers : Headers)
    (content : Content) :
    ⦃fun x => ⌜x.writes = []⌝⦄ respond server status headers content
    ⦃⇓ _ x => ⌜Complete x.writes⌝⦄ := by
  mvcgen [respond, writeResponseHead, writeHead, endResponse]
  case vc1.h_1 => exact ⟨status, _, content, rfl⟩
  case vc2.h_2 => simp_all

@[spec] theorem sendJson_spec (server : PageServer) (status : Nat) (body : Json) (headers : Headers) :
    ⦃fun x => ⌜x.writes = []⌝⦄ sendJson server status body headers
    ⦃⇓ _ x => ⌜Complete x.writes⌝⦄ := by
  mvcgen [sendJson]

@[spec] theorem readJsonBody_spec (body : Body) (maxBytes : Nat) :
    ⦃fun x => ⌜x.writes = []⌝⦄ readJsonBody body maxBytes
    ⦃post⟨fun _ x => ⌜x.writes = []⌝, fun _ x => ⌜x.writes = []⌝⟩⦄ := by
  mvcgen [readJsonBody] <;> simp_all

/-- What throws has written nothing yet. -/
@[spec] theorem acceptSubmission_spec (server : PageServer) (a : Answers) (body : Body) :
    ⦃fun x => ⌜x.writes = []⌝⦄ acceptSubmission server a body
    ⦃post⟨fun _ x => ⌜Complete x.writes⌝, fun _ x => ⌜x.writes = []⌝⟩⦄ := by
  mvcgen [acceptSubmission]
  case vc6.post.success.post.success.isFalse.post.success.pre hrecorded _ => exact hrecorded.2
  all_goals simp_all

@[spec] theorem answerError_spec (server : PageServer) (e : Thrown) :
    ⦃fun x => ⌜x.writes = []⌝⦄ answerError server e
    ⦃⇓ _ x => ⌜Complete x.writes⌝⦄ := by
  cases e with
  | requestBody status message => mvcgen [answerError]
  | js e => cases e <;> mvcgen [answerError]

/-- The `try` and its `catch`. -/
theorem caught_spec (server : PageServer) (a : Answers) (body : Body) :
    ⦃fun x => ⌜x.writes = []⌝⦄
    (tryCatch (acceptSubmission server a body) (answerError server) : Handler Unit)
    ⦃⇓ _ x => ⌜Complete x.writes⌝⦄ := by
  mvcgen
  exact id

theorem handleBrowserResults_spec (server : PageServer) (a : Answers) (req : Request)
    (hsnapshot : server.resultsEnabled = true → req.method = "GET" → Returns a.snapshot) :
    ⦃fun x => ⌜x.writes = []⌝⦄ handleBrowserResults server a req
    ⦃⇓ _ x => ⌜Complete x.writes⌝⦄ := by
  unfold handleBrowserResults
  split
  · exact sendJson_spec server _ _ _
  · next henabled =>
    split
    · next hget =>
      obtain ⟨j, hj⟩ := hsnapshot (by simpa using henabled) hget
      rw [hj]
      mvcgen
      · next hread => exact hread.2
      · next e =>
        rintro x ⟨_, hthrown⟩
        cases hthrown
    · split
      · exact sendJson_spec server _ _ _
      · split
        · exact sendJson_spec server _ _ _
        · split
          · exact sendJson_spec server _ _ _
          · exact caught_spec server a req.body

/-- A file is served, or what reading it throws is answered. -/
theorem caughtFile_spec (server : PageServer) (read : Except Error (List UInt8))
    (headers missing : Headers) (message : Content) :
    ⦃fun x => ⌜x.writes = []⌝⦄
    (tryCatch (do
      let body ← attempt read
      respond server 200 headers (.bytes body)) fun _ => respond server 404 missing message :
        Handler Unit)
    ⦃⇓ _ x => ⌜Complete x.writes⌝⦄ := by
  mvcgen <;> simp_all

theorem serveFile_spec (server : PageServer) (a : Answers) (pathname : String) :
    ⦃fun x => ⌜x.writes = []⌝⦄ serveFile server a pathname
    ⦃⇓ _ x => ⌜Complete x.writes⌝⦄ := by
  unfold serveFile
  simp only
  split
  · exact respond_spec server _ _ _
  · exact caughtFile_spec server _ _ _ _

theorem requestHandler_spec (newUrl : String → String → Option String) (server : PageServer)
    (a : Answers) (req : Request) {pathname : String}
    (hurl : newUrl (req.url.getD "/") req.base = some pathname)
    (hsnapshot : pathname = "/api/browser-results" → server.resultsEnabled = true →
      req.method = "GET" → Returns a.snapshot) :
    ⦃fun x => ⌜x.writes = []⌝⦄ requestHandler newUrl server a req
    ⦃⇓ _ x => ⌜Complete x.writes⌝⦄ := by
  unfold requestHandler
  rw [hurl]
  simp only
  split
  · next hpath => exact handleBrowserResults_spec server a req (hsnapshot hpath)
  · split
    · apply respond_spec
    · split
      · apply respond_spec
      · split
        · apply respond_spec
        · mvcgen [serveFile_spec]

/-- What a triple says of a run. -/
theorem run_of_triple {x : Handler Unit}
    (h : ⦃fun x => ⌜x.writes = []⌝⦄ x ⦃⇓ _ x => ⌜Complete x.writes⌝⦄) :
    (x.run.run fresh).1 = .ok () ∧ Complete (x.run.run fresh).2.writes := by
  generalize hrun : x.run.run fresh = y
  apply StateM.of_wp_run_eq hrun
  mvcgen [h]
  exact fun hcomplete => ⟨trivial, hcomplete⟩

/-! ### The snapshots -/

/-- However it is sorted, the snapshot of the state is made. -/
def Sortable (state : StoreState) : Prop :=
  state.latest.entries.length ≤ 1 ∨ ∀ e ∈ state.latest.entries, Named e.2

theorem returns_publicSnapshot {localeCompare : String → String → Int} {generatedAt : String}
    {state : StoreState} : Returns (publicSnapshot localeCompare generatedAt state) ↔
      Returns (sortItems (compareNames localeCompare) (state.latest.entries.map Prod.snd)) :=
  returns_bind_of_forall fun _ => returns_ok _

/-- The state is sortable exactly when no order of comparisons throws. -/
theorem sortable_iff {state : StoreState} :
    Sortable state ↔ ∀ r, SnapshotOf state r → Returns r := by
  refine ⟨?_, fun h => ?_⟩
  · rintro hsortable r ⟨localeCompare, generatedAt, latest, hperm, rfl⟩
    rw [returns_publicSnapshot]
    rcases hsortable with hlength | hnamed
    · rw [← hperm.length_eq] at hlength
      match latest.entries, hlength with
      | [], _ => exact returns_ok _
      | [e], _ => exact returns_ok _
    · exact (snapshotSafe_of_named hnamed).anyOrder localeCompare _ (hperm.map Prod.snd)
  · rw [Sortable, or_iff_not_imp_left]
    intro hlength e he
    obtain ⟨before, after, hsplit⟩ := List.append_of_mem he
    have hperm : (e :: (before ++ after)).Perm state.latest.entries := by
      rw [hsplit]
      exact List.perm_middle.symm
    obtain ⟨other, rest, hrest⟩ : ∃ other rest, before ++ after = other :: rest := by
      refine List.exists_cons_of_ne_nil fun hnil => hlength ?_
      rw [← hperm.length_eq, hnil, List.length_singleton]
    have hreturns := h _ ⟨fun _ _ => 0, "", .obj (e :: (before ++ after)), hperm, rfl⟩
    rw [returns_publicSnapshot, hrest] at hreturns
    exact named_of_returns (returns_first hreturns)

/-! ### Every request -/

section

variable {newUrl : String → String → Option String} {server : PageServer} {state : StoreState}
  {req : Request}

theorem not_answered_of_url (h : newUrl (req.url.getD "/") req.base = none) :
    ¬ Answered newUrl server state req := by
  intro hanswered
  obtain ⟨hok, -⟩ := hanswered ⟨0, fun _ => none, .error (.error ""), _, fun _ => .ok []⟩
    ⟨fun _ _ => 0, "", state.latest, List.Perm.refl _, rfl⟩
  rw [requestHandler, h] at hok
  cases hok

theorem not_answered_of_snapshot
    (hurl : newUrl (req.url.getD "/") req.base = some "/api/browser-results")
    (henabled : server.resultsEnabled = true) (hget : req.method = "GET") {e : Error}
    (h : SnapshotOf state (.error e)) : ¬ Answered newUrl server state req := by
  intro hanswered
  obtain ⟨hok, -⟩ := hanswered ⟨0, fun _ => none, .error (.error ""), _, fun _ => .ok []⟩ h
  simp only [requestHandler, hurl, handleBrowserResults, henabled, hget] at hok
  cases hok

/-- A request is answered unless its URL cannot be made, or it asks for results that cannot be
    sorted. -/
theorem answered_iff (newUrl : String → String → Option String) (server : PageServer)
    (state : StoreState) (req : Request) : Answered newUrl server state req ↔
      ∃ pathname, newUrl (req.url.getD "/") req.base = some pathname ∧
        (pathname = "/api/browser-results" → server.resultsEnabled = true → req.method = "GET" →
          Sortable state) := by
  refine ⟨fun h => ?_, ?_⟩
  · cases hurl : newUrl (req.url.getD "/") req.base with
    | none => exact absurd h (not_answered_of_url hurl)
    | some pathname =>
      refine ⟨pathname, rfl, fun hpath henabled hget => sortable_iff.mpr fun r hr => ?_⟩
      cases r with
      | ok j => exact returns_ok j
      | error e =>
        rw [hpath] at hurl
        exact absurd h (not_answered_of_snapshot hurl henabled hget hr)
  · rintro ⟨pathname, hurl, hsortable⟩ a hsnapshot
    exact run_of_triple (requestHandler_spec newUrl server a req hurl fun hpath henabled hget =>
      sortable_iff.mp (hsortable hpath henabled hget) _ hsnapshot)

end

/-! ### Two requests that are not answered -/

def pageServer : PageServer where
  root := "/srv/app"
  publicOrigin := "https://wt.example:8443"
  resultsEnabled := true
  wtTargetBase := "https://wt.example:9443"
  defaultTimeoutMs := .nat 5000
  defaultBetweenCasesMs := .nat 150
  defaultPaths := []
  defaultMode := "selected"
  defaultAutorun := false
  greaseDifferential := none
  certHashPayload := .obj []
  securityHeaders := []

def getRequest (target : String) : Request where
  url := some target
  method := "GET"
  host := some "wt.example:8443"
  origin := none
  contentType := none
  body := { chunks := [], failure := none }

/-- The constructor on plain paths: one that begins with two slashes names a host, which cannot be
    empty. -/
def plainUrl (target _base : String) : Option String := if target = "//" then none else some target

def nullEntries : StoreState := { latest := .obj [("a", .null), ("b", .null)], changes := [] }

theorem nullEntries_snapshot : ∃ e, SnapshotOf nullEntries (.error e) :=
  ⟨_, fun _ _ => 0, "", nullEntries.latest, List.Perm.refl _, rfl⟩

/-- A request for `//`, and one for the results of a file whose entries have no names. -/
theorem emptyHost_not_answered :
    ¬ Answered plainUrl pageServer emptyState (getRequest "//") ∧
      load ⟨100, false⟩ (some (stringify 0 (storing [("a", .null), ("b", .null)]))) =
        .ok nullEntries ∧
      ¬ Answered plainUrl pageServer nullEntries (getRequest "/api/browser-results") := by
  obtain ⟨e, he⟩ := nullEntries_snapshot
  have hplain : (Json.obj [("a", .null), ("b", .null)]).Plain :=
    plain_obj.mpr ⟨by simp, by simp [Json.Plain]⟩
  exact ⟨not_answered_of_url (by decide), load_storing _ hplain,
    not_answered_of_snapshot (by decide) rfl rfl he⟩

end WebTransportEcho.Server
