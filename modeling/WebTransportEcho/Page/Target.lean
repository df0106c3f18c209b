import WebTransportEcho.Page.Ledger
import WebTransportEcho.Url

/-! The URL that a case is opened at, and the gate that keeps runs against another target local. The
    gate compares origins; a case is opened at the text of the base with the path behind it. So a base
    with the origin of the configured target is let through whatever else it has: its credentials, its
    path, its query and its fragment stay in every URL that is opened. And the base that the gate
    looks at is that of the last report, in which the cases of a call that overlaps stand as well.

    What `new URL` makes of a scheme that is not special is a parameter; a `blob` URL has the origin
    of the URL in it. -/

namespace WebTransportEcho.Page
open Store

/-- `new URL(value).origin`. -/
def normalizedOrigin (host : Url.HostParser) (other : String → Option String) (value : String) :
    Option String :=
  if Url.isSpecial value.toList then
    (Url.parse host value.toList).map fun url => String.ofList url.origin
  else other value

/-- The case was opened at the URL that the configured target opens its path at. -/
def AtTarget (host : Url.HostParser) (configured : String) (c : CaseResult) : Prop :=
  ∃ url, Url.parse host c.url.toList = some url ∧
    Url.parse host (runUrl configured c.path).toList = some url

/-- Without their last slash, the base and the configured target have the same scheme, credentials,
    host, port, path, query and fragment. -/
def SameTarget (host : Url.HostParser) (base configured : String) : Prop :=
  Url.SameFront host (Url.lead (dropSlash base.toList)) (Url.lead (dropSlash configured.toList))

/-- Each of the results was pushed by a call with a base like the configured target. -/
def CalledAtTarget (host : Url.HostParser) (env : Environment) (form : Form) (events : List Event)
    (configured : String) : Prop :=
  ∀ entry ∈ ledger env form events, ∀ base,
    (calledBases env (opened form) events)[entry.1]? = some base → SameTarget host base configured

/-! ### Paths and bases -/

theorem pagePaths_plain : ∀ path ∈ pagePaths, ∃ added : List Char, path.toList = '/' :: added ∧
    ∀ c ∈ added, Url.isPlain c = true := by
  have hplain : ∀ path ∈ pagePaths, path.toList.head? = some '/' ∧
      path.toList.all Url.isPlain = true := by decide
  intro path hpath
  obtain ⟨hhead, hall⟩ := hplain path hpath
  obtain ⟨added, hadded⟩ := List.head?_eq_some_iff.mp hhead
  rw [hadded, List.all_eq_true] at hall
  exact ⟨added, hadded, fun c hc => hall c (List.mem_cons_of_mem _ hc)⟩

theorem not_bare_dropSlash {text : List Char} (h : ¬ Url.Bare (Url.input text)) :
    ¬ Url.Bare (Url.lead (dropSlash text)) := by
  unfold dropSlash
  split
  · next hlast =>
    refine Url.not_bare_lead_of_slash ?_
    rwa [List.dropLast_append_getLast? _ hlast]
  · exact Url.not_bare_lead h

theorem atTarget_iff (host : Url.HostParser) {configured base : String} {c : CaseResult}
    (h : c.OfPage base) (hconfigured : ¬ Url.Bare (Url.input configured.toList)) :
    AtTarget host configured c ↔ SameTarget host base configured := by
  obtain ⟨path, hpath, hown, hurl⟩ := h
  obtain ⟨added, hadded, hplain⟩ := pagePaths_plain path hpath
  rw [AtTarget, hurl, hown, runUrl, runUrl, String.toList_ofList, String.toList_ofList, hadded]
  exact Url.parse_append_iff hplain (not_bare_dropSlash hconfigured)

/-! ### What the gate compares -/

/-- Nothing but its target can hold the run back. -/
structure Eligible (sharing : Bool) (config : RuntimeConfig) (profile : Profile) (report : Report) :
    Prop where
  sharing : sharing = true
  enabled : config.resultsEnabled = true
  complete : ∃ summary, report.summary = some summary ∧
    (profile.webTransportConstructible = true → summary.completedCases = summary.plannedCases)
  finished : report.cancelled = false
  mode : report.run.mode = .exhaustive
  requested : config.greaseDifferential.isSome = true → report.run.greaseDifferential = true
  probed : config.greaseDifferential.isSome = true → report.greaseDifferential.isSome = true
  length : report.run.paths.length = pagePaths.length
  paths : ∀ path ∈ pagePaths, path ∈ report.run.paths

theorem publicationBlockReason_eq_none_iff {origin : String → Option String} {sharing : Bool}
    {config : RuntimeConfig} {profile : Profile} {report : Report} {configured : String}
    (hconfigured : config.targetBase = some configured) :
    publicationBlockReason origin sharing (some config) profile (some report) = none ↔
      Eligible sharing config profile report ∧ origin configured = origin report.run.targetBase := by
  have hmatches : certificateMetadataMatchesTarget origin (some config) report.run.targetBase = true ↔
      origin configured = origin report.run.targetBase := by
    rw [certificateMetadataMatchesTarget, Option.bind_some, hconfigured]
    exact decide_eq_true_iff
  have hprobed : report.greaseDifferential.isNone = false ↔
      report.greaseDifferential.isSome = true := Option.isNone_eq_false_iff
  simp only [publicationBlockReason, block_eq_none, greaseConfigured, Option.any_some,
    Bool.not_eq_true', Bool.not_eq_false]
  constructor
  · rintro ⟨hsharing, henabled, h⟩
    cases hsummary : report.summary with
    | none =>
      rw [hsummary] at h
      cases h
    | some summary =>
      rw [hsummary] at h
      simp only [block_eq_none, not_or, not_exists, not_and, Bool.and_eq_true, Bool.not_eq_true',
        not_not, Bool.not_eq_false, Bool.not_eq_true, hmatches] at h
      obtain ⟨hfinished, hmode, hrequested, hdone, htarget, ⟨hlength, hpaths⟩, hcomplete, -⟩ := h
      exact ⟨⟨hsharing, henabled, ⟨summary, hsummary, hcomplete⟩, hfinished, hmode, hrequested,
        fun hgrease => hprobed.mp (hdone hgrease), hlength, hpaths⟩, htarget⟩
  · rintro ⟨h, htarget⟩
    obtain ⟨summary, hsummary, hcomplete⟩ := h.complete
    refine ⟨h.sharing, h.enabled, ?_⟩
    rw [hsummary]
    simp only [block_eq_none, not_or, not_exists, not_and, Bool.and_eq_true, Bool.not_eq_true',
      not_not, Bool.not_eq_false, Bool.not_eq_true, hmatches]
    exact ⟨h.finished, h.mode, h.requested, fun hgrease => hprobed.mpr (h.probed hgrease), htarget,
      ⟨h.length, h.paths⟩, hcomplete, trivial⟩

/-- Host names of lower-case letters, digits, dots and hyphens are as they are. -/
def asciiHost (text : List Char) : Option (List Char) :=
  if text.all fun c => c.isLower || c.isDigit || c = '.' || c = '-' then some text else none

def wttest : String := "https://wttest.quicast.de:9446"

def wttestConfig : RuntimeConfig where
  resultsEnabled := true
  targetBase := some wttest
  greaseDifferential := none
  autorun := false
  defaultMode := none

/-- A browser with the API. -/
def wttestBrowser : Environment where
  origin := normalizedOrigin asciiHost fun _ => none
  secureContext := true
  webTransportConstructible := true
  autorun := none
  exhaustive := false

def wttestForm (base : String) : Form where
  targetBase := base
  delay := false
  path _ := true
  variant _ := true
  runGrease := false
  publishResult := true

/-- An exhaustive run in which no case gets ready. -/
def unreadyRun : List Event :=
  [.init (.config (some wttestConfig)), .init (.profile "Firefox" (some "141.0")),
    .init (.cert (some { hashUsable := some false })), .click .exhaustive, .resume 0 .go] ++
  (List.replicate 128 [.resume 0 (.construct none), .resume 0 (.probe (.ready .timeout)),
    .resume 0 (.probe .closed)]).flatten ++ [.resume 0 (.construct none)]

def firefox : Profile := wttestBrowser.profile "Firefox" (some "141.0")

theorem wttest_valid :
    ∃ url, Url.parse asciiHost wttest.toList = some url ∧ url.scheme = .https := by
  have h : (Url.parse asciiHost wttest.toList).any
      (fun url => decide (url.scheme = .https)) = true := by
    decide
  obtain ⟨url, hurl, hscheme⟩ := Option.any_eq_true _ _ |>.mp h
  exact ⟨url, hurl, of_decide_eq_true hscheme⟩

/-- The same base with a slash at its end. -/
theorem wttestSlash_same : SameTarget asciiHost (wttest ++ "/") wttest := by
  have hdrop : dropSlash (wttest ++ "/").toList = dropSlash wttest.toList := by decide
  have h : (Url.front (Url.lead (dropSlash wttest.toList))).any (fun front =>
      (Url.readAuthority asciiHost front.1 front.2.authority).isSome) = true := by
    decide
  obtain ⟨⟨scheme, parts⟩, hfront, hauthority⟩ := Option.any_eq_true _ _ |>.mp h
  obtain ⟨authority, hauthority⟩ := Option.isSome_iff_exists.mp hauthority
  rw [SameTarget, hdrop]
  exact ⟨scheme, parts, parts, authority, hfront, hfront, hauthority, hauthority,
    by split <;> rfl, rfl, rfl⟩

set_option maxRecDepth 100000 in
theorem slashRun_published :
    ((session wttestBrowser (wttestForm (wttest ++ "/")) unreadyRun).report.any fun report =>
      decide (publicationBlockReason wttestBrowser.origin true (some wttestConfig) firefox
        (some report) = none) && decide (report.results.length = 128)) = true := by
  decide +kernel

set_option maxRecDepth 100000 in
theorem slashRun_bases : calledBases wttestBrowser (opened (wttestForm (wttest ++ "/"))) unreadyRun =
    [wttest ++ "/"] := by
  decide +kernel

set_option maxRecDepth 100000 in
theorem stagingRun_posted :
    ((session wttestBrowser (wttestForm (wttest ++ "/staging")) unreadyRun).posts.any fun post =>
      decide (publicationBlockReason wttestBrowser.origin true (some wttestConfig) firefox
        (some post.report) = none) &&
      post.report.results.any fun c => decide (Url.parse asciiHost c.url.toList ≠
        Url.parse asciiHost (runUrl wttest c.path).toList)) = true := by
  decide +kernel

end WebTransportEcho.Page
