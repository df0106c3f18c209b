import WebTransportEcho.Page.Alone

/-! Where the page knows from what it shares. Everything it posts is the payload of a report, for a
    browser that some answer has told of, under a configuration that takes results; the
    configuration is the one that `initialize` was answered. -/

namespace WebTransportEcho.Page
open Js Store

/-- What a step of a call posts, if it posts. -/
structure Shares (env : Environment) (s : Session) (run : Nat) (a : Answer) (x : Session × Run) :
    Prop where
  config : x.1.runtimeConfig = s.runtimeConfig
  init : x.1.init = s.init
  profile : x.1.browserProfile = s.browserProfile ∨
    ∃ name version, a = .profile name version ∧ x.1.browserProfile = some (env.profile name version)
  posts : x.1.posts = s.posts ∨ ∃ profile report summary, s.browserProfile = some profile ∧
    report.summary = some summary ∧ s.runtimeConfig.any RuntimeConfig.resultsEnabled = true ∧
    x.1.posts = s.posts ++ [{ run, report, payload := publicationPayload profile report summary }]

section Steps

variable {env : Environment} {s s' : Session} {run : Nat} {a : Answer}

theorem Shares.quiet {x : Session × Run} (hframe : Framed s x.1) : Shares env s run a x :=
  ⟨hframe.config, hframe.init, .inl hframe.profile, .inl hframe.posts⟩

/-- Nothing is shared without a configuration that takes results. -/
theorem enabled_of_shared {origin : String → Option String} {sharing : Bool}
    {config : Option RuntimeConfig} {profile : Profile} {report : Option Report}
    (h : publicationBlockReason origin sharing config profile report = none) :
    config.any RuntimeConfig.resultsEnabled = true := by
  unfold publicationBlockReason at h
  split_ifs at h with hsharing henabled
  simpa using henabled

theorem publishReport_shares (hframe : Framed s s') : Shares env s run a (publishReport env s' run) := by
  unfold publishReport
  split
  · next profile report hprofile _ =>
    split
    · next summary hblock hsummary =>
      have henabled := enabled_of_shared hblock
      rw [hframe.config] at henabled
      refine ⟨hframe.config, hframe.init, .inl hframe.profile, .inr ⟨profile, report, summary, ?_,
        hsummary, henabled, ?_⟩⟩
      · rw [← hframe.profile, hprofile]
      · rw [hframe.posts]
    · exact .quiet ⟨hframe.runs, hframe.config, hframe.init, hframe.profile, hframe.posts⟩
  · exact .quiet ⟨hframe.runs, hframe.config, hframe.init, hframe.profile, hframe.posts⟩

theorem caseDone_framed (r : Started) (rest : List Case) (c : CaseResult) :
    Framed s (caseDone s r rest c).1 := ⟨rfl, rfl, rfl, rfl, rfl⟩

theorem startMatrix_shares (i : Inputs) : Shares env s run a (startMatrix env s run i) := by
  unfold startMatrix
  simp only
  split
  · exact .quiet ⟨rfl, rfl, rfl, rfl, rfl⟩
  · split
    · exact publishReport_shares ⟨rfl, rfl, rfl, rfl, rfl⟩
    · exact .quiet ⟨rfl, rfl, rfl, rfl, rfl⟩

theorem finishGrease_shares (report : Nat) (control : CaseResult) (enabled : Option CaseResult) :
    Shares env s run a (finishGrease env s run report control enabled) := by
  unfold finishGrease
  split
  · exact .quiet ⟨rfl, rfl, rfl, rfl, rfl⟩
  · exact publishReport_shares ⟨rfl, rfl, rfl, rfl, rfl⟩

theorem endMatrix_shares (r : Started) (threw : Option String) :
    Shares env s run a (endMatrix env s run r threw) := by
  have hframe := closeMatrix_framed s r
  have hunprobed : Shares env s run a (publishReport env ((closeMatrix s r).setReport fun report =>
      { report with greaseDifferential := none }) run) :=
    publishReport_shares ⟨hframe.runs, hframe.config, hframe.init, hframe.profile, hframe.posts⟩
  unfold endMatrix startGrease
  simp only
  split
  · exact publishReport_shares hframe
  · split
    · exact hunprobed
    · split
      · exact hunprobed
      · split <;> exact .quiet hframe

/-- What a step of a call shares, wherever it is. -/
theorem resumeRun_shares (state : Run) : Shares env s run a (resumeRun env s run state a) := by
  have hsame : Framed s s := ⟨rfl, rfl, rfl, rfl, rfl⟩
  unfold resumeRun
  split
  · next i name version => exact ⟨rfl, rfl, .inr ⟨name, version, rfl, rfl⟩, .inl rfl⟩
  · exact .quiet ⟨rfl, rfl, rfl, rfl, rfl⟩
  · split
    · exact startMatrix_shares _
    · exact .quiet hsame
  · exact endMatrix_shares _ _
  · split
    · exact endMatrix_shares _ _
    · split
      · exact .quiet hsame
      · exact .quiet (caseDone_framed _ _ _)
  · split
    · exact .quiet hsame
    · exact .quiet (caseDone_framed _ _ _)
  · exact .quiet hsame
  · split <;> exact .quiet hsame
  · split
    · exact finishGrease_shares _ _ _
    · split
      · exact .quiet hsame
      · exact finishGrease_shares _ _ _
  · split
    · exact .quiet hsame
    · exact finishGrease_shares _ _ _
  · exact .quiet ⟨rfl, rfl, rfl, rfl, rfl⟩
  · exact .quiet hsame

end Steps

/-! ### What a session knows -/

/-- Some answer has told of this browser. -/
def Tells (env : Environment) (events : List Event) (profile : Profile) : Prop :=
  ∃ name version, profile = env.profile name version ∧
    (.init (.profile name version) ∈ events ∨ ∃ run, .resume run (.profile name version) ∈ events)

theorem Tells.snoc {env : Environment} {events : List Event} {profile : Profile}
    (h : Tells env events profile) (e : Event) : Tells env (events ++ [e]) profile := by
  obtain ⟨name, version, rfl, htold⟩ := h
  refine ⟨name, version, rfl, ?_⟩
  rcases htold with hinit | ⟨run, hrun⟩
  · exact .inl (List.mem_append_left _ hinit)
  · exact .inr ⟨run, List.mem_append_left _ hrun⟩

/-- The invariant of a session. -/
structure Knows (env : Environment) (events : List Event) (s : Session) : Prop where
  config : s.runtimeConfig ≠ none → .init (.config s.runtimeConfig) ∈ events
  unconfigured : s.init = .config → s.runtimeConfig = none ∧ s.posts = []
  profile : ∀ profile ∈ s.browserProfile, Tells env events profile
  posts : ∀ p ∈ s.posts, s.runtimeConfig.any RuntimeConfig.resultsEnabled = true ∧
    ∃ profile summary, Tells env events profile ∧ p.report.summary = some summary ∧
      p.payload = publicationPayload profile p.report summary

section Knows

variable {env : Environment} {events : List Event} {s : Session}

theorem Knows.snoc (h : Knows env events s) (e : Event) : Knows env (events ++ [e]) s where
  config hsome := List.mem_append_left _ (h.config hsome)
  unconfigured := h.unconfigured
  profile profile hp := (h.profile profile hp).snoc e
  posts p hp := by
    obtain ⟨henabled, profile, summary, htold, hpayload⟩ := h.posts p hp
    exact ⟨henabled, profile, summary, htold.snoc e, hpayload⟩

theorem Knows.initializePage (h : Knows env events s) (a : Answer) :
    Knows env (events ++ [.init a]) (initializePage env s a) := by
  have hold := h.snoc (.init a)
  unfold Page.initializePage
  split
  · next c hinit =>
    obtain ⟨-, hposts⟩ := h.unconfigured hinit
    refine ⟨fun _ => List.mem_append_right _ (List.mem_singleton_self _), fun hi => (by cases hi),
      hold.profile, fun p hp => ?_⟩
    rw [show s.posts = [] from hposts] at hp
    cases hp
  · next name version _ =>
    refine ⟨hold.config, fun hi => (by cases hi), fun profile hp => ?_, hold.posts⟩
    cases hp
    exact ⟨name, version, rfl, .inl (List.mem_append_right _ (List.mem_singleton_self _))⟩
  · simp only
    split <;> exact ⟨hold.config, fun hi => (by cases hi), hold.profile, hold.posts⟩
  · exact hold

theorem Knows.step (h : Knows env events s) (e : Event) :
    Knows env (events ++ [e]) (step env s e) := by
  have hold := h.snoc e
  cases e with
  | edit form => exact ⟨hold.config, hold.unconfigured, hold.profile, hold.posts⟩
  | init a => exact h.initializePage a
  | click mode =>
    rw [Page.step]
    split
    · exact ⟨hold.config, hold.unconfigured, hold.profile, hold.posts⟩
    · exact hold
  | stop =>
    rw [Page.step]
    split
    · exact ⟨hold.config, hold.unconfigured, hold.profile, hold.posts⟩
    · exact hold
  | resume run a =>
    rw [Page.step]
    split
    · exact hold
    · next state _ =>
      have hx : Shares env s run a (resumeRun env s run state a) := resumeRun_shares state
      have hposts (p : Post) (hp : p ∈ s.posts) := hold.posts p hp
      refine ⟨fun hsome => ?_, fun hi => ?_, fun profile hp => ?_, fun p hp => ?_⟩
      · simp only [hx.config] at hsome ⊢
        exact hold.config hsome
      · obtain ⟨hconfig, hnone⟩ := hold.unconfigured (hx.init.symm.trans hi)
        refine ⟨hx.config.trans hconfig, ?_⟩
        rcases hx.posts with hsame | ⟨_, _, _, -, -, henabled, -⟩
        · exact hsame.trans hnone
        · rw [hconfig] at henabled
          cases henabled
      · rcases hx.profile with hsame | ⟨name, version, rfl, hnew⟩
        · exact hold.profile profile (hsame ▸ hp)
        · simp only [hnew] at hp
          cases hp
          exact ⟨name, version, rfl, .inr ⟨run, List.mem_append_right _ (List.mem_singleton_self _)⟩⟩
      · simp only [hx.config]
        rcases hx.posts with hsame | ⟨profile, report, summary, hprofile, hsummary, henabled, hnew⟩
        · simp only [hsame] at hp
          exact hposts p hp
        · simp only [hnew] at hp
          rcases List.mem_append.mp hp with hp | hp
          · exact hposts p hp
          · rw [List.mem_singleton.mp hp]
            exact ⟨henabled, profile, summary, hold.profile profile hprofile, hsummary, rfl⟩

end Knows

theorem session_knows (env : Environment) (form : Form) (events : List Event) :
    Knows env events (session env form events) := by
  induction events using List.reverseRecOn with
  | nil =>
    refine ⟨fun hsome => absurd rfl hsome, fun _ => ⟨rfl, rfl⟩, fun profile hp => ?_, fun p hp => ?_⟩
    · cases hp
    · cases hp
  | append_singleton events e ih =>
    rw [session_snoc]
    exact ih.step e

end WebTransportEcho.Page
