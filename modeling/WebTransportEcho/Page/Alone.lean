import WebTransportEcho.Page.Publish
import WebTransportEcho.Page.Stop

/-! A run that is left alone: nothing stopped it, and no other call was past its guards while it was.
    It owns the shared variables then, although other calls may be on their way to their guards or
    be over: the last report is its report, and `cancelRequested` stays false (`Run.Owns`). What it
    posts is the report of a run that came to its end, so `published_stored` applies. -/

namespace WebTransportEcho.Page
open Js Store

/-- While the run was past its guards, another call was too. -/
def Overlapped (env : Environment) (form : Form) (events : List Event) (run : Nat) : Prop :=
  ∃ pre post, events = pre ++ post ∧
    (∃ r, (session env form pre).runs[run]? = some r ∧ r.active = true) ∧
    ∃ other r, other ≠ run ∧ (session env form pre).runs[other]? = some r ∧ r.active = true

/-- Nothing stopped the run, and it did not overlap another. -/
def Alone (env : Environment) (form : Form) (events : List Event) (run : Nat) : Prop :=
  ¬ Stopped env form events run ∧ ¬ Overlapped env form events run

/-! ### What a run owns -/

/-- The report of a run with these cases left. -/
structure InProgress (r : Started) (variants : List Variant) (rest : List Case) (report : Report) :
    Prop where
  mode : report.run.mode = r.mode
  planned : r.plannedCases = report.run.paths.length * variants.length
  usesHash : r.usesHash = variants.any Variant.needsHash
  exhaustive : r.mode = .exhaustive →
    ∃ hash, variants = (buildExhaustiveVariants hash).map ExhaustiveVariant.toVariant
  ran : ∃ done, plan report.run.paths variants = done ++ rest ∧ RanAll done report.results
  unprobed : report.greaseDifferential = none

/-- The run is in its matrix, with these cases left. -/
structure Session.Testing (env : Environment) (s : Session) (r : Started) (rest : List Case) :
    Prop where
  api : env.webTransportConstructible = true
  goes : s.cancelRequested = false
  report : ∃ report variants, s.report = some report ∧ InProgress r variants rest report

/-- The last report, when it is one of an exhaustive run, is finished. -/
def Session.Ends (env : Environment) (s : Session) : Prop :=
  ∀ report, s.report = some report → report.run.mode = .exhaustive →
    ∃ hash, Finished env.webTransportConstructible hash report

/-- The run is at its probes, for this report. -/
structure Session.Probing (env : Environment) (s : Session) (n : Nat) : Prop where
  api : env.webTransportConstructible = true
  goes : s.cancelRequested = false
  last : n = s.reports.length - 1
  ends : s.Ends env

/-- What a run that is left alone knows of the session. -/
def Run.Owns (env : Environment) (s : Session) : Run → Prop
  | .next r rest => s.Testing env r rest
  | .testing r rest f => ∃ case, s.Testing env r (case :: rest) ∧ Runs case.1 case.2 (.inl f)
  | .pausing r rest => s.Testing env r rest
  | .control n configured f => s.Probing env n ∧ Runs configured.path greaseProbeVariant (.inl f)
  | .greaseNext n configured c => s.Probing env n ∧ Ran configured.path greaseProbeVariant c
  | .enabled n c f => s.Probing env n ∧
      ∃ path, Ran path greaseProbeVariant c ∧ Runs path greaseProbeVariant (.inl f)
  | _ => True

theorem Run.owns_of_inactive {env : Environment} {s : Session} {r : Run} (h : r.active = false) :
    r.Owns env s := by
  cases r <;> first | exact trivial | cases h

/-- Only the reports and the request to stop are owned. -/
theorem Run.Owns.congr {env : Environment} {s s' : Session} {r : Run} (h : r.Owns env s)
    (hreports : s'.reports = s.reports) (hflag : s'.cancelRequested = s.cancelRequested) :
    r.Owns env s' := by
  have hreport : s'.report = s.report := congrArg List.getLast? hreports
  have htesting {r : Started} {rest : List Case} (h : s.Testing env r rest) : s'.Testing env r rest :=
    ⟨h.api, hflag.trans h.goes, by rw [hreport]; exact h.report⟩
  have hprobing {n : Nat} (h : s.Probing env n) : s'.Probing env n :=
    ⟨h.api, hflag.trans h.goes, by rw [hreports]; exact h.last, by
      unfold Session.Ends
      rw [hreport]
      exact h.ends⟩
  cases r with
  | next r rest => exact htesting h
  | testing r rest f =>
    obtain ⟨case, ht, hf⟩ := h
    exact ⟨case, htesting ht, hf⟩
  | pausing r rest => exact htesting h
  | control n path f => exact ⟨hprobing h.1, h.2⟩
  | greaseNext n path c => exact ⟨hprobing h.1, h.2⟩
  | enabled n c f => exact ⟨hprobing h.1, h.2⟩
  | _ => exact trivial

/-- A post of a finished report that was shared with this configuration. -/
def Post.Finished (env : Environment) (config : Option RuntimeConfig) (p : Post) : Prop :=
  ∃ profile hash summary, profile.webTransportConstructible = env.webTransportConstructible ∧
    Page.Finished profile.webTransportConstructible hash p.report ∧
    Shareable env.origin config profile p.report summary ∧
    p.payload = publicationPayload profile p.report summary

/-! ### What a step of a call does -/

/-- The parts of a session that no step of a call past its profile touches. -/
structure Framed (s s' : Session) : Prop where
  runs : s'.runs = s.runs
  config : s'.runtimeConfig = s.runtimeConfig
  init : s'.init = s.init
  profile : s'.browserProfile = s.browserProfile
  posts : s'.posts = s.posts

/-- What a call that was in `state` has done to the session, and where it is now. -/
structure Moves (env : Environment) (s : Session) (run : Nat) (state : Run) (x : Session × Run) :
    Prop where
  runs : x.1.runs = s.runs
  config : x.1.runtimeConfig = s.runtimeConfig
  init : x.1.init = s.init
  profile : x.1.browserProfile = s.browserProfile ∨
    ∃ name version, x.1.browserProfile = some (env.profile name version)
  active : x.2.active = true → state.active = true ∨
    ∃ p, s.browserProfile = some p ∧ p.webTransportConstructible = true
  quiet : state.active = false →
    (x.1.reports = s.reports ∧ x.1.cancelRequested = s.cancelRequested) ∨
    ∀ p, s.browserProfile = some p → p.webTransportConstructible = true → x.2.active = true
  owns : state.Owns env s → x.2.Owns env x.1
  posts : x.1.posts = s.posts ∨ ∃ p, x.1.posts = s.posts ++ [p] ∧ p.run = run ∧
    s.runtimeConfig ≠ none ∧ (state.Owns env s → p.Finished env s.runtimeConfig)

theorem config_of_shared {origin : String → Option String} {sharing : Bool}
    {config : Option RuntimeConfig} {profile : Profile} {report : Option Report}
    (h : publicationBlockReason origin sharing config profile report = none) : config ≠ none := by
  rintro rfl
  unfold publicationBlockReason at h
  split_ifs at h with h₁ h₂
  · exact h₂ rfl

section Steps

variable {env : Environment} {s s' : Session} {run : Nat} {state state' : Run}

/-- A call that was past its guards goes on or ends, with no post. -/
theorem Moves.goesOn (hframe : Framed s s') (hstate : state.active = true)
    (howns : state.Owns env s → state'.Owns env s') : Moves env s run state (s', state') where
  runs := hframe.runs
  config := hframe.config
  init := hframe.init
  profile := .inl hframe.profile
  active _ := .inl hstate
  quiet h := by rw [hstate] at h; cases h
  owns := howns
  posts := .inl hframe.posts

/-- The step ends with `publishReport`. -/
theorem publishReport_moves (hframe : Framed s s')
    (hprofile : ∀ p, s.browserProfile = some p →
      p.webTransportConstructible = env.webTransportConstructible)
    (hstate : state.active = true ∨
      ∀ p, s.browserProfile = some p → p.webTransportConstructible = false)
    (hends : state.Owns env s → s'.Ends env) :
    Moves env s run state (publishReport env s' run) := by
  have hquiet {x : Session × Run} (h : state.active = false) :
      (x.1.reports = s.reports ∧ x.1.cancelRequested = s.cancelRequested) ∨
      ∀ p, s.browserProfile = some p → p.webTransportConstructible = true → x.2.active = true := by
    rcases hstate with hactive | hidle
    · rw [h] at hactive
      cases hactive
    · refine .inr fun p hp hc => ?_
      rw [hidle p hp] at hc
      cases hc
  have hover : Moves env s run state (s'.setRunControls false, .ended) :=
    { runs := hframe.runs
      config := hframe.config
      init := hframe.init
      profile := .inl hframe.profile
      active := fun h => by cases h
      quiet := hquiet
      owns := fun _ => trivial
      posts := .inl hframe.posts }
  unfold publishReport
  split
  · next profile report hp hreport =>
    split
    · next summary hblock hsummary =>
      have hconfig := config_of_shared hblock
      rw [hframe.config] at hconfig hblock
      refine {
        runs := hframe.runs
        config := hframe.config
        init := hframe.init
        profile := .inl hframe.profile
        active := fun h => by cases h
        quiet := hquiet
        owns := fun _ => trivial
        posts := .inr ⟨_, by rw [hframe.posts], rfl, hconfig, fun howns => ?_⟩ }
      obtain ⟨summary', hshareable⟩ := publicationBlockReason_eq_none hblock
      have heq : summary' = summary :=
        Option.some.inj (hshareable.summarized.symm.trans hsummary)
      rw [heq] at hshareable
      have hconstructible := hprofile profile (hframe.profile.symm.trans hp)
      obtain ⟨hash, hfinished⟩ := hends howns report hreport hshareable.mode
      rw [← hconstructible] at hfinished
      exact ⟨profile, hash, summary, hconstructible, hfinished, hshareable, rfl⟩
    · exact hover
  · exact hover

theorem closeMatrix_framed (s : Session) (r : Started) : Framed s (closeMatrix s r) := by
  unfold closeMatrix
  simp only
  split <;> exact ⟨rfl, rfl, rfl, rfl, rfl⟩

/-- What the end of the loop makes of an exhaustive run's report. -/
theorem closeMatrix_report {r : Started} {report : Report} (hreport : s.report = some report)
    (hmode : r.mode = .exhaustive) (hgoes : s.cancelRequested = false) :
    (closeMatrix s r).report = some { report with
      cancelled := false
      summary := some (summarizeResults report.results r.plannedCases)
      pathAnalysis := analyzePaths report.results (axes r.usesHash) } := by
  unfold closeMatrix
  simp only
  rw [if_pos ⟨hmode, hgoes⟩, Session.summarize, report_setReport, report_setReport, report_setReport,
    hreport, hgoes]
  rfl

theorem closeMatrix_mode (s : Session) (r : Started) :
    ∀ closed ∈ (closeMatrix s r).report, ∃ report ∈ s.report, closed.run.mode = report.run.mode := by
  intro closed hclosed
  unfold closeMatrix at hclosed
  simp only at hclosed
  split at hclosed
  · simp only [Session.summarize, report_setReport, Option.map_map] at hclosed
    obtain ⟨report, hreport, rfl⟩ := Option.map_eq_some_iff.mp hclosed
    exact ⟨report, hreport, rfl⟩
  · simp only [Session.summarize, report_setReport, Option.map_map] at hclosed
    obtain ⟨report, hreport, rfl⟩ := Option.map_eq_some_iff.mp hclosed
    exact ⟨report, hreport, rfl⟩

set_option maxRecDepth 100000 in
theorem variants_needHash (hash : Bool) : ((buildExhaustiveVariants hash).map
    ExhaustiveVariant.toVariant).any Variant.needsHash = hash := by
  revert hash
  decide +kernel

/-- The matrix is over: the report is finished, but for the differential. -/
theorem closeMatrix_ends {r : Started} (h : s.Testing env r []) : (closeMatrix s r).Ends env := by
  obtain ⟨report, variants, hreport, hprogress⟩ := h.report
  intro closed hclosed hmode
  obtain ⟨report', hreport', hsame⟩ := closeMatrix_mode s r closed hclosed
  rw [hreport] at hreport'
  cases hreport'
  have hexhaustive : r.mode = .exhaustive := by rw [← hprogress.mode, ← hsame, hmode]
  obtain ⟨hash, rfl⟩ := hprogress.exhaustive hexhaustive
  rw [closeMatrix_report hreport hexhaustive h.goes] at hclosed
  cases hclosed
  obtain ⟨done, hplan, hran⟩ := hprogress.ran
  rw [List.append_nil] at hplan
  refine ⟨hash, ?_⟩
  exact {
    results := by rw [h.api, triedVariants, if_pos rfl, hplan]; exact hran
    summary := by rw [hprogress.planned, List.length_map]
    analysis := by rw [hprogress.usesHash, variants_needHash]
    complete := fun _ d hd => by rw [hprogress.unprobed] at hd; cases hd
    absent := fun hw => by rw [h.api] at hw; cases hw }

/-- The differential of a finished report may be entered, or left out. -/
theorem ends_setReport (h : s.Ends env) (d : Option Differential)
    (hapi : env.webTransportConstructible = true) (hd : ∀ d' ∈ d, d'.Complete) :
    (s.setReport fun report => { report with greaseDifferential := d }).Ends env := by
  intro closed hclosed hmode
  rw [report_setReport] at hclosed
  obtain ⟨report, hreport, rfl⟩ := Option.map_eq_some_iff.mp hclosed
  obtain ⟨hash, hfinished⟩ := h report hreport hmode
  exact ⟨hash, {
    results := hfinished.results
    summary := hfinished.summary
    analysis := hfinished.analysis
    complete := fun _ => hd
    absent := fun hw => by rw [hapi] at hw; cases hw }⟩

theorem caseDone_moves (hstate : state.active = true) (r : Started) (rest : List Case)
    (c : CaseResult) (howns : state.Owns env s → ∃ case, s.Testing env r (case :: rest) ∧
      Ran case.1 case.2 c) : Moves env s run state (caseDone s r rest c) := by
  have htesting (h : state.Owns env s) : ((s.setReport fun report =>
      { report with results := report.results ++ [c] }).summarize r.plannedCases).Testing env r rest := by
    obtain ⟨case, ht, hran⟩ := howns h
    obtain ⟨report, variants, hreport, hprogress⟩ := ht.report
    obtain ⟨done, hplan, hdone⟩ := hprogress.ran
    refine ⟨ht.api, ht.goes, _, variants, by rw [Session.summarize, report_setReport, report_setReport,
      hreport, Option.map_some, Option.map_some], ?_⟩
    exact {
      mode := hprogress.mode
      planned := hprogress.planned
      usesHash := hprogress.usesHash
      exhaustive := hprogress.exhaustive
      ran := ⟨done ++ [case], by rw [List.append_assoc]; exact hplan,
        List.rel_append hdone (.cons hran .nil)⟩
      unprobed := hprogress.unprobed }
  unfold caseDone
  split
  · exact .goesOn ⟨rfl, rfl, rfl, rfl, rfl⟩ hstate htesting
  · exact .goesOn ⟨rfl, rfl, rfl, rfl, rfl⟩ hstate htesting

/-- An exhaustive run has sixteen or thirty-two variants, whatever else the certificate says. -/
theorem variants_exhaustive (s : Session) : ∃ hash, s.variants .exhaustive =
    (buildExhaustiveVariants hash).map ExhaustiveVariant.toVariant := by
  refine ⟨s.hashUsable = some true, ?_⟩
  unfold Session.variants
  simp only
  split
  · next h =>
    have hany := variants_needHash (decide (s.hashUsable = some true))
    rw [h] at hany ⊢
    refine List.filter_eq_self.mpr fun v hv => ?_
    have hv' := List.any_eq_false.mp hany v hv
    simpa using hv'
  · rfl

section

variable (hprofile : ∀ p, s.browserProfile = some p →
  p.webTransportConstructible = env.webTransportConstructible)

include hprofile

theorem endMatrix_moves (hstate : state.active = true) (r : Started) (threw : Option String)
    (howns : state.Owns env s → s.Testing env r []) :
    Moves env s run state (endMatrix env s run r threw) := by
  have hframe := closeMatrix_framed s r
  have hends (h : state.Owns env s) : (closeMatrix s r).Ends env := closeMatrix_ends (howns h)
  have hflag : (closeMatrix s r).cancelRequested = s.cancelRequested := (closeMatrix_frame s r).2.2
  have hunprobed : Moves env s run state (publishReport env ((closeMatrix s r).setReport fun report =>
      { report with greaseDifferential := none }) run) :=
    publishReport_moves ⟨hframe.runs, hframe.config, hframe.init, hframe.profile, hframe.posts⟩ hprofile
      (.inl hstate) fun h => ends_setReport (hends h) none (howns h).api fun d hd => by cases hd
  have hprobing (h : state.Owns env s) :
      (closeMatrix s r).Probing env ((closeMatrix s r).reports.length - 1) :=
    ⟨(howns h).api, hflag.trans (howns h).goes, rfl, hends h⟩
  unfold endMatrix startGrease
  simp only
  split
  · exact publishReport_moves hframe hprofile (.inl hstate) hends
  · split
    · exact hunprobed
    · split
      · exact hunprobed
      · next configured _ =>
        have hstart : Runs configured.path greaseProbeVariant
            (startOne configured.controlBase configured.path greaseProbeVariant threw) :=
          .start _ threw
        split
        · next f hf =>
          rw [hf] at hstart
          exact .goesOn hframe hstate fun h => ⟨hprobing h, hstart⟩
        · next c hc =>
          rw [hc] at hstart
          exact .goesOn hframe hstate fun h => ⟨hprobing h, hstart⟩

theorem finishGrease_moves (hstate : state.active = true) (n : Nat) (control : CaseResult)
    (enabled : Option CaseResult) (howns : state.Owns env s → s.Probing env n ∧
      ∃ path e, enabled = some e ∧ Ran path greaseProbeVariant control ∧ Ran path greaseProbeVariant e) :
    Moves env s run state (finishGrease env s run n control enabled) := by
  unfold finishGrease
  split
  · exact .goesOn ⟨rfl, rfl, rfl, rfl, rfl⟩ hstate fun _ => trivial
  · next profile _ =>
    refine publishReport_moves ⟨rfl, rfl, rfl, rfl, rfl⟩ hprofile (.inl hstate) fun h => ?_
    obtain ⟨hprobing, path, e, rfl, hc, he⟩ := howns h
    rw [hprobing.last]
    refine ends_setReport hprobing.ends (some (differential profile (some control) (some e)))
      hprobing.api fun d hd => ?_
    cases hd
    exact ⟨path, control, e, rfl, rfl, hc, he⟩

theorem startMatrix_moves (i : Inputs) : Moves env s run (.guards i) (startMatrix env s run i) := by
  have hnew (variants : List Variant) (plannedCases : Nat) : Session.report { s with
      reports := s.reports ++ [newReport i variants plannedCases]
      cancelRequested := false
      running := true } = some (newReport i variants plannedCases) := by simp [Session.report]
  have hexhaustive (h : i.mode = .exhaustive) : ∃ hash, s.variants i.mode =
      (buildExhaustiveVariants hash).map ExhaustiveVariant.toVariant := by
    rw [h]
    exact variants_exhaustive s
  unfold startMatrix
  simp only
  split
  · next hnone => exact {
      runs := rfl
      config := rfl
      init := rfl
      profile := .inl rfl
      active := fun h => by cases h
      quiet := fun _ => .inr fun p hp => by rw [hnone] at hp; cases hp
      owns := fun _ => trivial
      posts := .inl rfl }
  · next profile hsome =>
    split
    · next hunavailable =>
      rw [Bool.not_eq_true'] at hunavailable
      refine publishReport_moves ⟨rfl, rfl, rfl, rfl, rfl⟩ hprofile (.inr fun p hp => ?_)
        fun _ closed hclosed hmode => ?_
      · rw [hsome] at hp
        cases hp
        exact hunavailable
      · rw [report_setReport, Session.summarize, report_setReport, hnew] at hclosed
        cases hclosed
        obtain ⟨hash, hvariants⟩ := hexhaustive hmode
        rw [← hprofile profile hsome, hunavailable]
        refine ⟨hash, {
          results := ?_
          summary := by rw [hvariants, List.length_map]; rfl
          analysis := rfl
          complete := fun hw => by cases hw
          absent := fun _ d hd => ?_ }⟩
        · have hplan : plan i.paths [] = [] := by simp [plan]
          show RanAll (plan i.paths []) []
          rw [hplan]
          exact .nil
        · simp only [unavailableDifferential] at hd
          split at hd
          · obtain ⟨_, -, rfl⟩ := Option.map_eq_some_iff.mp hd
            exact ⟨rfl, rfl⟩
          · cases hd
    · next havailable =>
      have hapi : profile.webTransportConstructible = true := by simpa using havailable
      exact {
        runs := rfl
        config := rfl
        init := rfl
        profile := .inl rfl
        active := fun _ => .inr ⟨profile, hsome, hapi⟩
        quiet := fun _ => .inr fun _ _ _ => rfl
        owns := fun _ => ⟨(hprofile profile hsome).symm.trans hapi, rfl, _, _, hnew _ _, {
          mode := rfl
          planned := rfl
          usesHash := rfl
          exhaustive := hexhaustive
          ran := ⟨[], rfl, .nil⟩
          unprobed := rfl }⟩
        posts := .inl rfl }

/-- What a step of a call does, wherever it is. -/
theorem resumeRun_moves (state : Run) (a : Answer) :
    Moves env s run state (resumeRun env s run state a) := by
  have hidle {s' : Session} {state' : Run} (hruns : s'.runs = s.runs)
      (hconfig : s'.runtimeConfig = s.runtimeConfig) (hinit : s'.init = s.init)
      (hp : s'.browserProfile = s.browserProfile ∨
        ∃ name version, s'.browserProfile = some (env.profile name version))
      (hreports : s'.reports = s.reports) (hflag : s'.cancelRequested = s.cancelRequested)
      (hposts : s'.posts = s.posts) (hactive : state'.active = false) :
      Moves env s run state (s', state') :=
    { runs := hruns
      config := hconfig
      init := hinit
      profile := hp
      active := fun h => by rw [hactive] at h; cases h
      quiet := fun _ => .inl ⟨hreports, hflag⟩
      owns := fun _ => Run.owns_of_inactive hactive
      posts := .inl hposts }
  have hstay : Moves env s run state (s, state) :=
    { runs := rfl
      config := rfl
      init := rfl
      profile := .inl rfl
      active := .inl
      quiet := fun _ => .inl ⟨rfl, rfl⟩
      owns := id
      posts := .inl rfl }
  unfold resumeRun
  split
  · next i name version =>
    refine hidle rfl rfl rfl (.inr ⟨name, version, rfl⟩) rfl rfl rfl ?_
    unfold Session.runMatrix
    split_ifs <;> rfl
  · exact hidle rfl rfl rfl (.inl rfl) rfl rfl rfl rfl
  · next i =>
    split
    · exact startMatrix_moves hprofile i
    · exact hidle rfl rfl rfl (.inl rfl) rfl rfl rfl rfl
  · next r threw => exact endMatrix_moves hprofile rfl r threw fun h => h
  · next r case rest threw =>
    split
    · next hstopped =>
      refine endMatrix_moves hprofile rfl r threw fun h => ?_
      rw [h.goes] at hstopped
      cases hstopped
    · have hstart : Runs case.1 case.2 (startOne r.base case.1 case.2 threw) := .start _ threw
      split
      · next f hf =>
        rw [hf] at hstart
        exact .goesOn ⟨rfl, rfl, rfl, rfl, rfl⟩ rfl fun h => ⟨case, h, hstart⟩
      · next c hc =>
        rw [hc] at hstart
        exact caseDone_moves rfl r rest c fun h => ⟨case, h, hstart⟩
  · next r rest f a =>
    have hnext (h : Run.Owns env s (.testing r rest f)) : ∃ case, s.Testing env r (case :: rest) ∧
        Runs case.1 case.2 (resumeOne s.cancelRequested f a) := by
      obtain ⟨case, ht, hf⟩ := h
      rw [ht.goes]
      exact ⟨case, ht, hf.resume a⟩
    split
    · next f' hf =>
      rw [hf] at hnext
      exact .goesOn ⟨rfl, rfl, rfl, rfl, rfl⟩ rfl hnext
    · next c hc =>
      rw [hc] at hnext
      exact caseDone_moves rfl r rest c hnext
  · exact .goesOn ⟨rfl, rfl, rfl, rfl, rfl⟩ rfl fun h => h
  · next n configured f a =>
    have hnext (h : Run.Owns env s (.control n configured f)) : s.Probing env n ∧
        Runs configured.path greaseProbeVariant (resumeOne s.cancelRequested f a) := by
      obtain ⟨hp, hf⟩ := h
      rw [hp.goes]
      exact ⟨hp, hf.resume a⟩
    split
    · next f' hf =>
      rw [hf] at hnext
      exact .goesOn ⟨rfl, rfl, rfl, rfl, rfl⟩ rfl hnext
    · next c hc =>
      rw [hc] at hnext
      exact .goesOn ⟨rfl, rfl, rfl, rfl, rfl⟩ rfl hnext
  · next n configured control threw =>
    split
    · next hstopped =>
      refine finishGrease_moves hprofile rfl n control none fun h => ?_
      rw [h.1.goes] at hstopped
      cases hstopped
    · have hstart : Runs configured.path greaseProbeVariant
          (startOne configured.enabledBase configured.path greaseProbeVariant threw) :=
        .start _ threw
      split
      · next f hf =>
        rw [hf] at hstart
        exact .goesOn ⟨rfl, rfl, rfl, rfl, rfl⟩ rfl fun h => ⟨h.1, configured.path, h.2, hstart⟩
      · next e he =>
        rw [he] at hstart
        exact finishGrease_moves hprofile rfl n control (some e) fun h =>
          ⟨h.1, configured.path, e, rfl, h.2, hstart⟩
  · next n control f a =>
    have hnext (h : Run.Owns env s (.enabled n control f)) : s.Probing env n ∧
        ∃ path, Ran path greaseProbeVariant control ∧
          Runs path greaseProbeVariant (resumeOne s.cancelRequested f a) := by
      obtain ⟨hp, path, hc, hf⟩ := h
      rw [hp.goes]
      exact ⟨hp, path, hc, hf.resume a⟩
    split
    · next f' hf =>
      rw [hf] at hnext
      exact .goesOn ⟨rfl, rfl, rfl, rfl, rfl⟩ rfl hnext
    · next e he =>
      rw [he] at hnext
      refine finishGrease_moves hprofile rfl n control (some e) fun h => ?_
      obtain ⟨hp, path, hc, hran⟩ := hnext h
      exact ⟨hp, path, e, rfl, hc, hran⟩
  · exact hidle rfl rfl rfl (.inl rfl) rfl rfl rfl rfl
  · exact hstay

end

end Steps

/-! ### Sessions -/

/-- No other call is past its guards while the run is. -/
def Session.Solo (s : Session) (run : Nat) : Prop :=
  ∀ r, s.runs[run]? = some r → r.active = true →
    ∀ other r', other ≠ run → s.runs[other]? = some r' → r'.active = false

theorem Alone.solo {env : Environment} {form : Form} {events : List Event} {run : Nat}
    (h : Alone env form events run) : (session env form events).Solo run := by
  intro r hr hactive other r' hne hr'
  by_contra hboth
  rw [Bool.not_eq_false] at hboth
  exact h.2 ⟨events, [], (List.append_nil _).symm, ⟨r, hr, hactive⟩, other, r', hne, hr', hboth⟩

theorem Alone.of_snoc {env : Environment} {form : Form} {events : List Event} {e : Event} {run : Nat}
    (h : Alone env form (events ++ [e]) run) : Alone env form events run := by
  refine ⟨fun hstopped => h.1 (stopped_snoc.mpr (.inl hstopped)), fun hover => h.2 ?_⟩
  obtain ⟨pre, post, rfl, hboth⟩ := hover
  exact ⟨pre, post ++ [e], by rw [List.append_assoc], hboth⟩

/-- The invariant of a session, where `alone` are the runs that were left alone so far. -/
structure Kept (env : Environment) (alone : Nat → Prop) (s : Session) : Prop where
  profile : ∀ p, s.browserProfile = some p →
    p.webTransportConstructible = env.webTransportConstructible
  active : ∀ r ∈ s.runs, r.active = true →
    ∃ p, s.browserProfile = some p ∧ p.webTransportConstructible = true
  unconfigured : s.init = .config → s.runtimeConfig = none ∧ s.posts = []
  owns : ∀ n r, s.runs[n]? = some r → alone n → r.Owns env s
  posts : ∀ p ∈ s.posts, alone p.run → p.Finished env s.runtimeConfig

theorem Kept.weaken {env : Environment} {alone alone' : Nat → Prop} {s : Session}
    (h : Kept env alone s) (himp : ∀ n, alone' n → alone n) : Kept env alone' s :=
  { h with
    owns := fun n r hr hn => h.owns n r hr (himp n hn)
    posts := fun p hp hn => h.posts p hp (himp _ hn) }

theorem Kept.call {env : Environment} {alone : Nat → Prop} {s : Session} (h : Kept env alone s)
    (mode : Mode) : Kept env alone (s.call mode) := by
  have hnew : (s.runMatrix (s.inputs mode)).active = false := by
    unfold Session.runMatrix
    split_ifs <;> rfl
  refine ⟨h.profile, fun r hr hactive => ?_, h.unconfigured, fun n r hr hn => ?_, h.posts⟩
  · rcases List.mem_append.mp hr with hr | hr
    · exact h.active r hr hactive
    · rw [List.mem_singleton.mp hr, hnew] at hactive
      cases hactive
  · rw [Session.call, List.getElem?_append] at hr
    split at hr
    · exact (h.owns n r hr hn).congr rfl rfl
    · refine Run.owns_of_inactive ?_
      rw [← List.mem_singleton.mp (List.mem_of_getElem? hr)] at hnew
      exact hnew

theorem Kept.initializePage {env : Environment} {alone : Nat → Prop} {s : Session}
    (h : Kept env alone s) (a : Answer) : Kept env alone (initializePage env s a) := by
  unfold Page.initializePage
  split
  · next c hinit =>
    obtain ⟨-, hposts⟩ := h.unconfigured hinit
    refine ⟨h.profile, h.active, fun hi => (by cases hi), fun n r hr hn => (h.owns n r hr hn).congr rfl rfl,
      fun p hp => ?_⟩
    rw [show s.posts = [] from hposts] at hp
    cases hp
  · next name version _ =>
    refine ⟨fun p hp => by cases hp; rfl, fun r hr hactive => ?_, fun hi => (by cases hi),
      fun n r hr hn => (h.owns n r hr hn).congr rfl rfl, h.posts⟩
    obtain ⟨p, hp, hc⟩ := h.active r hr hactive
    exact ⟨_, rfl, (h.profile p hp).symm.trans hc⟩
  · next c _ =>
    have hloaded : Kept env alone { s with certHash := Option.or c s.certHash, init := .done } :=
      ⟨h.profile, h.active, fun hi => (by cases hi), fun n r hr hn => (h.owns n r hr hn).congr rfl rfl,
        h.posts⟩
    simp only
    split
    · exact hloaded.call _
    · exact hloaded
  · exact h

/-- A step of a call keeps the invariant, for the runs that are left alone by it. -/
theorem Kept.resume {env : Environment} {alone alone' : Nat → Prop} {s : Session}
    (h : Kept env alone s) {run : Nat} {state : Run} (hstate : s.runs[run]? = some state)
    {x : Session × Run} (hx : Moves env s run state x) (himp : ∀ n, alone' n → alone n)
    (hsolo : ∀ n, alone n → s.Solo n)
    (hsolo' : ∀ n, alone' n → Session.Solo { x.1 with runs := x.1.runs.set run x.2 } n) :
    Kept env alone' { x.1 with runs := x.1.runs.set run x.2 } := by
  obtain ⟨hlt, -⟩ := List.getElem?_eq_some_iff.mp hstate
  have hself : (x.1.runs.set run x.2)[run]? = some x.2 := by
    rw [hx.runs, List.getElem?_set_self hlt]
  have hprofile : ∀ p, x.1.browserProfile = some p →
      p.webTransportConstructible = env.webTransportConstructible := fun p hp => by
    rcases hx.profile with hsame | ⟨name, version, hnew⟩
    · exact h.profile p (hsame ▸ hp)
    · rw [hnew] at hp
      cases hp
      rfl
  have hdetected (hdet : ∃ p, s.browserProfile = some p ∧ p.webTransportConstructible = true) :
      ∃ p, x.1.browserProfile = some p ∧ p.webTransportConstructible = true := by
    obtain ⟨p, hp, hc⟩ := hdet
    rcases hx.profile with hsame | ⟨name, version, hnew⟩
    · exact ⟨p, hsame.trans hp, hc⟩
    · exact ⟨_, hnew, (h.profile p hp).symm.trans hc⟩
  refine ⟨hprofile, fun r hr hactive => ?_, fun hinit => ?_, fun n r hr hn => ?_, fun p hp hn => ?_⟩
  · simp only [hx.runs] at hr
    rcases List.mem_or_eq_of_mem_set hr with hr | rfl
    · exact hdetected (h.active r hr hactive)
    · rcases hx.active hactive with hwas | hdet
      · exact hdetected (h.active state (List.mem_of_getElem? hstate) hwas)
      · exact hdetected hdet
  · obtain ⟨hconfig, hposts⟩ := h.unconfigured (hx.init.symm.trans hinit)
    refine ⟨hx.config.trans hconfig, ?_⟩
    rcases hx.posts with hsame | ⟨_, -, -, hsome, -⟩
    · exact hsame.trans hposts
    · exact absurd hconfig hsome
  · by_cases hrun : n = run
    · subst hrun
      rw [show (x.1.runs.set n x.2)[n]? = some r from hr] at hself
      cases hself
      exact (hx.owns (h.owns n state hstate (himp n hn))).congr rfl rfl
    · -- another call: it has no part in the shared variables, or it would overlap the run
      have hold : s.runs[n]? = some r := by
        rwa [hx.runs, List.getElem?_set_ne (Ne.symm hrun)] at hr
      by_cases hactive : r.active = true
      · have hidle := hsolo n (himp n hn) r hold hactive run state (Ne.symm hrun) hstate
        obtain ⟨p, hp, hc⟩ := h.active r (List.mem_of_getElem? hold) hactive
        rcases hx.quiet hidle with ⟨hreports, hflag⟩ | hpasses
        · exact (h.owns n r hold (himp n hn)).congr hreports hflag
        · have hboth := hsolo' n hn r hr hactive run x.2 (Ne.symm hrun) hself
          rw [hpasses p hp hc] at hboth
          cases hboth
      · exact Run.owns_of_inactive (by simpa using hactive)
  · show p.Finished env x.1.runtimeConfig
    rw [hx.config]
    rcases hx.posts with hsame | ⟨q, hposts, rfl, -, hfinished⟩
    · exact h.posts p (hsame ▸ hp) (himp _ hn)
    · rw [show x.1.posts = _ from hposts] at hp
      rcases List.mem_append.mp hp with hp | hp
      · exact h.posts p hp (himp _ hn)
      · rw [List.mem_singleton.mp hp] at hn ⊢
        exact hfinished (h.owns _ state hstate (himp _ hn))

theorem kept_step {env : Environment} {form : Form} {events : List Event} {e : Event}
    (h : Kept env (Alone env form events) (session env form events)) :
    Kept env (Alone env form (events ++ [e])) (session env form (events ++ [e])) := by
  have himp (n : Nat) (hn : Alone env form (events ++ [e]) n) : Alone env form events n := hn.of_snoc
  have hw := h.weaken himp
  have hsolo' (n : Nat) (hn : Alone env form (events ++ [e]) n) :
      (session env form (events ++ [e])).Solo n := hn.solo
  rw [session_snoc] at hsolo' ⊢
  cases e with
  | edit form' =>
    exact ⟨hw.profile, hw.active, hw.unconfigured, fun n r hr hn => (hw.owns n r hr hn).congr rfl rfl,
      hw.posts⟩
  | init a => exact hw.initializePage a
  | click mode =>
    rw [step]
    split
    · exact hw.call mode
    · exact hw
  | stop =>
    rw [step]
    split
    · next hcan =>
      refine ⟨hw.profile, hw.active, hw.unconfigured, fun n r hr hn => Run.owns_of_inactive ?_, hw.posts⟩
      by_contra hactive
      exact hn.1 (stopped_snoc.mpr (.inr ⟨rfl, hcan, r, hr, by simpa using hactive⟩))
    · exact hw
  | resume run a =>
    rw [step] at hsolo' ⊢
    cases hstate : (session env form events).runs[run]? with
    | none => exact hw
    | some state =>
      rw [hstate] at hsolo'
      exact h.resume hstate (resumeRun_moves h.profile state a) himp (fun n hn => hn.solo) hsolo'

theorem kept_session (env : Environment) (form : Form) (events : List Event) :
    Kept env (Alone env form events) (session env form events) := by
  induction events using List.reverseRecOn with
  | nil =>
    refine ⟨fun p hp => ?_, fun r hr => ?_, fun _ => ⟨rfl, rfl⟩, fun n r hr => ?_, fun p hp => ?_⟩
    · cases hp
    · cases hr
    · cases hr
    · cases hp
  | append_singleton events e ih => exact kept_step ih

/-- What a run posts that was left alone is accepted, as a page that is configured as this one asks
    for, and stored as what the page has found. -/
theorem alone_stored (env : Environment) (form : Form) (events : List Event) (p : Post)
    (hp : p ∈ (session env form events).posts) (hstopped : ¬ Stopped env form events p.run)
    (hoverlapped : ¬ Overlapped env form events p.run) (receivedAt : String) :
    ∃ profile hash summary input s,
      profile.webTransportConstructible = env.webTransportConstructible ∧
      p.report.summary = some summary ∧
      p.payload = publicationPayload profile p.report summary ∧
      parse (stringify 0 p.payload) = .ok input ∧
      sanitizeSubmission input receivedAt
        (greaseConfigured (session env form events).runtimeConfig) = .ok s ∧
      Stores profile (triedVariants env.webTransportConstructible hash) p.report summary s := by
  obtain ⟨profile, hash, summary, hconstructible, hfinished, hshareable, hpayload⟩ :=
    (kept_session env form events).posts p hp ⟨hstopped, hoverlapped⟩
  obtain ⟨input, s, hparse, haccepted, hstores⟩ := published_stored hfinished hshareable receivedAt
  rw [← hpayload] at hparse
  rw [hconstructible] at hstores
  exact ⟨profile, hash, summary, input, s, hconstructible, hshareable.summarized, hpayload, hparse,
    haccepted, hstores⟩

/-! ### A run that is left alone -/

/-- No call is ever forgotten. -/
theorem runs_length_le (env : Environment) (form : Form) (pre post : List Event) :
    (session env form pre).runs.length ≤ (session env form (pre ++ post)).runs.length := by
  induction post using List.reverseRecOn with
  | nil => rw [List.append_nil]
  | append_singleton post e ih =>
    have hkept := kept_session env form (pre ++ post)
    rw [← List.append_assoc, session_snoc]
    refine ih.trans ?_
    cases e with
    | init a =>
      show _ ≤ (initializePage env (session env form (pre ++ post)) a).runs.length
      unfold initializePage
      split
      · exact le_rfl
      · exact le_rfl
      · simp only
        split
        · simp [Session.call]
        · exact le_rfl
      · exact le_rfl
    | click mode =>
      rw [step]
      split
      · simp [Session.call]
      · exact le_rfl
    | stop =>
      rw [step]
      split <;> exact le_rfl
    | resume run a =>
      rw [step]
      split
      · exact le_rfl
      · next state _ =>
        have hruns : (resumeRun env _ run state a).1.runs = _ :=
          (resumeRun_moves hkept.profile state a).runs
        simp only [List.length_set, hruns, le_refl]
    | edit form' => exact le_rfl

theorem not_overlapped_of_single {env : Environment} {form : Form} {events : List Event} {run : Nat}
    (h : (session env form events).runs.length ≤ 1) : ¬ Overlapped env form events run := by
  rintro ⟨pre, post, rfl, ⟨r, hr, -⟩, other, r', hne, hr', -⟩
  have hle := runs_length_le env form pre post
  obtain ⟨hlt, -⟩ := List.getElem?_eq_some_iff.mp hr
  obtain ⟨hlt', -⟩ := List.getElem?_eq_some_iff.mp hr'
  omega

def Event.isStop : Event → Bool
  | .stop => true
  | _ => false

theorem not_stopped_of_all {env : Environment} {form : Form} {events : List Event} {run : Nat}
    (h : events.all (fun e => !e.isStop) = true) : ¬ Stopped env form events run := by
  rintro ⟨pre, post, rfl, -⟩
  simp [Event.isStop] at h

/-- All cases and both probes pass. -/
def undisturbed : List Event := controlClosing ++ .resume 0 (.probe .closed) :: closedCase

set_option maxRecDepth 100000 in
theorem undisturbed_single : (session browser pageForm undisturbed).runs.length ≤ 1 ∧
    (session browser pageForm undisturbed).posts.isEmpty = false := by decide +kernel

theorem undisturbed_stored : ∃ p ∈ (session browser pageForm undisturbed).posts,
    ∃ profile hash summary input s,
      profile.webTransportConstructible = true ∧
      p.report.summary = some summary ∧
      p.payload = publicationPayload profile p.report summary ∧
      parse (stringify 0 p.payload) = .ok input ∧
      sanitizeSubmission input "2026-07-16T12:00:00.000Z"
        (greaseConfigured (session browser pageForm undisturbed).runtimeConfig) = .ok s ∧
      Stores profile (triedVariants true hash) p.report summary s := by
  obtain ⟨hsingle, hposts⟩ := undisturbed_single
  obtain ⟨p, hp⟩ := List.isEmpty_eq_false_iff_exists_mem.mp hposts
  exact ⟨p, hp, alone_stored browser pageForm undisturbed p hp (not_stopped_of_all (by decide +kernel))
    (not_overlapped_of_single hsingle) "2026-07-16T12:00:00.000Z"⟩

end WebTransportEcho.Page
