import WebTransportEcho.Page.Alone
import WebTransportEcho.Page.Ledger

/-! Calls of `runMatrix` one at a time. The buttons are disabled only behind a call's guards, and
    `autorun` does not ask them: two calls can both get past their guards. Where each call is made
    with the buttons enabled and no earlier one on the way to its guards, at most one is ever under
    way, and what a browser with the API posts has the results of the run's plan, in its order and
    from that run alone. -/

namespace WebTransportEcho.Page
open Js Store

/-! ### One call at a time -/

def Run.isEnded : Run → Bool
  | .ended => true
  | _ => false

/-- The call has not come to its guards. -/
def Run.waits : Run → Bool
  | .detecting _ => true
  | .loadingCert _ => true
  | .guards _ => true
  | _ => false

/-- The call is past its guards and not over. -/
def Run.holds (r : Run) : Bool := !r.waits && !r.isEnded

/-- The buttons are enabled, and no call is on the way to its guards. -/
def Session.free (s : Session) : Bool := !s.running && s.runs.all fun r => !r.waits

/-- From a session on, each call is made with the buttons enabled and no other on the way to its
    guards. -/
def oneAtATime (env : Environment) (s : Session) : List Event → Bool
  | [] => true
  | e :: events => (!calls env s e || s.free) && oneAtATime env (step env s e) events

theorem oneAtATime_snoc (env : Environment) (e : Event) : ∀ (events : List Event) (s : Session),
    oneAtATime env s (events ++ [e]) =
      (oneAtATime env s events && (!calls env (events.foldl (step env) s) e ||
        (events.foldl (step env) s).free))
  | [], s => by simp [oneAtATime]
  | e' :: events, s => by
    simp only [List.cons_append, oneAtATime, oneAtATime_snoc env e events, List.foldl_cons,
      Bool.and_assoc]

/-! ### The plan of a run -/

/-- The results are those of these cases, in their order. -/
def ResultsOf (cases : List Case) (results : List CaseResult) : Prop :=
  List.Forall₂ (fun case c => Keeps case.1 case.2 c) cases results

/-- The run has these cases left, and has pushed the results of the others. -/
def InPlan (s : Session) (run : Nat) (ledger : List (Nat × CaseResult)) (rest : List Case) : Prop :=
  ∃ report done, s.report = some report ∧
    plan report.run.paths report.run.constructorVariants = done ++ rest ∧
    ResultsOf done report.results ∧ ledger = report.results.map fun c => (run, c)

/-- Unless it was stopped, the run has pushed the results of its plan. -/
def Planned (s : Session) (run : Nat) (ledger : List (Nat × CaseResult)) : Prop :=
  ∀ report, s.report = some report → report.cancelled = false →
    ResultsOf (plan report.run.paths report.run.constructorVariants) report.results ∧
      ledger = report.results.map fun c => (run, c)

/-- What a call knows of the shared results, when no other call is under way. -/
def Run.Pushes (env : Environment) (s : Session) (run : Nat) (ledger : List (Nat × CaseResult)) :
    Run → Prop
  | .next _ rest => env.webTransportConstructible = true ∧ InPlan s run ledger rest
  | .testing _ rest f => env.webTransportConstructible = true ∧
      ∃ case, InPlan s run ledger (case :: rest) ∧ Keeps case.1 case.2 f.result
  | .pausing _ rest => env.webTransportConstructible = true ∧ InPlan s run ledger rest
  | .control _ _ _ => env.webTransportConstructible = true ∧ Planned s run ledger
  | .greaseNext _ _ _ => env.webTransportConstructible = true ∧ Planned s run ledger
  | .enabled _ _ _ => env.webTransportConstructible = true ∧ Planned s run ledger
  | _ => True

/-- What is posted has the results of its plan, all from its run; without the API it has none. -/
def Post.Exclusive (env : Environment) (ledger : List (Nat × CaseResult)) (p : Post) : Prop :=
  (env.webTransportConstructible = true →
    ResultsOf (plan p.report.run.paths p.report.run.constructorVariants) p.report.results ∧
      ledger = p.report.results.map fun c => (p.run, c)) ∧
  (env.webTransportConstructible = false → p.report.results = [])

/-! ### Results as they are pushed -/

section Results

variable {s s' : Session} {run : Nat} {log : List (Nat × CaseResult)} {rest : List Case}

theorem InPlan.same (h : InPlan s run log rest) (hs : SameResults s s') : InPlan s' run log rest := by
  obtain ⟨report, done, hreport, hplan, hresults, hlog⟩ := h
  obtain ⟨-, f, hreport', hf⟩ := hs
  refine ⟨f report, done, by rw [hreport', hreport, Option.map_some], ?_, ?_, ?_⟩
  · rw [(hf report).1, hplan]
  · rw [(hf report).2]
    exact hresults
  · rw [(hf report).2, hlog]

/-- The loop is over, with no case left unless the run was stopped. -/
theorem InPlan.planned (h : InPlan s run log rest) (hs : SameResults s s')
    (hstopped : ∀ report ∈ s'.report, report.cancelled = false → rest = []) : Planned s' run log := by
  obtain ⟨report', done, hreport', hplan, hresults, hlog⟩ := h.same hs
  intro report hreport hfinished
  rw [hreport'] at hreport
  cases hreport
  rw [hstopped report' hreport' hfinished, List.append_nil] at hplan
  rw [hplan]
  exact ⟨hresults, hlog⟩

/-- A differential is entered. -/
theorem Planned.modify (h : Planned s run log) (n : Nat) (d : Option Differential) :
    Planned { s with reports := s.reports.modify n fun r => { r with greaseDifferential := d } }
      run log := by
  intro report hreport hfinished
  rw [report_modify] at hreport
  obtain ⟨old, hold, rfl⟩ := Option.map_eq_some_iff.mp hreport
  split_ifs at hfinished ⊢
  · exact h old hold hfinished
  · exact h old hold hfinished

/-- A result is pushed. -/
theorem InPlan.push {case : Case} {c : CaseResult} (h : InPlan s run log (case :: rest))
    (hc : Keeps case.1 case.2 c) (plannedCases : Nat)
    (hs : s' = (s.setReport fun report => { report with results := report.results ++ [c] }).summarize
      plannedCases) : InPlan s' run (pushed log run s s') rest := by
  obtain ⟨report, done, hreport, hplan, hresults, hlog⟩ := h
  have hreport' : s'.report = some { report with
      results := report.results ++ [c]
      summary := some (summarizeResults (report.results ++ [c]) plannedCases) } := by
    rw [hs, Session.summarize, report_setReport, report_setReport, hreport]
    rfl
  have hlength : s'.reports.length = s.reports.length := by
    rw [hs]
    exact (List.length_modify ..).trans (List.length_modify ..)
  have hadded : s'.results = s.results ++ [c] := by
    rw [Session.results, Session.results, hreport', hreport]
    rfl
  have hpushed : pushed log run s s' = log ++ [(run, c)] := pushed_append hlength hadded log run
  refine ⟨_, done ++ [case], hreport', ?_, ?_, ?_⟩
  · rw [List.append_assoc]
    exact hplan
  · exact List.rel_append hresults (.cons hc .nil)
  · rw [hpushed, hlog, List.map_append]
    rfl

end Results

/-! ### What a step of a call pushes and posts -/

/-- What a call that was in `state` has pushed and posted. -/
structure Advances (env : Environment) (s : Session) (run : Nat) (log : List (Nat × CaseResult))
    (state : Run) (x : Session × Run) : Prop where
  pushes : state.Pushes env s run log → x.2.Pushes env x.1 run (pushed log run s x.1)
  posts : x.1.posts = s.posts ∨ ∃ p, x.1.posts = s.posts ++ [p] ∧ p.run = run ∧
    (state.Pushes env s run log → p.Exclusive env (pushed log run s x.1))
  running : (state.holds = true → s.running = true) → x.2.holds = true → x.1.running = true

section Steps

variable {env : Environment} {s s' : Session} {run : Nat} {log : List (Nat × CaseResult)}
  {state state' : Run}

/-- The step posts nothing and leaves the results alone. -/
theorem Advances.quiet (hs : SameResults s s') (hposts : s'.posts = s.posts)
    (hrunning : state'.holds = true → state.holds = true ∧ s'.running = s.running)
    (h : state.Pushes env s run log → state'.Pushes env s' run log) :
    Advances env s run log state (s', state') :=
  ⟨fun hpushes => (hs.pushed log run).symm ▸ h hpushes, .inl hposts,
    fun hheld hholds => (hrunning hholds).2.trans (hheld (hrunning hholds).1)⟩

/-- The step ends with `publishReport`. -/
theorem publishReport_advances (hposts : s'.posts = s.posts)
    (hrunning : (state.holds = true → s.running = true) → s'.running = true)
    (hends : state.Pushes env s run log → ∀ report, s'.report = some report →
      report.cancelled = false →
      (env.webTransportConstructible = true →
        ResultsOf (plan report.run.paths report.run.constructorVariants) report.results ∧
          pushed log run s s' = report.results.map fun c => (run, c)) ∧
      (env.webTransportConstructible = false → report.results = [])) :
    Advances env s run log state (publishReport env s' run) := by
  have hover : Advances env s run log state (s'.setRunControls false, .ended) :=
    ⟨fun _ => trivial, .inl hposts, fun _ hholds => by cases hholds⟩
  unfold publishReport
  split
  · next profile report hp hreport =>
    split
    · next summary hblock hsummary =>
      obtain ⟨_, hshareable⟩ := publicationBlockReason_eq_none hblock
      refine ⟨fun _ => trivial, .inr ⟨_, by rw [hposts], rfl, fun hpushes => ?_⟩,
        fun hheld _ => hrunning hheld⟩
      exact hends hpushes report hreport hshareable.finished
    · exact hover
  · exact hover

theorem Planned.publishes (h : Planned s' run log) (hs : SameResults s s')
    (hapi : env.webTransportConstructible = true) {report : Report} (hreport : s'.report = some report)
    (hfinished : report.cancelled = false) :
    (env.webTransportConstructible = true →
      ResultsOf (plan report.run.paths report.run.constructorVariants) report.results ∧
        pushed log run s s' = report.results.map fun c => (run, c)) ∧
    (env.webTransportConstructible = false → report.results = []) := by
  refine ⟨fun _ => ?_, fun hnone => ?_⟩
  · rw [hs.pushed]
    exact h report hreport hfinished
  · rw [hapi] at hnone
    cases hnone

theorem closeMatrix_running (s : Session) (r : Started) : (closeMatrix s r).running = s.running := by
  unfold closeMatrix
  simp only
  split_ifs <;> rfl

theorem endMatrix_advances (r : Started) {rest : List Case} (threw : Option String)
    (hholds : state.holds = true)
    (h : state.Pushes env s run log → env.webTransportConstructible = true ∧ InPlan s run log rest)
    (hrest : s.cancelRequested = false → rest = []) :
    Advances env s run log state (endMatrix env s run r threw) := by
  have hsame := closeMatrix_same s r
  have hplanned (hpushes : state.Pushes env s run log) : Planned (closeMatrix s r) run log :=
    (h hpushes).2.planned hsame fun report hreport hfinished =>
      hrest ((closeMatrix_cancelled s r report hreport).symm.trans hfinished)
  obtain ⟨-, hposts, -⟩ := closeMatrix_frame s r
  have hrunning := closeMatrix_running s r
  have hunprobed : Advances env s run log state (publishReport env
      ((closeMatrix s r).setReport fun report => { report with greaseDifferential := none }) run) := by
    refine publishReport_advances hposts (fun hheld => hrunning.trans (hheld hholds))
      fun hpushes report hreport hfinished => ?_
    exact ((hplanned hpushes).modify _ none).publishes
      (hsame.trans (sameResults_differential _ none)) (h hpushes).1 hreport hfinished
  unfold endMatrix startGrease
  simp only
  split
  · exact publishReport_advances hposts (fun hheld => hrunning.trans (hheld hholds))
      fun hpushes report hreport hfinished =>
        (hplanned hpushes).publishes hsame (h hpushes).1 hreport hfinished
  · split
    · exact hunprobed
    · split
      · exact hunprobed
      · split
        · exact .quiet hsame hposts (fun _ => ⟨hholds, hrunning⟩)
            fun hpushes => ⟨(h hpushes).1, hplanned hpushes⟩
        · exact .quiet hsame hposts (fun _ => ⟨hholds, hrunning⟩)
            fun hpushes => ⟨(h hpushes).1, hplanned hpushes⟩

theorem finishGrease_advances (n : Nat) (control : CaseResult) (enabled : Option CaseResult)
    (hholds : state.holds = true)
    (h : state.Pushes env s run log → env.webTransportConstructible = true ∧ Planned s run log) :
    Advances env s run log state (finishGrease env s run n control enabled) := by
  unfold finishGrease
  split
  · exact ⟨fun _ => trivial, .inl rfl, fun _ hover => by cases hover⟩
  · refine publishReport_advances rfl (fun hheld => hheld hholds)
      fun hpushes report hreport hfinished => ?_
    exact ((h hpushes).2.modify n _).publishes (sameResults_modify s n fun _ => ⟨rfl, rfl⟩)
      (h hpushes).1 hreport hfinished

theorem caseDone_advances (r : Started) {rest : List Case} (c : CaseResult)
    (hholds : state.holds = true)
    (h : state.Pushes env s run log → env.webTransportConstructible = true ∧
      ∃ case, InPlan s run log (case :: rest) ∧ Keeps case.1 case.2 c) :
    Advances env s run log state (caseDone s r rest c) := by
  have hpush (hpushes : state.Pushes env s run log) :
      env.webTransportConstructible = true ∧ InPlan (caseDone s r rest c).1 run
        (pushed log run s (caseDone s r rest c).1) rest := by
    obtain ⟨hapi, case, hplan, hkeeps⟩ := h hpushes
    exact ⟨hapi, hplan.push hkeeps r.plannedCases rfl⟩
  refine ⟨fun hpushes => ?_, .inl rfl, fun hheld _ => hheld hholds⟩
  have hnext := hpush hpushes
  unfold caseDone at hnext ⊢
  simp only at hnext ⊢
  split
  · exact hnext
  · exact hnext

theorem startOne_keeps {base : String} {case : Case} {threw : Option String} {x : Frame ⊕ CaseResult}
    (h : startOne base case.1 case.2 threw = x) : Keeps case.1 case.2 (x.elim Frame.result id) := by
  rw [← h]
  exact (Runs.start base threw).keeps

section

variable (hprofile : ∀ p, s.browserProfile = some p →
  p.webTransportConstructible = env.webTransportConstructible)

include hprofile

theorem startMatrix_advances (i : Inputs) :
    Advances env s run log (.guards i) (startMatrix env s run i) := by
  have hreport (variants : List Variant) (plannedCases : Nat) : Session.report { s with
      reports := s.reports ++ [newReport i variants plannedCases]
      cancelRequested := false
      running := true } = some (newReport i variants plannedCases) := by simp [Session.report]
  have hlength (variants : List Variant) (plannedCases : Nat) :
      s.reports.length < (s.reports ++ [newReport i variants plannedCases]).length := by simp
  unfold startMatrix
  simp only
  split
  · exact ⟨fun _ => trivial, .inl rfl, fun _ hover => by cases hover⟩
  · next profile hsome =>
    split
    · next hunavailable =>
      refine publishReport_advances rfl (fun _ => rfl)
        fun _ report hr _ => ⟨fun hapi => ?_, fun _ => ?_⟩
      · rw [hprofile profile hsome, hapi] at hunavailable
        cases hunavailable
      · rw [report_setReport, Session.summarize, report_setReport, hreport] at hr
        cases hr
        rfl
    · next havailable =>
      refine ⟨fun _ => ⟨?_, _, [], hreport _ _, rfl, .nil, ?_⟩, .inl rfl, fun _ _ => rfl⟩
      · rw [← hprofile profile hsome]
        simpa using havailable
      · rw [pushed, if_pos (hlength _ _)]
        rfl

/-- What a step of a call does, wherever it is. -/
theorem resumeRun_advances (state : Run) (a : Answer) :
    Advances env s run log state (resumeRun env s run state a) := by
  have hidle {s' : Session} {state' : Run} (hreports : s'.reports = s.reports)
      (hposts : s'.posts = s.posts)
      (hrunning : state'.holds = true → state.holds = true ∧ s'.running = s.running)
      (h : state.Pushes env s run log → state'.Pushes env s' run log) :
      Advances env s run log state (s', state') := by
    exact .quiet (.of_reports hreports) hposts hrunning h
  have hgoes {s' : Session} {state' : Run} (hreports : s'.reports = s.reports)
      (hposts : s'.posts = s.posts) (hrunning : s'.running = s.running) (hholds : state.holds = true)
      (h : state.Pushes env s run log → state'.Pushes env s' run log) :
      Advances env s run log state (s', state') :=
    hidle hreports hposts (fun _ => ⟨hholds, hrunning⟩) h
  unfold resumeRun
  split
  · next i name version =>
    refine hidle rfl rfl (fun hholds => ?_) fun _ => ?_
    · unfold Session.runMatrix at hholds
      split_ifs at hholds <;> cases hholds
    · unfold Session.runMatrix
      split_ifs <;> exact trivial
  · exact hidle rfl rfl (fun hholds => by cases hholds) fun _ => trivial
  · next i =>
    split
    · exact startMatrix_advances hprofile i
    · exact hidle rfl rfl (fun hholds => by cases hholds) fun _ => trivial
  · next r threw => exact endMatrix_advances r threw rfl (fun h => h) fun _ => rfl
  · next r case rest threw =>
    split
    · next hstopped =>
      refine endMatrix_advances r threw rfl (fun h => h) fun hgoes => ?_
      rw [hgoes] at hstopped
      cases hstopped
    · split
      · next f hf => exact hgoes rfl rfl rfl rfl fun h => ⟨h.1, case, h.2, startOne_keeps hf⟩
      · next c hc => exact caseDone_advances r c rfl fun h => ⟨h.1, case, h.2, startOne_keeps hc⟩
  · next r rest f a =>
    split
    · next f' hf =>
      refine hgoes rfl rfl rfl rfl ?_
      rintro ⟨hapi, case, hplan, hkeeps⟩
      refine ⟨hapi, case, hplan, ?_⟩
      have hnext := resumeOne_keeps s.cancelRequested hkeeps a
      rw [hf] at hnext
      exact hnext
    · next c hc =>
      refine caseDone_advances r c rfl ?_
      rintro ⟨hapi, case, hplan, hkeeps⟩
      refine ⟨hapi, case, hplan, ?_⟩
      have hnext := resumeOne_keeps s.cancelRequested hkeeps a
      rw [hc] at hnext
      exact hnext
  · exact hgoes rfl rfl rfl rfl fun h => h
  · split
    · exact hgoes rfl rfl rfl rfl fun h => h
    · exact hgoes rfl rfl rfl rfl fun h => h
  · next n path control threw =>
    split
    · exact finishGrease_advances n control none rfl fun h => h
    · split
      · exact hgoes rfl rfl rfl rfl fun h => h
      · exact finishGrease_advances n control _ rfl fun h => h
  · next n control f a =>
    split
    · exact hgoes rfl rfl rfl rfl fun h => h
    · exact finishGrease_advances n control _ rfl fun h => h
  · exact hidle rfl rfl (fun hholds => by cases hholds) fun _ => trivial
  · exact hidle rfl rfl (fun hholds => ⟨hholds, rfl⟩) fun h => h

end

end Steps

/-! ### Sessions of one call at a time -/

theorem Run.eq_ended {r : Run} (h : r.isEnded = true) : r = .ended := by
  cases r <;> first | rfl | cases h

/-- Only the reports matter. -/
theorem Run.Pushes.congr {env : Environment} {s s' : Session} {run : Nat}
    {log : List (Nat × CaseResult)} {r : Run} (h : r.Pushes env s run log)
    (hreports : s'.reports = s.reports) : r.Pushes env s' run log := by
  have hreport : s'.report = s.report := congrArg List.getLast? hreports
  have hplan {rest : List Case} (h : InPlan s run log rest) : InPlan s' run log rest := by
    rw [InPlan, hreport]
    exact h
  have hplanned (h : Planned s run log) : Planned s' run log := by
    rw [Planned, hreport]
    exact h
  cases r with
  | next r rest => exact ⟨h.1, hplan h.2⟩
  | testing r rest f =>
    obtain ⟨hapi, case, hrest, hkeeps⟩ := h
    exact ⟨hapi, case, hplan hrest, hkeeps⟩
  | pausing r rest => exact ⟨h.1, hplan h.2⟩
  | control n path f => exact ⟨h.1, hplanned h.2⟩
  | greaseNext n path c => exact ⟨h.1, hplanned h.2⟩
  | enabled n c f => exact ⟨h.1, hplanned h.2⟩
  | _ => exact trivial

/-- Every call but the last is over, and the last one has pushed what is in the ledger; the buttons
    are disabled while it is past its guards. -/
structure Single (env : Environment) (s : Session) (log : List (Nat × CaseResult)) : Prop where
  ended : ∀ n (r : Run), s.runs[n]? = some r → n + 1 < s.runs.length → r.isEnded = true
  pushes : ∀ n (r : Run), s.runs[n]? = some r → r.Pushes env s n log
  running : ∀ r ∈ s.runs, r.holds = true → s.running = true

section Single

variable {env : Environment} {s s' : Session} {log : List (Nat × CaseResult)}

theorem Single.congr (h : Single env s log) (hruns : s'.runs = s.runs)
    (hreports : s'.reports = s.reports) (hrunning : s'.running = s.running) : Single env s' log := by
  refine ⟨?_, ?_, ?_⟩
  · rw [hruns]
    exact h.ended
  · rw [hruns]
    exact fun n r hr => (h.pushes n r hr).congr hreports
  · rw [hruns, hrunning]
    exact h.running

/-- Where a call can be made, all others are over. -/
theorem Single.idle (h : Single env s log) (hfree : s.free = true) {r : Run} (hr : r ∈ s.runs) :
    r.isEnded = true := by
  obtain ⟨hrunning, hwaits⟩ := Bool.and_eq_true_iff.mp hfree
  have hwait := List.all_eq_true.mp hwaits r hr
  cases hended : r.isEnded with
  | true => rfl
  | false =>
    have hholds : r.holds = true := by rw [Run.holds, hwait, hended]; rfl
    rw [h.running r hr hholds] at hrunning
    cases hrunning

theorem Single.call (h : Single env s log) (hfree : s.free = true) (mode : Mode) :
    Single env (s.call mode) log := by
  have hnew (n : Nat) : (s.runMatrix (s.inputs mode)).Pushes env (s.call mode) n log ∧
      (s.runMatrix (s.inputs mode)).holds = false := by
    unfold Session.runMatrix
    split_ifs <;> exact ⟨trivial, rfl⟩
  refine ⟨fun n r hr hlt => ?_, fun n r hr => ?_, fun r hr hholds => ?_⟩
  · rw [Session.call, List.length_append, List.length_singleton] at hlt
    rw [Session.call, List.getElem?_append_left (by omega)] at hr
    exact h.idle hfree (List.mem_of_getElem? hr)
  · rw [Session.call, List.getElem?_append] at hr
    split at hr
    · exact (h.pushes n r hr).congr rfl
    · obtain rfl := List.mem_singleton.mp (List.mem_of_getElem? hr)
      exact (hnew n).1
  · rcases List.mem_append.mp hr with hr | hr
    · exact h.running r hr hholds
    · rw [List.mem_singleton.mp hr, (hnew 0).2] at hholds
      cases hholds

theorem Single.initializePage (h : Single env s log) (a : Answer)
    (hcall : calls env s (.init a) = true → s.free = true) :
    Single env (initializePage env s a) log := by
  have hcalls (c : Option CertHash) (hinit : s.init = .cert) :
      calls env s (.init (.cert c)) = (autorunMode env s.runtimeConfig).isSome := by
    simp only [calls, hinit]
  unfold Page.initializePage
  split
  · exact h.congr rfl rfl rfl
  · exact h.congr rfl rfl rfl
  · next c hinit =>
    have hloaded : Single env { s with certHash := Option.or c s.certHash, init := .done } log :=
      h.congr rfl rfl rfl
    rw [hcalls c hinit] at hcall
    simp only
    split
    · next mode hmode => exact hloaded.call (hcall (by rw [hmode]; rfl)) mode
    · exact hloaded
  · exact h

theorem initializePage_posts (env : Environment) (s : Session) (a : Answer) :
    (initializePage env s a).posts = s.posts := by
  unfold initializePage
  split
  · rfl
  · rfl
  · simp only
    split <;> rfl
  · rfl

/-- A step of a call: it is the last one, or it is over and changes nothing. -/
theorem Single.resume (h : Single env s log)
    (hprofile : ∀ p, s.browserProfile = some p →
      p.webTransportConstructible = env.webTransportConstructible)
    {run : Nat} {state : Run} (hstate : s.runs[run]? = some state) (a : Answer) :
    let x := resumeRun env s run state a
    Single env { x.1 with runs := x.1.runs.set run x.2 } (pushed log run s x.1) := by
  intro x
  have hruns : x.1.runs = s.runs := (resumeRun_moves hprofile state a).runs
  have hadvances : Advances env s run log state x := resumeRun_advances hprofile state a
  obtain ⟨hlt, hget⟩ := List.getElem?_eq_some_iff.mp hstate
  cases hended : state.isEnded with
  | true =>
    obtain rfl := Run.eq_ended hended
    have hx : x = (s, .ended) := rfl
    rw [hx, (SameResults.refl s).pushed]
    refine h.congr ?_ rfl rfl
    rw [← hget]
    exact List.set_getElem_self hlt
  | false =>
    have hlast : run + 1 = s.runs.length := by
      by_contra hne
      rw [h.ended run state hstate (by omega)] at hended
      cases hended
    have hothers (n : Nat) (r : Run) (hr : s.runs[n]? = some r) (hn : n ≠ run) : r = .ended := by
      obtain ⟨hlt', -⟩ := List.getElem?_eq_some_iff.mp hr
      exact Run.eq_ended (h.ended n r hr (by omega))
    refine ⟨fun n r hr hn => ?_, fun n r hr => ?_, fun r hr hholds => ?_⟩
    · rw [List.length_set, hruns] at hn
      rw [List.getElem?_set_ne (by omega), hruns] at hr
      exact h.ended n r hr hn
    · by_cases hn : n = run
      · rw [hn, List.getElem?_set_self (hruns.symm ▸ hlt)] at hr
        rw [← Option.some.inj hr, hn]
        exact (hadvances.pushes (h.pushes run state hstate)).congr rfl
      · rw [List.getElem?_set_ne (Ne.symm hn), hruns] at hr
        rw [hothers n r hr hn]
        exact trivial
    · obtain ⟨n, hr⟩ := List.mem_iff_getElem?.mp hr
      by_cases hn : n = run
      · rw [hn, List.getElem?_set_self (hruns.symm ▸ hlt)] at hr
        refine hadvances.running (h.running state (List.mem_of_getElem? hstate)) ?_
        rw [Option.some.inj hr]
        exact hholds
      · rw [List.getElem?_set_ne (Ne.symm hn), hruns] at hr
        rw [hothers n r hr hn] at hholds
        cases hholds

theorem Single.step (h : Single env s log)
    (hprofile : ∀ p, s.browserProfile = some p →
      p.webTransportConstructible = env.webTransportConstructible)
    {e : Event} (hcall : calls env s e = true → s.free = true) :
    Single env (step env s e) (ledgerStep env s log e) ∧
      ((step env s e).posts = s.posts ∨ ∃ p, (step env s e).posts = s.posts ++ [p] ∧
        p.Exclusive env (ledgerStep env s log e)) := by
  cases e with
  | edit form => exact ⟨h.congr rfl rfl rfl, .inl rfl⟩
  | init a =>
    exact ⟨h.initializePage a hcall, .inl (initializePage_posts env s a)⟩
  | click mode =>
    rw [Page.step]
    split
    · next hcan => exact ⟨h.call (hcall hcan) mode, .inl rfl⟩
    · exact ⟨h, .inl rfl⟩
  | stop =>
    rw [Page.step]
    split
    · exact ⟨h.congr rfl rfl rfl, .inl rfl⟩
    · exact ⟨h, .inl rfl⟩
  | resume run a =>
    rw [ledgerStep, Page.step]
    cases hstate : s.runs[run]? with
    | none => exact ⟨by rwa [(SameResults.refl s).pushed], .inl rfl⟩
    | some state =>
      refine ⟨h.resume hprofile hstate a, ?_⟩
      rcases (resumeRun_advances hprofile state a).posts with hposts | ⟨p, hposts, -, hexclusive⟩
      · exact .inl hposts
      · exact .inr ⟨p, hposts, hexclusive (h.pushes run state hstate)⟩

end Single

/-- `p` was posted at some event, when it had the results of its plan and of its run. -/
def Published (env : Environment) (form : Form) (events : List Event) (p : Post) : Prop :=
  ∃ pre e post, events = pre ++ e :: post ∧
    (session env form (pre ++ [e])).posts = (session env form pre).posts ++ [p] ∧
    p.Exclusive env (ledger env form (pre ++ [e]))

theorem single_session {env : Environment} {form : Form} (events : List Event)
    (h : oneAtATime env (opened form) events = true) :
    Single env (session env form events) (ledger env form events) ∧
      ∀ p ∈ (session env form events).posts, Published env form events p := by
  induction events using List.reverseRecOn with
  | nil =>
    refine ⟨⟨fun n r hr => ?_, fun n r hr => ?_, fun r hr => ?_⟩, fun p hp => ?_⟩
    · cases hr
    · cases hr
    · cases hr
    · cases hp
  | append_singleton events e ih =>
    rw [oneAtATime_snoc, Bool.and_eq_true] at h
    obtain ⟨hsingle, hposts⟩ := ih h.1
    have hcall (hcalls : calls env (session env form events) e = true) :
        (session env form events).free = true := by
      have hfree := h.2
      rw [Bool.or_eq_true] at hfree
      rcases hfree with hno | hfree
      · rw [session] at hcalls
        rw [hcalls] at hno
        cases hno
      · exact hfree
    have hnext := hsingle.step (kept_session env form events).profile hcall
    rw [← session_snoc, ← ledger_snoc] at hnext
    refine ⟨hnext.1, fun p hp => ?_⟩
    have hbefore (hp : p ∈ (session env form events).posts) :
        Published env form (events ++ [e]) p := by
      obtain ⟨pre, e', post, hevents, hposted⟩ := hposts p hp
      exact ⟨pre, e', post ++ [e], by rw [hevents, List.append_assoc, List.cons_append], hposted⟩
    rcases hnext.2 with hsame | ⟨q, hq, hexclusive⟩
    · exact hbefore (hsame ▸ hp)
    · rw [hq] at hp
      rcases List.mem_append.mp hp with hp | hp
      · exact hbefore hp
      · rw [List.mem_singleton.mp hp]
        exact ⟨events, e, [], rfl, hq, hexclusive⟩

/-- Where calls are made with the buttons enabled and none on the way to its guards, at most one is
    under way, and every report that is posted has the results of its plan, from its run alone; that
    of a browser without the API has none. -/
theorem exclusive_session (env : Environment) (form : Form) (events : List Event)
    (h : oneAtATime env (opened form) events = true) :
    (∀ (n m : Nat) (r r' : Run), (session env form events).runs[n]? = some r →
      (session env form events).runs[m]? = some r' → r.isEnded = false → r'.isEnded = false → n = m) ∧
    ∀ p ∈ (session env form events).posts, Published env form events p := by
  obtain ⟨hsingle, hposts⟩ := single_session events h
  refine ⟨fun n m r r' hr hr' hended hended' => ?_, hposts⟩
  have hlast {n : Nat} {r : Run} (hr : (session env form events).runs[n]? = some r)
      (hended : r.isEnded = false) : n + 1 = (session env form events).runs.length := by
    obtain ⟨hlt, -⟩ := List.getElem?_eq_some_iff.mp hr
    by_contra hne
    rw [hsingle.ended n r hr (by omega)] at hended
    cases hended
  have hn := hlast hr hended
  have hm := hlast hr' hended'
  omega

set_option maxRecDepth 100000 in
theorem exclusive_undisturbed : (session browser pageForm undisturbed).posts.isEmpty = false ∧
    ∀ p ∈ (session browser pageForm undisturbed).posts,
      Published browser pageForm undisturbed p :=
  ⟨by decide +kernel, (exclusive_session browser pageForm undisturbed (by decide +kernel)).2⟩

/-- Two clicks before the certificate is loaded, and the first case of the first call. -/
def clickedTwice : List Event :=
  [.init (.config (some pageConfig)), .init (.profile "Firefox" (some "141.0")),
    .click .exhaustive, .click .exhaustive, .resume 0 (.cert none), .resume 1 (.cert none),
    .resume 0 .go] ++ closedCase ++ [.resume 1 .go]

/-- The first call does its other cases, the second one its first, and the first one goes on to its
    end. -/
def runTwice : List Event :=
  clickedTwice ++ (List.replicate 127 closedCase).flatten ++ closedCase.map (Event.inRun 1) ++
    closedCase ++ closedCase ++ [.resume 0 (.construct none)]

def withoutApi : Environment := { browser with webTransportConstructible := false }

theorem ResultsOf.paths {cases : List Case} {results : List CaseResult} (h : ResultsOf cases results) :
    results.map ResultOf.path = cases.map Prod.fst := by
  induction h with
  | nil => rfl
  | cons hkeeps _ ih => rw [List.map_cons, List.map_cons, hkeeps.1, ih]

set_option maxRecDepth 100000 in
theorem runTwice_posted : ((session browser pageForm runTwice).posts.any fun p =>
    decide (p.report.results.map ResultOf.path ≠
      (plan p.report.run.paths p.report.run.constructorVariants).map Prod.fst)) = true := by
  decide +kernel

set_option maxRecDepth 100000 in
theorem withoutApi_posted : ((session withoutApi pageForm startedRun).posts.any fun p =>
    p.report.results.isEmpty &&
      decide ((plan p.report.run.paths p.report.run.constructorVariants).length = 128)) = true := by
  decide +kernel

set_option maxRecDepth 100000 in
/-- Both calls get past their guards, and the first one posts results of both, which are not in the
    order of the plan. Without the API, none of 128 planned results is posted. -/
theorem clicked_twice_mixes :
    ((session browser pageForm clickedTwice).runs.length = 2 ∧
      ∀ r ∈ (session browser pageForm clickedTwice).runs, r.active = true) ∧
    (∃ p ∈ (session browser pageForm runTwice).posts,
      ¬ ResultsOf (plan p.report.run.paths p.report.run.constructorVariants) p.report.results) ∧
    ∃ p ∈ (session withoutApi pageForm startedRun).posts, p.report.results = [] ∧
      (plan p.report.run.paths p.report.run.constructorVariants).length = 128 := by
  refine ⟨by decide +kernel, ?_, ?_⟩
  · obtain ⟨p, hp, hpaths⟩ := List.any_eq_true.mp runTwice_posted
    exact ⟨p, hp, fun h => (of_decide_eq_true hpaths) h.paths⟩
  · obtain ⟨p, hp, hplan⟩ := List.any_eq_true.mp withoutApi_posted
    obtain ⟨hempty, hlength⟩ := Bool.and_eq_true_iff.mp hplan
    exact ⟨p, hp, List.isEmpty_iff.mp hempty, of_decide_eq_true hlength⟩

end WebTransportEcho.Page
