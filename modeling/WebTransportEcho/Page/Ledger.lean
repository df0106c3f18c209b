import WebTransportEcho.Page.Stop

/-! Where the results come from. The page keeps neither the call that pushed a result nor, in the
    result, the base that this call has read; calls that overlap push to one array. Two ghosts are kept
    beside a session: `calledBases` are the bases of its calls, `ledger` the results since the last
    report was made, each with its call. Whatever overlaps, `results` are those of the ledger, and each
    was opened at the base of its call. -/

namespace WebTransportEcho.Page
open Js Store

/-! ### The calls and their bases -/

/-- The event calls `runMatrix`. -/
def calls (env : Environment) (s : Session) : Event → Bool
  | .click _ => s.canClick
  | .init a =>
    match s.init, a with
    | .cert, .cert _ => (autorunMode env s.runtimeConfig).isSome
    | _, _ => false
  | _ => false

/-- The target base that a call reads, where the event makes one. -/
def calledBase (env : Environment) (s : Session) (e : Event) : List String :=
  if calls env s e then [s.form.targetBase] else []

/-- The target bases of all calls. -/
def calledBases (env : Environment) (s : Session) : List Event → List String
  | [] => []
  | e :: events => calledBase env s e ++ calledBases env (step env s e) events

theorem calledBases_snoc (env : Environment) (e : Event) : ∀ (events : List Event) (s : Session),
    calledBases env s (events ++ [e]) =
      calledBases env s events ++ calledBase env (events.foldl (step env) s) e
  | [], s => by simp [calledBases]
  | e' :: events, s => by
    simp only [List.cons_append, calledBases, calledBases_snoc env e events, List.foldl_cons,
      List.append_assoc]

/-! ### The results and their calls -/

/-- `results`. -/
def Session.results (s : Session) : List CaseResult := (s.report.map Report.results).getD []

/-- The results that a step of a call pushed, behind those there were; a new report has none. -/
def pushed (ledger : List (Nat × CaseResult)) (run : Nat) (s s' : Session) : List (Nat × CaseResult) :=
  if s.reports.length < s'.reports.length then []
  else ledger ++ (s'.results.drop s.results.length).map fun c => (run, c)

def ledgerStep (env : Environment) (s : Session) (ledger : List (Nat × CaseResult)) :
    Event → List (Nat × CaseResult)
  | .resume run a => pushed ledger run s (step env s (.resume run a))
  | _ => ledger

/-- The session and its ledger. -/
def ledger (env : Environment) (form : Form) (events : List Event) : List (Nat × CaseResult) :=
  (events.foldl (fun x e => (step env x.1 e, ledgerStep env x.1 x.2 e)) (opened form, [])).2

theorem ledger_snoc (env : Environment) (form : Form) (events : List Event) (e : Event) :
    ledger env form (events ++ [e]) =
      ledgerStep env (session env form events) (ledger env form events) e := by
  have hsession (events : List Event) (x : Session × List (Nat × CaseResult)) :
      (events.foldl (fun x e => (step env x.1 e, ledgerStep env x.1 x.2 e)) x).1 =
        events.foldl (step env) x.1 := by
    induction events generalizing x with
    | nil => rfl
    | cons e events ih => exact ih _
  rw [ledger, List.foldl_append, List.foldl_cons, List.foldl_nil, hsession]
  rfl

/-! ### Reports that keep their plan and their results -/

/-- The reports are as many, and the last one has the plan and the results that it had. -/
def SameResults (s s' : Session) : Prop :=
  s'.reports.length = s.reports.length ∧
    ∃ f : Report → Report, s'.report = s.report.map f ∧
      ∀ r, (f r).run = r.run ∧ (f r).results = r.results

section Results

variable {s s' : Session}

theorem SameResults.refl (s : Session) : SameResults s s :=
  ⟨rfl, id, by rw [Option.map_id, id], fun _ => ⟨rfl, rfl⟩⟩

theorem report_modify (s : Session) (n : Nat) (f : Report → Report) :
    Session.report { s with reports := s.reports.modify n f } =
      s.report.map fun r => if n = s.reports.length - 1 then f r else r := by
  simp only [Session.report, List.getLast?_eq_getElem?, List.length_modify, List.getElem?_modify]
  rfl

theorem sameResults_modify (s : Session) (n : Nat) {f : Report → Report}
    (hf : ∀ r, (f r).run = r.run ∧ (f r).results = r.results) :
    SameResults s { s with reports := s.reports.modify n f } := by
  refine ⟨List.length_modify .., _, report_modify s n f, fun r => ?_⟩
  split_ifs
  · exact hf r
  · exact ⟨rfl, rfl⟩

theorem sameResults_setReport (s : Session) {f : Report → Report}
    (hf : ∀ r, (f r).run = r.run ∧ (f r).results = r.results) : SameResults s (s.setReport f) :=
  sameResults_modify s _ hf

theorem SameResults.trans {s'' : Session} (h : SameResults s s') (h' : SameResults s' s'') :
    SameResults s s'' := by
  obtain ⟨hlength, f, hreport, hf⟩ := h
  obtain ⟨hlength', g, hreport', hg⟩ := h'
  refine ⟨hlength'.trans hlength, g ∘ f, by rw [hreport', hreport, Option.map_map], fun r => ?_⟩
  exact ⟨(hg (f r)).1.trans (hf r).1, (hg (f r)).2.trans (hf r).2⟩

theorem sameResults_differential (s : Session) (d : Option Differential) :
    SameResults s (s.setReport fun report => { report with greaseDifferential := d }) :=
  sameResults_setReport s fun _ => ⟨rfl, rfl⟩

theorem SameResults.of_reports (h : s'.reports = s.reports) : SameResults s s' := by
  refine ⟨by rw [h], id, ?_, fun _ => ⟨rfl, rfl⟩⟩
  rw [Option.map_id, id, Session.report, h, Session.report]

theorem SameResults.results (h : SameResults s s') : s'.results = s.results := by
  obtain ⟨-, f, hreport, hf⟩ := h
  rw [Session.results, Session.results, hreport, Option.map_map]
  cases s.report with
  | none => rfl
  | some r => exact (hf r).2

/-- Then nothing was pushed. -/
theorem SameResults.pushed (h : SameResults s s') (log : List (Nat × CaseResult)) (run : Nat) :
    pushed log run s s' = log := by
  rw [Page.pushed, if_neg (h.1.symm ▸ Nat.lt_irrefl _), h.results, List.drop_length, List.map_nil,
    List.append_nil]

theorem closeMatrix_same (s : Session) (r : Started) : SameResults s (closeMatrix s r) := by
  have hmarked : SameResults s (s.setReport fun report =>
      { report with cancelled := s.cancelRequested }) := sameResults_setReport s fun _ => ⟨rfl, rfl⟩
  have hsummary (s : Session) : SameResults s (s.summarize r.plannedCases) :=
    sameResults_setReport s fun _ => ⟨rfl, rfl⟩
  unfold closeMatrix
  simp only
  split
  · exact (hmarked.trans (hsummary _)).trans (sameResults_setReport _ fun _ => ⟨rfl, rfl⟩)
  · exact hmarked.trans (hsummary _)

theorem publishReport_frame (env : Environment) (s : Session) (run : Nat) :
    (publishReport env s run).1.reports = s.reports ∧ (publishReport env s run).1.runs = s.runs := by
  unfold publishReport
  split
  · split <;> exact ⟨rfl, rfl⟩
  · exact ⟨rfl, rfl⟩

/-- What was pushed is behind the results there were. -/
theorem pushed_append {added : List CaseResult} (hlength : s'.reports.length = s.reports.length)
    (hresults : s'.results = s.results ++ added) (log : List (Nat × CaseResult)) (run : Nat) :
    pushed log run s s' = log ++ added.map fun c => (run, c) := by
  rw [pushed, if_neg (hlength.symm ▸ Nat.lt_irrefl _), hresults, List.drop_left]

end Results

/-! ### What a call pushes -/

/-- The result of a page's path, opened at this base. -/
def CaseResult.OfPage (base : String) (c : CaseResult) : Prop := ∃ path ∈ pagePaths, c.OpenedAt base path

/-- The call opens its cases at this base. -/
def Run.OpensAt (base : String) : Run → Prop
  | .detecting i => i.base = base ∧ ∀ path ∈ i.paths, path ∈ pagePaths
  | .loadingCert i => i.base = base ∧ ∀ path ∈ i.paths, path ∈ pagePaths
  | .guards i => i.base = base ∧ ∀ path ∈ i.paths, path ∈ pagePaths
  | .next r rest => r.base = base ∧ ∀ case ∈ rest, case.1 ∈ pagePaths
  | .testing r rest f => (r.base = base ∧ ∀ case ∈ rest, case.1 ∈ pagePaths) ∧ f.result.OfPage base
  | .pausing r rest => r.base = base ∧ ∀ case ∈ rest, case.1 ∈ pagePaths
  | _ => True

/-- What a step of a call does to the shared results. -/
structure Collects (base : String) (s : Session) (state : Run) (x : Session × Run) : Prop where
  runs : x.1.runs = s.runs
  opensAt : state.OpensAt base → x.2.OpensAt base
  results : (s.reports.length < x.1.reports.length ∧ x.1.results = []) ∨
    (x.1.reports.length = s.reports.length ∧ ∃ added, x.1.results = s.results ++ added ∧
      (state.OpensAt base → ∀ c ∈ added, c.OfPage base))

section Steps

variable {env : Environment} {base : String} {s s' : Session} {run : Nat} {state state' : Run}

/-- The step leaves the results alone. -/
theorem Collects.quiet (hs : SameResults s s') (hruns : s'.runs = s.runs)
    (h : state.OpensAt base → state'.OpensAt base) : Collects base s state (s', state') :=
  ⟨hruns, h, .inr ⟨hs.1, [], by rw [hs.results, List.append_nil], fun _ c hc => by cases hc⟩⟩

theorem publishReport_opensAt (env : Environment) (s : Session) (run : Nat) (base : String) :
    (publishReport env s run).2.OpensAt base := by
  unfold publishReport
  split
  · split <;> exact trivial
  · exact trivial

theorem publishReport_collects (hs : SameResults s s') (hruns : s'.runs = s.runs) :
    Collects base s state (publishReport env s' run) := by
  obtain ⟨hreports, hsame⟩ := publishReport_frame env s' run
  exact .quiet (hs.trans (.of_reports hreports)) (hsame.trans hruns)
    fun _ => publishReport_opensAt env s' run base

theorem endMatrix_collects (r : Started) (threw : Option String) :
    Collects base s state (endMatrix env s run r threw) := by
  have hsame := closeMatrix_same s r
  obtain ⟨hruns, -, -⟩ := closeMatrix_frame s r
  have hunprobed : Collects base s state (publishReport env
      ((closeMatrix s r).setReport fun report => { report with greaseDifferential := none }) run) :=
    publishReport_collects (hsame.trans (sameResults_differential _ none)) hruns
  unfold endMatrix startGrease
  simp only
  split
  · exact publishReport_collects hsame hruns
  · split
    · exact hunprobed
    · split
      · exact hunprobed
      · split
        · exact .quiet hsame hruns fun _ => trivial
        · exact .quiet hsame hruns fun _ => trivial

theorem finishGrease_collects (n : Nat) (control : CaseResult) (enabled : Option CaseResult) :
    Collects base s state (finishGrease env s run n control enabled) := by
  unfold finishGrease
  split
  · exact .quiet (.refl s) rfl fun _ => trivial
  · exact publishReport_collects (sameResults_modify s n fun _ => ⟨rfl, rfl⟩) rfl

theorem startMatrix_collects (i : Inputs) :
    Collects base s (.guards i) (startMatrix env s run i) := by
  have hnew {s₀ s' : Session} {variants : List Variant} {plannedCases : Nat}
      (hreports : s₀.reports = s.reports ++ [newReport i variants plannedCases])
      (hs : SameResults s₀ s') : s.reports.length < s'.reports.length ∧ s'.results = [] := by
    refine ⟨by rw [hs.1, hreports]; simp, ?_⟩
    rw [hs.results, Session.results, Session.report, hreports, List.getLast?_concat]
    rfl
  unfold startMatrix
  simp only
  split
  · exact ⟨rfl, fun _ => trivial, .inl (hnew rfl (.of_reports rfl))⟩
  · next profile hprofile =>
    split
    · have hsame (s₀ : Session) (n : Nat) (d : Option Differential) : SameResults s₀
          (publishReport env ((s₀.summarize n).setReport fun report =>
            { report with greaseDifferential := d }) run).1 := by
        have hsummary : SameResults s₀ (s₀.summarize n) := sameResults_setReport s₀ fun _ => ⟨rfl, rfl⟩
        exact (hsummary.trans (sameResults_differential _ d)).trans
          (.of_reports (publishReport_frame ..).1)
      exact ⟨(publishReport_frame ..).2, fun _ => publishReport_opensAt ..,
        .inl (hnew rfl (hsame ..))⟩
    · refine ⟨rfl, fun hopens => ⟨hopens.1, fun case hcase => ?_⟩, .inl (hnew rfl (.refl _))⟩
      obtain ⟨path, hpath, hin⟩ := List.mem_flatMap.mp hcase
      obtain ⟨variant, -, rfl⟩ := List.mem_map.mp hin
      exact hopens.2 path hpath

/-- A result is pushed. -/
theorem caseDone_collects {r : Started} {rest : List Case} {c : CaseResult}
    (h : state.OpensAt base → (r.base = base ∧ ∀ case ∈ rest, case.1 ∈ pagePaths) ∧ c.OfPage base) :
    Collects base s state (caseDone s r rest c) := by
  have hlength : (caseDone s r rest c).1.reports.length = s.reports.length :=
    (List.length_modify ..).trans (List.length_modify ..)
  refine ⟨rfl, fun hopens => ?_, .inr ⟨hlength, ?_⟩⟩
  · unfold caseDone
    simp only
    split
    · exact (h hopens).1
    · exact (h hopens).1
  · rw [Session.results, Session.results, caseDone, Session.summarize, report_setReport,
      report_setReport, Option.map_map, Option.map_map]
    cases s.report with
    | none => exact ⟨[], rfl, fun _ c hc => by cases hc⟩
    | some report =>
      refine ⟨[c], rfl, fun hopens c' hc' => ?_⟩
      rw [List.mem_singleton.mp hc']
      exact (h hopens).2

/-- What a step of a call does, wherever it is. -/
theorem resumeRun_collects (state : Run) (a : Answer) :
    Collects base s state (resumeRun env s run state a) := by
  have hstay {state' : Run} (h : state.OpensAt base → state'.OpensAt base) :
      Collects base s state (s, state') := .quiet (.refl s) rfl h
  unfold resumeRun
  split
  · next i name version =>
    refine .quiet (.of_reports rfl) rfl fun hopens => ?_
    unfold Session.runMatrix
    split_ifs <;> exact hopens
  · exact .quiet (.of_reports rfl) rfl fun hopens => hopens
  · next i =>
    split
    · exact startMatrix_collects i
    · exact hstay fun _ => trivial
  · exact endMatrix_collects ..
  · next r case rest threw =>
    have hstarted {x : Frame ⊕ CaseResult} (hx : startOne r.base case.1 case.2 threw = x)
        (hopens : Run.OpensAt base (.next r (case :: rest))) :
        (r.base = base ∧ ∀ case ∈ rest, case.1 ∈ pagePaths) ∧ (x.elim Frame.result id).OfPage base := by
      obtain ⟨rfl, hcases⟩ := hopens
      obtain ⟨hcase, hrest⟩ := List.forall_mem_cons.mp hcases
      exact ⟨⟨rfl, hrest⟩, case.1, hcase, hx ▸ startOne_openedAt ..⟩
    split
    · exact endMatrix_collects ..
    · split
      · next f hf => exact hstay (hstarted hf)
      · next c hc => exact caseDone_collects (hstarted hc)
  · next r rest f a =>
    have hresumed {x : Frame ⊕ CaseResult} (hx : resumeOne s.cancelRequested f a = x)
        (hopens : Run.OpensAt base (.testing r rest f)) :
        (r.base = base ∧ ∀ case ∈ rest, case.1 ∈ pagePaths) ∧ (x.elim Frame.result id).OfPage base := by
      obtain ⟨hleft, path, hpath, hresult⟩ := hopens
      exact ⟨hleft, path, hpath, hx ▸ resumeOne_openedAt _ hresult a⟩
    split
    · next f' hf => exact hstay (hresumed hf)
    · next c hc => exact caseDone_collects (hresumed hc)
  · exact hstay fun hopens => hopens
  · split
    · exact hstay fun _ => trivial
    · exact hstay fun _ => trivial
  · split
    · exact finishGrease_collects ..
    · split
      · exact hstay fun _ => trivial
      · exact finishGrease_collects ..
  · split
    · exact hstay fun _ => trivial
    · exact finishGrease_collects ..
  · exact .quiet (.of_reports rfl) rfl fun _ => trivial
  · exact hstay fun hopens => hopens

end Steps

/-! ### The ledger of a session -/

/-- Every call opens at its base; the results are those of the ledger, and each was opened at the base
    of the call that pushed it. -/
structure Traced (s : Session) (bases : List String) (log : List (Nat × CaseResult)) : Prop where
  length : bases.length = s.runs.length
  opensAt : ∀ (n : Nat) (r : Run) (base : String), s.runs[n]? = some r → bases[n]? = some base →
    r.OpensAt base
  results : s.results = log.map Prod.snd
  ofPage : ∀ entry ∈ log, ∃ base, bases[entry.1]? = some base ∧ entry.2.OfPage base

section Traced

variable {env : Environment} {s s' : Session} {bases : List String} {log : List (Nat × CaseResult)}

theorem Traced.congr (h : Traced s bases log) (hruns : s'.runs = s.runs)
    (hreports : s'.reports = s.reports) : Traced s' bases log := by
  refine ⟨by rw [hruns, h.length], ?_, ?_, h.ofPage⟩
  · rw [hruns]
    exact h.opensAt
  · rw [(SameResults.of_reports hreports).results, h.results]

theorem Traced.call (h : Traced s bases log) (mode : Mode) :
    Traced (s.call mode) (bases ++ [s.form.targetBase]) log := by
  have hpaths : ∀ path ∈ (s.inputs mode).paths, path ∈ pagePaths :=
    fun path hpath => List.mem_of_mem_filter hpath
  have hnew : (s.runMatrix (s.inputs mode)).OpensAt s.form.targetBase := by
    unfold Session.runMatrix
    split_ifs <;> exact ⟨rfl, hpaths⟩
  refine ⟨by simp [Session.call, h.length], fun n r base hr hbase => ?_, h.results,
    fun entry hentry => ?_⟩
  · rw [Session.call, List.getElem?_append] at hr
    rw [List.getElem?_append, h.length] at hbase
    split at hr
    · next hlt =>
      rw [if_pos hlt] at hbase
      exact h.opensAt n r base hr hbase
    · next hge =>
      rw [if_neg hge] at hbase
      rw [List.mem_singleton.mp (List.mem_of_getElem? hr),
        List.mem_singleton.mp (List.mem_of_getElem? hbase)]
      exact hnew
  · obtain ⟨base, hbase, hpage⟩ := h.ofPage entry hentry
    obtain ⟨hlt, -⟩ := List.getElem?_eq_some_iff.mp hbase
    exact ⟨base, by rw [List.getElem?_append_left hlt, hbase], hpage⟩

theorem Traced.initializePage (h : Traced s bases log) (a : Answer) :
    Traced (initializePage env s a) (bases ++ calledBase env s (.init a)) log := by
  have hquiet {s' : Session} (hcalls : calls env s (.init a) = false) (h' : Traced s' bases log) :
      Traced s' (bases ++ calledBase env s (.init a)) log := by
    rwa [calledBase, hcalls, if_neg Bool.false_ne_true, List.append_nil]
  unfold Page.initializePage
  split
  · next hinit => exact hquiet (by simp [calls, hinit]) (h.congr rfl rfl)
  · next hinit => exact hquiet (by simp [calls, hinit]) (h.congr rfl rfl)
  · next c hinit =>
    have hloaded : Traced { s with certHash := Option.or c s.certHash, init := .done } bases log :=
      h.congr rfl rfl
    simp only
    split
    · next mode hmode =>
      have hcalls : calls env s (.init (.cert c)) = true := by simp [calls, hinit, hmode]
      rw [calledBase, if_pos hcalls]
      exact hloaded.call mode
    · next hmode => exact hquiet (by simp [calls, hinit, hmode]) hloaded
  · next hother => exact hquiet (by unfold calls; split <;> simp_all) h

theorem Traced.resume (h : Traced s bases log) {run : Nat} {state : Run}
    (hstate : s.runs[run]? = some state) (a : Answer) :
    let x := resumeRun env s run state a
    Traced { x.1 with runs := x.1.runs.set run x.2 } bases (pushed log run s x.1) := by
  intro x
  obtain ⟨hlt, -⟩ := List.getElem?_eq_some_iff.mp hstate
  obtain ⟨base, hbase⟩ : ∃ base, bases[run]? = some base :=
    ⟨_, List.getElem?_eq_getElem (h.length.symm ▸ hlt)⟩
  have hopens := h.opensAt run state base hstate hbase
  have hx : Collects base s state x := resumeRun_collects state a
  have hlog : x.1.results = (pushed log run s x.1).map Prod.snd ∧
      ∀ entry ∈ pushed log run s x.1, ∃ base, bases[entry.1]? = some base ∧ entry.2.OfPage base := by
    rcases hx.results with ⟨hnew, hnone⟩ | ⟨hlength, added, hadded, hpage⟩
    · rw [pushed, if_pos hnew]
      exact ⟨hnone, fun entry hentry => by cases hentry⟩
    · rw [pushed_append hlength hadded, List.map_append, hadded, h.results]
      refine ⟨by simp, fun entry hentry => ?_⟩
      rcases List.mem_append.mp hentry with hold | hnew
      · exact h.ofPage entry hold
      · obtain ⟨c, hc, rfl⟩ := List.mem_map.mp hnew
        exact ⟨base, hbase, hpage hopens c hc⟩
  refine ⟨?_, fun n r base' hr hbase' => ?_, hlog.1, hlog.2⟩
  · rw [List.length_set, hx.runs, h.length]
  · simp only [hx.runs] at hr
    by_cases hn : run = n
    · subst hn
      rw [List.getElem?_set_self hlt] at hr
      rw [hbase] at hbase'
      rw [← Option.some.inj hr, ← Option.some.inj hbase']
      exact hx.opensAt hopens
    · rw [List.getElem?_set_ne hn] at hr
      exact h.opensAt n r base' hr hbase'

theorem Traced.step (h : Traced s bases log) (e : Event) :
    Traced (step env s e) (bases ++ calledBase env s e) (ledgerStep env s log e) := by
  have hquiet {s' : Session} {log' : List (Nat × CaseResult)} (h' : Traced s' bases log') :
      Traced s' (bases ++ []) log' := by
    rwa [List.append_nil]
  cases e with
  | edit form => exact hquiet (h.congr rfl rfl)
  | init a => exact h.initializePage a
  | click mode =>
    rw [Page.step, calledBase, calls]
    split
    · exact h.call mode
    · exact hquiet h
  | stop =>
    rw [Page.step]
    split
    · exact hquiet (h.congr rfl rfl)
    · exact hquiet h
  | resume run a =>
    rw [ledgerStep, Page.step]
    refine hquiet ?_
    cases hstate : s.runs[run]? with
    | none => rwa [(SameResults.refl s).pushed]
    | some state => exact h.resume hstate a

end Traced

theorem traced_session (env : Environment) (form : Form) (events : List Event) :
    Traced (session env form events) (calledBases env (opened form) events)
      (ledger env form events) := by
  induction events using List.reverseRecOn with
  | nil =>
    refine ⟨rfl, fun n r base hr => ?_, rfl, fun entry hentry => ?_⟩
    · cases hr
    · cases hentry
  | append_singleton events e ih =>
    rw [session_snoc, calledBases_snoc, ledger_snoc]
    exact ih.step e

end WebTransportEcho.Page
