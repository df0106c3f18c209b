import WebTransportEcho.Page.Session
import WebTransportEcho.Store.Accept
import Mathlib.Data.List.Induction

/-! Stop. A run that was stopped in its matrix is never posted: its report is marked before the
    GREASE probes would start. A stop while a probe is on its way comes too late for the mark, and
    `publicationBlockReason` does not ask again.

    `resumeRun_resumes` says once what a call does between two awaits; `stopped_not_posted` is the
    induction over a session in which Stop is not clicked while a probe is on its way, and no call
    passes its guards, which takes a request to stop back, while a stopped run goes on. -/

namespace WebTransportEcho.Page
open Js Store

/-! ### Where a call is -/

def Run.inMatrix : Run → Bool
  | .next _ _ => true
  | .testing _ _ _ => true
  | .pausing _ _ => true
  | _ => false

def Run.inGrease : Run → Bool
  | .control _ _ _ => true
  | .greaseNext _ _ _ => true
  | .enabled _ _ _ => true
  | _ => false

/-- The call has passed its guards and not yet asked whether its report is shared. -/
def Run.active (r : Run) : Bool := r.inMatrix || r.inGrease

def Run.over : Run → Bool
  | .publishing => true
  | .ended => true
  | _ => false

/-- The call has passed its guards. -/
def Run.begun (r : Run) : Bool := r.active || r.over

/-- The next step of the call takes it past its guards. -/
def Run.starts (s : Session) : Run → Bool
  | .guards i => s.admits i
  | _ => false

def Report.Complete (env : Environment) (report : Report) : Prop :=
  env.webTransportConstructible = true → ∀ d, report.greaseDifferential = some d → d.Complete

/-- A probe on its way has not met a stop. -/
def Run.Sound (cancelRequested : Bool) : Run → Prop
  | .control _ configured f => cancelRequested = false ∧ Runs configured.path greaseProbeVariant (.inl f)
  | .greaseNext _ configured c => cancelRequested = false ∧ Ran configured.path greaseProbeVariant c
  | .enabled _ c f => cancelRequested = false ∧
      ∃ path, Ran path greaseProbeVariant c ∧ Runs path greaseProbeVariant (.inl f)
  | _ => True

theorem begun_of_inMatrix {r : Run} (h : r.inMatrix = true) : r.begun = true := by
  simp [Run.begun, Run.active, h]

theorem not_over_of_inMatrix {r : Run} (h : r.inMatrix = true) : r.over = false := by
  cases r <;> first | rfl | cases h

theorem not_begun_of_starts {s : Session} {r : Run} (h : r.starts s = true) : r.begun = false := by
  cases r <;> first | rfl | cases h

theorem not_active_of_over {r : Run} (h : r.over = true) : r.active = false := by
  cases r <;> first | rfl | cases h

/-- What was posted is the payload of its report. -/
def Post.Faithful (env : Environment) (p : Post) : Prop :=
  p.report.Complete env ∧
    ∃ profile summary, p.payload = publicationPayload profile p.report summary

theorem Run.sound_false {b : Bool} {r : Run} (h : r.Sound b) : r.Sound false := by
  cases r <;> first | exact trivial | exact ⟨rfl, h.2⟩

theorem Run.sound_of_not_inGrease {r : Run} (b : Bool) (h : r.inGrease = false) : r.Sound b := by
  cases r <;> first | exact trivial | cases h

theorem Run.Sound.flag {b : Bool} {r : Run} (h : r.Sound b) (hr : r.inGrease = true) : b = false := by
  cases r <;> first | exact h.1 | cases hr

/-! ### What a step of a call does -/

/-- The parts of a session that no step of a call breaks. -/
structure Intact (env : Environment) (s : Session) : Prop where
  profile : ∀ p, s.browserProfile = some p →
    p.webTransportConstructible = env.webTransportConstructible
  reports : ∀ r ∈ s.reports, r.Complete env

theorem Intact.setReport {env : Environment} {s : Session} (h : Intact env s) {f : Report → Report}
    (hf : ∀ r, r.Complete env → (f r).Complete env) : Intact env (s.setReport f) := by
  refine ⟨h.profile, fun r hr => ?_⟩
  obtain ⟨n, hn⟩ := List.mem_iff_getElem?.mp hr
  rw [Session.setReport, List.getElem?_modify] at hn
  obtain ⟨r', hr', rfl⟩ := Option.map_eq_some_iff.mp hn
  have hmem := h.reports r' (List.mem_of_getElem? hr')
  split
  · exact hf r' hmem
  · exact hmem

/-- What a call that was in `state` has done to the session, and where it is now. -/
structure Resumes (env : Environment) (s : Session) (run : Nat) (state : Run) (x : Session × Run) :
    Prop where
  intact : Intact env x.1
  runs : x.1.runs = s.runs
  sound : x.2.Sound x.1.cancelRequested
  flag : x.1.cancelRequested = s.cancelRequested ∨
    (state.starts s = true ∧ x.1.cancelRequested = false)
  phase : x.2.active = true → state.starts s = true ∨
    (state.inMatrix = true ∧ (x.2.inMatrix = true ∨ s.cancelRequested = false)) ∨
    state.inGrease = true
  begun : state.begun = true → x.2.begun = true
  settled : state.over = true → x.2.over = true ∧ x.1.posts = s.posts
  posts : x.1.posts = s.posts ∨ ∃ p, x.1.posts = s.posts ++ [p] ∧ p.run = run ∧ x.2.over = true ∧
    p.Faithful env ∧ (state.inMatrix = true → s.cancelRequested = false)

/-- The call stays or ends, and nothing of the session matters to the others. -/
theorem Resumes.quiet {env : Environment} {s s' : Session} {run : Nat} {state state' : Run}
    (hs : Intact env s') (hruns : s'.runs = s.runs) (hflag : s'.cancelRequested = s.cancelRequested)
    (hposts : s'.posts = s.posts) (hsound : state'.Sound s'.cancelRequested)
    (hphase : state'.active = true →
      (state.inMatrix = true ∧ (state'.inMatrix = true ∨ s.cancelRequested = false)) ∨
        state.inGrease = true)
    (hbegun : state.begun = true → state'.begun = true)
    (hover : state.over = true → state'.over = true) :
    Resumes env s run state (s', state') :=
  { intact := hs
    runs := hruns
    sound := hsound
    flag := .inl hflag
    phase := fun h => .inr (hphase h)
    begun := hbegun
    settled := fun h => ⟨hover h, hposts⟩
    posts := .inl hposts }

/-- The step ends with `publishReport`, on a report that is marked if the run was stopped. -/
theorem publishReport_resumes {env : Environment} {s s' : Session} {run : Nat} {state : Run}
    (hs : Intact env s') (hruns : s'.runs = s.runs) (hposts : s'.posts = s.posts)
    (hflag : s'.cancelRequested = s.cancelRequested ∨ (state.starts s = true ∧ s'.cancelRequested = false))
    (hover : state.over = false)
    (hmarked : state.inMatrix = true → s.cancelRequested = true →
      ∀ report ∈ s'.report, report.cancelled = true) :
    Resumes env s run state (publishReport env s' run) := by
  have hends : Resumes env s run state (s'.setRunControls false, .ended) :=
    { intact := ⟨hs.profile, hs.reports⟩
      runs := hruns
      sound := trivial
      flag := hflag
      phase := fun h => by cases h
      begun := fun _ => rfl
      settled := fun h => by rw [hover] at h; cases h
      posts := .inl hposts }
  unfold publishReport
  split
  · next profile report hprofile hreport =>
    split
    · next summary hblock hsummary =>
      refine
        { intact := ⟨hs.profile, hs.reports⟩
          runs := hruns
          sound := trivial
          flag := hflag
          phase := fun h => by cases h
          begun := fun _ => rfl
          settled := fun h => by rw [hover] at h; cases h
          posts := .inr ⟨_, by rw [hposts], rfl, rfl,
            ⟨hs.reports report (List.mem_of_getLast? hreport), profile, summary, rfl⟩, fun hm => ?_⟩ }
      by_contra hstopped
      obtain ⟨_, hshareable⟩ := publicationBlockReason_eq_none hblock
      have hcancelled := hmarked hm (by simpa using hstopped) report hreport
      rw [hshareable.finished] at hcancelled
      cases hcancelled
    · exact hends
  · exact hends

theorem report_setReport (s : Session) (f : Report → Report) :
    (s.setReport f).report = s.report.map f := by
  unfold Session.setReport Session.report
  rw [List.getLast?_eq_getElem?, List.getLast?_eq_getElem?, List.length_modify,
    List.getElem?_modify_eq, Option.map_eq_map]

theorem Intact.summarize {env : Environment} {s : Session} (h : Intact env s) (plannedCases : Nat) :
    Intact env (s.summarize plannedCases) :=
  h.setReport fun _ hr => hr

theorem complete_of_none {env : Environment} {r : Report} (h : r.greaseDifferential = none) :
    r.Complete env := by
  intro _ d hd
  rw [h] at hd
  cases hd

/-- What the loop's end leaves alone. -/
theorem closeMatrix_frame (s : Session) (r : Started) : (closeMatrix s r).runs = s.runs ∧
    (closeMatrix s r).posts = s.posts ∧ (closeMatrix s r).cancelRequested = s.cancelRequested := by
  unfold closeMatrix
  simp only
  split <;> exact ⟨rfl, rfl, rfl⟩

/-- The report is marked with the request to stop. -/
theorem closeMatrix_cancelled (s : Session) (r : Started) :
    ∀ report ∈ (closeMatrix s r).report, report.cancelled = s.cancelRequested := by
  intro report hreport
  unfold closeMatrix at hreport
  simp only at hreport
  split at hreport
  · simp only [Session.summarize, report_setReport, Option.map_map] at hreport
    obtain ⟨old, -, rfl⟩ := Option.map_eq_some_iff.mp hreport
    rfl
  · simp only [Session.summarize, report_setReport, Option.map_map] at hreport
    obtain ⟨old, -, rfl⟩ := Option.map_eq_some_iff.mp hreport
    rfl

section Steps

variable {env : Environment} {s : Session} (hs : Intact env s) (run : Nat)

include hs

theorem startMatrix_resumes {i : Inputs} (hadmits : s.admits i = true) :
    Resumes env s run (.guards i) (startMatrix env s run i) := by
  have hstarts : Run.starts s (.guards i) = true := hadmits
  have hnew (variants : List Variant) (plannedCases : Nat) : Intact env { s with
      reports := s.reports ++ [newReport i variants plannedCases]
      cancelRequested := false
      running := true } := by
    refine ⟨hs.profile, fun r hr => ?_⟩
    rcases List.mem_append.mp hr with hr | hr
    · exact hs.reports r hr
    · rw [List.mem_singleton.mp hr]
      exact complete_of_none rfl
  unfold startMatrix
  simp only
  split
  · exact {
      intact := ⟨hs.profile, (hnew _ (i.paths.length * (s.variants i.mode).length)).reports⟩
      runs := rfl
      sound := trivial
      flag := .inr ⟨hstarts, rfl⟩
      phase := fun h => by cases h
      begun := fun _ => rfl
      settled := fun h => by cases h
      posts := .inl rfl }
  · next profile hprofile =>
    split
    · next hunavailable =>
      refine publishReport_resumes (((hnew _ _).summarize _).setReport fun r _ hconstructible => ?_) rfl rfl
        (.inr ⟨hstarts, rfl⟩) rfl fun h => by cases h
      rw [hs.profile profile hprofile, hconstructible] at hunavailable
      cases hunavailable
    · exact {
        intact := hnew _ _
        runs := rfl
        sound := trivial
        flag := .inr ⟨hstarts, rfl⟩
        phase := fun _ => .inl hstarts
        begun := fun _ => rfl
        settled := fun h => by cases h
        posts := .inl rfl }

theorem caseDone_resumes {state : Run} (hstate : state.inMatrix = true) (r : Started)
    (rest : List Case) (c : CaseResult) : Resumes env s run state (caseDone s r rest c) := by
  have hpushed : Intact env (s.setReport fun report => { report with results := report.results ++ [c] }) :=
    hs.setReport fun _ hr => hr
  have hnext : (caseDone s r rest c).2.inMatrix = true := by
    unfold caseDone
    simp only
    split <;> rfl
  refine .quiet (hpushed.summarize r.plannedCases) rfl rfl rfl ?_ (fun _ => .inl ⟨hstate, .inl hnext⟩)
    (fun _ => begun_of_inMatrix hnext) fun hover => ?_
  · split <;> exact trivial
  · rw [not_over_of_inMatrix hstate] at hover
    cases hover

theorem closeMatrix_intact (r : Started) : Intact env (closeMatrix s r) := by
  have hmark : Intact env (s.setReport fun report =>
      { report with cancelled := s.cancelRequested }) := hs.setReport fun _ hr => hr
  unfold closeMatrix
  simp only
  split
  · exact (hmark.summarize r.plannedCases).setReport fun _ hr => hr
  · exact hmark.summarize r.plannedCases

theorem endMatrix_resumes {state : Run} (hstate : state.inMatrix = true) (r : Started)
    (threw : Option String) : Resumes env s run state (endMatrix env s run r threw) := by
  have hover := not_over_of_inMatrix hstate
  have hs' := closeMatrix_intact hs r
  obtain ⟨hruns, hposts, hflag⟩ := closeMatrix_frame s r
  have hunprobed : Intact env ((closeMatrix s r).setReport fun report =>
      { report with greaseDifferential := none }) := hs'.setReport fun _ _ => complete_of_none rfl
  unfold endMatrix startGrease
  simp only
  rw [hflag]
  split
  · next hstopped =>
    refine publishReport_resumes hs' hruns hposts (.inl hflag) hover fun _ _ report hreport => ?_
    rw [closeMatrix_cancelled s r report hreport, hstopped]
  · next hgoes =>
    rw [Bool.not_eq_true] at hgoes
    have hunstopped : state.inMatrix = true → s.cancelRequested = true →
        ∀ report ∈ ((closeMatrix s r).setReport fun report =>
          { report with greaseDifferential := none }).report, report.cancelled = true :=
      fun _ h => by rw [hgoes] at h; cases h
    split
    · exact publishReport_resumes hunprobed hruns hposts (.inl hflag) hover hunstopped
    · split
      · exact publishReport_resumes hunprobed hruns hposts (.inl hflag) hover hunstopped
      · next configured _ =>
        have hstart : Runs configured.path greaseProbeVariant
            (startOne configured.controlBase configured.path greaseProbeVariant threw) :=
          .start _ threw
        split
        · next f hf =>
          rw [hf] at hstart
          exact .quiet hs' hruns hflag hposts ⟨hflag.trans hgoes, hstart⟩
            (fun _ => .inl ⟨hstate, .inr hgoes⟩) (fun _ => rfl) fun h => by rw [hover] at h; cases h
        · next c hc =>
          rw [hc] at hstart
          exact .quiet hs' hruns hflag hposts ⟨hflag.trans hgoes, hstart⟩
            (fun _ => .inl ⟨hstate, .inr hgoes⟩) (fun _ => rfl) fun h => by rw [hover] at h; cases h

theorem finishGrease_resumes {state : Run} (hstate : state.inGrease = true) (report : Nat)
    {path : String} {control enabled : CaseResult} (hc : Ran path greaseProbeVariant control)
    (he : Ran path greaseProbeVariant enabled) :
    Resumes env s run state (finishGrease env s run report control (some enabled)) := by
  have hover : state.over = false := by cases state <;> first | rfl | cases hstate
  have hmatrix : state.inMatrix = false := by cases state <;> first | rfl | cases hstate
  unfold finishGrease
  split
  · exact .quiet ⟨hs.profile, hs.reports⟩ rfl rfl rfl trivial (fun h => by cases h) (fun _ => rfl)
      fun _ => rfl
  · next profile _ =>
    refine publishReport_resumes ⟨hs.profile, fun r hr => ?_⟩ rfl rfl (.inl rfl) hover fun h => by
      rw [hmatrix] at h; cases h
    obtain ⟨n, hn⟩ := List.mem_iff_getElem?.mp hr
    rw [List.getElem?_modify] at hn
    obtain ⟨old, hold, rfl⟩ := Option.map_eq_some_iff.mp hn
    split
    · intro _ d hd
      cases hd
      exact ⟨path, control, enabled, rfl, rfl, hc, he⟩
    · exact hs.reports old (List.mem_of_getElem? hold)

/-- What a step of a call does, wherever it is. -/
theorem resumeRun_resumes (state : Run) (hsound : state.Sound s.cancelRequested) (a : Answer) :
    Resumes env s run state (resumeRun env s run state a) := by
  have hstay : Resumes env s run state (s, state) := by
    refine .quiet hs rfl rfl rfl hsound (fun h => ?_) id id
    rcases Bool.or_eq_true _ _ |>.mp h with h | h
    · exact .inl ⟨h, .inl h⟩
    · exact .inr h
  have hidle {s' : Session} {state' : Run} (hs' : Intact env s') (hruns : s'.runs = s.runs)
      (hflag : s'.cancelRequested = s.cancelRequested) (hposts : s'.posts = s.posts)
      (hactive : state'.active = false) (hbegun : state.begun = true → state'.over = true) :
      Resumes env s run state (s', state') :=
    .quiet hs' hruns hflag hposts
      (Run.sound_of_not_inGrease _ (Bool.or_eq_false_iff.mp hactive).2)
      (fun h => by rw [hactive] at h; cases h)
      (fun h => by rw [Run.begun, hbegun h, Bool.or_true])
      fun h => hbegun (by rw [Run.begun, h, Bool.or_true])
  have hmatrix {state' : Run} (hstate : state.inMatrix = true) (h : state'.inMatrix = true)
      (hgrease : state'.inGrease = false) : Resumes env s run state (s, state') :=
    .quiet hs rfl rfl rfl (Run.sound_of_not_inGrease _ hgrease) (fun _ => .inl ⟨hstate, .inl h⟩)
      (fun _ => begun_of_inMatrix h) fun hover => by rw [not_over_of_inMatrix hstate] at hover; cases hover
  unfold resumeRun
  split
  · next i name version =>
    refine hidle ⟨fun p hp => ?_, hs.reports⟩ rfl rfl rfl ?_ (fun h => by cases h)
    · cases hp
      rfl
    · unfold Session.runMatrix
      split_ifs <;> rfl
  · exact hidle ⟨hs.profile, hs.reports⟩ rfl rfl rfl rfl fun h => by cases h
  · next i =>
    split
    · next hadmits => exact startMatrix_resumes hs run hadmits
    · exact hidle hs rfl rfl rfl rfl fun _ => rfl
  · exact endMatrix_resumes hs run rfl _ _
  · split
    · exact endMatrix_resumes hs run rfl _ _
    · split
      · exact hmatrix rfl rfl rfl
      · exact caseDone_resumes hs run rfl _ _ _
  · split
    · exact hmatrix rfl rfl rfl
    · exact caseDone_resumes hs run rfl _ _ _
  · exact hmatrix rfl rfl rfl
  · next report path f a =>
    obtain ⟨hgoes, hruns⟩ := hsound
    have hnext := hruns.resume a
    rw [hgoes]
    split
    · next f' hf =>
      rw [hf] at hnext
      exact .quiet hs rfl rfl rfl ⟨hgoes, hnext⟩ (fun _ => .inr rfl) (fun _ => rfl) fun h => by cases h
    · next c hc =>
      rw [hc] at hnext
      exact .quiet hs rfl rfl rfl ⟨hgoes, hnext⟩ (fun _ => .inr rfl) (fun _ => rfl) fun h => by cases h
  · next report configured control threw =>
    obtain ⟨hgoes, hran⟩ := hsound
    have hstart : Runs configured.path greaseProbeVariant
        (startOne configured.enabledBase configured.path greaseProbeVariant threw) :=
      .start _ threw
    rw [hgoes]
    split
    · next h => cases h
    · split
      · next f hf =>
        rw [hf] at hstart
        exact .quiet hs rfl rfl rfl ⟨hgoes, configured.path, hran, hstart⟩ (fun _ => .inr rfl) (fun _ => rfl) fun h => by cases h
      · next e he =>
        rw [he] at hstart
        exact finishGrease_resumes hs run rfl report hran hstart
  · next report control f a =>
    obtain ⟨hgoes, path, hran, hruns⟩ := hsound
    have hnext := hruns.resume a
    rw [hgoes]
    split
    · next f' hf =>
      rw [hf] at hnext
      exact .quiet hs rfl rfl rfl ⟨hgoes, path, hran, hnext⟩ (fun _ => .inr rfl) (fun _ => rfl) fun h => by cases h
    · next e he =>
      rw [he] at hnext
      exact finishGrease_resumes hs run rfl report hran hnext
  · exact hidle ⟨hs.profile, hs.reports⟩ rfl rfl rfl rfl fun _ => rfl
  · exact hstay

end Steps

/-! ### Sessions -/

/-- The condition on an event: Stop is not clicked while a GREASE probe is on its way, and no call
    passes its guards while a run that was stopped goes on. -/
def careful (s : Session) : Event → Bool
  | .stop => !s.canStop || s.runs.all fun r => !r.inGrease
  | .resume run _ => !(s.runs[run]?.any (Run.starts s)) || !s.cancelRequested ||
      s.runs.all fun r => !r.active
  | _ => true

/-- The condition on all events from a session on. -/
def carefulFrom (env : Environment) (s : Session) : List Event → Bool
  | [] => true
  | e :: events => careful s e && carefulFrom env (step env s e) events

/-- Stop was clicked while the run had passed its guards and had not yet asked about its report. -/
def Stopped (env : Environment) (form : Form) (events : List Event) (run : Nat) : Prop :=
  ∃ pre post, events = pre ++ .stop :: post ∧ (session env form pre).canStop = true ∧
    ∃ r, (session env form pre).runs[run]? = some r ∧ r.active = true

theorem session_snoc (env : Environment) (form : Form) (events : List Event) (e : Event) :
    session env form (events ++ [e]) = step env (session env form events) e := List.foldl_append

theorem stopped_snoc {env : Environment} {form : Form} {events : List Event} {e : Event} {run : Nat} :
    Stopped env form (events ++ [e]) run ↔ Stopped env form events run ∨
      (e = .stop ∧ (session env form events).canStop = true ∧
        ∃ r, (session env form events).runs[run]? = some r ∧ r.active = true) := by
  constructor
  · rintro ⟨pre, post, hsplit, hstop⟩
    rcases List.eq_nil_or_concat' post with rfl | ⟨post, last, rfl⟩
    · obtain ⟨rfl, hlast⟩ := List.append_inj' hsplit rfl
      cases hlast
      exact .inr ⟨rfl, hstop⟩
    · rw [← List.cons_append, ← List.append_assoc] at hsplit
      obtain ⟨rfl, -⟩ := List.append_inj' hsplit rfl
      exact .inl ⟨pre, post, rfl, hstop⟩
  · rintro (⟨pre, post, rfl, hstop⟩ | ⟨rfl, hstop⟩)
    · exact ⟨pre, post ++ [e], by simp, hstop⟩
    · exact ⟨events, [], rfl, hstop⟩

/-- The invariant of a careful session, where `stopped` are the runs that were stopped so far. -/
structure Safe (env : Environment) (stopped : Nat → Prop) (s : Session) : Prop where
  intact : Intact env s
  sound : ∀ r ∈ s.runs, r.Sound s.cancelRequested
  active : ∀ n r, s.runs[n]? = some r → r.active = true → stopped n →
    r.inMatrix = true ∧ s.cancelRequested = true
  begun : ∀ n, stopped n → ∃ r, s.runs[n]? = some r ∧ r.begun = true
  posts : ∀ p ∈ s.posts, ¬ stopped p.run ∧ p.Faithful env ∧
    ∃ r, s.runs[p.run]? = some r ∧ r.over = true

theorem Safe.call {env : Environment} {stopped : Nat → Prop} {s : Session} (h : Safe env stopped s)
    (mode : Mode) : Safe env stopped (s.call mode) := by
  have hnew : (s.runMatrix (s.inputs mode)).active = false := by
    unfold Session.runMatrix
    split_ifs <;> rfl
  refine ⟨⟨h.intact.profile, h.intact.reports⟩, fun r hr => ?_, fun n r hr hactive hstopped => ?_,
    fun n hn => ?_, fun p hp => ?_⟩
  · rcases List.mem_append.mp hr with hr | hr
    · exact h.sound r hr
    · rw [List.mem_singleton.mp hr]
      exact Run.sound_of_not_inGrease _ (Bool.or_eq_false_iff.mp hnew).2
  · obtain ⟨old, hold, -⟩ := h.begun n hstopped
    obtain ⟨hlt, -⟩ := List.getElem?_eq_some_iff.mp hold
    simp only [Session.call, List.getElem?_append_left hlt] at hr
    exact h.active n r hr hactive hstopped
  · obtain ⟨r, hr, hbegun⟩ := h.begun n hn
    obtain ⟨hlt, -⟩ := List.getElem?_eq_some_iff.mp hr
    exact ⟨r, by rw [Session.call, List.getElem?_append_left hlt, hr], hbegun⟩
  · obtain ⟨hstopped, hfaithful, r, hr, hover⟩ := h.posts p hp
    obtain ⟨hlt, -⟩ := List.getElem?_eq_some_iff.mp hr
    exact ⟨hstopped, hfaithful, r, by rw [Session.call, List.getElem?_append_left hlt, hr], hover⟩

theorem Safe.initializePage {env : Environment} {stopped : Nat → Prop} {s : Session}
    (h : Safe env stopped s) (a : Answer) : Safe env stopped (initializePage env s a) := by
  unfold Page.initializePage
  split
  · exact ⟨⟨h.intact.profile, h.intact.reports⟩, h.sound, h.active, h.begun, h.posts⟩
  · exact ⟨⟨fun p hp => by cases hp; rfl, h.intact.reports⟩, h.sound, h.active, h.begun, h.posts⟩
  · next c _ =>
    have hloaded : Safe env stopped { s with certHash := Option.or c s.certHash, init := .done } :=
      ⟨⟨h.intact.profile, h.intact.reports⟩, h.sound, h.active, h.begun, h.posts⟩
    simp only
    split
    · exact hloaded.call _
    · exact hloaded
  · exact h

/-- A step of a call keeps the invariant. -/
theorem Safe.resume {env : Environment} {stopped : Nat → Prop} {s : Session} (h : Safe env stopped s)
    {run : Nat} {state : Run} (hstate : s.runs[run]? = some state) {x : Session × Run}
    (hx : Resumes env s run state x)
    (hcareful : state.starts s = true → s.cancelRequested = true → ∀ r ∈ s.runs, r.active = false) :
    Safe env stopped { x.1 with runs := x.1.runs.set run x.2 } := by
  obtain ⟨hlt, hget⟩ := List.getElem?_eq_some_iff.mp hstate
  have hmem := List.mem_of_getElem? hstate
  -- a stopped run that goes on keeps the request to stop
  have hkept {n : Nat} {r : Run} (hr : s.runs[n]? = some r) (hactive : r.active = true)
      (hstopped : stopped n) : x.1.cancelRequested = true := by
    have hflag := (h.active n r hr hactive hstopped).2
    rcases hx.flag with hsame | ⟨hstarts, -⟩
    · rw [hsame, hflag]
    · rw [hcareful hstarts hflag r (List.mem_of_getElem? hr)] at hactive
      cases hactive
  refine ⟨⟨hx.intact.profile, hx.intact.reports⟩, fun r hr => ?_, fun n r hr hactive hstopped => ?_,
    fun n hn => ?_, fun p hp => ?_⟩
  · rw [hx.runs] at hr
    rcases List.mem_or_eq_of_mem_set hr with hr | rfl
    · rcases hx.flag with hsame | ⟨-, hfalse⟩
      · rw [hsame]
        exact h.sound r hr
      · rw [hfalse]
        exact Run.sound_false (h.sound r hr)
    · exact hx.sound
  · simp only [hx.runs] at hr
    by_cases hn : run = n
    · subst hn
      rw [List.getElem?_set_self hlt] at hr
      cases hr
      rcases hx.phase hactive with hstarts | ⟨hm, hnext⟩ | hg
      · obtain ⟨r, hr, hbegun⟩ := h.begun run hstopped
        rw [hstate] at hr
        cases hr
        rw [not_begun_of_starts hstarts] at hbegun
        cases hbegun
      · have hstate' : state.active = true := by simp [Run.active, hm]
        have hwas := (h.active run state hstate hstate' hstopped).2
        refine ⟨hnext.resolve_right fun hfalse => ?_, hkept hstate hstate' hstopped⟩
        rw [hwas] at hfalse
        cases hfalse
      · have hwas := (h.active run state hstate (by simp [Run.active, hg]) hstopped).2
        rw [(h.sound state hmem).flag hg] at hwas
        cases hwas
    · rw [List.getElem?_set_ne hn] at hr
      exact ⟨(h.active n r hr hactive hstopped).1, hkept hr hactive hstopped⟩
  · obtain ⟨r, hr, hbegun⟩ := h.begun n hn
    simp only [hx.runs]
    by_cases hrun : run = n
    · subst hrun
      rw [hstate] at hr
      cases hr
      exact ⟨x.2, List.getElem?_set_self hlt, hx.begun hbegun⟩
    · exact ⟨r, by rw [List.getElem?_set_ne hrun, hr], hbegun⟩
  · have hold (q : Post) (hq : q ∈ s.posts) : ¬ stopped q.run ∧ q.Faithful env ∧
        ∃ r, (x.1.runs.set run x.2)[q.run]? = some r ∧ r.over = true := by
      obtain ⟨hstopped, hfaithful, r, hr, hover⟩ := h.posts q hq
      refine ⟨hstopped, hfaithful, ?_⟩
      rw [hx.runs]
      by_cases hrun : run = q.run
      · subst hrun
        rw [hstate] at hr
        cases hr
        exact ⟨x.2, List.getElem?_set_self hlt, (hx.settled hover).1⟩
      · exact ⟨r, by rw [List.getElem?_set_ne hrun, hr], hover⟩
    rcases hx.posts with hsame | ⟨q, hposts, rfl, hover, hfaithful, hgoes⟩
    · exact hold p (hsame ▸ hp)
    · rw [hposts] at hp
      rcases List.mem_append.mp hp with hp | hp
      · exact hold p hp
      · rw [List.mem_singleton.mp hp]
        refine ⟨fun hstopped => ?_, hfaithful, x.2, by rw [hx.runs, List.getElem?_set_self hlt], hover⟩
        obtain ⟨r, hr, hbegun⟩ := h.begun q.run hstopped
        rw [hstate] at hr
        cases hr
        rcases Bool.or_eq_true _ _ |>.mp hbegun with hactive | hover
        · obtain ⟨hm, hflag⟩ := h.active q.run state hstate hactive hstopped
          rw [hgoes hm] at hflag
          cases hflag
        · have hsame := (hx.settled hover).2
          rw [hposts] at hsame
          simp at hsame

/-- One event of a careful session. -/
theorem safe_step {env : Environment} {form : Form} {events : List Event} {e : Event}
    (h : Safe env (Stopped env form events) (session env form events))
    (hcareful : careful (session env form events) e = true) :
    Safe env (Stopped env form (events ++ [e])) (session env form (events ++ [e])) := by
  rw [session_snoc]
  have hsame (hne : e ≠ .stop) : Stopped env form (events ++ [e]) = Stopped env form events := by
    funext n
    rw [stopped_snoc]
    simp [hne]
  cases e with
  | edit form' =>
    rw [hsame (by simp)]
    exact ⟨⟨h.intact.profile, h.intact.reports⟩, h.sound, h.active, h.begun, h.posts⟩
  | init a =>
    rw [hsame (by simp)]
    exact h.initializePage a
  | click mode =>
    rw [hsame (by simp), step]
    split
    · exact h.call mode
    · exact h
  | stop =>
    rw [step]
    split
    · next hcan =>
      have hgrease : ∀ r ∈ (session env form events).runs, r.inGrease = false := by
        simpa [careful, hcan] using hcareful
      refine ⟨⟨h.intact.profile, h.intact.reports⟩, fun r hr => ?_, fun n r hr hactive _ => ⟨?_, rfl⟩,
        fun n hn => ?_, fun p hp => ?_⟩
      · exact Run.sound_of_not_inGrease _ (hgrease r hr)
      · simpa [Run.active, hgrease r (List.mem_of_getElem? hr)] using hactive
      · rcases stopped_snoc.mp hn with hn | ⟨-, -, r, hr, hactive⟩
        · exact h.begun n hn
        · exact ⟨r, hr, by simp [Run.begun, hactive]⟩
      · obtain ⟨hstopped, hfaithful, r, hr, hover⟩ := h.posts p hp
        refine ⟨fun hn => ?_, hfaithful, r, hr, hover⟩
        rcases stopped_snoc.mp hn with hn | ⟨-, -, r', hr', hactive⟩
        · exact hstopped hn
        · rw [hr] at hr'
          cases hr'
          rw [not_active_of_over hover] at hactive
          cases hactive
    · next hcannot =>
      have hsame' : Stopped env form (events ++ [.stop]) = Stopped env form events := by
        funext n
        rw [stopped_snoc]
        simp [hcannot]
      rw [hsame']
      exact h
  | resume run a =>
    rw [hsame (by simp), step]
    split
    · exact h
    · next state hstate =>
      have hsound := h.sound state (List.mem_of_getElem? hstate)
      refine h.resume hstate (resumeRun_resumes h.intact run state hsound a) fun hstarts hflag => ?_
      simpa [careful, hstate, hstarts, hflag] using hcareful

theorem carefulFrom_snoc (env : Environment) (e : Event) : ∀ (events : List Event) (s : Session),
    carefulFrom env s (events ++ [e]) =
      (carefulFrom env s events && careful (events.foldl (step env) s) e)
  | [], s => by simp [carefulFrom]
  | e' :: events, s => by
    simp only [List.cons_append, carefulFrom, carefulFrom_snoc env e events, List.foldl_cons,
      Bool.and_assoc]

theorem safe_session {env : Environment} {form : Form} {events : List Event}
    (h : carefulFrom env (opened form) events = true) :
    Safe env (Stopped env form events) (session env form events) := by
  induction events using List.reverseRecOn with
  | nil =>
    refine ⟨⟨fun p hp => ?_, fun r hr => ?_⟩, fun r hr => ?_, fun n r hr => ?_, fun n hn => ?_,
      fun p hp => ?_⟩
    · cases hp
    · cases hr
    · cases hr
    · cases hr
    · obtain ⟨pre, post, hsplit, -⟩ := hn
      simp at hsplit
    · cases hp
  | append_singleton events e ih =>
    rw [carefulFrom_snoc, Bool.and_eq_true] at h
    exact safe_step (ih h.1) h.2

/-- In a careful session no run that was stopped is ever posted, and where the browser has the API, a
    verdict that the store makes of what was posted comes from two probes that ran to their end. -/
theorem stopped_not_posted (env : Environment) (form : Form) (events : List Event)
    (h : carefulFrom env (opened form) events = true) : ∀ p ∈ (session env form events).posts,
      ¬ Stopped env form events p.run ∧
      (env.webTransportConstructible = true → ∀ receivedAt requireGrease snapshot,
        sanitizeSubmission p.payload receivedAt requireGrease = .ok snapshot →
        snapshot.grease.isSome = true →
        ∃ d, p.report.greaseDifferential = some d ∧ d.Complete) := by
  intro p hp
  obtain ⟨hstopped, ⟨hcomplete, profile, summary, hpayload⟩, -⟩ := (safe_session h).posts p hp
  refine ⟨hstopped, fun hconstructible receivedAt requireGrease snapshot hsnapshot hsome => ?_⟩
  cases hd : p.report.greaseDifferential with
  | some d => exact ⟨d, rfl, hcomplete hconstructible d hd⟩
  | none =>
    have hnull : (Value.json p.payload).optional "grease" = .json .null := by
      rw [hpayload]
      simp [publicationPayload, publicationGreaseDifferential, hd, Json.get, List.lookup_cons]
    have hgrease := (sanitizeSubmission_eq_ok.mp hsnapshot).2.grease
    rw [hnull] at hgrease
    rw [← Except.ok.inj hgrease] at hsome
    cases hsome

/-! ### A stop while a probe is on its way -/

/-- A browser with the API, and a page that is configured for the differential. -/
def browser : Environment where
  origin := some
  secureContext := true
  webTransportConstructible := true
  autorun := none
  exhaustive := false

def pageForm : Form where
  targetBase := "https://wt.example:4433"
  delay := false
  path _ := true
  variant _ := true
  runGrease := true
  publishResult := true

def pageConfig : RuntimeConfig where
  resultsEnabled := true
  targetBase := some "https://wt.example:4433"
  greaseDifferential := some
    { controlBase := some "https://wt.example:4434"
      enabledBase := some "https://wt.example:4435"
      path := none }
  autorun := false
  defaultMode := none

/-- The page is loaded and the exhaustive run started. -/
def startedRun : List Event :=
  [.init (.config (some pageConfig)), .init (.profile "Firefox" (some "141.0")),
    .init (.cert (some { hashUsable := some false })), .click .exhaustive, .resume 0 .go]

/-- One case, or one probe, in which everything passes, up to its last await. -/
def passingCase : List Event :=
  [.resume 0 (.construct none), .resume 0 (.probe (.ready (.fulfilled ()))),
    .resume 0 (.probe (.datagram (.ok ⟨true, .fulfilled (), .fulfilled (some [])⟩))),
    .resume 0 (.probe (.bidirectionalStream (.ok ⟨.fulfilled (), .fulfilled (), .fulfilled (some [])⟩))),
    .resume 0 (.probe (.unidirectionalStream (.ok
      ⟨.fulfilled (), .fulfilled (), some (.fulfilled true), .fulfilled (some [])⟩)))]

def closedCase : List Event := passingCase ++ [.resume 0 (.probe .closed)]

/-- All cases and the control probe have passed, and the probe's transport is being closed. -/
def controlClosing : List Event :=
  startedRun ++ (List.replicate 128 closedCase).flatten ++ passingCase

/-- Stop, then the control probe is over and the run looks at the request. -/
def stoppedInControl : List Event :=
  controlClosing ++ .stop :: [.resume 0 (.probe .closed), .resume 0 (.construct none)]

set_option maxRecDepth 100000 in
theorem controlClosing_active : (session browser pageForm controlClosing).canStop = true ∧
    (session browser pageForm controlClosing).runs[0]?.any Run.active = true := by decide +kernel

set_option maxRecDepth 100000 in
/-- The stopped run is posted, with a probe that never ran, and stored as affected by GREASE. -/
theorem stoppedInControl_posted : Stopped browser pageForm stoppedInControl 0 ∧
    ((session browser pageForm stoppedInControl).posts.any fun p =>
      decide (p.run = 0) && (p.report.greaseDifferential.any fun d => d.enabled.isNone) &&
      (sanitizeSubmission p.payload "2026-07-16T12:00:00.000Z" true).toOption.any fun s =>
        s.grease.any fun g => decide (g.verdict = .affected)) = true := by
  obtain ⟨hcan, hactive⟩ := controlClosing_active
  obtain ⟨r, hr, hactive⟩ := Option.any_eq_true _ _ |>.mp hactive
  exact ⟨⟨controlClosing, _, rfl, hcan, r, hr, hactive⟩, by decide +kernel⟩

/-- A run that is stopped in its first case. -/
def stoppedInMatrix : List Event :=
  startedRun ++ [.resume 0 (.construct none), .stop, .resume 0 (.probe (.ready .timeout)),
    .resume 0 (.probe .closed), .resume 0 (.construct none)]

/-- The same event of another run. -/
def Event.inRun (run : Nat) : Event → Event
  | .resume _ a => .resume run a
  | e => e

/-- The stopped run, and then one that nobody stops. -/
def stoppedThenRun : List Event :=
  stoppedInMatrix ++ .click .exhaustive :: .resume 1 .go ::
    ((List.replicate 128 closedCase).flatten ++ closedCase ++ closedCase).map (Event.inRun 1)

set_option maxRecDepth 100000 in
theorem stoppedThenRun_careful : carefulFrom browser (opened pageForm) stoppedThenRun = true := by
  decide +kernel

set_option maxRecDepth 100000 in
theorem stoppedThenRun_stored : ((session browser pageForm stoppedThenRun).posts.any fun p =>
    (sanitizeSubmission p.payload "2026-07-16T12:00:00.000Z" true).toOption.any fun s =>
      s.grease.isSome) = true := by
  decide +kernel

/-- Only the second run is posted, with both probes. -/
theorem stoppedThenRun_posted : ∃ p ∈ (session browser pageForm stoppedThenRun).posts,
    ¬ Stopped browser pageForm stoppedThenRun p.run ∧
    ∃ d, p.report.greaseDifferential = some d ∧ d.Complete := by
  obtain ⟨p, hp, hstored⟩ := List.any_eq_true.mp stoppedThenRun_stored
  obtain ⟨snapshot, hsnapshot, hsome⟩ := Option.any_eq_true _ _ |>.mp hstored
  obtain ⟨hstopped, hcomplete⟩ :=
    stopped_not_posted browser pageForm stoppedThenRun stoppedThenRun_careful p hp
  have haccepted : sanitizeSubmission p.payload "2026-07-16T12:00:00.000Z" true = .ok snapshot := by
    cases hs : sanitizeSubmission p.payload "2026-07-16T12:00:00.000Z" true with
    | error e =>
      rw [hs] at hsnapshot
      cases hsnapshot
    | ok s =>
      rw [hs] at hsnapshot
      rw [Option.some.inj hsnapshot]
  exact ⟨p, hp, hstopped, hcomplete rfl _ _ snapshot haccepted hsome⟩

end WebTransportEcho.Page
