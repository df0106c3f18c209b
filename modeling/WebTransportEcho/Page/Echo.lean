import WebTransportEcho.Page.Probe

/-! What an echo that passed shows. The tests compare nothing: a datagram test and a bidirectional one
    pass when the payload was written and something was read, whatever it was, and a unidirectional
    one passes without an incoming stream too. So a case that is counted as a full echo has sent all
    three payloads and has read something twice. -/

namespace WebTransportEcho.Page
open Js Store

/-! ### `classifyOutcome` -/

def Status.text : Status → String
  | .fulfilled => "fulfilled"
  | .timeout => "timeout"
  | .rejected => "rejected"
  | .notRun => "not-run"

def classifyOutcome (c : CaseResult) : String :=
  let bidi := c.passed .bidirectionalStream
  let uni := c.passed .unidirectionalStream
  let datagram := c.passed .datagram
  if c.cancelled then "stopped"
  else if !c.passed .constructor then "constructor rejected"
  else if !c.passed .ready then
    "ready " ++ ((c.stage .ready).map fun r => r.status.text).getD "failed"
  else if bidi && uni && datagram then "full echo pass"
  else if bidi && uni && datagramUnavailable (c.stage .datagram) then
    "stream echo pass; datagram API unavailable"
  else if bidi && uni then "stream echo pass; datagram failed"
  else if bidi || uni || datagram then "ready fulfilled; partial echo"
  else "ready fulfilled; echo failed"

/-- The case is one of `fullEcho`. -/
def CaseResult.fullEcho (c : CaseResult) : Bool :=
  c.passed .ready && c.passed .datagram && c.passed .bidirectionalStream &&
    c.passed .unidirectionalStream

theorem fullEcho_iff {c : CaseResult} : c.fullEcho = true ↔ c.passed .ready = true ∧
    c.passed .datagram = true ∧ c.passed .bidirectionalStream = true ∧
    c.passed .unidirectionalStream = true := by
  simp only [CaseResult.fullEcho, Bool.and_eq_true, and_assoc]

theorem fullEcho_of_classifyOutcome {c : CaseResult} (h : classifyOutcome c = "full echo pass") :
    c.fullEcho = true := by
  rw [classifyOutcome] at h
  split_ifs at h with hcancelled hconstructor hready hecho
  · exact absurd h (by decide)
  · exact absurd h (by decide)
  · have hfirst := congrArg (fun s => s.toList.head?) h
    simp at hfirst
  · simp only [Bool.and_eq_true] at hecho
    exact fullEcho_iff.mpr ⟨by simpa using hready, hecho.2, hecho.1.1, hecho.1.2⟩
  all_goals exact absurd h (by decide)

/-! ### The tests -/

structure DatagramExchanged (t : DatagramTest) : Prop where
  streams : t.streams = true
  written : t.write = .fulfilled ()
  read : ∃ bytes, t.read = .fulfilled (some bytes)

structure BidiExchanged (t : BidiTest) : Prop where
  created : t.created = .fulfilled ()
  written : t.write = .fulfilled ()
  read : ∃ bytes, t.read = .fulfilled (some bytes)

/-- The payload was written. Where incoming streams can be read, that read and the read of the stream
    it gave, if any, were fulfilled. -/
structure UniSent (t : UniTest) : Prop where
  created : t.created = .fulfilled ()
  written : t.write = .fulfilled ()
  incoming : t.incoming = none ∨ t.incoming = some (.fulfilled false) ∨
    t.incoming = some (.fulfilled true) ∧ ∃ chunk, t.read = .fulfilled chunk

theorem capture_ok {α : Type} {label : String} {c : Capture α} (h : (capture label c).ok = true) :
    ∃ value, c = .fulfilled value := by
  cases c with
  | fulfilled value => exact ⟨value, rfl⟩
  | timeout | rejected => cases h

theorem exchanged_of_testDatagram {t : DatagramTest} (h : (testDatagram t).ok = true) :
    DatagramExchanged t := by
  obtain ⟨streams, write, read⟩ := t
  cases streams with
  | false => cases h
  | true =>
    cases write with
    | timeout | rejected => cases h
    | fulfilled =>
      cases read with
      | timeout | rejected => cases h
      | fulfilled chunk =>
        cases chunk with
        | none => cases h
        | some bytes => exact ⟨rfl, rfl, bytes, rfl⟩

theorem exchanged_of_testBidi {t : BidiTest} (h : (testBidi t).ok = true) : BidiExchanged t := by
  obtain ⟨created, write, read⟩ := t
  cases created with
  | timeout | rejected => cases h
  | fulfilled =>
    cases write with
    | timeout | rejected => cases h
    | fulfilled =>
      cases read with
      | timeout | rejected => cases h
      | fulfilled chunk =>
        cases chunk with
        | none => cases h
        | some bytes => exact ⟨rfl, rfl, bytes, rfl⟩

theorem sent_of_testUni {t : UniTest} (h : (testUni t).ok = true) : UniSent t := by
  obtain ⟨created, write, incoming, read⟩ := t
  cases created with
  | timeout | rejected => cases h
  | fulfilled =>
    cases write with
    | timeout | rejected => cases h
    | fulfilled =>
      refine ⟨rfl, rfl, ?_⟩
      cases incoming with
      | none => exact Or.inl rfl
      | some incoming =>
        cases incoming with
        | timeout | rejected => cases h
        | fulfilled delivered =>
          cases delivered with
          | false => exact Or.inr (Or.inl rfl)
          | true => exact Or.inr (Or.inr ⟨rfl, capture_ok (by cases read <;> first | rfl | exact h)⟩)

theorem ok_of_runProbe {α : Type} {label : String} {probe : α → StageResult} {t : Except String α}
    (h : (runProbe label probe t).ok = true) : ∃ t', t = .ok t' ∧ (probe t').ok = true := by
  cases t with
  | ok t => exact ⟨t, rfl, h⟩
  | error thrown => cases h

/-! ### The awaits of a case -/

def ProbeAnswer.awaited : ProbeAnswer → Awaiting
  | .ready _ => .ready
  | .datagram _ => .datagram
  | .bidirectionalStream _ => .bidirectionalStream
  | .unidirectionalStream _ => .unidirectionalStream
  | .closed => .closed

/-- A case with the answers to its awaits. The page may be stopped before any of them. -/
inductive Answered (path : String) (variant : Variant) : List ProbeAnswer → Frame ⊕ CaseResult → Prop
  | start (base : String) (threw : Option String) :
    Answered path variant [] (startOne base path variant threw)
  | resume {answers : List ProbeAnswer} {f : Frame} (h : Answered path variant answers (.inl f))
    (cancelRequested : Bool) (a : ProbeAnswer) (ha : a.awaited = f.awaiting) :
    Answered path variant (answers ++ [a]) (resumeOne cancelRequested f a)

/-- Every await of the case was answered, the tests' awaits with an exchange. -/
def Exchanged (answers : List ProbeAnswer) : Prop :=
  ∃ d b u, answers = [.ready (.fulfilled ()), .datagram (.ok d), .bidirectionalStream (.ok b),
      .unidirectionalStream (.ok u), .closed] ∧
    DatagramExchanged d ∧ BidiExchanged b ∧ UniSent u

theorem passed_set_self (c : CaseResult) (s : Stage) (r : StageResult) :
    (c.set s r).passed s = r.ok := by
  have hstage : (c.set s r).stage s = some r := Function.update_self ..
  rw [ResultOf.passed, hstage, Option.any_some]

theorem passed_set_of_ne {s t : Stage} (hne : s ≠ t) (c : CaseResult) (r : StageResult) :
    (c.set t r).passed s = c.passed s := by
  have hstage : (c.set t r).stage s = c.stage s := Function.update_of_ne hne ..
  rw [ResultOf.passed, hstage, ResultOf.passed]

theorem skipStages_cons (detail : String) (s : Stage) (stages : List Stage) (c : CaseResult) :
    skipStages detail (s :: stages) c = skipStages detail stages (c.set s (skipped detail)) := rfl

theorem skipStages_of_not_passed {s : Stage} (detail : String) (stages : List Stage) {c : CaseResult}
    (h : c.passed s = false) : (skipStages detail stages c).passed s = false := by
  induction stages generalizing c with
  | nil => exact h
  | cons t stages ih =>
    rw [skipStages_cons]
    refine ih ?_
    by_cases hs : s = t
    · rw [hs, passed_set_self]
      rfl
    · rw [passed_set_of_ne hs, h]

/-- A stage that is skipped did not pass. -/
theorem skipStages_not_passed {s : Stage} (detail : String) {stages : List Stage} (c : CaseResult)
    (h : s ∈ stages) : (skipStages detail stages c).passed s = false := by
  induction stages generalizing c with
  | nil => cases h
  | cons t stages ih =>
    rw [skipStages_cons]
    rcases List.mem_cons.mp h with rfl | h
    · refine skipStages_of_not_passed detail stages ?_
      rw [passed_set_self]
      rfl
    · exact ih _ h

/-- What the answers so far say of a case at each of its awaits. -/
def Frame.Shows (answers : List ProbeAnswer) (f : Frame) : Prop :=
  match f.awaiting with
  | .ready => answers = []
  | .datagram => answers = [.ready (.fulfilled ())]
  | .bidirectionalStream => ∃ d, answers = [.ready (.fulfilled ()), .datagram d] ∧
      (f.result.passed .datagram = true → ∃ t, d = .ok t ∧ DatagramExchanged t)
  | .unidirectionalStream => ∃ d b,
      answers = [.ready (.fulfilled ()), .datagram d, .bidirectionalStream b] ∧
      (f.result.passed .datagram = true → ∃ t, d = .ok t ∧ DatagramExchanged t) ∧
      (f.result.passed .bidirectionalStream = true → ∃ t, b = .ok t ∧ BidiExchanged t)
  | .closed => f.result.fullEcho = true → Exchanged (answers ++ [.closed])

def StepShows (answers : List ProbeAnswer) : Frame ⊕ CaseResult → Prop
  | .inl f => f.Shows answers
  | .inr c => c.fullEcho = true → Exchanged answers

theorem close_passed (cancelRequested : Bool) (c : CaseResult) (s : Stage) :
    (close cancelRequested c).result.passed s = c.passed s := rfl

/-- A case that skips an echo test is no full echo. -/
theorem close_shows {answers : List ProbeAnswer} {c : CaseResult} (cancelRequested : Bool)
    (h : c.passed .unidirectionalStream = false) : (close cancelRequested c).Shows answers := by
  intro hecho
  have huni := (fullEcho_iff.mp hecho).2.2.2
  rw [close_passed, h] at huni
  cases huni

theorem proceed_shows {answers : List ProbeAnswer} {next : Awaiting} {left : List Stage} {c : CaseResult}
    (cancelRequested : Bool) (hleft : Stage.unidirectionalStream ∈ left)
    (h : Frame.Shows answers { awaiting := next, result := c }) :
    (proceed cancelRequested next left c).Shows answers := by
  rw [proceed]
  split_ifs
  · exact close_shows true (skipStages_not_passed _ _ hleft)
  · exact h

theorem ready_shows {c : Capture Unit} (cancelRequested : Bool) (result : CaseResult) :
    StepShows [.ready c] (resumeOne cancelRequested { awaiting := .ready, result } (.ready c)) := by
  simp only [resumeOne]
  split_ifs with hok
  · exact close_shows cancelRequested (skipStages_not_passed _ _ (by decide))
  · obtain ⟨_, rfl⟩ := capture_ok (by simpa using hok)
    exact proceed_shows cancelRequested (by decide) rfl

theorem resumeOne_shows {answers : List ProbeAnswer} {f : Frame} (h : f.Shows answers)
    (cancelRequested : Bool) {a : ProbeAnswer} (ha : a.awaited = f.awaiting) :
    StepShows (answers ++ [a]) (resumeOne cancelRequested f a) := by
  obtain ⟨awaiting, result⟩ := f
  cases a with
  | ready c =>
    cases ha
    obtain rfl : answers = [] := h
    exact ready_shows cancelRequested result
  | datagram t =>
    cases ha
    obtain rfl : answers = [.ready (.fulfilled ())] := h
    refine proceed_shows cancelRequested (by decide) ⟨t, rfl, fun hpassed => ?_⟩
    rw [passed_set_self] at hpassed
    obtain ⟨d, rfl, hok⟩ := ok_of_runProbe hpassed
    exact ⟨d, rfl, exchanged_of_testDatagram hok⟩
  | bidirectionalStream t =>
    cases ha
    obtain ⟨d, rfl, hd⟩ := h
    refine proceed_shows cancelRequested (by decide) ⟨d, t, rfl, fun hpassed => ?_, fun hpassed => ?_⟩
    · rw [passed_set_of_ne (by decide)] at hpassed
      exact hd hpassed
    · rw [passed_set_self] at hpassed
      obtain ⟨b, rfl, hok⟩ := ok_of_runProbe hpassed
      exact ⟨b, rfl, exchanged_of_testBidi hok⟩
  | unidirectionalStream t =>
    cases ha
    obtain ⟨d, b, rfl, hd, hb⟩ := h
    intro hecho
    obtain ⟨-, hdatagram, hbidi, huni⟩ := fullEcho_iff.mp hecho
    rw [close_passed, passed_set_of_ne (by decide)] at hdatagram hbidi
    rw [close_passed, passed_set_self] at huni
    obtain ⟨d, rfl, hdatagram⟩ := hd hdatagram
    obtain ⟨b, rfl, hbidi⟩ := hb hbidi
    obtain ⟨u, rfl, hok⟩ := ok_of_runProbe huni
    exact ⟨d, b, u, rfl, hdatagram, hbidi, sent_of_testUni hok⟩
  | closed =>
    cases ha
    exact h

theorem Answered.shows {path : String} {variant : Variant} {answers : List ProbeAnswer}
    {x : Frame ⊕ CaseResult} (h : Answered path variant answers x) : StepShows answers x := by
  induction h with
  | start base threw =>
    cases threw with
    | none => rfl
    | some detail =>
      intro hecho
      have hready : ((emptyResult base path variant).set .constructor (rejectedStage detail)).passed .ready =
          true := (fullEcho_iff.mp hecho).1
      rw [passed_set_of_ne (by decide)] at hready
      cases hready
  | resume _ cancelRequested a ha ih => exact resumeOne_shows ih cancelRequested ha

/-- A test that passed has written its payload, and the datagram and the bidirectional one have read
    something. So has a case that is counted in `fullEcho` or classified as a full echo. -/
theorem passed_exchanged :
    (∀ t, (testDatagram t).ok = true → DatagramExchanged t) ∧
      (∀ t, (testBidi t).ok = true → BidiExchanged t) ∧
      (∀ t, (testUni t).ok = true → UniSent t) ∧
      ∀ path variant answers c, Answered path variant answers (.inr c) →
        c.fullEcho = true ∨ classifyOutcome c = "full echo pass" → Exchanged answers := by
  refine ⟨fun t => exchanged_of_testDatagram, fun t => exchanged_of_testBidi,
    fun t => sent_of_testUni, fun path variant answers c h hcounted => ?_⟩
  rcases hcounted with hcount | hclass
  · exact h.shows hcount
  · exact h.shows (fullEcho_of_classifyOutcome hclass)

/-! ### An echo of something else -/

/-- The payload came back on every channel. -/
def Echoed (payload : List UInt8) (answers : List ProbeAnswer) : Prop :=
  ∃ d b u, answers = [.ready (.fulfilled ()), .datagram (.ok d), .bidirectionalStream (.ok b),
      .unidirectionalStream (.ok u), .closed] ∧ d.read = .fulfilled (some payload) ∧
    b.read = .fulfilled (some payload) ∧ u.read = .fulfilled (some payload)

/-- Other bytes come back in a datagram, none on a bidirectional stream, and there is no reader of
    incoming streams. -/
def foreignDatagram : DatagramTest where
  streams := true
  write := .fulfilled ()
  read := .fulfilled (some [2])

def foreignBidi : BidiTest where
  created := .fulfilled ()
  write := .fulfilled ()
  read := .fulfilled (some [])

def silentUni : UniTest where
  created := .fulfilled ()
  write := .fulfilled ()
  incoming := none
  read := .timeout

def foreignEcho : List ProbeAnswer :=
  [.ready (.fulfilled ()), .datagram (.ok foreignDatagram), .bidirectionalStream (.ok foreignBidi),
    .unidirectionalStream (.ok silentUni), .closed]

/-- The case is a full echo all the same, and no payload was echoed. -/
theorem foreignEcho_passes : ∃ c, Answered "/wt/basic" ⟨"curated-0", []⟩ foreignEcho (.inr c) ∧
    (summarizeResults [c] 1).count .fullEcho = 1 ∧ classifyOutcome c = "full echo pass" ∧
    ∀ payload, ¬ Echoed payload foreignEcho := by
  have hstart : Answered "/wt/basic" ⟨"curated-0", []⟩ []
      (startOne "https://localhost:9443" "/wt/basic" ⟨"curated-0", []⟩ none) := .start _ none
  have hready := hstart.resume false (.ready (.fulfilled ())) rfl
  have hdatagram := hready.resume false (.datagram (.ok foreignDatagram)) rfl
  have hbidi := hdatagram.resume false (.bidirectionalStream (.ok foreignBidi)) rfl
  have huni := hbidi.resume false (.unidirectionalStream (.ok silentUni)) rfl
  refine ⟨_, huni.resume false .closed rfl, by decide, by decide, ?_⟩
  rintro payload ⟨d, b, u, hanswers, -, -, hread⟩
  cases hanswers
  cases hread

end WebTransportEcho.Page
