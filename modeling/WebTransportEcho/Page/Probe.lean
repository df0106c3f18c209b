import WebTransportEcho.Page.Matrix

/-! `runOne`: one WebTransport is constructed, its `ready` awaited, then the three echo tests and
    `closed`. Between two awaits the page may be stopped, and what is left is then skipped.

    What a transport does in an awaited test is the test's input. `Ran` are the results that are
    possible while nothing is stopped. -/

namespace WebTransportEcho.Page
open Js Store

/-! ### Awaiting with a timeout -/

/-- How a promise that is raced with a timeout ends. -/
inductive Capture (α : Type) where
  | fulfilled (value : α)
  | timeout
  | rejected (detail : String)

def fulfilledStage : StageResult := { ok := true, status := .fulfilled, detail := "" }

def rejectedStage (detail : String) : StageResult := { ok := false, status := .rejected, detail }

def skipped (detail : String) : StageResult := { ok := false, status := .notRun, detail }

/-- `capture(label, promise, ms)`. -/
def capture {α : Type} (label : String) : Capture α → StageResult
  | .fulfilled _ => fulfilledStage
  | .timeout => { ok := false, status := .timeout, detail := label }
  | .rejected detail => rejectedStage detail

/-! ### The echo tests -/

/-- What a reader gives: bytes, or nothing when it is done. -/
abbrev Chunk := Option (List UInt8)

/-- A datagram test: whether the datagrams have both streams, then how the awaits end. -/
structure DatagramTest where
  streams : Bool
  write : Capture Unit
  read : Capture Chunk

def testDatagram (t : DatagramTest) : StageResult :=
  if !t.streams then skipped "datagram streams unavailable"
  else match t.write with
    | .fulfilled _ =>
      match t.read with
      | .fulfilled none => rejectedStage "datagram readable done"
      | read => capture "datagram read" read
    | write => capture "datagram write" write

structure BidiTest where
  created : Capture Unit
  write : Capture Unit
  read : Capture Chunk

def testBidi (t : BidiTest) : StageResult :=
  match t.created with
  | .fulfilled _ =>
    match t.write with
    | .fulfilled _ =>
      match t.read with
      | .fulfilled none => rejectedStage "bidi readable done"
      | read => capture "bidi read" read
    | write => capture "bidi write" write
  | created => capture "createBidirectionalStream" created

/-- A unidirectional test. Without a reader of incoming streams there is no `incoming`; `false` in it
    says that the reader is done. -/
structure UniTest where
  created : Capture Unit
  write : Capture Unit
  incoming : Option (Capture Bool)
  read : Capture Chunk

def sent (r : StageResult) : StageResult := { r with detail := "sent; " ++ r.detail }

def testUni (t : UniTest) : StageResult :=
  match t.created with
  | .fulfilled _ =>
    match t.write with
    | .fulfilled _ =>
      match t.incoming with
      | none => fulfilledStage
      | some (.fulfilled false) => fulfilledStage
      | some (.fulfilled true) =>
        match t.read with
        | .fulfilled _ => fulfilledStage
        | read => sent (capture "incoming uni read" read)
      | some incoming => sent (capture "incoming unidirectional stream" incoming)
    | write => capture "uni write" write
  | created => capture "createUnidirectionalStream" created

/-- `runProbe(label, probe)`, where the probe may throw. -/
def runProbe {α : Type} (label : String) (probe : α → StageResult) : Except String α → StageResult
  | .ok t => probe t
  | .error thrown => rejectedStage (label ++ ": " ++ thrown)

/-! ### `runOne` -/

inductive Awaiting where
  | ready | datagram | bidirectionalStream | unidirectionalStream | closed
  deriving DecidableEq

/-- A case that awaits something. -/
structure Frame where
  awaiting : Awaiting
  result : CaseResult

/-- What a case awaited. -/
inductive ProbeAnswer where
  | ready (c : Capture Unit)
  | datagram (t : Except String DatagramTest)
  | bidirectionalStream (t : Except String BidiTest)
  | unidirectionalStream (t : Except String UniTest)
  | closed

def CaseResult.set (c : CaseResult) (s : Stage) (r : StageResult) : CaseResult :=
  { c with stage := Function.update c.stage s (some r) }

/-- `base.replace(/\/$/, "")`. -/
def dropSlash (base : List Char) : List Char :=
  if base.getLast? = some '/' then base.dropLast else base

/-- The URL that `runOne` opens. -/
def runUrl (base path : String) : String := String.ofList (dropSlash base.toList ++ path.toList)

def emptyResult (base path : String) (variant : Variant) : CaseResult where
  url := runUrl base path
  path := path
  variantId := variant.id
  optionKeys := variant.optionKeys
  stage _ := none
  cancelled := false

/-- `runOne` up to its first await. A constructor that throws ends it. -/
def startOne (base path : String) (variant : Variant) (threw : Option String) : Frame ⊕ CaseResult :=
  match threw with
  | some detail => .inr ((emptyResult base path variant).set .constructor (rejectedStage detail))
  | none => .inl { awaiting := .ready,
                   result := (emptyResult base path variant).set .constructor fulfilledStage }

def skipStages (detail : String) (stages : List Stage) (c : CaseResult) : CaseResult :=
  stages.foldl (fun c s => c.set s (skipped detail)) c

/-- The tests of the transport are over, or left out. -/
def close (cancelRequested : Bool) (c : CaseResult) : Frame :=
  { awaiting := .closed, result := { c with cancelled := cancelRequested } }

/-- The next test, unless the page is stopped: then all that are left are skipped. -/
def proceed (cancelRequested : Bool) (next : Awaiting) (left : List Stage) (c : CaseResult) : Frame :=
  if cancelRequested then close true (skipStages "skipped: run stopped" left c)
  else { awaiting := next, result := c }

/-- `runOne` from one await to the next. An answer to something else changes nothing. -/
def resumeOne (cancelRequested : Bool) (f : Frame) (a : ProbeAnswer) : Frame ⊕ CaseResult :=
  match f.awaiting, a with
  | .ready, .ready c =>
    let ready := capture "ready" c
    let result := f.result.set .ready ready
    if !ready.ok then
      .inl (close cancelRequested (skipStages "skipped: ready failed"
        [.datagram, .bidirectionalStream, .unidirectionalStream] result))
    else .inl (proceed cancelRequested .datagram
      [.datagram, .bidirectionalStream, .unidirectionalStream] result)
  | .datagram, .datagram t =>
    .inl (proceed cancelRequested .bidirectionalStream [.bidirectionalStream, .unidirectionalStream]
      (f.result.set .datagram (runProbe "datagram" testDatagram t)))
  | .bidirectionalStream, .bidirectionalStream t =>
    .inl (proceed cancelRequested .unidirectionalStream [.unidirectionalStream]
      (f.result.set .bidirectionalStream (runProbe "bidirectional stream" testBidi t)))
  | .unidirectionalStream, .unidirectionalStream t =>
    .inl (close cancelRequested
      (f.result.set .unidirectionalStream (runProbe "unidirectional stream" testUni t)))
  | .closed, .closed => .inr f.result
  | _, _ => .inl f

/-- What `runOne` can get to while nothing is stopped. -/
inductive Runs (path : String) (variant : Variant) : Frame ⊕ CaseResult → Prop where
  | start (base : String) (threw : Option String) : Runs path variant (startOne base path variant threw)
  | resume {f : Frame} (h : Runs path variant (.inl f)) (a : ProbeAnswer) :
    Runs path variant (resumeOne false f a)

abbrev Ran (path : String) (variant : Variant) (c : CaseResult) : Prop := Runs path variant (.inr c)

/-! ### The shape of a result -/

/-- An echo test that was not skipped: it passed or failed, or the datagrams had no streams. -/
inductive Tested (s : Stage) (r : StageResult) : Prop where
  | ran (h : r.status ≠ .notRun)
  | unavailable (hs : s = .datagram) (h : r = skipped "datagram streams unavailable")

/-- A stage passed exactly when its status says so. -/
def StageResult.Coherent (r : StageResult) : Prop := r.ok = true ↔ r.status = .fulfilled

theorem capture_coherent {α : Type} (label : String) (c : Capture α) :
    (capture label c).Coherent ∧ (capture label c).status ≠ .notRun := by
  cases c <;> simp [capture, StageResult.Coherent, fulfilledStage, rejectedStage]

theorem sent_coherent {r : StageResult} (h : r.Coherent ∧ r.status ≠ .notRun) :
    (sent r).Coherent ∧ (sent r).status ≠ .notRun := h

theorem fulfilledStage_coherent : fulfilledStage.Coherent ∧ fulfilledStage.status ≠ .notRun :=
  ⟨by simp [StageResult.Coherent, fulfilledStage], by simp [fulfilledStage]⟩

theorem rejectedStage_coherent (detail : String) :
    (rejectedStage detail).Coherent ∧ (rejectedStage detail).status ≠ .notRun :=
  ⟨by simp [StageResult.Coherent, rejectedStage], by simp [rejectedStage]⟩

theorem skipped_coherent (detail : String) : (skipped detail).Coherent := by
  simp [StageResult.Coherent, skipped]

theorem testBidi_coherent (t : BidiTest) : (testBidi t).Coherent ∧ (testBidi t).status ≠ .notRun := by
  unfold testBidi
  split
  · split
    · split
      · exact rejectedStage_coherent _
      · exact capture_coherent _ _
    · exact capture_coherent _ _
  · exact capture_coherent _ _

theorem testUni_coherent (t : UniTest) : (testUni t).Coherent ∧ (testUni t).status ≠ .notRun := by
  unfold testUni
  split
  · split
    · split
      · exact fulfilledStage_coherent
      · exact fulfilledStage_coherent
      · split
        · exact fulfilledStage_coherent
        · exact sent_coherent (capture_coherent _ _)
      · exact sent_coherent (capture_coherent _ _)
    · exact capture_coherent _ _
  · exact capture_coherent _ _

theorem testDatagram_coherent (t : DatagramTest) :
    (testDatagram t).Coherent ∧ Tested .datagram (testDatagram t) := by
  unfold testDatagram
  split
  · exact ⟨skipped_coherent _, .unavailable rfl rfl⟩
  · split
    · split
      · exact ⟨(rejectedStage_coherent _).1, .ran (rejectedStage_coherent _).2⟩
      · exact ⟨(capture_coherent _ _).1, .ran (capture_coherent _ _).2⟩
    · exact ⟨(capture_coherent _ _).1, .ran (capture_coherent _ _).2⟩

/-- A test that throws is rejected, so it keeps what all outcomes of the test have. -/
theorem runProbe_induction {α : Type} (P : StageResult → Prop) (label : String)
    {probe : α → StageResult} (hthrown : ∀ detail, P (rejectedStage detail)) (hprobe : ∀ t, P (probe t))
    (t : Except String α) : P (runProbe label probe t) := by
  cases t with
  | ok t => exact hprobe t
  | error thrown => exact hthrown _

abbrev Stages := Stage → Option StageResult

/-- The stage was come to, with this property. -/
def Has (stage : Stages) (s : Stage) (P : StageResult → Prop) : Prop :=
  ∃ r, stage s = some r ∧ r.Coherent ∧ P r

abbrev Passes (stage : Stages) (s : Stage) : Prop := Has stage s fun r => r.ok = true

abbrev Fails (stage : Stages) (s : Stage) : Prop :=
  Has stage s fun r => r.ok = false ∧ r.status ≠ .notRun

theorem has_set_self {c : CaseResult} {s : Stage} {r : StageResult} {P : StageResult → Prop}
    (hr : r.Coherent) (h : P r) : Has (c.set s r).stage s P :=
  ⟨r, Function.update_self .., hr, h⟩

theorem has_set_of_ne {c : CaseResult} {s t : Stage} {r : StageResult} {P : StageResult → Prop}
    (hne : s ≠ t) (h : Has c.stage s P) : Has (c.set t r).stage s P := by
  obtain ⟨q, hq, hrest⟩ := h
  exact ⟨q, (Function.update_of_ne hne ..).trans hq, hrest⟩

/-- The echo stages. -/
def echoStages : List Stage := [.datagram, .bidirectionalStream, .unidirectionalStream]

/-- The three shapes of a result that nothing has stopped. -/
inductive Shape (stage : Stages) : Prop where
  | unconstructed (hc : Fails stage .constructor) (hrest : ∀ s, s ≠ .constructor → stage s = none)
  | unready (hc : Passes stage .constructor) (hr : Fails stage .ready)
    (hecho : ∀ s ∈ echoStages, stage s = some (skipped "skipped: ready failed"))
  | ready (hc : Passes stage .constructor) (hr : Passes stage .ready)
    (hecho : ∀ s ∈ echoStages, Has stage s (Tested s))

/-- What holds of a case at each of its awaits. -/
def Frame.Shape (f : Frame) : Prop :=
  match f.awaiting with
  | .ready => Passes f.result.stage .constructor
  | .datagram => Passes f.result.stage .constructor ∧ Passes f.result.stage .ready
  | .bidirectionalStream => Passes f.result.stage .constructor ∧ Passes f.result.stage .ready ∧
      Has f.result.stage .datagram (Tested .datagram)
  | .unidirectionalStream => Passes f.result.stage .constructor ∧ Passes f.result.stage .ready ∧
      Has f.result.stage .datagram (Tested .datagram) ∧
      Has f.result.stage .bidirectionalStream (Tested .bidirectionalStream)
  | .closed => Page.Shape f.result.stage

def StepShape : Frame ⊕ CaseResult → Prop
  | .inl f => f.Shape
  | .inr c => Shape c.stage

theorem startOne_shape (base path : String) (variant : Variant) (threw : Option String) :
    StepShape (startOne base path variant threw) := by
  cases threw with
  | some detail =>
    refine .unconstructed (has_set_self (rejectedStage_coherent detail).1 ⟨rfl, ?_⟩) fun s hs => ?_
    · simp [rejectedStage]
    · exact Function.update_of_ne hs ..
  | none => exact has_set_self fulfilledStage_coherent.1 rfl

theorem resumeOne_shape {f : Frame} (h : f.Shape) (a : ProbeAnswer) :
    StepShape (resumeOne false f a) := by
  obtain ⟨awaiting, result⟩ := f
  have hstay : StepShape (.inl ⟨awaiting, result⟩) := h
  cases awaiting with
  | ready =>
    cases a with
    | ready c =>
      have hc : Passes (result.set .ready (capture "ready" c)).stage .constructor :=
        has_set_of_ne (by decide) h
      obtain ⟨hcoherent, hran⟩ := capture_coherent "ready" c
      simp only [resumeOne]
      by_cases hok : (capture "ready" c).ok = true
      · simp only [hok, Bool.not_true, Bool.false_eq_true, if_false]
        exact ⟨hc, has_set_self hcoherent hok⟩
      · rw [Bool.not_eq_true] at hok
        simp only [hok, Bool.not_false, if_true]
        show Shape (skipStages "skipped: ready failed" echoStages
          (result.set .ready (capture "ready" c))).stage
        refine .unready ?_ ?_ ?_
        · exact has_set_of_ne (by decide) (has_set_of_ne (by decide) (has_set_of_ne (by decide) hc))
        · exact has_set_of_ne (by decide) (has_set_of_ne (by decide) (has_set_of_ne (by decide)
            (has_set_self hcoherent ⟨hok, hran⟩)))
        · simp [echoStages, skipStages, CaseResult.set, Function.update]
    | _ => exact hstay
  | datagram =>
    cases a with
    | datagram t =>
      obtain ⟨hc, hr⟩ := h
      have htest : (runProbe "datagram" testDatagram t).Coherent ∧
          Tested .datagram (runProbe "datagram" testDatagram t) :=
        runProbe_induction (fun r => r.Coherent ∧ Tested .datagram r) "datagram"
          (fun detail => ⟨(rejectedStage_coherent detail).1, .ran (rejectedStage_coherent detail).2⟩)
          testDatagram_coherent t
      exact ⟨has_set_of_ne (by decide) hc, has_set_of_ne (by decide) hr,
        has_set_self htest.1 htest.2⟩
    | _ => exact hstay
  | bidirectionalStream =>
    cases a with
    | bidirectionalStream t =>
      obtain ⟨hc, hr, hd⟩ := h
      have htest := runProbe_induction (fun r => r.Coherent ∧ r.status ≠ .notRun)
        "bidirectional stream" rejectedStage_coherent testBidi_coherent t
      exact ⟨has_set_of_ne (by decide) hc, has_set_of_ne (by decide) hr,
        has_set_of_ne (by decide) hd, has_set_self htest.1 (.ran htest.2)⟩
    | _ => exact hstay
  | unidirectionalStream =>
    cases a with
    | unidirectionalStream t =>
      obtain ⟨hc, hr, hd, hb⟩ := h
      have htest := runProbe_induction (fun r => r.Coherent ∧ r.status ≠ .notRun)
        "unidirectional stream" rejectedStage_coherent testUni_coherent t
      show Shape (result.set .unidirectionalStream _).stage
      refine .ready (has_set_of_ne (by decide) hc) (has_set_of_ne (by decide) hr) ?_
      simp only [echoStages, List.forall_mem_cons]
      exact ⟨has_set_of_ne (by decide) hd, has_set_of_ne (by decide) hb,
        has_set_self htest.1 (.ran htest.2), by simp⟩
    | _ => exact hstay
  | closed =>
    cases a with
    | closed => exact h
    | _ => exact hstay

theorem Runs.shape {path : String} {variant : Variant} {x : Frame ⊕ CaseResult}
    (h : Runs path variant x) : StepShape x := by
  induction h with
  | start base threw => exact startOne_shape base path variant threw
  | resume _ a ih => exact resumeOne_shape ih a

/-- What is kept when a stage is set and when the case is marked as stopped is kept to its result. -/
theorem resumeOne_induction {P : CaseResult → Prop} (hset : ∀ c s r, P c → P (c.set s r))
    (hcancelled : ∀ (c : CaseResult) (b : Bool), P c → P { c with cancelled := b })
    (cancelRequested : Bool) {f : Frame} (h : P f.result) (a : ProbeAnswer) :
    P ((resumeOne cancelRequested f a).elim Frame.result id) := by
  have hskip (detail : String) (stages : List Stage) {c : CaseResult} (hc : P c) :
      P (skipStages detail stages c) := by
    induction stages generalizing c with
    | nil => exact hc
    | cons s stages ih => exact ih (hset c s _ hc)
  have hproceed (next : Awaiting) (left : List Stage) {c : CaseResult} (hc : P c) :
      P (proceed cancelRequested next left c).result := by
    unfold proceed
    split
    · exact hcancelled _ _ (hskip _ left hc)
    · exact hc
  unfold resumeOne
  split
  · simp only
    split
    · exact hcancelled _ _ (hskip _ _ (hset _ _ _ h))
    · exact hproceed _ _ (hset _ _ _ h)
  · exact hproceed _ _ (hset _ _ _ h)
  · exact hproceed _ _ (hset _ _ _ h)
  · exact hcancelled _ _ (hset _ _ _ h)
  · exact h
  · exact h

/-- A case keeps its path and its variant. -/
def Keeps (path : String) (variant : Variant) (c : CaseResult) : Prop :=
  c.path = path ∧ c.variantId = variant.id ∧ c.optionKeys = variant.optionKeys

theorem resumeOne_keeps {path : String} {variant : Variant} (cancelRequested : Bool) {f : Frame}
    (h : Keeps path variant f.result) (a : ProbeAnswer) :
    Keeps path variant ((resumeOne cancelRequested f a).elim Frame.result id) :=
  resumeOne_induction (fun _ _ _ h => h) (fun _ _ h => h) cancelRequested h a

theorem Runs.keeps {path : String} {variant : Variant} {x : Frame ⊕ CaseResult}
    (h : Runs path variant x) : Keeps path variant (x.elim Frame.result id) := by
  induction h with
  | start base threw => cases threw <;> exact ⟨rfl, rfl, rfl⟩
  | resume _ a ih => exact resumeOne_keeps false ih a

/-- The case is one of this path, opened at this base. -/
def CaseResult.OpenedAt (base path : String) (c : CaseResult) : Prop :=
  c.path = path ∧ c.url = runUrl base path

theorem startOne_openedAt (base path : String) (variant : Variant) (threw : Option String) :
    ((startOne base path variant threw).elim Frame.result id).OpenedAt base path := by
  cases threw <;> exact ⟨rfl, rfl⟩

theorem resumeOne_openedAt {base path : String} (cancelRequested : Bool) {f : Frame}
    (h : f.result.OpenedAt base path) (a : ProbeAnswer) :
    ((resumeOne cancelRequested f a).elim Frame.result id).OpenedAt base path :=
  resumeOne_induction (fun _ _ _ h => h) (fun _ _ h => h) cancelRequested h a

end WebTransportEcho.Page
