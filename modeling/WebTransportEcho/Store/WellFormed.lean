import WebTransportEcho.Store.Accept
import Mathlib.Algebra.Order.BigOperators.Group.List
import Mathlib.Data.List.TakeWhile

/-! The invariant of a stored snapshot. `WellFormed` says what a snapshot means on its own, without
    the submission it came from: the eight paths in order, each with an empty or a full option
    matrix in mask order, counts that are the matrix's own, totals that add up to the run, and the
    derived texts equal to their derivations. `Idle` adds what it means that the browser has no
    WebTransport API: nothing was counted, and every derived text says so. -/

namespace WebTransportEcho.Store
open Js

/-- A version: one to four decimal digits. -/
def IsVersion (v : String) : Prop :=
  v.toList ≠ [] ∧ v.toList.length ≤ 4 ∧ ∀ c ∈ v.toList, c.isDigit = true

structure Ratio.WellFormed (r : Ratio) : Prop where
  ready_le : r.ready ≤ r.total
  total_le : r.total ≤ 4096

structure Effect.WellFormed (e : Effect) : Prop where
  withOption : e.withOption.WellFormed
  withoutOption : e.withoutOption.WellFormed

/-- A matrix in mask order with the options each mask spells, and counts that are its own. -/
structure PathResult.WellFormed (p : PathResult) : Prop where
  size : p.total = 0 ∨ p.total = 16 ∨ p.total = 32
  masks : p.combinations.map Combination.mask = List.range p.total
  options : ∀ c ∈ p.combinations, c.options = optionKeys.filter fun k => c.mask.testBit k.bit
  passed : ∀ s : Stage, p.count (.stage s) = outcomeCount p.combinations s .pass
  unavailable : p.count .datagramUnavailable = outcomeCount p.combinations .datagram .unavailable
  effectKeys : (p.effects.map Effect.key).Nodup
  effects : ∀ e ∈ p.effects, e.WellFormed

/-- A probe pair in its allowed shapes, with the verdict the pair implies. -/
structure Grease.WellFormed (capabilities : Capabilities) (g : Grease) : Prop where
  control : ProbeShape g.control
  enabled : ProbeShape g.enabled
  idle : capabilities.webTransport = false → ∀ s, g.control s = .notRun ∧ g.enabled s = .notRun
  verdict : g.verdict = verdictOf capabilities.webTransport g.control g.enabled

structure Snapshot.WellFormed (s : Snapshot) : Prop where
  version : ∀ v ∈ s.browser.version, IsVersion v
  order : s.paths.map PathResult.path = resultPaths
  path : ∀ p ∈ s.paths, p.WellFormed
  signal : ∀ p ∈ s.paths,
    p.signal = optionSignal p.total (p.count (.stage .ready)) p.effects s.capabilities
  totals : (s.paths.map PathResult.total).sum = s.run.completedCases
  planned_pos : 0 < s.run.plannedCases
  planned_le : s.run.plannedCases ≤ 4096
  completed_le : s.run.completedCases ≤ s.run.plannedCases
  complete : s.capabilities.webTransport = true → s.run.completedCases = s.run.plannedCases
  empty : s.capabilities.webTransport = false → s.run.completedCases = 0
  metrics_le : ∀ m, s.metrics m ≤ s.run.completedCases
  conclusion : s.conclusion = conclusionFor s.capabilities s.metrics
  grease : ∀ g ∈ s.grease, g.WellFormed s.capabilities

/-- A snapshot of a browser without the API: zero and empty everywhere, and named so. -/
structure Snapshot.Idle (s : Snapshot) : Prop where
  completed : s.run.completedCases = 0
  total : ∀ p ∈ s.paths, p.total = 0
  count : ∀ p ∈ s.paths, ∀ m, p.count m = 0
  matrix : ∀ p ∈ s.paths, p.combinations = []
  metrics : ∀ m, s.metrics m = 0
  signal : ∀ p ∈ s.paths, p.signal = "WebTransport API unavailable"
  conclusion : s.conclusion = "WebTransport API unavailable"
  verdict : ∀ g ∈ s.grease, g.verdict = .apiUnavailable

/-! ### Acceptance gives the invariant -/

theorem leadingDigits_isVersion {text v : String} (h : leadingDigits text = some v) : IsVersion v := by
  unfold leadingDigits at h
  simp only at h
  split at h
  · cases h
  · next hne =>
    cases h
    have hne' : (text.toList.takeWhile Char.isDigit).take 4 ≠ [] := by simpa using hne
    refine ⟨by rw [String.toList_ofList]; exact hne', ?_, fun c hc => ?_⟩
    · rw [String.toList_ofList, List.length_take]
      exact Nat.min_le_left _ _
    · rw [String.toList_ofList] at hc
      exact List.mem_takeWhile_imp (List.mem_of_mem_take hc)

theorem normalizeBrowser_version {input : Value} {b : Browser} (h : normalizeBrowser input = .ok b) :
    ∀ v ∈ b.version, IsVersion v := by
  unfold normalizeBrowser at h
  simp only [bind_eq_ok] at h
  obtain ⟨text, -, h⟩ := h
  cases h
  exact fun v hv => leadingDigits_isVersion hv

theorem EffectOf.wellFormed {item : Json} {e : Effect} (h : EffectOf item e) : e.WellFormed :=
  ⟨⟨h.with_le, asCount_le h.withTotal⟩, ⟨h.without_le, asCount_le h.withoutTotal⟩⟩

theorem sanitizeEffects_wellFormed {input : Value} {path : ResultPath} {es : List Effect}
    (h : sanitizeEffects input path = .ok es) :
    (es.map Effect.key).Nodup ∧ ∀ e ∈ es, e.WellFormed := by
  rcases sanitizeEffects_eq_ok.mp h with ⟨-, rfl⟩ | ⟨items, -, -, hall, hnd⟩
  · simp
  · refine ⟨hnd, fun e he => ?_⟩
    obtain ⟨item, -, hitem⟩ := exists_of_forall₂_right hall he
    exact hitem.wellFormed

/-- An accepted matrix is empty or has 16 or 32 entries, each mask in its place with its options. -/
theorem sanitizeCombinations_wellFormed {input : Value} {path : ResultPath} {total : Nat}
    {cs : List Combination} (h : sanitizeCombinations input path total = .ok cs) :
    (total = 0 ∨ total = 16 ∨ total = 32) ∧ cs.map Combination.mask = List.range total ∧
      ∀ c ∈ cs, c.options = optionKeys.filter fun k => c.mask.testBit k.bit := by
  obtain ⟨items, -, hlen, ⟨rfl, rfl⟩ | ⟨hsize, supplied, hall, hnd, rfl⟩⟩ :=
    sanitizeCombinations_eq_ok.mp h
  · exact ⟨Or.inl rfl, rfl, by simp⟩
  · have hof : ∀ c ∈ supplied, ∃ item, CombinationOf total item c := by
      intro c hc
      obtain ⟨item, -, hitem⟩ := exists_of_forall₂_right hall hc
      exact ⟨item, hitem⟩
    refine ⟨Or.inr hsize, sortByMask_masks hnd (fun c hc => (hof c hc).choose_spec.mask_lt)
      (hall.length_eq ▸ hlen), fun c hc => ?_⟩
    obtain ⟨item, hitem⟩ := hof c ((sortByMask_perm supplied).mem_iff.mp hc)
    rw [hitem.options, expectedOptions_eq]

theorem PathOf.wellFormed {capabilities : Capabilities} {item : Json} {p : PathResult}
    (h : PathOf capabilities item p) : p.WellFormed := by
  obtain ⟨hsize, hmasks, hoptions⟩ := sanitizeCombinations_wellFormed h.combinations
  obtain ⟨hkeys, heffects⟩ := sanitizeEffects_wellFormed h.effects
  exact ⟨hsize, hmasks, hoptions, fun s => (h.passed s).symm, h.unavailable.symm, hkeys, heffects⟩

theorem forall₂_path {R : ResultPath → PathResult → Prop} {paths : List ResultPath}
    {ps : List PathResult} (h : List.Forall₂ (fun path p => p.path = path ∧ R path p) paths ps) :
    ps.map PathResult.path = paths := by
  induction h with
  | nil => rfl
  | cons hp _ ih => rw [List.map_cons, hp.1, ih]

theorem sanitizeGrease_wellFormed {input : Value} {capabilities : Capabilities} {g : Option Grease}
    (h : sanitizeGrease input capabilities = .ok g) : ∀ g' ∈ g, g'.WellFormed capabilities := by
  intro g' hg
  rcases sanitizeGrease_eq_ok.mp h with ⟨-, rfl⟩ | ⟨g'', rfl, hof⟩
  · cases hg
  · cases hg
    exact ⟨hof.controlShape, hof.enabledShape, hof.idle, hof.verdict⟩

theorem SubmissionOf.wellFormed {input : Json} {requireGrease : Bool} {s : Snapshot}
    (h : SubmissionOf input requireGrease s) : s.WellFormed := by
  obtain ⟨items, -, -, -, hall, hsum⟩ := sanitizePaths_eq_ok.mp h.paths
  have hof : ∀ p ∈ s.paths, ∃ item, PathOf s.capabilities item p := by
    intro p hp
    obtain ⟨path, -, -, item, -, hitem⟩ := exists_of_forall₂_right hall hp
    exact ⟨item, hitem⟩
  exact {
    version := normalizeBrowser_version h.browser
    order := forall₂_path hall
    path := fun p hp => (hof p hp).choose_spec.wellFormed
    signal := fun p hp => (hof p hp).choose_spec.signal
    totals := hsum
    planned_pos := h.run.planned_pos
    planned_le := asCount_le h.run.planned
    completed_le := h.run.completed_le
    complete := h.run.complete
    empty := h.run.empty
    metrics_le := fun m => (h.metrics m).2
    conclusion := h.conclusion
    grease := sanitizeGrease_wellFormed h.grease }

/-! ### What the invariant implies -/

theorem PathResult.WellFormed.length {p : PathResult} (h : p.WellFormed) :
    p.combinations.length = p.total := by
  have := congrArg List.length h.masks
  simpa using this

theorem outcomeCount_le (cs : List Combination) (s : Stage) (o : Outcome) :
    outcomeCount cs s o ≤ cs.length := List.length_filter_le _ _

theorem PathResult.WellFormed.count_le {p : PathResult} (h : p.WellFormed) (m : PathMetric) :
    p.count m ≤ p.total := by
  rw [← h.length]
  cases m with
  | stage s => rw [h.passed]; exact outcomeCount_le _ _ _
  | datagramUnavailable => rw [h.unavailable]; exact outcomeCount_le _ _ _

theorem PathResult.WellFormed.combinations_eq_nil {p : PathResult} (h : p.WellFormed)
    (h0 : p.total = 0) : p.combinations = [] :=
  List.eq_nil_of_length_eq_zero (h.length.trans h0)

/-- Zero cases in all leave nothing anywhere: the zero sum reaches down to every count. -/
theorem Snapshot.WellFormed.isIdle {s : Snapshot} (h : s.WellFormed)
    (hw : s.capabilities.webTransport = false) : s.Idle := by
  have hcompleted := h.empty hw
  have htotal : ∀ p ∈ s.paths, p.total = 0 := by
    intro p hp
    have hle : p.total ≤ (s.paths.map PathResult.total).sum :=
      List.single_le_sum (fun _ _ => Nat.zero_le _) _ (List.mem_map_of_mem hp)
    rw [h.totals, hcompleted] at hle
    omega
  exact {
    completed := hcompleted
    total := htotal
    count := fun p hp m => by
      have := (h.path p hp).count_le m
      rw [htotal p hp] at this
      omega
    matrix := fun p hp => (h.path p hp).combinations_eq_nil (htotal p hp)
    metrics := fun m => by
      have := h.metrics_le m
      omega
    signal := fun p hp => by
      rw [h.signal p hp, optionSignal, if_pos ⟨by simp [hw], htotal p hp⟩]
    conclusion := by rw [h.conclusion, conclusionFor, if_pos (by simp [hw])]
    verdict := fun g hg => by rw [(h.grease g hg).verdict, hw, verdictOf, if_pos rfl] }

/-- Every accepted submission is stored as a well-formed record. The coverage loop has nothing left
    to find: whatever the input, a list of `total` combinations that passes the range and duplicate
    checks is in its masks' places after the sort. -/
theorem sanitizeSubmission_wellFormed (input : Json) (receivedAt : String) (requireGrease : Bool)
    (s : Snapshot) (h : sanitizeSubmission input receivedAt requireGrease = .ok s) :
    s.WellFormed ∧ (s.capabilities.webTransport = false → s.Idle) ∧
      ∀ (path : ResultPath) (total : Nat) (items : List Json) (supplied : List Combination),
        items.length = total →
        mapUnique (sanitizeCombination path total) Combination.mask [] items = .ok supplied →
        ∀ mask ∈ List.range total,
          ((sortByMask supplied)[mask]?).map Combination.mask = some mask := by
  have hwf := (sanitizeSubmission_eq_ok.mp h).2.wellFormed
  refine ⟨hwf, hwf.isIdle, ?_⟩
  intro path total items supplied hlen hsupplied
  obtain ⟨hall, hnd⟩ := combinations_eq_ok.mp hsupplied
  refine masks_cover (sortByMask_masks hnd (fun c hc => ?_) (hall.length_eq ▸ hlen))
  obtain ⟨item, -, hitem⟩ := exists_of_forall₂_right hall hc
  exact hitem.mask_lt

/-! ### Submissions that are accepted -/

/-- Every mask below `total` with its options and the outcomes it is given. -/
def fullMatrix (total : Nat) (outcome : Nat → Stage → Outcome) : List Combination :=
  (List.range total).map fun mask => { mask, options := expectedOptions mask, outcome := outcome mask }

/-- A path whose counts are those of its matrix. -/
def tallied (path : ResultPath) (cs : List Combination) : PathResult where
  path := path
  total := cs.length
  count
    | .stage s => outcomeCount cs s .pass
    | .datagramUnavailable => outcomeCount cs .datagram .unavailable
  effects := []
  combinations := cs
  signal := ""

/-- A Firefox 141 with the API whose paths have the given matrices and counts. -/
def firefoxRun (plannedCases : Nat) (metrics : Metric → Nat) (paths : List PathResult) :
    Snapshot where
  receivedAt := ""
  browser := { family := .firefox, version := some "141" }
  capabilities := { secureContext := true, webTransport := true }
  run := { plannedCases, completedCases := plannedCases }
  metrics := metrics
  conclusion := ""
  paths := paths
  grease := none

/-- All sixteen combinations of every path pass every stage. -/
def fullEchoRun : Json :=
  (firefoxRun 128 (fun m => if m = .path .datagramUnavailable then 0 else 128)
    (resultPaths.map fun p => tallied p (fullMatrix 16 fun _ _ => .pass))).submission

/-- Ready exactly with `allowPooling=false`, and every path has these effects. -/
def pooledRun (effects : List Effect) : Json :=
  let matrix := fullMatrix 16 fun mask s =>
    if s = .constructor then .pass
    else if s = .ready then (if mask % 2 = 1 then .pass else .fail)
    else .notRun
  (firefoxRun 128 (fun m => if m = .stage .constructor then 128 else if m = .stage .ready then 64 else 0)
    (resultPaths.map fun p => { tallied p matrix with effects })).submission

/-- No effect is submitted. -/
def poolingRun : Json := pooledRun []

theorem exists_of_any {ε α : Type} {x : Except ε α} {p : α → Bool} (h : x.toOption.any p = true) :
    ∃ a, x = .ok a ∧ p a = true := by
  cases x with
  | error e => cases h
  | ok a => exact ⟨a, rfl, h⟩

set_option maxRecDepth 100000 in
theorem fullEchoRun_accepted : (sanitizeSubmission fullEchoRun "2026-07-16T12:00:00.000Z"
    false).toOption.any (fun s => s.capabilities.webTransport) = true := by decide

theorem fullEchoRun_wellFormed : ∃ s, sanitizeSubmission fullEchoRun "2026-07-16T12:00:00.000Z" false =
    .ok s ∧ s.WellFormed := by
  obtain ⟨s, hs, -⟩ := exists_of_any fullEchoRun_accepted
  exact ⟨s, hs, (sanitizeSubmission_wellFormed _ _ _ s hs).1⟩

end WebTransportEcho.Store
