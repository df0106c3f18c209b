import WebTransportEcho.Page.Tally
import WebTransportEcho.Store.Reading

/-! The two halves agree. The page counts the results of a run on its own and sends the counts with
    the matrix; the store counts the matrix again and refuses what does not match. It never refuses
    the report of a run that came to its end (`published_accepted`), and what it stores is what the
    page has counted: `storedSnapshot`. -/

namespace WebTransportEcho.Page
open Js Store

/-! ### What is published of a path -/

section Path

variable {report : Report} {hash : Bool}
  (hanalysis : report.pathAnalysis = analyzePaths report.results (axes hash))

include hanalysis

/-- The analysis of a path that is found is made of its results. -/
theorem found_analysis {path : String} {a : PathAnalysis OptionKey}
    (h : report.pathAnalysis.find? (fun item => decide (item.path = path)) = some a) :
    a = analyzePath report.results (axes hash) path := by
  have hpath := List.find?_some h
  have hmem := List.mem_of_find?_eq_some h
  rw [hanalysis, analyzePaths] at hmem
  obtain ⟨q, -, rfl⟩ := List.mem_map.mp hmem
  have hq : q = path := of_decide_eq_true hpath
  rw [hq]

/-- What is published are the counts over the results of the path, whether they are taken from the
    analysis or made again. -/
theorem publicationPath_count (hshape : ∀ c ∈ report.results, Shape c.stage) (path : String) :
    (publicationPath report path).total = (casesOf report.results path).length ∧
    ∀ m : PathMetric, (publicationPath report path).count m =
      tally (casesOf report.results path) (.path m) := by
  unfold publicationPath
  cases hfind : report.pathAnalysis.find? (fun item => decide (item.path = path)) with
  | none =>
    refine ⟨rfl, fun m => ?_⟩
    rcases m with s | _
    · cases s <;> rfl
    · rfl
  | some a =>
    obtain rfl := found_analysis hanalysis hfind
    refine ⟨rfl, fun m => ?_⟩
    rcases m with s | _
    · cases s <;> rfl
    · -- the analysis counts over the cases that got ready, and no other is unavailable
      show (((casesOf report.results path).filter fun c => c.passed .ready).filter
        fun c => datagramUnavailable (c.stage .datagram)).length = _
      rw [tally, List.filter_filter]
      congr 1
      refine List.filter_congr fun c hc => ?_
      have hready := (hshape c (List.mem_of_mem_filter hc)).ready_of_unavailable
      rw [Bool.eq_iff_iff, Bool.and_eq_true]
      exact ⟨fun h => h.1, fun h => ⟨h, hready h⟩⟩

theorem publicationPath_effects {path : String} (hle : (casesOf report.results path).length ≤ 4096) :
    ((publicationPath report path).effects.map Effect.key).Nodup ∧
    ∀ e ∈ (publicationPath report path).effects, e.WellFormed := by
  unfold publicationPath
  cases hfind : report.pathAnalysis.find? (fun item => decide (item.path = path)) with
  | none => simp
  | some a =>
    obtain rfl := found_analysis hanalysis hfind
    have hratio (q : CaseResult → Bool) :
        (readyRatio ((casesOf report.results path).filter q)).WellFormed :=
      ⟨List.length_filter_le _ _, (List.length_filter_le _ _).trans hle⟩
    have hkeys : ((axes hash).map Axis.key).Nodup := by cases hash <;> decide
    refine ⟨?_, fun e he => ?_⟩
    · simpa [analyzePath, Function.comp_def, axisEffect] using hkeys
    · simp only [Option.map_some, Option.getD_some, analyzePath, List.map_map] at he
      obtain ⟨axis, -, rfl⟩ := List.mem_map.mp he
      exact ⟨hratio _, hratio _⟩

end Path

/-- The matrix of a path's results, in the order they were made. -/
def matrixOf (variants : List ExhaustiveVariant) (cases : List CaseResult) : List Combination :=
  List.zipWith (fun v c => c.combination v) variants cases

def Combination.published (c : Combination) : PublishedCombination where
  mask := some c.mask
  options := c.options
  outcome := c.outcome

section Matrix

variable {path : String} {variants : List ExhaustiveVariant} {cases : List CaseResult}
  (h : List.Forall₂ (fun v c => Ran path v.toVariant c) variants cases)

include h

theorem matrixOf_masks : (matrixOf variants cases).map Combination.mask =
    variants.map ExhaustiveVariant.mask := by
  induction h with
  | nil => rfl
  | cons _ _ ih => exact congrArg _ ih

/-- The counts of the stored matrix are those of the results. -/
theorem matrixOf_count (m : Metric) :
    ((sortByMask (matrixOf variants cases)).filter m.counts).length = tally cases m := by
  rw [((sortByMask_perm _).filter _).length_eq, tally]
  induction h with
  | nil => rfl
  | @cons v c _ _ hran _ ih =>
    have hshape : Shape c.stage := hran.shape
    have hcounts := counts_published hshape v m
    rw [matrixOf, List.zipWith_cons_cons, List.filter_cons, List.filter_cons, hcounts]
    split
    · exact congrArg (· + 1) ih
    · exact ih

/-- The id of each variant is read back, and the sort is by the mask. -/
theorem publicationPath_combinations {report : Report} (hcases : casesOf report.results path = cases)
    (hspelled : ∀ v ∈ variants, v.Spelled) : (publicationPath report path).combinations =
      (sortByMask (matrixOf variants cases)).map Combination.published := by
  have hpublished : cases.map publicationCombination =
      (matrixOf variants cases).map Combination.published := by
    clear hcases
    induction h with
    | nil => rfl
    | @cons v c _ _ hran _ ih =>
      obtain ⟨hmask, -⟩ := hspelled v (by simp)
      have hid : c.variantId = v.id := hran.keeps.2.1
      have hoptions : c.optionKeys = v.optionKeys := hran.keeps.2.2
      rw [List.map_cons, matrixOf, List.zipWith_cons_cons, List.map_cons]
      refine congrArg₂ _ ?_ (ih fun v hv => hspelled v (by simp [hv]))
      rw [publicationCombination, hid, hoptions, hmask]
      rfl
  rw [sortByMask, List.map_insertionSort (fun l r : Combination => l.mask ≤ r.mask)
    PublishedCombination.comesFirst Combination.published (matrixOf variants cases)
    fun _ _ _ _ => Iff.rfl, ← hpublished, ← hcases]
  rfl

theorem matrixOf_options (hspelled : ∀ v ∈ variants, v.Spelled) :
    ∀ c ∈ matrixOf variants cases, c.options = expectedOptions c.mask := by
  induction h with
  | nil => simp [matrixOf]
  | @cons v c _ _ _ _ ih =>
    rw [matrixOf, List.zipWith_cons_cons, List.forall_mem_cons]
    exact ⟨(hspelled v (by simp)).2, ih fun v hv => hspelled v (by simp [hv])⟩

theorem matrixOf_mem : List.Forall₂ (fun v c => c.variantId = v.id ∧
    c.combination v ∈ matrixOf variants cases) variants cases := by
  induction h with
  | nil => exact .nil
  | cons hran _ ih =>
    refine .cons ⟨hran.keeps.2.1, by simp [matrixOf]⟩ (ih.imp fun v c hc => ⟨hc.1, ?_⟩)
    rw [matrixOf, List.zipWith_cons_cons]
    exact List.mem_cons_of_mem _ hc.2

/-- Each variant has the entry at its mask, with the outcomes of its case. -/
theorem matrixOf_entry (hmasks : (sortByMask (matrixOf variants cases)).map Combination.mask =
      List.range variants.length) : List.Forall₂ (fun v c => c.variantId = v.id ∧
        (sortByMask (matrixOf variants cases))[v.mask]? = some (c.combination v)) variants cases := by
  refine (matrixOf_mem h).imp fun v c hc => ⟨hc.1, ?_⟩
  obtain ⟨n, hn⟩ := List.mem_iff_getElem?.mp ((sortByMask_perm _).mem_iff.mpr hc.2)
  have hget : ((sortByMask (matrixOf variants cases)).map Combination.mask)[n]? = some v.mask := by
    rw [List.getElem?_map, hn, Option.map_some]
    rfl
  rw [hmasks] at hget
  obtain ⟨hlt, heq⟩ := List.getElem?_eq_some_iff.mp hget
  rw [List.getElem_range] at heq
  rw [← heq, hn]

end Matrix

/-! ### The report of a run that came to its end -/

/-- The report of an exhaustive run over some paths: the results of all cases, what the page counted
    over them, and a differential whose probes came to their end. Without the API there are none. -/
structure Finished (webTransport hash : Bool) (report : Report) : Prop where
  results : RanAll (plan report.run.paths
    ((triedVariants webTransport hash).map ExhaustiveVariant.toVariant)) report.results
  summary : report.summary = some (summarizeResults report.results
    (report.run.paths.length * (buildExhaustiveVariants hash).length))
  analysis : report.pathAnalysis = analyzePaths report.results (axes hash)
  complete : webTransport = true → ∀ d, report.greaseDifferential = some d → d.Complete
  absent : webTransport = false → ∀ d, report.greaseDifferential = some d →
    d.control = none ∧ d.enabled = none

theorem plan_length (paths : List String) (variants : List Variant) :
    (plan paths variants).length = paths.length * variants.length := by
  rw [plan, List.length_flatMap]
  simp

theorem pagePaths_eq : resultPaths.map ResultPath.text = pagePaths := rfl

section Report

variable {webTransport hash : Bool} {report : Report} (h : Finished webTransport hash report)
  (hpaths : pagePaths.Perm report.run.paths)

include h hpaths

theorem Finished.cases {path : String} (hpath : path ∈ pagePaths) :
    List.Forall₂ (fun v c => Ran path v.toVariant c) (triedVariants webTransport hash)
      (casesOf report.results path) :=
  ran_path h.results (hpaths.nodup_iff.mp (by decide)) (hpaths.mem_iff.mp hpath)

theorem Finished.length : report.results.length = 8 * (triedVariants webTransport hash).length := by
  rw [← h.results.length_eq, plan_length, ← hpaths.length_eq, List.length_map]
  rfl

theorem Finished.on_paths : ∀ c ∈ report.results, c.path ∈ pagePaths := by
  intro c hc
  obtain ⟨case, hcase, hran⟩ := exists_of_forall₂_right h.results hc
  obtain ⟨path, hpath, hcase⟩ := List.mem_flatMap.mp hcase
  obtain ⟨_, -, rfl⟩ := List.mem_map.mp hcase
  have hkeeps : c.path = path := hran.keeps.1
  rw [hkeeps]
  exact hpaths.mem_iff.mpr hpath

end Report

/-! ### What is stored of it -/

def storedPath (capabilities : Capabilities) (variants : List ExhaustiveVariant) (report : Report)
    (path : ResultPath) : PathResult :=
  let p := publicationPath report path.text
  { path, total := p.total, count := p.count, effects := p.effects
    combinations := sortByMask (matrixOf variants (casesOf report.results path.text))
    signal := optionSignal p.total (p.count (.stage .ready)) p.effects capabilities }

theorem text_mem (path : ResultPath) : path.text ∈ pagePaths := List.mem_map_of_mem (mem_resultPaths path)

section Path

variable {webTransport hash : Bool} {report : Report} (h : Finished webTransport hash report)
  (hpaths : pagePaths.Perm report.run.paths) (capabilities : Capabilities) (path : ResultPath)

include h

theorem storedPath_count (m : PathMetric) :
    (storedPath capabilities (triedVariants webTransport hash) report path).count m =
      tally (casesOf report.results path.text) (.path m) :=
  (publicationPath_count h.analysis (ran_shape h.results) path.text).2 m

include hpaths

theorem storedPath_total : (storedPath capabilities (triedVariants webTransport hash) report path).total =
    (triedVariants webTransport hash).length :=
  ((publicationPath_count h.analysis (ran_shape h.results) path.text).1).trans
    (h.cases hpaths (text_mem path)).length_eq.symm

theorem storedPath_masks :
    (storedPath capabilities (triedVariants webTransport hash) report path).combinations.map
      Combination.mask = List.range (triedVariants webTransport hash).length := by
  have hcases := h.cases hpaths (text_mem path)
  have hperm := tried_masks webTransport hash
  rw [← matrixOf_masks hcases] at hperm
  refine sortByMask_masks (hperm.nodup_iff.mpr List.nodup_range) (fun c hc => ?_) ?_
  · exact List.mem_range.mp (hperm.mem_iff.mp (List.mem_map_of_mem hc))
  · rw [matrixOf, List.length_zipWith, ← hcases.length_eq, Nat.min_self]

theorem storedPath_wellFormed :
    (storedPath capabilities (triedVariants webTransport hash) report path).WellFormed := by
  have hcases := h.cases hpaths (text_mem path)
  have hle : (triedVariants webTransport hash).length ≤ 32 := by
    rw [tried_length, variants_length]
    split_ifs <;> omega
  have heffects := @publicationPath_effects report hash h.analysis path.text
    (by rw [← hcases.length_eq]; omega)
  refine {
    size := ?_
    masks := ?_
    options := fun c hc => ?_
    passed := fun s => ?_
    unavailable := ?_
    effectKeys := heffects.1
    effects := heffects.2 }
  · rw [storedPath_total h hpaths, tried_length, variants_length]
    split_ifs <;> simp
  · rw [storedPath_masks h hpaths, storedPath_total h hpaths]
  · rw [← expectedOptions_eq]
    exact matrixOf_options hcases tried_spelled c ((sortByMask_perm _).mem_iff.mp hc)
  · rw [storedPath_count h, ← matrixOf_count hcases]
    rfl
  · rw [storedPath_count h, ← matrixOf_count hcases]
    rfl

theorem storedPath_entryOf : EntryOf (publicationPath report path.text).toJson
    (storedPath capabilities (triedVariants webTransport hash) report path) := by
  refine {
    path := by simp [PublishedPath.toJson, publicationPath, storedPath]
    total := by simp [PublishedPath.toJson, storedPath, Json.get, List.lookup_cons]
    count := fun m => ?_
    effects := by simp [PublishedPath.toJson, storedPath, Json.get, List.lookup_cons, pathMetrics,
      PathMetric.key, Stage.key]
    combinations := ?_ }
  · rcases m with s | _
    · cases s <;> simp [PublishedPath.toJson, storedPath, Json.get, List.lookup_cons, pathMetrics,
        PathMetric.key, Stage.key]
    · simp [PublishedPath.toJson, storedPath, Json.get, List.lookup_cons, pathMetrics, PathMetric.key,
        Stage.key]
  · have hcombinations := publicationPath_combinations (h.cases hpaths (text_mem path)) rfl tried_spelled
    have hget : (publicationPath report path.text).toJson.get "combinations" =
        .json (.arr ((publicationPath report path.text).combinations.map PublishedCombination.toJson)) := by
      simp [PublishedPath.toJson, Json.get, List.lookup_cons, pathMetrics, PathMetric.key, Stage.key]
    rw [hget, hcombinations, List.map_map]
    rfl

theorem publishedPath_plain : (publicationPath report path.text).toJson.Plain := by
  have hwf := storedPath_wellFormed h hpaths ⟨true, true⟩ path
  have hle := hwf.total_le
  refine plain_obj.mpr ⟨by simp [pathMetrics, PathMetric.key, Stage.key], ?_⟩
  simp only [List.cons_append, List.forall_mem_cons, List.forall_mem_append]
  refine ⟨trivial, plain_nat (hle.trans (by decide)), fun f hf => ?_, plain_arr.mpr fun j hj => ?_, ?_,
    by simp⟩
  · obtain ⟨e, -, rfl⟩ := List.mem_map.mp hf
    exact plain_nat ((hwf.count_le e.1).trans (hle.trans (by decide)))
  · obtain ⟨e, he, rfl⟩ := List.mem_map.mp hj
    exact effect_plain (hwf.effects e he)
  · rw [publicationPath_combinations (h.cases hpaths (text_mem path)) rfl tried_spelled, List.map_map]
    exact combinations_plain hwf

end Path

/-! ### The GREASE differential -/

def storedGrease (webTransport : Bool) (d : Differential) : Grease where
  control := publicationGreaseProbe d.control
  enabled := publicationGreaseProbe d.enabled
  verdict := verdictOf webTransport (publicationGreaseProbe d.control) (publicationGreaseProbe d.enabled)

theorem publicationGreaseProbe_none (s : Stage) : publicationGreaseProbe none s = .notRun :=
  publicationOutcome_none rfl

theorem probeShape_none : ProbeShape (publicationGreaseProbe none) where
  available s _ := by rw [publicationGreaseProbe_none]; decide
  constructed _ := publicationGreaseProbe_none .ready
  before _ s _ _ := publicationGreaseProbe_none s
  after hpass := by rw [publicationGreaseProbe_none] at hpass; cases hpass

/-- A probe without the API did not run, the others came to their end. -/
theorem Finished.probes {webTransport hash : Bool} {report : Report} (h : Finished webTransport hash report)
    {d : Differential} (hd : report.greaseDifferential = some d) :
    ProbeShape (publicationGreaseProbe d.control) ∧ ProbeShape (publicationGreaseProbe d.enabled) := by
  cases hw : webTransport with
  | true =>
    obtain ⟨_, c, e, hc, he, hranc, hrane⟩ := h.complete hw d hd
    rw [hc, he]
    exact ⟨hranc.shape.probeShape, hrane.shape.probeShape⟩
  | false =>
    obtain ⟨hc, he⟩ := h.absent hw d hd
    rw [hc, he]
    exact ⟨probeShape_none, probeShape_none⟩

/-- What is stored of the differential. -/
theorem sanitizeGrease_published {capabilities : Capabilities} {hash : Bool} {report : Report}
    (h : Finished capabilities.webTransport hash report) :
    sanitizeGrease (.json (publicationGreaseDifferential report)) capabilities =
      .ok (report.greaseDifferential.map (storedGrease capabilities.webTransport)) := by
  refine sanitizeGrease_eq_ok.mpr ?_
  unfold publicationGreaseDifferential
  cases hd : report.greaseDifferential with
  | none => exact .inl ⟨rfl, rfl⟩
  | some d =>
    obtain ⟨hcontrol, henabled⟩ := h.probes hd
    refine .inr ⟨_, rfl, ?_⟩
    exact {
      present := rfl
      control := fun s => by simp [probeJson_get, storedGrease]
      enabled := fun s => by
        rw [Option.elim_some, Value.optional_json, Json.get_obj_cons_ne (by decide)]
        simp [probeJson_get, storedGrease]
      controlShape := hcontrol
      enabledShape := henabled
      idle := fun hw s => by
        obtain ⟨hc, he⟩ := h.absent hw d hd
        simp only [storedGrease, hc, he]
        exact ⟨publicationGreaseProbe_none s, publicationGreaseProbe_none s⟩
      verdict := rfl }

/-- The store comes to the verdict of the page. -/
theorem storedGrease_verdict {profile : Profile} {hash : Bool} {report : Report}
    (h : Finished profile.webTransportConstructible hash report) {d : Differential}
    (hd : report.greaseDifferential = some d) :
    (storedGrease profile.webTransportConstructible d).verdict.text =
      greaseVerdict profile d.control d.enabled := by
  cases hw : profile.webTransportConstructible with
  | false => simp [storedGrease, verdictOf, greaseVerdict, hw, Verdict.text]
  | true =>
    obtain ⟨_, c, e, hc, he, hranc, hrane⟩ := h.complete hw d hd
    have hpass {c : CaseResult} {path : String} (hran : Ran path greaseProbeVariant c) :
        publicationGreaseProbe (some c) .ready = .pass ↔ c.passed .ready = true :=
      Shape.pass_iff hran.shape .ready
    have hkeys : greaseProbeKeys = greaseStageKeys := rfl
    simp only [greaseVerdict, hw, storedGrease, verdictOf, hc, he, Ne, hpass hranc, hpass hrane, hkeys,
      Bool.not_true, Bool.not_eq_true', Bool.not_eq_true, Bool.true_eq_false, Bool.false_eq_true, if_false]
    split_ifs <;> rfl

/-! ### The payload is accepted -/

/-- The browser that is stored of a profile. -/
def storedBrowser (profile : Profile) : Browser where
  family := (browserFamilies.lookup (toLowerCase profile.name)).getD .other
  version := (majorVersion profile.version).bind leadingDigits

theorem normalizeBrowser_published (profile : Profile) :
    normalizeBrowser (.json (.obj [("name", .str profile.name),
      ("version", (majorVersion profile.version).elim .null .str)])) = .ok (storedBrowser profile) := by
  cases h : majorVersion profile.version <;>
    simp [normalizeBrowser, storedBrowser, h, Json.get, List.lookup_cons, versionText, Value.isNullish,
      Value.toText, Json.toText, leadingDigits]

/-- What is stored of a report. -/
def storedSnapshot (receivedAt : String) (profile : Profile) (variants : List ExhaustiveVariant)
    (report : Report) (summary : Summary) : Snapshot :=
  let capabilities : Capabilities :=
    { secureContext := profile.secureContext, webTransport := profile.webTransportConstructible }
  { receivedAt, capabilities
    browser := storedBrowser profile
    run := { plannedCases := summary.plannedCases, completedCases := summary.completedCases }
    metrics := summary.count
    conclusion := conclusionFor capabilities summary.count
    paths := resultPaths.map (storedPath capabilities variants report)
    grease := report.greaseDifferential.map (storedGrease profile.webTransportConstructible) }

theorem Shareable.paths_perm {origin : String → Option String} {config : Option RuntimeConfig}
    {profile : Profile} {report : Report} {summary : Summary}
    (h : Shareable origin config profile report summary) : pagePaths.Perm report.run.paths :=
  pagePaths_perm h.length h.paths

section Payload

variable {profile : Profile} {hash : Bool} {report : Report} {summary : Summary}
  (h : Finished profile.webTransportConstructible hash report)
  (hpaths : pagePaths.Perm report.run.paths) (hsummary : report.summary = some summary)

include h hpaths

/-- The payload says what is stored of it. -/
theorem payload_submits (receivedAt : String) (requireGrease : Bool)
    (hrequired : requireGrease = true → report.greaseDifferential.isSome = true)
    (hmode : report.run.mode = .exhaustive) (hfinished : report.cancelled = false) :
    Submits (publicationPayload profile report summary) requireGrease (storedSnapshot receivedAt profile
      (triedVariants profile.webTransportConstructible hash) report summary) := by
  refine {
    schema := by simp [publicationPayload]
    browser := ?_
    capabilities := by simp [publicationPayload, storedSnapshot, Json.get, List.lookup_cons,
      Capabilities.toJson]
    run := by simp [publicationPayload, storedSnapshot, Json.get, List.lookup_cons, Run.toJson, hmode,
      hfinished, Mode.text]
    metrics := by simp [publicationPayload, storedSnapshot, Json.get, List.lookup_cons]
    paths := ⟨pagePaths.map fun path => (publicationPath report path).toJson,
      by simp [publicationPayload, Json.get, List.lookup_cons], ?_⟩
    grease := ?_
    required := fun hreq hnone => ?_ }
  · have hget : (publicationPayload profile report summary).get "browser" = .json (.obj
        [("name", .str profile.name), ("version", (majorVersion profile.version).elim .null .str)]) := by
      simp [publicationPayload, Json.get, List.lookup_cons]
    rw [hget]
    exact normalizeBrowser_published profile
  · rw [← pagePaths_eq, List.map_map, List.forall₂_map_left_iff]
    show List.Forall₂ _ _ (resultPaths.map _)
    rw [List.forall₂_map_right_iff, List.forall₂_same]
    exact fun path _ => storedPath_entryOf h hpaths _ path
  · have hget : (publicationPayload profile report summary).get "grease" =
        .json (publicationGreaseDifferential report) := by
      simp [publicationPayload, Json.get, List.lookup_cons]
    rw [hget]
    exact sanitizeGrease_published h
  · have hsome := hrequired hreq
    simp only [storedSnapshot, Option.map_eq_none_iff] at hnone
    rw [hnone] at hsome
    cases hsome

include hsummary

/-- The counts of the summary, over as many cases as there are variants on eight paths. -/
theorem summary_counts : summary.plannedCases = 8 * (buildExhaustiveVariants hash).length ∧
    summary.completedCases = 8 * (triedVariants profile.webTransportConstructible hash).length ∧
    summary.count = tally report.results := by
  have heq : summary = _ := (Option.some.inj (hsummary.symm.trans h.summary))
  rw [heq]
  refine ⟨?_, h.length hpaths, summarizeResults_count _ _⟩
  show report.run.paths.length * _ = _
  rw [← hpaths.length_eq]
  rfl

theorem storedSnapshot_wellFormed (receivedAt : String) : (storedSnapshot receivedAt profile
    (triedVariants profile.webTransportConstructible hash) report summary).WellFormed := by
  obtain ⟨hplanned, hcompleted, hcount⟩ := summary_counts h hpaths hsummary
  have hlength := variants_length hash
  have htried := tried_length profile.webTransportConstructible hash
  have hbounds : 16 ≤ (buildExhaustiveVariants hash).length ∧
      (buildExhaustiveVariants hash).length ≤ 32 := by
    rw [hlength]
    split_ifs <;> omega
  refine {
    version := normalizeBrowser_version (normalizeBrowser_published profile)
    order := by rw [storedSnapshot, List.map_map]; exact List.map_id _
    path := fun p hp => ?_
    signal := fun p hp => ?_
    totals := ?_
    planned_pos := by show 0 < summary.plannedCases; omega
    planned_le := by show summary.plannedCases ≤ 4096; omega
    completed_le := ?_
    complete := fun hw => ?_
    empty := fun hw => ?_
    metrics_le := fun m => ?_
    conclusion := rfl
    grease := sanitizeGrease_wellFormed (sanitizeGrease_published h) }
  · obtain ⟨path, -, rfl⟩ := List.mem_map.mp hp
    exact storedPath_wellFormed h hpaths _ path
  · obtain ⟨path, -, rfl⟩ := List.mem_map.mp hp
    rfl
  · have htotal (capabilities : Capabilities) : (resultPaths.map fun path => (storedPath capabilities
        (triedVariants profile.webTransportConstructible hash) report path).total).sum =
        8 * (triedVariants profile.webTransportConstructible hash).length := by
      rw [List.map_congr_left fun path _ => storedPath_total h hpaths capabilities path, sum_map_const]
      rfl
    rw [storedSnapshot, List.map_map]
    exact (htotal _).trans hcompleted.symm
  · show summary.completedCases ≤ summary.plannedCases
    split_ifs at htried <;> omega
  · show summary.completedCases = summary.plannedCases
    have hw' : profile.webTransportConstructible = true := hw
    rw [hcompleted, hplanned, htried, if_pos hw']
  · show summary.completedCases = 0
    have hw' : profile.webTransportConstructible = false := hw
    rw [hcompleted, htried, if_neg (by rw [hw']; decide)]
  · show summary.count m ≤ summary.completedCases
    rw [hcount, hcompleted, ← h.length hpaths]
    exact List.length_filter_le _ _

/-- The payload survives its text. -/
theorem payload_plain : (publicationPayload profile report summary).Plain := by
  have hwf := storedSnapshot_wellFormed h hpaths hsummary ""
  have hplanned : summary.plannedCases ≤ 4096 := hwf.planned_le
  have hcompleted : summary.completedCases ≤ summary.plannedCases := hwf.completed_le
  refine plain_obj.mpr ⟨by simp, ?_⟩
  simp only [List.forall_mem_cons]
  refine ⟨plain_nat (by omega), plain_obj.mpr ⟨by simp, ?_⟩, plain_obj.mpr ⟨by simp, ?_⟩,
    plain_obj.mpr ⟨by simp, ?_⟩, metrics_plain fun m => ?_, plain_arr.mpr fun j hj => ?_, ?_, by simp⟩
  · cases majorVersion profile.version <;> simp [Json.Plain]
  · simp [Json.Plain]
  · simp only [List.forall_mem_cons]
    exact ⟨trivial, plain_nat hplanned, plain_nat (by omega), trivial, by simp⟩
  · have hle : summary.count m ≤ summary.completedCases := hwf.metrics_le m
    omega
  · rw [← pagePaths_eq, List.map_map] at hj
    obtain ⟨path, -, rfl⟩ := List.mem_map.mp hj
    exact publishedPath_plain h hpaths path
  · unfold publicationGreaseDifferential
    cases report.greaseDifferential with
    | none => trivial
    | some d =>
      refine plain_obj.mpr ⟨by simp, ?_⟩
      simp only [List.forall_mem_cons]
      exact ⟨probe_plain _, probe_plain _, by simp⟩

end Payload

/-! ### What is stored is what was counted -/

/-- The stored path has the page's counts, which are those of its results, and one entry for each
    variant that was tried, at its mask and with the outcomes of its case. -/
structure StoresPath (variants : List ExhaustiveVariant) (report : Report) (r : PathResult) : Prop where
  published : r.total = (publicationPath report r.path.text).total ∧
    r.count = (publicationPath report r.path.text).count
  total : r.total = (casesOf report.results r.path.text).length
  count : ∀ m : PathMetric, r.count m = tally (casesOf report.results r.path.text) (.path m)
  masks : r.combinations.map Combination.mask = List.range variants.length
  entries : List.Forall₂ (fun v (c : CaseResult) => c.variantId = v.id ∧
    r.combinations[v.mask]? = some (c.combination v)) variants (casesOf report.results r.path.text)

/-- The stored snapshot says what the page has found. -/
structure Stores (profile : Profile) (variants : List ExhaustiveVariant) (report : Report)
    (summary : Summary) (s : Snapshot) : Prop where
  order : s.paths.map (fun r => r.path.text) = pagePaths
  path : ∀ r ∈ s.paths, StoresPath variants report r
  metrics : s.metrics = summary.count
  matrix : s.MatchesMatrix
  verdict : s.grease.map (fun g => g.verdict.text) =
    report.greaseDifferential.map fun d => greaseVerdict profile d.control d.enabled

section Stored

variable {profile : Profile} {hash : Bool} {report : Report} {summary : Summary}
  (h : Finished profile.webTransportConstructible hash report)
  (hpaths : pagePaths.Perm report.run.paths)

include h hpaths

theorem storesPath (capabilities : Capabilities) (path : ResultPath) :
    StoresPath (triedVariants profile.webTransportConstructible hash) report
      (storedPath capabilities (triedVariants profile.webTransportConstructible hash) report path) := by
  have hcases := h.cases hpaths (text_mem path)
  have hmasks := storedPath_masks h hpaths capabilities path
  refine ⟨⟨rfl, rfl⟩, (storedPath_total h hpaths capabilities path).trans hcases.length_eq,
    storedPath_count h capabilities path, hmasks, matrixOf_entry hcases hmasks⟩

/-- The counts of the summary are the sums over the stored matrices. -/
theorem storedSnapshot_matches (hsummary : report.summary = some summary) (receivedAt : String) :
    (storedSnapshot receivedAt profile (triedVariants profile.webTransportConstructible hash) report
      summary).MatchesMatrix := by
  obtain ⟨-, -, hcount⟩ := summary_counts h hpaths hsummary
  have hm (m : Metric) : (storedSnapshot receivedAt profile
      (triedVariants profile.webTransportConstructible hash) report summary).matrixMetric m =
      summary.count m := by
    rw [hcount, ← tally_paths m (by decide) (h.on_paths hpaths), Snapshot.matrixMetric, storedSnapshot,
      List.map_map, ← pagePaths_eq, List.map_map]
    congr 1
    exact List.map_congr_left fun path _ => matrixOf_count (h.cases hpaths (text_mem path)) m
  exact ⟨fun m => (hm m).symm, by rw [funext hm]; rfl⟩

end Stored

/-- A report that is shared is accepted, and stored as what the page has found. -/
theorem published_stored {origin : String → Option String} {config : Option RuntimeConfig}
    {profile : Profile} {hash : Bool} {report : Report} {summary : Summary}
    (h : Finished profile.webTransportConstructible hash report)
    (hs : Shareable origin config profile report summary) (receivedAt : String) :
    ∃ input s, parse (stringify 0 (publicationPayload profile report summary)) = .ok input ∧
      sanitizeSubmission input receivedAt (greaseConfigured config) = .ok s ∧
      Stores profile (triedVariants profile.webTransportConstructible hash) report summary s := by
  have hpaths := hs.paths_perm
  have hwf := storedSnapshot_wellFormed h hpaths hs.summarized receivedAt
  have hsubmits : Submits (publicationPayload profile report summary) (greaseConfigured config) _ :=
    payload_submits h hpaths receivedAt (greaseConfigured config) hs.probed hs.mode hs.finished
  have hparse := parse_stringify 0 (payload_plain h hpaths hs.summarized) "" (.inl rfl)
  refine ⟨_, _, by simpa using hparse, hsubmits.accepted hwf, ?_⟩
  exact {
    order := by rw [storedSnapshot, List.map_map]; exact pagePaths_eq
    path := fun r hr => by
      obtain ⟨path, -, rfl⟩ := List.mem_map.mp hr
      exact storesPath h hpaths _ path
    metrics := rfl
    matrix := storedSnapshot_matches h hpaths hs.summarized receivedAt
    verdict := by
      rw [storedSnapshot, Option.map_map]
      refine Option.map_congr fun d hd => storedGrease_verdict h hd }

end WebTransportEcho.Page
