import WebTransportEcho.Js.Size
import WebTransportEcho.Page.Browser
import WebTransportEcho.Page.Exclusive
import WebTransportEcho.Server.BodyLimit

/-! How long the payload of a run can be. The results may be any, one for each case: what grows are the
    eight matrices, where the masks and the options of an entry are those of its variant and each
    outcome has one of four texts. The sum over all masks stays below the server's limit, so a
    published run is not refused for its length. -/

namespace WebTransportEcho.Page
open Js Store

/-! ### Any results -/

/-- The report of an exhaustive run over some paths, with one result for each case and what the page
    counts over them. The stages of a result and the probes may be any. -/
structure Assigned (webTransport hash : Bool) (report : Report) : Prop where
  results : ResultsOf (plan report.run.paths
    ((triedVariants webTransport hash).map ExhaustiveVariant.toVariant)) report.results
  summary : report.summary = some (summarizeResults report.results
    (report.run.paths.length * (buildExhaustiveVariants hash).length))
  analysis : report.pathAnalysis = analyzePaths report.results (axes hash)

theorem Finished.assigned {webTransport hash : Bool} {report : Report}
    (h : Finished webTransport hash report) : Assigned webTransport hash report :=
  ⟨h.results.imp fun _ _ hran => hran.keeps, h.summary, h.analysis⟩

/-! ### Parts of the payload -/

theorem stages_bounded (keys : List Stage) (outcome : Stage → Outcome) :
    Bounded (stagesJson keys outcome) (keys.map fun _ => 13) := by
  have houtcome (o : Outcome) : (Json.str o.text).size ≤ 13 := by cases o <;> decide
  exact bounded_map keys _ 13 fun s => houtcome (outcome s)

theorem probe_size_le (p : Probe) : (probeJson p).size ≤ 150 :=
  size_obj_le (greaseProbeKeys.map Stage.key) (greaseProbeKeys.map fun _ => 13) rfl
    (stages_bounded greaseProbeKeys p) (by decide)

def optionsJson (options : List OptionKey) : Json := .arr (options.map fun k => .str k.text)

/-- An entry of a matrix takes at most so much, of which its options are what differs. -/
def combinationLimit (mask : Nat) : Nat := 171 + (optionsJson (expectedOptions mask)).size

theorem combination_size_le {c : PublishedCombination} {mask : Nat} (hlt : mask < 32)
    (hmask : c.mask = some mask) (hoptions : c.options = expectedOptions mask) :
    c.toJson.size ≤ combinationLimit mask := by
  have hnat : (c.mask.elim Json.null Json.nat).size ≤ 2 := by
    rw [hmask]
    exact size_nat_le (by decide) (by omega)
  have hlist : (optionsJson c.options).size ≤ (optionsJson (expectedOptions mask)).size := by
    rw [hoptions]
  have hfixed : 2 + keysSize ("mask" :: "options" :: combinationStageKeys.map Stage.key) +
      (2 + (combinationStageKeys.map fun _ => 13).sum) = 171 := by decide
  refine size_obj_le ("mask" :: "options" :: combinationStageKeys.map Stage.key)
    (2 :: (optionsJson (expectedOptions mask)).size :: combinationStageKeys.map fun _ => 13) rfl
    (.cons hnat (.cons hlist (stages_bounded combinationStageKeys c.outcome))) ?_
  rw [combinationLimit, List.sum_cons, List.sum_cons]
  omega

/-- The whole matrix. Without the API it is empty. -/
theorem matrix_le : ∀ n ∈ [0, 16, 32],
    ((List.range n).map fun mask => 1 + combinationLimit mask).sum ≤ 7025 := by decide

theorem ratio_size_le {r : Ratio} (h : r.WellFormed) : r.toJson.size ≤ 28 := by
  have htotal : r.total < 10 ^ 4 := h.total_le.trans_lt (by decide)
  exact size_obj_le ["ready", "total"] [4, 4] rfl
    (.cons (size_nat_le (by decide) (h.ready_le.trans_lt htotal))
      (.cons (size_nat_le (by decide) htotal) .nil)) (by decide)

theorem effect_size_le {e : Effect} (h : e.WellFormed) : e.toJson.size ≤ 121 := by
  have hkey : (Json.str e.key.text).size ≤ 25 := by cases e.key <;> decide
  exact size_obj_le ["key", "withOption", "withoutOption"] [25, 28, 28] rfl
    (.cons hkey (.cons (ratio_size_le h.withOption) (.cons (ratio_size_le h.withoutOption) .nil)))
    (by decide)

/-! ### A path -/

/-- The counts of a path are of its results. -/
theorem publicationPath_count_le {report : Report} {hash : Bool}
    (h : report.pathAnalysis = analyzePaths report.results (axes hash)) (path : String) :
    (publicationPath report path).total ≤ (casesOf report.results path).length ∧
      ∀ m, (publicationPath report path).count m ≤ (casesOf report.results path).length := by
  unfold publicationPath
  cases hfind : report.pathAnalysis.find? (fun item => decide (item.path = path)) with
  | none =>
    refine ⟨le_rfl, fun m => ?_⟩
    rcases m with s | _
    · cases s <;> exact List.length_filter_le _ _
    · exact List.length_filter_le _ _
  | some a =>
    obtain rfl := found_analysis h hfind
    refine ⟨le_rfl, fun m => ?_⟩
    rcases m with s | _
    · cases s <;> exact List.length_filter_le _ _
    · exact (List.length_filter_le _ _).trans (List.length_filter_le _ _)

/-- There is an effect for each axis at most. -/
theorem effects_length_le {report : Report} {hash : Bool}
    (h : report.pathAnalysis = analyzePaths report.results (axes hash)) (path : String) :
    (publicationPath report path).effects.length ≤ 5 := by
  unfold publicationPath
  cases hfind : report.pathAnalysis.find? (fun item => decide (item.path = path)) with
  | none => exact Nat.zero_le 5
  | some a =>
    obtain rfl := found_analysis h hfind
    cases hash <;> simp [analyzePath, axes, exhaustiveAxes]

section Path

variable {webTransport hash : Bool} {report : Report} (h : Assigned webTransport hash report)
  (hpaths : pagePaths.Perm report.run.paths) {path : String} (hpath : path ∈ pagePaths)

theorem tried_length_mem (webTransport hash : Bool) :
    (triedVariants webTransport hash).length ∈ [0, 16, 32] := by
  rw [tried_length, variants_length]
  cases webTransport <;> cases hash <;> decide

theorem tried_length_le (webTransport hash : Bool) : (triedVariants webTransport hash).length ≤ 32 := by
  have hmem := tried_length_mem webTransport hash
  simp only [List.mem_cons, List.not_mem_nil, or_false] at hmem
  omega

include h hpaths

theorem Assigned.length : report.results.length ≤ 256 := by
  have hlength := tried_length_le webTransport hash
  have hpages : pagePaths.length = 8 := rfl
  rw [← h.results.length_eq, plan_length, ← hpaths.length_eq, List.length_map, hpages]
  omega

include hpath

theorem Assigned.cases : List.Forall₂ (fun v c => Keeps path v.toVariant c)
    (triedVariants webTransport hash) (casesOf report.results path) :=
  results_path (fun _ _ hkeeps => hkeeps.1) h.results (hpaths.nodup_iff.mp (by decide))
    (hpaths.mem_iff.mp hpath)

theorem Assigned.cases_length_le : (casesOf report.results path).length ≤ 32 := by
  rw [← (h.cases hpaths hpath).length_eq]
  exact tried_length_le webTransport hash

/-- The entry of a result is that of its variant. -/
theorem Assigned.entries : List.Forall₂
    (fun v c => 1 + (publicationCombination c).toJson.size ≤ 1 + combinationLimit v.mask)
    (triedVariants webTransport hash) (casesOf report.results path) := by
  have hvariant : ∀ v ∈ triedVariants webTransport hash, v.mask < 32 ∧ v.Spelled := by
    intro v hv
    have hmem := (tried_masks webTransport hash).mem_iff.mp (List.mem_map_of_mem hv)
    exact ⟨(List.mem_range.mp hmem).trans_le (tried_length_le webTransport hash), tried_spelled v hv⟩
  refine ((List.forall₂_and_left _ _).mpr ⟨hvariant, h.cases hpaths hpath⟩).imp ?_
  rintro v c ⟨⟨hlt, hid, hoptions⟩, -, hvariantId, hkeys⟩
  refine Nat.add_le_add_left (combination_size_le hlt ?_ (hkeys.trans hoptions)) 1
  have hsame : c.variantId = v.id := hvariantId
  rw [publicationCombination, hsame, hid]

/-- The matrix of a path is bounded by the sum over its masks, in whatever order they were run. -/
theorem Assigned.matrix_size_le : (Json.arr ((publicationPath report path).combinations.map
    PublishedCombination.toJson)).size ≤ 7027 := by
  have hsorted : (publicationPath report path).combinations.Perm
      ((casesOf report.results path).map publicationCombination) := List.perm_insertionSort _ _
  have hsum := ((hsorted.map PublishedCombination.toJson).map fun j => 1 + j.size).sum_eq
  have hentries := (List.forall₂_map_left_iff.mpr (List.forall₂_map_right_iff.mpr
    (h.entries hpaths hpath).flip)).sum_le_sum
  have hmasks := ((tried_masks webTransport hash).map fun mask => 1 + combinationLimit mask).sum_eq
  have hlimit := matrix_le _ (tried_length_mem webTransport hash)
  have hsize := size_arr_le ((publicationPath report path).combinations.map PublishedCombination.toJson)
  simp only [List.map_map, Function.comp_def] at hsum hmasks hsize
  omega

/-- Every path that the page has is published with at most so much. -/
theorem Assigned.path_size_le : (publicationPath report path).toJson.size ≤ 7820 := by
  have hcases := h.cases_length_le hpaths hpath
  obtain ⟨htotal, hcount⟩ := publicationPath_count_le h.analysis path
  have hname : ∀ path ∈ pagePaths, (Json.str path).size ≤ 15 := by decide
  have hdigits {n : Nat} (hn : n ≤ (casesOf report.results path).length) : (Json.nat n).size ≤ 2 :=
    size_nat_le (by decide) (by omega)
  have heffects : (Json.arr ((publicationPath report path).effects.map Effect.toJson)).size ≤ 612 := by
    have hwf := (@publicationPath_effects report hash h.analysis path (by omega)).2
    have hparts : ∀ j ∈ (publicationPath report path).effects.map Effect.toJson, j.size ≤ 121 := by
      intro j hj
      obtain ⟨e, he, rfl⟩ := List.mem_map.mp hj
      exact effect_size_le (hwf e he)
    have hsize := size_arr_le_of_forall hparts
    have hlength := effects_length_le h.analysis path
    rw [List.length_map] at hsize
    omega
  have hcounts : Bounded
      (pathMetrics.map fun e => (e.1.key, .nat ((publicationPath report path).count e.1)))
      (pathMetrics.map fun _ => 2) := bounded_map pathMetrics _ 2 fun e => hdigits (hcount e.1)
  have hfront : Bounded (("path", .str path) :: ("total", .nat (publicationPath report path).total) ::
      pathMetrics.map fun e => (e.1.key, .nat ((publicationPath report path).count e.1)))
      (15 :: 2 :: pathMetrics.map fun _ => 2) :=
    .cons (hname path hpath) (.cons (hdigits htotal) hcounts)
  have hback : Bounded
      [("effects", .arr ((publicationPath report path).effects.map Effect.toJson)),
        ("combinations", .arr ((publicationPath report path).combinations.map
          PublishedCombination.toJson))] [612, 7027] :=
    .cons heffects (.cons (h.matrix_size_le hpaths hpath) .nil)
  exact size_obj_le ("path" :: "total" :: (pathMetrics.map fun e => e.1.key) ++
      ["effects", "combinations"]) (15 :: 2 :: (pathMetrics.map fun _ => 2) ++ [612, 7027]) rfl
    (List.rel_append hfront hback) (by decide)

end Path

/-! ### The payload -/

theorem publicationGreaseDifferential_size_le (report : Report) :
    (publicationGreaseDifferential report).size ≤ 324 := by
  unfold publicationGreaseDifferential
  cases report.greaseDifferential with
  | none => decide
  | some d =>
    exact size_obj_le ["control", "enabled"] [150, 150] rfl
      (.cons (probe_size_le _) (.cons (probe_size_le _) .nil)) (by decide)

/-- What is published of a profile with a name that the page has and a short version. -/
theorem browser_size_le {profile : Profile} (hname : (Json.str profile.name).size ≤ 17)
    (hversion : ∀ major, majorVersion profile.version = some major → major.length ≤ 64) :
    (Json.obj [("name", .str profile.name),
      ("version", (majorVersion profile.version).elim .null .str)]).size ≤ 424 := by
  have hmajor : ((majorVersion profile.version).elim Json.null Json.str).size ≤ 386 := by
    cases hv : majorVersion profile.version with
    | none => decide
    | some major =>
      have hquoted : (Json.str major).size ≤ 6 * major.length + 2 := quotedSize_le major
      have hlength := hversion major hv
      rw [Option.elim_some]
      omega
  exact size_obj_le ["name", "version"] [17, 386] rfl (.cons hname (.cons hmajor .nil)) (by decide)

theorem bool_size_le (b : Bool) : (Json.bool b).size ≤ 5 := by cases b <;> decide

section Payload

variable {webTransport hash : Bool} {report : Report} {summary : Summary}
  (h : Assigned webTransport hash report) (hpaths : pagePaths.Perm report.run.paths)
  (hsummary : report.summary = some summary)

include h hpaths hsummary

/-- The counts of the summary have three digits. -/
theorem Assigned.summary_le : summary.plannedCases ≤ 256 ∧ summary.completedCases ≤ 256 ∧
    ∀ m, summary.count m ≤ 256 := by
  have hlength := h.length hpaths
  have hplanned : report.run.paths.length * (buildExhaustiveVariants hash).length ≤ 256 := by
    rw [← hpaths.length_eq, variants_length]
    cases hash <;> decide
  obtain rfl := Option.some.inj (hsummary.symm.trans h.summary)
  refine ⟨hplanned, hlength, fun m => ?_⟩
  rw [summarizeResults_count]
  exact (List.length_filter_le _ _).trans hlength

theorem Assigned.payload_size_le {profile : Profile} (hname : (Json.str profile.name).size ≤ 17)
    (hversion : ∀ major, majorVersion profile.version = some major → major.length ≤ 64) :
    (publicationPayload profile report summary).size ≤ 64 * 1024 := by
  obtain ⟨hplanned, hcompleted, hcount⟩ := h.summary_le hpaths hsummary
  have hdigits {n : Nat} (hn : n ≤ 256) : (Json.nat n).size ≤ 3 := size_nat_le (by decide) (by omega)
  have hmode : (Json.str report.run.mode.text).size ≤ 12 := by cases report.run.mode <;> decide
  have hcapabilities : (Json.obj [("secureContext", .bool profile.secureContext),
      ("webTransport", .bool profile.webTransportConstructible)]).size ≤ 45 :=
    size_obj_le ["secureContext", "webTransport"] [5, 5] rfl
      (.cons (bool_size_le _) (.cons (bool_size_le _) .nil)) (by decide)
  have hrun : (Json.obj [("mode", .str report.run.mode.text),
      ("plannedCases", .nat summary.plannedCases), ("completedCases", .nat summary.completedCases),
      ("cancelled", .bool report.cancelled)]).size ≤ 80 :=
    size_obj_le ["mode", "plannedCases", "completedCases", "cancelled"] [12, 3, 3, 5] rfl
      (.cons hmode (.cons (hdigits hplanned) (.cons (hdigits hcompleted)
        (.cons (bool_size_le _) .nil)))) (by decide)
  have hmetrics : (metricsJson summary.count).size ≤ 158 := by
    have hcounts : Bounded (metrics.map fun e => (e.1.key, .nat (summary.count e.1)))
        (metrics.map fun _ => 3) := bounded_map metrics _ 3 fun e => hdigits (hcount e.1)
    exact size_obj_le (metrics.map fun e => e.1.key) (metrics.map fun _ => 3) rfl hcounts (by decide)
  have harray : (Json.arr (pagePaths.map fun path => (publicationPath report path).toJson)).size ≤
      62570 := by
    have hparts : ∀ j ∈ pagePaths.map fun path => (publicationPath report path).toJson,
        j.size ≤ 7820 := by
      intro j hj
      obtain ⟨path, hpath, rfl⟩ := List.mem_map.mp hj
      exact h.path_size_le hpaths hpath
    have hsize := size_arr_le_of_forall hparts
    have hlength : pagePaths.length = 8 := rfl
    rw [List.length_map, hlength] at hsize
    omega
  exact size_obj_le
    ["schemaVersion", "browser", "capabilities", "run", "metrics", "paths", "grease"]
    [1, 424, 45, 80, 158, 62570, 324] rfl
    (.cons (size_nat_le (by decide) (by decide)) (.cons (browser_size_le hname hversion)
      (.cons hcapabilities (.cons hrun (.cons hmetrics (.cons harray
        (.cons (publicationGreaseDifferential_size_le report) .nil))))))) (by decide)

end Payload

/-! ### Published runs -/

/-- The body that is posted. -/
def postedBytes (profile : Profile) (report : Report) (summary : Summary) : List UInt8 :=
  utf8 (stringify 0 (publicationPayload profile report summary))

theorem Assigned.posted_length_le {webTransport hash : Bool} {report : Report} {summary : Summary}
    (h : Assigned webTransport hash report) (hpaths : pagePaths.Perm report.run.paths)
    (hsummary : report.summary = some summary) {profile : Profile}
    (hname : (Json.str profile.name).size ≤ 17)
    (hversion : ∀ major, majorVersion profile.version = some major → major.length ≤ 64) :
    (postedBytes profile report summary).length ≤ 64 * 1024 := by
  rw [postedBytes, length_stringify]
  exact h.payload_size_le hpaths hsummary hname hversion

theorem detected_name_size_le (env : Environment) (isBrave : Bool) (userAgent : String) :
    (Json.str (env.detected isBrave userAgent).name).size ≤ 17 := by
  have hnames : ∀ name ∈ ["Brave", "Microsoft Edge", "Firefox", "Safari", "Chrome", "Unknown browser"],
      (Json.str name).size ≤ 17 := by decide
  exact hnames _ (detectBrowserProfile_name isBrave userAgent)

/-- Whatever the results of an exhaustive run over all paths and of its probes are, its payload is not
    too long for the server, for every browser with a major version of at most 64 characters. -/
theorem publishable_fits (env : Environment) (isBrave : Bool) (userAgent : String) (hash : Bool)
    (report : Report) (summary : Summary) (h : Assigned env.webTransportConstructible hash report)
    (hpaths : pagePaths.Perm report.run.paths) (hsummary : report.summary = some summary)
    (hversion : ∀ major, majorVersion (env.detected isBrave userAgent).version = some major →
      major.length ≤ 64) :
    (postedBytes (env.detected isBrave userAgent) report summary).length ≤ 64 * 1024 ∧
      Server.NeverTooLarge (postedBytes (env.detected isBrave userAgent) report summary) := by
  have hlength := h.posted_length_le hpaths hsummary (detected_name_size_le env isBrave userAgent)
    hversion
  exact ⟨hlength, Server.neverTooLarge_of_le hlength⟩

/-- The report of an exhaustive run over all paths, for an assignment of stages to its cases. -/
def assignedReport (webTransport hash : Bool) (assignment : Case → Stages)
    (differential : Option Differential) : Report :=
  let results := (plan pagePaths ((triedVariants webTransport hash).map ExhaustiveVariant.toVariant)).map
    fun case => { url := "", path := case.1, variantId := case.2.id, optionKeys := case.2.optionKeys
                  stage := assignment case, cancelled := false }
  let plannedCases := pagePaths.length * (buildExhaustiveVariants hash).length
  { run :=
      { mode := .exhaustive, targetBase := "https://wt.example:9443", paths := pagePaths, plannedCases
        greaseDifferential := differential.isSome
        constructorVariants := (buildExhaustiveVariants hash).map ExhaustiveVariant.toVariant }
    cancelled := false
    summary := some (summarizeResults results plannedCases)
    pathAnalysis := analyzePaths results (axes hash)
    greaseDifferential := differential
    results }

theorem assignedReport_assigned (webTransport hash : Bool) (assignment : Case → Stages)
    (differential : Option Differential) :
    Assigned webTransport hash (assignedReport webTransport hash assignment differential) := by
  refine ⟨?_, rfl, rfl⟩
  rw [assignedReport, ResultsOf, List.forall₂_map_right_iff, List.forall₂_same]
  exact fun _ _ => ⟨rfl, rfl, rfl⟩

/-- No case has come to any stage but the datagrams, which were unavailable: the longest texts. -/
def longestReport : Report :=
  assignedReport true true
    (fun _ s => if s = .datagram then some (skipped "datagram streams unavailable") else none) none

def longestSummary : Summary :=
  summarizeResults longestReport.results (pagePaths.length * (buildExhaustiveVariants true).length)

theorem longestReport_fits :
    (postedBytes (browser.detected false "Gecko/20100101 Firefox/141.0") longestReport
        longestSummary).length ≤ 64 * 1024 ∧
      Server.NeverTooLarge (postedBytes (browser.detected false "Gecko/20100101 Firefox/141.0")
        longestReport longestSummary) := by
  have hmajor : majorVersion (browser.detected false "Gecko/20100101 Firefox/141.0").version =
      some "141" := by decide
  refine publishable_fits browser false "Gecko/20100101 Firefox/141.0" true longestReport longestSummary
    (assignedReport_assigned true true _ none) (.refl _) rfl fun major h => ?_
  rw [hmajor] at h
  cases h
  decide

/-- What a run posts that was left alone is the payload of such a report, so it is not refused. -/
theorem posted_fits {env : Environment} {form : Form} {events : List Event} {p : Post}
    (hp : p ∈ (session env form events).posts) (halone : Alone env form events p.run) :
    ∃ profile summary, p.payload = publicationPayload profile p.report summary ∧
      ∀ isBrave userAgent, profile = env.detected isBrave userAgent →
        (∀ major, majorVersion profile.version = some major → major.length ≤ 64) →
        Server.NeverTooLarge (utf8 (stringify 0 p.payload)) := by
  obtain ⟨profile, hash, summary, -, hfinished, hshareable, hpayload⟩ :=
    (kept_session env form events).posts p hp halone
  refine ⟨profile, summary, hpayload, ?_⟩
  rintro isBrave userAgent rfl hversion
  rw [hpayload]
  exact Server.neverTooLarge_of_le (hfinished.assigned.posted_length_le hshareable.paths_perm
    hshareable.summarized (detected_name_size_le env isBrave userAgent) hversion)

end WebTransportEcho.Page
