import WebTransportEcho.Page.Report
import WebTransportEcho.Store.Reading
import WebTransportEcho.Store.Signal

/-! The option signals, where they are made. The page's analysis counts the ready cases of a path with
    each option and without it; an option separates the ready cases exactly when one of the two
    counts is zero. The store derives the signal again from the published counts, with labels of its
    own, and comes to the same text.

    An option is named by a string here, as in the source, and the axes are any list. What the options
    are named by makes no difference to the analysis (`analyzePaths_rename`). -/

namespace WebTransportEcho.Page.Analysis
open Js Store Factorial

/-- `publicationPath(path).effects`. -/
def publishedEffects (pathAnalysis : List (PathAnalysis String)) (path : String) : List Json :=
  let analyzed := pathAnalysis.find? fun item => decide (item.path = path)
  ((analyzed.map PathAnalysis.effects).getD []).map fun e =>
    .obj [("key", .str e.key), ("withOption", e.withOption.toJson),
      ("withoutOption", e.withoutOption.toJson)]

/-! ### Other names for the options -/

section Rename

variable {κ ι : Type} (f : κ → ι)

def renameAxis (a : Axis κ) : Axis ι := { key := f a.key, label := a.label }

def renameCase (c : ResultOf κ) : ResultOf ι where
  url := c.url
  path := c.path
  variantId := c.variantId
  optionKeys := c.optionKeys.map f
  stage := c.stage
  cancelled := c.cancelled

def renameEffect (e : AxisEffect κ) : AxisEffect ι where
  key := f e.key
  label := e.label
  withOption := e.withOption
  withoutOption := e.withoutOption

def renameAnalysis (a : PathAnalysis κ) : PathAnalysis ι where
  path := a.path
  total := a.total
  ready := a.ready
  bidirectionalStream := a.bidirectionalStream
  unidirectionalStream := a.unidirectionalStream
  datagram := a.datagram
  datagramUnavailable := a.datagramUnavailable
  signal := a.signal
  effects := a.effects.map (renameEffect f)

variable {f}

/-- Cases are counted alike under their new names. -/
theorem filter_renameCase (cases : List (ResultOf κ)) {p : ResultOf ι → Bool} {q : ResultOf κ → Bool}
    (h : ∀ c, p (renameCase f c) = q c) :
    (cases.map (renameCase f)).filter p = (cases.filter q).map (renameCase f) := by
  rw [List.filter_map]
  exact congrArg _ (List.filter_congr fun c _ => h c)

theorem countFulfilled_renameCase (cases : List (ResultOf κ)) (s : Stage) :
    countFulfilled (cases.map (renameCase f)) s = countFulfilled cases s := by
  rw [countFulfilled, countFulfilled, filter_renameCase cases (q := fun c => c.passed s) fun _ => rfl,
    List.length_map]

theorem readyRatio_renameCase (cases : List (ResultOf κ)) :
    readyRatio (cases.map (renameCase f)) = readyRatio cases := by
  rw [readyRatio, readyRatio, countFulfilled_renameCase, List.length_map]

theorem analysisSignal_renameEffect (ready total : Nat) (es : List (AxisEffect κ)) :
    analysisSignal ready total (es.map (renameEffect f)) = analysisSignal ready total es := by
  have hwith : (onlyWith (es.map (renameEffect f))).map AxisEffect.label =
      (onlyWith es).map AxisEffect.label := by
    rw [onlyWith, onlyWith, List.filter_map, List.map_map]
    rfl
  have hwithout : (onlyWithout (es.map (renameEffect f))).map AxisEffect.label =
      (onlyWithout es).map AxisEffect.label := by
    rw [onlyWithout, onlyWithout, List.filter_map, List.map_map]
    rfl
  rw [analysisSignal, analysisSignal, hwith, hwithout]

variable [DecidableEq κ] [DecidableEq ι] (hf : f.Injective)

include hf

theorem axisEffect_renameCase (cases : List (ResultOf κ)) (a : Axis κ) :
    axisEffect (cases.map (renameCase f)) (renameAxis f a) = renameEffect f (axisEffect cases a) := by
  have hcontains (c : ResultOf κ) :
      (renameCase f c).optionKeys.contains (f a.key) = c.optionKeys.contains a.key := by
    rw [Bool.eq_iff_iff, List.contains_iff_mem, List.contains_iff_mem, renameCase,
      List.mem_map_of_injective hf]
  have hwith := filter_renameCase cases (p := fun c => c.optionKeys.contains (f a.key))
    (q := fun c => c.optionKeys.contains a.key) hcontains
  have hwithout := filter_renameCase cases (p := fun c => !c.optionKeys.contains (f a.key))
    (q := fun c => !c.optionKeys.contains a.key) fun c => congrArg (!·) (hcontains c)
  simp only [axisEffect, renameAxis, renameEffect, hwith, hwithout, readyRatio_renameCase]

theorem analyzePaths_rename (cases : List (ResultOf κ)) (axes : List (Axis κ)) :
    analyzePaths (cases.map (renameCase f)) (axes.map (renameAxis f)) =
      (analyzePaths cases axes).map (renameAnalysis f) := by
  have hpaths : (cases.map (renameCase f)).map ResultOf.path = cases.map ResultOf.path := by
    rw [List.map_map]
    rfl
  rw [analyzePaths, analyzePaths, hpaths, List.map_map]
  refine List.map_congr_left fun path _ => ?_
  have hown : casesOf (cases.map (renameCase f)) path = (casesOf cases path).map (renameCase f) :=
    filter_renameCase cases fun _ => rfl
  have heffects : (axes.map (renameAxis f)).map (axisEffect ((casesOf cases path).map (renameCase f))) =
      (axes.map (axisEffect (casesOf cases path))).map (renameEffect f) := by
    rw [List.map_map, List.map_map]
    exact List.map_congr_left fun a _ => axisEffect_renameCase hf _ a
  have hready := filter_renameCase (f := f) (casesOf cases path)
    (p := fun c => c.passed .ready) (q := fun c => c.passed .ready) fun _ => rfl
  have hunavailable := filter_renameCase (f := f)
    ((casesOf cases path).filter fun c => c.passed .ready)
    (p := fun c => Page.datagramUnavailable (c.stage .datagram))
    (q := fun c => Page.datagramUnavailable (c.stage .datagram)) fun _ => rfl
  simp only [analyzePath, Function.comp_apply, hown, heffects, countFulfilled_renameCase,
    analysisSignal_renameEffect, hready, hunavailable, List.length_map, renameAnalysis]

end Rename

/-! ### What the counts show -/

/-- A case as a trial of its options that passes when it gets ready. -/
def trial (c : ResultOf String) : Trial String where
  has k := c.optionKeys.contains k
  passed := c.passed .ready

/-- All ready cases of the path used the option. -/
def UsedByEvery (cases : List (ResultOf String)) (path key : String) : Prop :=
  ∀ c ∈ casesOf cases path, c.passed .ready = true → key ∈ c.optionKeys

def UsedByNone (cases : List (ResultOf String)) (path key : String) : Prop :=
  ∀ c ∈ casesOf cases path, c.passed .ready = true → key ∉ c.optionKeys

theorem usedByEvery_iff {cases : List (ResultOf String)} {path key : String} :
    UsedByEvery cases path key ↔ Requires ((casesOf cases path).map trial) true key := by
  simp [UsedByEvery, Requires, trial]

theorem usedByNone_iff {cases : List (ResultOf String)} {path key : String} :
    UsedByNone cases path key ↔ Requires ((casesOf cases path).map trial) false key := by
  simp [UsedByNone, Requires, trial]

theorem countFulfilled_ready (cases : List (ResultOf String)) :
    countFulfilled cases .ready = (cases.map trial).countP Trial.passed := by
  rw [countFulfilled, ← List.countP_eq_length_filter, List.countP_map]
  rfl

/-- Cases filtered by an option are the trials on one side of it. -/
theorem readyRatio_side (cases : List (ResultOf String)) {present : Bool} {key : String}
    {p : ResultOf String → Bool}
    (hp : ∀ c, p c = ((trial c).has key == present)) : readyRatio (cases.filter p) =
      ⟨passes (cases.map trial) present key, tried (cases.map trial) present key⟩ := by
  have hready : countFulfilled (cases.filter p) .ready = passes (cases.map trial) present key := by
    rw [countFulfilled, List.filter_filter, ← List.countP_eq_length_filter, passes, List.countP_map]
    refine List.countP_congr fun c _ => ?_
    rw [hp, Bool.and_comm]
    rfl
  have htotal : (cases.filter p).length = tried (cases.map trial) present key := by
    rw [← List.countP_eq_length_filter, tried, List.countP_map]
    refine List.countP_congr fun c _ => ?_
    rw [hp]
    rfl
  rw [readyRatio, hready, htotal]

theorem axisEffect_withOption (cases : List (ResultOf String)) (axis : Axis String) :
    (axisEffect cases axis).withOption = ⟨passes (cases.map trial) true axis.key,
      tried (cases.map trial) true axis.key⟩ :=
  readyRatio_side cases fun c => (beq_true ((trial c).has axis.key)).symm

theorem axisEffect_withoutOption (cases : List (ResultOf String)) (axis : Axis String) :
    (axisEffect cases axis).withoutOption = ⟨passes (cases.map trial) false axis.key,
      tried (cases.map trial) false axis.key⟩ :=
  readyRatio_side cases fun c => (beq_false ((trial c).has axis.key)).symm

section Separated

variable {cases : List (ResultOf String)} {path : String}
  (hpos : 0 < countFulfilled (casesOf cases path) .ready)

include hpos

theorem exists_passed : ∃ t ∈ (casesOf cases path).map trial, t.passed = true := by
  rw [countFulfilled_ready, List.countP_pos_iff] at hpos
  exact hpos

theorem separates_with {axis : Axis String} :
    (0 < (axisEffect (casesOf cases path) axis).withOption.ready ∧
      (axisEffect (casesOf cases path) axis).withoutOption.ready = 0) ↔
    UsedByEvery cases path axis.key := by
  rw [axisEffect_withOption, axisEffect_withoutOption, usedByEvery_iff]
  exact separates_iff (exists_passed hpos)

theorem separates_without {axis : Axis String} :
    (0 < (axisEffect (casesOf cases path) axis).withoutOption.ready ∧
      (axisEffect (casesOf cases path) axis).withOption.ready = 0) ↔
    UsedByNone cases path axis.key := by
  rw [axisEffect_withOption, axisEffect_withoutOption, usedByNone_iff]
  exact separates_iff (exists_passed hpos)

/-- Not both, as some case is ready. -/
theorem not_every_and_none {key : String} :
    ¬ (UsedByEvery cases path key ∧ UsedByNone cases path key) := by
  rintro ⟨hevery, hnone⟩
  rw [countFulfilled, List.length_pos_iff_exists_mem] at hpos
  obtain ⟨c, hc⟩ := hpos
  obtain ⟨hmem, hready⟩ := List.mem_filter.mp hc
  exact hnone c hmem hready (hevery c hmem hready)

end Separated

/-! ### What the signal says -/

theorem take_namePart {intro : String} {labels : List String} (rest : List String) {n : Nat}
    (hn : n ≤ intro.toList.length) (hne : labels ≠ []) :
    (String.intercalate "; " (namePart intro labels ++ rest)).toList.take n = intro.toList.take n := by
  have hempty : labels.isEmpty = false := by simp [hne]
  cases rest with
  | nil =>
    rw [namePart, hempty, if_neg Bool.false_ne_true, List.append_nil, String.intercalate_singleton,
      String.toList_append, List.take_append_of_le_length hn]
  | cons r rest =>
    rw [namePart, hempty, if_neg Bool.false_ne_true, List.singleton_append,
      String.intercalate_cons_cons, String.toList_append, String.toList_append, String.toList_append,
      List.append_assoc, List.append_assoc, List.take_append_of_le_length hn]

/-- A signal that names no option is told from one that does. -/
theorem signalText_eq_mixed {only without : List String} :
    signalText only without = "Mixed or interacting option effects" ↔ only = [] ∧ without = [] := by
  have hstart (intro : String) (hle : 1 ≤ intro.toList.length)
      (hr : intro.toList.take 1 = ['r']) (labels rest : List String) (hne : labels ≠ [])
      (h : String.intercalate "; " (namePart intro labels ++ rest) =
        "Mixed or interacting option effects") : False := by
    have htake := take_namePart rest hle hne
    rw [h, hr] at htake
    exact absurd htake (by decide)
  constructor
  · intro h
    by_cases honly : only = []
    · subst honly
      refine ⟨rfl, ?_⟩
      by_contra hne
      have hempty : without.isEmpty = false := by simp [hne]
      refine hstart "ready only without " (by decide) (by decide) without [] hne ?_
      simpa [signalText, namePart, hempty] using h
    · exfalso
      have hempty : only.isEmpty = false := by simp [honly]
      refine hstart "ready only with " (by decide) (by decide) only
        (namePart "ready only without " without) honly ?_
      simpa [signalText, namePart, hempty] using h
  · rintro ⟨rfl, rfl⟩
    rfl

/-! ### The analysis -/

theorem map_path_analyzePaths (cases : List (ResultOf String)) (axes : List (Axis String)) :
    (analyzePaths cases axes).map PathAnalysis.path = (cases.map ResultOf.path).eraseDups := by
  rw [analyzePaths, List.map_map]
  exact List.map_id _

theorem eq_analyzePath {cases : List (ResultOf String)} {axes : List (Axis String)} {a : PathAnalysis String}
    (ha : a ∈ analyzePaths cases axes) : a = analyzePath cases axes a.path := by
  obtain ⟨path, -, rfl⟩ := List.mem_map.mp ha
  rfl

theorem publishedEffects_eq {cases : List (ResultOf String)} {axes : List (Axis String)}
    {a : PathAnalysis String}
    (ha : a ∈ analyzePaths cases axes) : publishedEffects (analyzePaths cases axes) a.path =
      a.effects.map fun e => .obj [("key", .str e.key), ("withOption", e.withOption.toJson),
        ("withoutOption", e.withoutOption.toJson)] := by
  unfold publishedEffects
  cases hfind : (analyzePaths cases axes).find? fun item => decide (item.path = a.path) with
  | none =>
    have := List.find?_eq_none.mp hfind a ha
    simp at this
  | some b =>
    have hpath : b.path = a.path := by simpa using List.find?_some hfind
    have hb := eq_analyzePath (List.mem_of_find?_eq_some hfind)
    rw [hpath, ← eq_analyzePath ha] at hb
    simp only [hb, Option.map_some, Option.getD_some]

theorem filter_map_axisEffect (cases : List (ResultOf String)) (axes : List (Axis String))
    (p : AxisEffect String → Bool) :
    ((axes.map (axisEffect cases)).filter p).map AxisEffect.label =
      (axes.filter fun axis => p (axisEffect cases axis)).map Axis.label := by
  rw [List.filter_map, List.map_map]
  rfl

/-- The axes whose ready cases all have the option. -/
def axesOnlyWith (cases : List (ResultOf String)) (axes : List (Axis String)) : List (Axis String) :=
  axes.filter fun axis => decide (0 < (axisEffect cases axis).withOption.ready ∧
    (axisEffect cases axis).withoutOption.ready = 0)

def axesOnlyWithout (cases : List (ResultOf String)) (axes : List (Axis String)) : List (Axis String) :=
  axes.filter fun axis => decide (0 < (axisEffect cases axis).withoutOption.ready ∧
    (axisEffect cases axis).withOption.ready = 0)

theorem labels_onlyWith (cases : List (ResultOf String)) (axes : List (Axis String)) :
    (onlyWith (axes.map (axisEffect cases))).map AxisEffect.label =
      (axesOnlyWith cases axes).map Axis.label :=
  filter_map_axisEffect cases axes _

theorem labels_onlyWithout (cases : List (ResultOf String)) (axes : List (Axis String)) :
    (onlyWithout (axes.map (axisEffect cases))).map AxisEffect.label =
      (axesOnlyWithout cases axes).map Axis.label :=
  filter_map_axisEffect cases axes _

/-- Between none and all ready, the signal names the axes that separate. -/
theorem analyzePath_signal {cases : List (ResultOf String)} {axes : List (Axis String)} {path : String}
    (hpos : 0 < (analyzePath cases axes path).ready)
    (hlt : (analyzePath cases axes path).ready < (analyzePath cases axes path).total) :
    (analyzePath cases axes path).signal =
      signalText ((axesOnlyWith (casesOf cases path) axes).map Axis.label)
        ((axesOnlyWithout (casesOf cases path) axes).map Axis.label) := by
  have hne : countFulfilled (casesOf cases path) .ready ≠ 0 := Nat.ne_of_gt hpos
  have hne' : countFulfilled (casesOf cases path) .ready ≠ (casesOf cases path).length :=
    Nat.ne_of_lt hlt
  rw [← labels_onlyWith, ← labels_onlyWithout]
  exact (if_neg hne).trans (if_neg hne')

theorem axisEffect_sums (cases : List (ResultOf String)) (axis : Axis String) :
    (axisEffect cases axis).withOption.ready + (axisEffect cases axis).withoutOption.ready =
      countFulfilled cases .ready ∧
    (axisEffect cases axis).withOption.total + (axisEffect cases axis).withoutOption.total =
      cases.length := by
  rw [axisEffect_withOption, axisEffect_withoutOption, countFulfilled_ready, passes_add, tried_add,
    List.length_map]
  exact ⟨rfl, rfl⟩

/-! ### The store's signal -/

/-- The page's own axes. -/
def pageAxes (includeCertificateHash : Bool) : List (Axis String) :=
  (Page.axes includeCertificateHash).map (renameAxis OptionKey.text)

/-- What the store reads of the effect of a page axis. -/
def storedEffect (cases : List (ResultOf String)) (axis : Axis OptionKey) : Store.Effect where
  key := axis.key
  withOption := (axisEffect cases (renameAxis OptionKey.text axis)).withOption
  withoutOption := (axisEffect cases (renameAxis OptionKey.text axis)).withoutOption

theorem label_axis {hash : Bool} {axis : Axis OptionKey} (h : axis ∈ Page.axes hash) :
    axis.label = axis.key.label := by
  have hall : ∀ axis ∈ Page.axes hash, axis.label = axis.key.label := by cases hash <;> decide
  exact hall axis h

theorem storedEffect_wellFormed (cases : List (ResultOf String)) (axis : Axis OptionKey)
    (hle : cases.length ≤ 4096) :
    (storedEffect cases axis).WellFormed := by
  have hratio (p : ResultOf String → Bool) : (readyRatio (cases.filter p)).WellFormed :=
    ⟨List.length_filter_le _ _, (List.length_filter_le _ _).trans hle⟩
  exact ⟨hratio _, hratio _⟩

/-- The store finds the same options, under the same labels. -/
theorem map_label_stored {cases : List (ResultOf String)} {hash : Bool} {p : Store.Effect → Bool}
    {q : Axis String → Bool}
    (hpq : ∀ axis, p (storedEffect cases axis) = q (renameAxis OptionKey.text axis)) :
    ((((Page.axes hash).map (storedEffect cases)).filter p).map fun e => e.key.label) =
      ((pageAxes hash).filter q).map Axis.label := by
  have hfun : p ∘ storedEffect cases = q ∘ renameAxis OptionKey.text := funext hpq
  rw [pageAxes, List.filter_map, List.filter_map, List.map_map, List.map_map, hfun]
  exact List.map_congr_left fun axis haxis => (label_axis (List.mem_of_mem_filter haxis)).symm

theorem signalPart_labels (intro : String) (es : List Store.Effect) :
    signalPart intro es = namePart intro (es.map fun e => e.key.label) := by
  rw [signalPart, namePart, List.isEmpty_map]

theorem effectSignal_stored (cases : List (ResultOf String)) (hash : Bool) :
    effectSignal ((Page.axes hash).map (storedEffect cases)) =
      signalText ((axesOnlyWith cases (pageAxes hash)).map Axis.label)
        ((axesOnlyWithout cases (pageAxes hash)).map Axis.label) := by
  have hwith : (Store.onlyWith ((Page.axes hash).map (storedEffect cases))).map
      (fun e => e.key.label) = (axesOnlyWith cases (pageAxes hash)).map Axis.label :=
    map_label_stored fun _ => rfl
  have hwithout : (Store.onlyWithout ((Page.axes hash).map (storedEffect cases))).map
      (fun e => e.key.label) = (axesOnlyWithout cases (pageAxes hash)).map Axis.label :=
    map_label_stored fun _ => rfl
  simp only [effectSignal, signalPart_labels, hwith, hwithout, signalText]

/-- The store derives the page's signal, from labels of its own. -/
theorem optionSignal_stored {cases : List (ResultOf String)} {hash : Bool} {path : String}
    (hpos : 0 < (analyzePath cases (pageAxes hash) path).ready)
    (hlt : (analyzePath cases (pageAxes hash) path).ready <
      (analyzePath cases (pageAxes hash) path).total)
    (capabilities : Capabilities) :
    optionSignal (analyzePath cases (pageAxes hash) path).total
      (analyzePath cases (pageAxes hash) path).ready
      ((Page.axes hash).map (storedEffect (casesOf cases path))) capabilities =
        (analyzePath cases (pageAxes hash) path).signal := by
  rw [analyzePath_signal hpos hlt, optionSignal, if_neg (by omega), if_neg (by omega),
    if_neg (by omega), effectSignal_stored]

theorem publishedEffects_page {cases : List (ResultOf String)} {hash : Bool} {a : PathAnalysis String}
    (ha : a ∈ analyzePaths cases (pageAxes hash)) :
    publishedEffects (analyzePaths cases (pageAxes hash)) a.path =
      ((Page.axes hash).map (storedEffect (casesOf cases a.path))).map Store.Effect.toJson := by
  have heffects : a.effects = (pageAxes hash).map (axisEffect (casesOf cases a.path)) :=
    congrArg PathAnalysis.effects (eq_analyzePath ha)
  rw [publishedEffects_eq ha, heffects, pageAxes, List.map_map, List.map_map, List.map_map]
  rfl

/-- Every path with a result is analyzed once. Where some of its cases got ready and some did not, the
    signal names the options that all ready cases used and those that none of them did; for the
    page's own axes the store reads the published effects and derives the same text. -/
theorem analyzePaths_signal (cases : List (ResultOf String)) (axes : List (Axis String)) :
    (analyzePaths cases axes).map PathAnalysis.path = (cases.map ResultOf.path).eraseDups ∧
    ∀ a ∈ analyzePaths cases axes,
      a.total = (casesOf cases a.path).length ∧
      a.ready = countFulfilled (casesOf cases a.path) .ready ∧
      a.effects.map (fun e => (e.key, e.label)) = axes.map (fun axis => (axis.key, axis.label)) ∧
      (∀ e ∈ a.effects, e.withOption.ready + e.withoutOption.ready = a.ready ∧
        e.withOption.total + e.withoutOption.total = a.total) ∧
      (0 < a.ready → a.ready < a.total →
        (∃ only without : List (Axis String), only.Sublist axes ∧ without.Sublist axes ∧
          a.signal = signalText (only.map Axis.label) (without.map Axis.label) ∧
          (∀ axis ∈ axes, (axis ∈ only ↔ UsedByEvery cases a.path axis.key) ∧
            (axis ∈ without ↔ UsedByNone cases a.path axis.key)) ∧
          (∀ axis, ¬ (axis ∈ only ∧ axis ∈ without)) ∧
          (a.signal = "Mixed or interacting option effects" ↔
            ∀ axis ∈ axes, ¬ UsedByEvery cases a.path axis.key ∧
              ¬ UsedByNone cases a.path axis.key)) ∧
        ∀ hash, axes = pageAxes hash → ∃ es : List Store.Effect,
          publishedEffects (analyzePaths cases axes) a.path = es.map Store.Effect.toJson ∧
          (∀ capabilities, optionSignal a.total a.ready es capabilities = a.signal) ∧
          (a.total ≤ 4096 → ∀ path, sanitizeEffects
            (.json (.arr (publishedEffects (analyzePaths cases axes) a.path))) path = .ok es)) := by
  refine ⟨map_path_analyzePaths cases axes, fun a ha => ?_⟩
  have heq := eq_analyzePath ha
  have heffects : a.effects = axes.map (axisEffect (casesOf cases a.path)) :=
    congrArg PathAnalysis.effects heq
  have htotal : a.total = (casesOf cases a.path).length := congrArg PathAnalysis.total heq
  have hready : a.ready = countFulfilled (casesOf cases a.path) .ready :=
    congrArg PathAnalysis.ready heq
  refine ⟨htotal, hready, ?_, ?_, fun hpos hlt => ⟨?_, ?_⟩⟩
  · rw [heffects, List.map_map]
    rfl
  · intro e he
    rw [heffects] at he
    obtain ⟨axis, -, rfl⟩ := List.mem_map.mp he
    rw [hready, htotal]
    exact axisEffect_sums _ axis
  · have hpass : 0 < countFulfilled (casesOf cases a.path) .ready := hready ▸ hpos
    have honly (axis : Axis String) : axis ∈ axesOnlyWith (casesOf cases a.path) axes ↔
        axis ∈ axes ∧ UsedByEvery cases a.path axis.key := by
      rw [axesOnlyWith, List.mem_filter, decide_eq_true_eq, separates_with hpass]
    have hwithout (axis : Axis String) : axis ∈ axesOnlyWithout (casesOf cases a.path) axes ↔
        axis ∈ axes ∧ UsedByNone cases a.path axis.key := by
      rw [axesOnlyWithout, List.mem_filter, decide_eq_true_eq, separates_without hpass]
    have hsignal : a.signal =
        signalText ((axesOnlyWith (casesOf cases a.path) axes).map Axis.label)
          ((axesOnlyWithout (casesOf cases a.path) axes).map Axis.label) := by
      rw [heq] at hpos hlt
      exact (congrArg PathAnalysis.signal heq).trans (analyzePath_signal hpos hlt)
    refine ⟨_, _, List.filter_sublist, List.filter_sublist, hsignal, ?_, ?_, ?_⟩
    · intro axis haxis
      exact ⟨(honly axis).trans (and_iff_right haxis), (hwithout axis).trans (and_iff_right haxis)⟩
    · rintro axis ⟨hin, hin'⟩
      exact not_every_and_none hpass ⟨((honly axis).mp hin).2, ((hwithout axis).mp hin').2⟩
    · rw [hsignal, signalText_eq_mixed, List.map_eq_nil_iff, List.map_eq_nil_iff,
        List.eq_nil_iff_forall_not_mem, List.eq_nil_iff_forall_not_mem]
      simp only [honly, hwithout, not_and]
      exact ⟨fun h axis haxis => ⟨h.1 axis haxis, h.2 axis haxis⟩,
        fun h => ⟨fun axis haxis => (h axis haxis).1, fun axis haxis => (h axis haxis).2⟩⟩
  · rintro hash rfl
    have hpublished := publishedEffects_page ha
    refine ⟨_, hpublished, fun capabilities => ?_, fun hle path => ?_⟩
    · rw [heq] at hpos hlt
      rw [heq]
      exact optionSignal_stored hpos hlt capabilities
    · rw [hpublished]
      refine sanitizeEffects_toJson path ?_ fun e he => ?_
      · have hkeys : ((Page.axes hash).map Axis.key).Nodup := by cases hash <;> decide
        rw [List.map_map]
        exact hkeys
      · obtain ⟨axis, -, rfl⟩ := List.mem_map.mp he
        exact storedEffect_wellFormed _ axis (htotal ▸ hle)

/-- Two cases, of which the one without pooling is ready. -/
def poolingCases : List (ResultOf String) :=
  let result (optionKeys : List String) (r : StageResult) : ResultOf String :=
    { url := "https://wt.example:4433/wt/basic"
      path := "/wt/basic"
      variantId := ""
      optionKeys
      stage := fun s => if s = .ready then some r else none
      cancelled := false }
  [result ["allowPooling"] ⟨true, .fulfilled, ""⟩, result [] ⟨false, .rejected, ""⟩]

theorem poolingCases_signal : ∃ a ∈ analyzePaths poolingCases (pageAxes true),
    a.signal = "ready only with allowPooling=false; " ++
      "ready only without requireUnreliable=true, congestionControl=low-latency, " ++
      "protocols=quicast-wt-v0, serverCertificateHashes=sha-256" ∧
    ∃ es : List Store.Effect,
      publishedEffects (analyzePaths poolingCases (pageAxes true)) a.path = es.map Store.Effect.toJson ∧
      ∀ capabilities, optionSignal a.total a.ready es capabilities = a.signal := by
  have hall := (analyzePaths_signal poolingCases (pageAxes true)).2
  have ha : analyzePath poolingCases (pageAxes true) "/wt/basic" ∈
      analyzePaths poolingCases (pageAxes true) := List.mem_singleton.mpr rfl
  obtain ⟨-, -, -, -, hsignal⟩ := hall _ ha
  obtain ⟨es, hes, hstore, -⟩ := (hsignal (by decide) (by decide)).2 true rfl
  exact ⟨_, ha, by decide +kernel, es, hes, hstore⟩

end WebTransportEcho.Page.Analysis
