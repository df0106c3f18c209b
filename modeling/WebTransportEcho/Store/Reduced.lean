import WebTransportEcho.Store.Sanitize
import WebTransportEcho.Js.Agreement

/-! The reduced schema of a submission: what `sanitizeSubmission` reads. Two submissions that agree in
    it are accepted as the same snapshot or refused with the same error
    (`sanitizeSubmission_agree`), one lemma for each sanitizer.

    A browser counts only through its family and the digits its version begins with; everything else
    in the schema counts as the value it is. -/

namespace WebTransportEcho.Store
open Js

/-! ### The schema -/

/-- The family a value of `name` stands for. -/
def suppliedFamily (name : Value) : Family :=
  (browserFamilies.lookup (match name with
    | .json (.str s) => toLowerCase s
    | _ => "")).getD .other

def sameFamily : Agreement := fun v w => suppliedFamily v = suppliedFamily w

/-- `String(version ?? "")` begins with the same digits, or throws for both. -/
def sameVersion : Agreement := fun v w =>
  (versionText v).map leadingDigits = (versionText w).map leadingDigits

def browserSchema (version : Agreement) : Agreement :=
  Record [("name", sameFamily), ("version", version)]

def capabilitiesSchema : Agreement := Record [("secureContext", Alike), ("webTransport", Alike)]

def runSchema : Agreement :=
  Record [("mode", Alike), ("cancelled", Alike), ("plannedCases", Alike), ("completedCases", Alike)]

def metricsSchema : Agreement := Record (metrics.map fun m => (m.1.key, Alike))

def ratioSchema : Agreement := Record [("ready", Alike), ("total", Alike)]

def effectSchema : Agreement :=
  Record [("key", Alike), ("withOption", ratioSchema), ("withoutOption", ratioSchema)]

def combinationSchema : Agreement :=
  Record (("mask", Alike) :: ("options", Items Alike) ::
    combinationStageKeys.map fun s => (s.key, Alike))

def pathSchema : Agreement :=
  Record (("path", Alike) :: ("total", Alike) :: ("effects", Items effectSchema) ::
    ("combinations", Items combinationSchema) :: pathMetrics.map fun m => (m.1.key, Alike))

def probeSchema : Agreement := Record (greaseProbeKeys.map fun s => (s.key, Alike))

def greaseSchema : Agreement := Record [("control", probeSchema), ("enabled", probeSchema)]

/-- What a submission says, with its versions compared by the given relation. -/
def submissionSchema (version : Agreement) : Agreement :=
  Record [("schemaVersion", Alike), ("browser", browserSchema version),
    ("capabilities", capabilitiesSchema), ("run", runSchema), ("metrics", metricsSchema),
    ("paths", Items pathSchema), ("grease", greaseSchema)]

/-! ### Scalars and arrays -/

theorem requiredBoolean_alike {v w : Value} (h : Alike v w) (label : String) :
    requiredBoolean v label = requiredBoolean w label := by
  cases h <;> rfl

theorem requiredCount_alike {v w : Value} (h : Alike v w) (label : String) :
    requiredCount v label = requiredCount w label := by
  cases h <;> rfl

theorem requiredCombinationOutcome_alike {v w : Value} (h : Alike v w) (label : String) :
    requiredCombinationOutcome v label = requiredCombinationOutcome w label := by
  cases h <;> rfl

theorem boundedCount_alike {v w : Value} {key : String}
    (h : Alike (v.optional key) (w.optional key)) (label : String) (bound : Nat) (exceeds : String) :
    boundedCount v key label bound exceeds = boundedCount w key label bound exceeds := by
  rw [boundedCount, boundedCount, requiredCount_alike h]

/-- Both arrays pass with items that agree, or both values are refused. -/
theorem requiredArray_agree {item : Agreement} {v w : Value} (h : Items item v w)
    (ok : List Json → Bool) (message : String)
    (hok : ∀ xs ys, List.Forall₂ (fun x y => item (.json x) (.json y)) xs ys → ok xs = ok ys) :
    (∃ xs ys, requiredArray v ok message = .ok xs ∧ requiredArray w ok message = .ok ys ∧
      List.Forall₂ (fun x y => item (.json x) (.json y)) xs ys) ∨
    (requiredArray v ok message = .error (.typeError message) ∧
      requiredArray w ok message = .error (.typeError message)) := by
  rcases h.cases_array with ⟨xs, ys, rfl, rfl, hall⟩ | ⟨-, hv, hw⟩
  · simp only [requiredArray, hok xs ys hall]
    split
    · exact .inl ⟨xs, ys, rfl, rfl, hall⟩
    · exact .inr ⟨rfl, rfl⟩
  · refine .inr ⟨?_, ?_⟩
    · unfold requiredArray
      split
      · next items => exact absurd rfl (hv items)
      · rfl
    · unfold requiredArray
      split
      · next items => exact absurd rfl (hw items)
      · rfl

theorem length_agree {R : Json → Json → Prop} (n : Nat) (xs ys : List Json)
    (h : List.Forall₂ R xs ys) : decide (xs.length = n) = decide (ys.length = n) := by
  rw [h.length_eq]

/-! ### Browser, run and metrics -/

theorem normalizeBrowser_agree {v w : Value} (h : browserSchema sameVersion v w) :
    normalizeBrowser v = normalizeBrowser w := by
  have hname : sameFamily _ _ := h.field "name" (by simp)
  have hversion : sameVersion _ _ := h.field "version" (by simp)
  unfold sameVersion at hversion
  have hnormal (u : Value) : normalizeBrowser u =
      ((versionText (u.optional "version")).map leadingDigits).map fun version =>
        { family := suppliedFamily (u.optional "name"), version } := by
    unfold normalizeBrowser
    cases versionText (u.optional "version") <;> rfl
  rw [hnormal, hnormal, hversion, show suppliedFamily _ = suppliedFamily _ from hname]

theorem sanitizeRun_agree {v w : Value} (h : runSchema v w) (capabilities : Capabilities) :
    sanitizeRun v capabilities = sanitizeRun w capabilities := by
  have hmode : Alike _ _ := h.field "mode" (by simp)
  have hcancelled : Alike _ _ := h.field "cancelled" (by simp)
  have hplanned : Alike _ _ := h.field "plannedCases" (by simp)
  have hcompleted : Alike _ _ := h.field "completedCases" (by simp)
  simp only [sanitizeRun, hmode.isStr, hcancelled.same (.refl _), requiredCount_alike hplanned,
    requiredCount_alike hcompleted]

theorem sanitizeMetrics_agree {v w : Value} (h : metricsSchema v w) (completedCases : Nat) :
    sanitizeMetrics v completedCases = sanitizeMetrics w completedCases := by
  refine fill_congr _ _ fun m hm => boundedCount_alike ?_ _ _ _
  obtain ⟨e, he, rfl⟩ := List.mem_map.mp hm
  exact h.field _ (List.mem_map.mpr ⟨e, he, rfl⟩)

/-! ### Effects -/

theorem sanitizeRatio_agree {v w : Value} (h : ratioSchema v w) (label : String) :
    sanitizeRatio v label = sanitizeRatio w label := by
  have hready : Alike _ _ := h.field "ready" (by simp)
  have htotal : Alike _ _ := h.field "total" (by simp)
  simp only [sanitizeRatio, requiredCount_alike hready, requiredCount_alike htotal]

theorem sanitizeEffect_agree {x y : Json} (h : effectSchema (.json x) (.json y)) (path : ResultPath)
    (seen : List OptionKey) : sanitizeEffect path seen x = sanitizeEffect path seen y := by
  have hkey : Alike _ _ := h.field "key" (by simp)
  have hwith : ratioSchema _ _ := h.field "withOption" (by simp)
  have hwithout : ratioSchema _ _ := h.field "withoutOption" (by simp)
  have hoption : asOptionKey ((Value.json x).optional "key") =
      asOptionKey ((Value.json y).optional "key") := by
    simp only [asOptionKey, hkey.isStr]
  simp only [Value.optional_json] at hwith hwithout
  simp only [sanitizeEffect, hoption, sanitizeRatio_agree hwith, sanitizeRatio_agree hwithout]

theorem sanitizeEffects_agree {v w : Value} (h : Items effectSchema v w) (path : ResultPath) :
    sanitizeEffects v path = sanitizeEffects w path := by
  have hundefined : v = .undefined ↔ w = .undefined := by
    cases h.alike <;> simp
  by_cases hv : v = .undefined
  · rw [hv, hundefined.mp hv]
  · have hread (u : Value) (hu : u ≠ .undefined) : sanitizeEffects u path =
        (requiredArray u (fun items => decide (items.length ≤ optionKeys.length))
          s!"{path.text}.effects is invalid") >>= mapUnique (sanitizeEffect path) Effect.key [] := by
      cases u with
      | undefined => exact absurd rfl hu
      | native name => rfl
      | json j => rfl
    rw [hread v hv, hread w fun hw => hv (hundefined.mpr hw)]
    rcases requiredArray_agree h (fun items => decide (items.length ≤ optionKeys.length))
      s!"{path.text}.effects is invalid" (fun xs ys hall => by rw [hall.length_eq]) with ⟨xs, ys, hxs, hys, hall⟩ | ⟨hxs, hys⟩
    · rw [hxs, hys]
      exact mapUnique_congr _ [] (hall.imp fun x y hxy seen => sanitizeEffect_agree hxy path seen)
    · rw [hxs, hys]

/-! ### Combinations -/

theorem optionsMatch_agree (expected : List OptionKey) (xs ys : List Json)
    (h : List.Forall₂ (fun x y => Alike (.json x) (.json y)) xs ys) :
    optionsMatch expected xs = optionsMatch expected ys := by
  have hall : ∀ (xs ys : List Json) (expected : List OptionKey),
      List.Forall₂ (fun x y => Alike (.json x) (.json y)) xs ys →
      (xs.zip expected).all (fun p => (Value.json p.1).isStr p.2.text) =
        (ys.zip expected).all fun p => (Value.json p.1).isStr p.2.text := by
    intro xs ys expected h
    induction h generalizing expected with
    | nil => rfl
    | cons hxy _ ih =>
      cases expected with
      | nil => rfl
      | cons k ks => simp only [List.zip_cons_cons, List.all_cons, hxy.isStr, ih]
  rw [optionsMatch, optionsMatch, h.length_eq, hall xs ys expected h]

theorem sanitizeCombination_agree {x y : Json} (h : combinationSchema (.json x) (.json y))
    (path : ResultPath) (total : Nat) (seen : List Nat) :
    sanitizeCombination path total seen x = sanitizeCombination path total seen y := by
  have hmask : Alike _ _ := h.field "mask" (by simp)
  have hoptions : Items Alike _ _ := h.field "options" (by simp)
  have houtcome (mask : Nat) (s : Stage) (hs : s ∈ combinationStageKeys) :
      requiredCombinationOutcome (x.get s.key) s!"{path.text}.combination {mask}.{s.key}" =
        requiredCombinationOutcome (y.get s.key) s!"{path.text}.combination {mask}.{s.key}" :=
    requiredCombinationOutcome_alike (h.field _
      (List.mem_cons_of_mem _ (List.mem_cons_of_mem _ (List.mem_map.mpr ⟨s, hs, rfl⟩)))) _
  simp only [sanitizeCombination, requiredCount_alike hmask]
  congr 1
  funext mask
  congr 1
  funext _
  rw [fill_congr combinationStageKeys _ (houtcome mask)]
  rcases requiredArray_agree hoptions (optionsMatch (expectedOptions mask))
    s!"{path.text}.combination {mask} has invalid options" (optionsMatch_agree (expectedOptions mask)) with ⟨xs, ys, hxs, hys, -⟩ | ⟨hxs, hys⟩
  · simp only [Value.optional_json] at hxs hys
    rw [hxs, hys]
    rfl
  · simp only [Value.optional_json] at hxs hys
    rw [hxs, hys]

theorem sanitizeCombinations_agree {v w : Value} (h : Items combinationSchema v w)
    (path : ResultPath) (total : Nat) :
    sanitizeCombinations v path total = sanitizeCombinations w path total := by
  rw [sanitizeCombinations, sanitizeCombinations]
  rcases requiredArray_agree h (fun items => decide (items.length = total))
    s!"{path.text}.combinations must contain one entry per case" (length_agree total) with ⟨xs, ys, hxs, hys, hall⟩ | ⟨hxs, hys⟩
  · have hmap := mapUnique_congr Combination.mask []
      (hall.imp fun x y hxy seen => sanitizeCombination_agree hxy path total seen)
    rw [hxs, hys, ok_bind, ok_bind, hmap]
  · rw [hxs, hys]

/-! ### Paths -/

/-- Entries of two maps from paths to items. -/
def EntryAgrees (e e' : Value × Json) : Prop :=
  Alike e.1 e'.1 ∧ pathSchema (.json e.2) (.json e'.2)

theorem mapSet_agree {key key' : Value} (hkey : Alike key key') {item item' : Json}
    (hitem : pathSchema (.json item) (.json item')) {m m' : List (Value × Json)}
    (h : List.Forall₂ EntryAgrees m m') :
    List.Forall₂ EntryAgrees (mapSet key item m) (mapSet key' item' m') := by
  induction h with
  | nil => exact .cons ⟨hkey, hitem⟩ .nil
  | @cons e e' rest rest' he hrest ih =>
    rw [mapSet, mapSet, he.1.same hkey]
    split
    · exact .cons ⟨he.1, hitem⟩ hrest
    · exact .cons he ih

theorem suppliedPaths_agree {xs ys : List Json}
    (h : List.Forall₂ (fun x y => pathSchema (.json x) (.json y)) xs ys) :
    List.Forall₂ EntryAgrees (suppliedPaths xs) (suppliedPaths ys) := by
  suffices H : ∀ m m', List.Forall₂ EntryAgrees m m' → List.Forall₂ EntryAgrees
      (xs.foldl (fun m item => mapSet ((Value.json item).optional "path") item m) m)
      (ys.foldl (fun m item => mapSet ((Value.json item).optional "path") item m) m') from
    H [] [] .nil
  induction h with
  | nil => exact fun _ _ h => h
  | cons hxy _ ih =>
    exact fun m m' h => ih _ _ (mapSet_agree (hxy.field "path" (by simp)) hxy h)

theorem findPath_agree {m m' : List (Value × Json)} (h : List.Forall₂ EntryAgrees m m')
    (path : ResultPath) : Option.Rel (fun x y => pathSchema (.json x) (.json y)) (findPath m path)
      (findPath m' path) := by
  induction h with
  | nil => exact .none
  | @cons e e' rest rest' he hrest ih =>
    simp only [findPath, List.find?_cons, he.1.isStr]
    split
    · have htruthy : e.2.truthy = e'.2.truthy := he.2.alike.truthy
      simp only [Option.map_some, Option.filter_some, htruthy]
      split
      · exact .some he.2
      · exact .none
    · exact ih

theorem sanitizePath_agree (capabilities : Capabilities) {m m' : List (Value × Json)}
    (h : List.Forall₂ EntryAgrees m m') (path : ResultPath) :
    sanitizePath capabilities m path = sanitizePath capabilities m' path := by
  have hfind := findPath_agree h path
  unfold sanitizePath
  generalize findPath m path = found at hfind
  generalize findPath m' path = found' at hfind
  cases hfind with
  | none => rfl
  | @some x y hxy =>
    have htotal : Alike _ _ := hxy.field "total" (by simp)
    have heffects : Items effectSchema _ _ := hxy.field "effects" (by simp)
    have hcombinations : Items combinationSchema _ _ := hxy.field "combinations" (by simp)
    have hcounts (total : Nat) (k : PathMetric) (hk : k ∈ pathMetrics.map Prod.fst) :
        boundedCount (.json x) k.key s!"{path.text}.{k.key}" total s!"{path.text}.{k.key} exceeds total" =
          boundedCount (.json y) k.key s!"{path.text}.{k.key}" total
            s!"{path.text}.{k.key} exceeds total" := by
      obtain ⟨e, he, rfl⟩ := List.mem_map.mp hk
      refine boundedCount_alike (hxy.field _ ?_) _ _ _
      iterate 4 refine List.mem_cons_of_mem _ ?_
      exact List.mem_map.mpr ⟨e, he, rfl⟩
    simp only [Value.optional_json] at htotal heffects hcombinations
    simp only [requiredCount_alike htotal, sanitizeEffects_agree heffects,
      sanitizeCombinations_agree hcombinations]
    congr 1
    funext total
    rw [fill_congr _ _ (hcounts total)]

theorem sanitizePaths_agree {v w : Value} (h : Items pathSchema v w) (run : Run)
    (capabilities : Capabilities) : sanitizePaths v run capabilities = sanitizePaths w run capabilities := by
  rw [sanitizePaths, sanitizePaths]
  rcases requiredArray_agree h (fun items => decide (items.length = resultPaths.length))
    "all response paths are required" (length_agree resultPaths.length) with
    ⟨xs, ys, hxs, hys, hall⟩ | ⟨hxs, hys⟩
  · have hsupplied := suppliedPaths_agree hall
    have hread : sanitizePath capabilities (suppliedPaths xs) =
        sanitizePath capabilities (suppliedPaths ys) :=
      funext (sanitizePath_agree capabilities hsupplied)
    simp only [hxs, hys, ok_bind, hsupplied.length_eq, hread]
  · rw [hxs, hys]

/-! ### GREASE -/

theorem sanitizeGreaseProbe_agree {v w : Value} (h : probeSchema v w) (label : String) :
    sanitizeGreaseProbe v label = sanitizeGreaseProbe w label := by
  rw [sanitizeGreaseProbe, sanitizeGreaseProbe, fill_congr greaseProbeKeys _ fun s hs =>
    requiredCombinationOutcome_alike (h.field _ (List.mem_map.mpr ⟨s, hs, rfl⟩)) _]

theorem sanitizeGrease_agree {v w : Value} (h : greaseSchema v w) (capabilities : Capabilities) :
    sanitizeGrease v capabilities = sanitizeGrease w capabilities := by
  have hcontrol : probeSchema _ _ := h.field "control" (by simp)
  have henabled : probeSchema _ _ := h.field "enabled" (by simp)
  simp only [sanitizeGrease, h.alike.isNullish, sanitizeGreaseProbe_agree hcontrol,
    sanitizeGreaseProbe_agree henabled]

/-! ### The whole submission -/

/-- Submissions that agree in the schema have one snapshot, or one error. -/
theorem sanitizeSubmission_agree {x y : Json} (h : submissionSchema sameVersion (.json x) (.json y))
    (receivedAt : String) (requireGrease : Bool) :
    sanitizeSubmission x receivedAt requireGrease = sanitizeSubmission y receivedAt requireGrease := by
  have hschema : Alike _ _ := h.field "schemaVersion" (by simp)
  have hbrowser : browserSchema sameVersion _ _ := h.field "browser" (by simp)
  have hcapabilities : capabilitiesSchema _ _ := h.field "capabilities" (by simp)
  have hsecure : Alike _ _ := hcapabilities.field "secureContext" (by simp)
  have hapi : Alike _ _ := hcapabilities.field "webTransport" (by simp)
  have hrun : runSchema _ _ := h.field "run" (by simp)
  have hmetrics : metricsSchema _ _ := h.field "metrics" (by simp)
  have hpaths : Items pathSchema _ _ := h.field "paths" (by simp)
  have hgrease : greaseSchema _ _ := h.field "grease" (by simp)
  simp only [sanitizeSubmission, hschema.same (.refl _), normalizeBrowser_agree hbrowser,
    requiredBoolean_alike hsecure, requiredBoolean_alike hapi, sanitizeRun_agree hrun,
    sanitizeMetrics_agree hmetrics, sanitizePaths_agree hpaths, sanitizeGrease_agree hgrease]

end WebTransportEcho.Store
