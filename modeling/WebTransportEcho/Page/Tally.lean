import WebTransportEcho.Page.Session
import WebTransportEcho.Store.Coverage

/-! The results of a run that nothing has stopped. A result has one of three shapes, so its outcomes
    are what the counts of the page say of it (`counts_published`). The id of a variant spells its
    mask, and the masks are all there are (`variants_spelled`, `variants_masks`). Each path has one
    case for each variant (`results_path`), and what is counted over all cases is the sum over the paths
    (`tally_paths`). -/

namespace WebTransportEcho.Page
open Js Store

/-! ### Outcomes -/

theorem publicationOutcome_eq_unavailable (stage : Stages) (s : Stage) :
    publicationOutcome stage s = .unavailable ↔
      s = .datagram ∧ datagramUnavailable (stage .datagram) = true := by
  unfold publicationOutcome
  split
  · next h => simp [h]
  · next h =>
    refine ⟨fun hp => ?_, fun h' => absurd h' h⟩
    unfold publicationStage at hp
    split at hp
    · cases hp
    · split_ifs at hp

theorem publicationOutcome_none {stage : Stages} {s : Stage} (h : stage s = none) :
    publicationOutcome stage s = .notRun := by
  unfold publicationOutcome
  split
  · next hun =>
    obtain ⟨rfl, hun⟩ := hun
    rw [h] at hun
    cases hun
  · rw [h]
    rfl

/-- A stage that was come to is coherent. -/
theorem Shape.coherent {stage : Stages} (h : Shape stage) (s : Stage) (r : StageResult)
    (hr : stage s = some r) : r.Coherent := by
  have hmem : s = .constructor ∨ s = .ready ∨ s ∈ echoStages := by cases s <;> simp [echoStages]
  have hhas {P : StageResult → Prop} (hs : Has stage s P) : r.Coherent := by
    obtain ⟨r', hr', hcoherent, -⟩ := hs
    rw [hr] at hr'
    cases hr'
    exact hcoherent
  cases h with
  | unconstructed hc hrest =>
    by_cases hs : s = .constructor
    · exact hhas (hs ▸ hc)
    · rw [hrest s hs] at hr
      cases hr
  | unready hc hready hecho =>
    rcases hmem with rfl | rfl | hs
    · exact hhas hc
    · exact hhas hready
    · rw [hecho s hs] at hr
      cases hr
      exact skipped_coherent _
  | ready hc hready hecho =>
    rcases hmem with rfl | rfl | hs
    · exact hhas hc
    · exact hhas hready
    · exact hhas (hecho s hs)

/-- The store's `pass` is the page's. -/
theorem Shape.pass_iff {stage : Stages} (h : Shape stage) (s : Stage) :
    publicationOutcome stage s = .pass ↔ (stage s).any StageResult.ok = true := by
  cases hs : stage s with
  | none => simp [publicationOutcome_none hs]
  | some r =>
    have hcoherent : r.ok = true ↔ r.status = .fulfilled := h.coherent s r hs
    unfold publicationOutcome
    split
    · next hun =>
      obtain ⟨rfl, hun⟩ := hun
      simp only [hs, datagramUnavailable, Option.any_some, Bool.and_eq_true, decide_eq_true_eq] at hun
      have hnot : r.ok ≠ true := fun hok => by
        rw [hcoherent.mp hok] at hun
        cases hun.1
      simp [hnot]
    · simp only [hs, publicationStage, Option.any_some]
      split_ifs with hok hnot <;> simp [hok]

/-- Only what was skipped for want of streams is unavailable, so `ready` passed. -/
theorem Shape.ready_of_unavailable {stage : Stages} (h : Shape stage)
    (hun : datagramUnavailable (stage .datagram) = true) :
    (stage .ready).any StageResult.ok = true := by
  cases h with
  | unconstructed _ hrest =>
    rw [hrest .datagram (by decide)] at hun
    cases hun
  | unready _ _ hecho =>
    have hnot : datagramUnavailable (some (skipped "skipped: ready failed")) = false := by
      decide +kernel
    rw [hecho .datagram (by decide), hnot] at hun
    cases hun
  | ready _ hr _ =>
    obtain ⟨r, hr, -, hok⟩ := hr
    rw [hr, Option.any_some, hok]

/-- The outcomes of a result are what the store takes for a probe. -/
theorem Shape.probeShape {stage : Stages} (h : Shape stage) : ProbeShape (publicationOutcome stage) := by
  have hecho_of {s : Stage} (hc : s ≠ .constructor) (hr : s ≠ .ready) : s ∈ echoStages := by
    cases s <;> simp_all [echoStages]
  have havailable : ∀ s, s ≠ .datagram → publicationOutcome stage s ≠ .unavailable := fun s hs hun =>
    hs ((publicationOutcome_eq_unavailable stage s).mp hun).1
  have hpass {s : Stage} (hs : Passes stage s) : publicationOutcome stage s = .pass := by
    obtain ⟨r, hr, -, hok⟩ := hs
    rw [h.pass_iff, hr, Option.any_some, hok]
  have hfail {s : Stage} (hs : Fails stage s) : publicationOutcome stage s ≠ .pass := by
    obtain ⟨r, hr, -, hok, -⟩ := hs
    rw [Ne, h.pass_iff, hr, Option.any_some, hok]
    decide
  cases h with
  | unconstructed hc hrest =>
    have hnone (s : Stage) (hs : s ≠ .constructor) : publicationOutcome stage s = .notRun :=
      publicationOutcome_none (hrest s hs)
    refine ⟨havailable, fun _ => hnone .ready (by decide), fun _ s hs _ => hnone s hs, fun hr => ?_⟩
    rw [hnone .ready (by decide)] at hr
    cases hr
  | unready hc hr hecho =>
    refine ⟨havailable, fun hne => absurd (hpass hc) hne, fun _ s h₁ h₂ => ?_,
      fun hpass => absurd hpass (hfail hr)⟩
    have hnot : datagramUnavailable (some (skipped "skipped: ready failed")) = false := by
      decide +kernel
    simp only [publicationOutcome, hecho .datagram (by decide), hnot, hecho s (hecho_of h₁ h₂)]
    rw [if_neg (by simp)]
    rfl
  | ready hc hr hecho =>
    refine ⟨havailable, fun hne => absurd (hpass hc) hne, fun hne => absurd (hpass hr) hne,
      fun _ s h₁ h₂ hnot => ?_⟩
    obtain ⟨r, hr, hcoherent, hran | ⟨rfl, rfl⟩⟩ := hecho s (hecho_of h₁ h₂)
    · unfold publicationOutcome at hnot
      split at hnot
      · cases hnot
      · rw [hr, publicationStage] at hnot
        split_ifs at hnot
    · have hun : datagramUnavailable (stage .datagram) = true := by
        rw [hr]
        decide +kernel
      rw [(publicationOutcome_eq_unavailable stage .datagram).mpr ⟨rfl, hun⟩] at hnot
      cases hnot

/-! ### Counts -/

/-- The cases a count of the summary is about. -/
def CaseResult.counts (c : CaseResult) : Metric → Bool
  | .path (.stage s) => c.passed s
  | .path .datagramUnavailable => datagramUnavailable (c.stage .datagram)
  | .streamEcho => c.passed .ready && c.passed .bidirectionalStream && c.passed .unidirectionalStream
  | .fullEcho => c.passed .ready && c.passed .datagram && c.passed .bidirectionalStream &&
      c.passed .unidirectionalStream

/-- The number of cases that count. -/
def tally (cases : List CaseResult) (m : Metric) : Nat := (cases.filter fun c => c.counts m).length

theorem summarizeResults_count (cases : List CaseResult) (plannedCases : Nat) :
    (summarizeResults cases plannedCases).count = tally cases := by
  funext m
  rcases m with (s | _) | _ | _ <;> rfl

/-- A result as an entry of the matrix. -/
def CaseResult.combination (c : CaseResult) (v : ExhaustiveVariant) : Combination where
  mask := v.mask
  options := v.optionKeys
  outcome := publicationOutcome c.stage

/-- The matrix implies the counts that the page made. -/
theorem counts_published {c : CaseResult} (h : Shape c.stage) (v : ExhaustiveVariant) (m : Metric) :
    m.counts (c.combination v) = c.counts m := by
  have hpass (s : Stage) : decide ((c.combination v).outcome s = .pass) = c.passed s := by
    rw [Bool.eq_iff_iff, decide_eq_true_eq]
    exact h.pass_iff s
  rcases m with (s | _) | _ | _
  · exact hpass s
  · show decide (publicationOutcome c.stage .datagram = .unavailable) = _
    rw [Bool.eq_iff_iff, decide_eq_true_eq, publicationOutcome_eq_unavailable]
    simp [CaseResult.counts]
  · simp only [Metric.counts, List.all_cons, List.all_nil, hpass, Bool.and_true, CaseResult.counts,
      Bool.and_assoc]
  · simp only [Metric.counts, List.all_cons, List.all_nil, hpass, Bool.and_true, CaseResult.counts,
      Bool.and_assoc]

/-! ### Variants -/

/-- The id of a variant spells its mask, and its options are those of the mask. -/
def ExhaustiveVariant.Spelled (v : ExhaustiveVariant) : Prop :=
  parseHex (dropExhaustive v.id) = some v.mask ∧ v.optionKeys = expectedOptions v.mask

instance (v : ExhaustiveVariant) : Decidable v.Spelled :=
  inferInstanceAs (Decidable (_ ∧ _))

set_option maxRecDepth 100000 in
theorem variants_spelled (hash : Bool) : ∀ v ∈ buildExhaustiveVariants hash, v.Spelled := by
  revert hash
  decide +kernel

theorem variants_length (hash : Bool) :
    (buildExhaustiveVariants hash).length = if hash then 32 else 16 := by
  rw [buildExhaustiveVariants, List.length_insertionSort, List.length_map, List.length_range]
  cases hash <;> rfl

theorem variants_masks (hash : Bool) : ((buildExhaustiveVariants hash).map ExhaustiveVariant.mask).Perm
    (List.range (buildExhaustiveVariants hash).length) := by
  have hperm := (List.perm_insertionSort (fun l r => comesFirst hash l r = true)
    ((List.range (2 ^ (axes hash).length)).map (exhaustiveVariant (axes hash)))).map
      ExhaustiveVariant.mask
  have hmask : ExhaustiveVariant.mask ∘ exhaustiveVariant (axes hash) = id := rfl
  rw [List.map_map, hmask, List.map_id] at hperm
  rw [buildExhaustiveVariants, List.length_insertionSort, List.length_map, List.length_range]
  exact hperm

/-- The variants that are tried: none without the API. -/
def triedVariants (webTransport hash : Bool) : List ExhaustiveVariant :=
  if webTransport then buildExhaustiveVariants hash else []

theorem tried_length (webTransport hash : Bool) : (triedVariants webTransport hash).length =
    if webTransport then (buildExhaustiveVariants hash).length else 0 := by
  cases webTransport <;> rfl

theorem tried_masks (webTransport hash : Bool) :
    ((triedVariants webTransport hash).map ExhaustiveVariant.mask).Perm
      (List.range (triedVariants webTransport hash).length) := by
  cases webTransport with
  | true => exact variants_masks hash
  | false => exact .refl _

theorem tried_spelled {webTransport hash : Bool} :
    ∀ v ∈ triedVariants webTransport hash, v.Spelled := by
  cases webTransport with
  | true => exact variants_spelled hash
  | false => simp [triedVariants]

/-! ### The cases of a path -/

/-- The results are those of the cases, each of which ran undisturbed. -/
abbrev RanAll (cases : List Case) (results : List CaseResult) : Prop :=
  List.Forall₂ (fun case c => Ran case.1 case.2 c) cases results

theorem plan_filter {paths : List String} (variants : List Variant) (hnd : paths.Nodup) {path : String}
    (hmem : path ∈ paths) : (plan paths variants).filter (fun case => decide (case.1 = path)) =
      variants.map fun variant => (path, variant) := by
  have hsame (p : String) (h : p = path) : (variants.map fun variant => (p, variant)).filter
      (fun case => decide (case.1 = path)) = variants.map fun variant => (path, variant) := by
    rw [h]
    exact List.filter_eq_self.mpr fun case hcase => by
      obtain ⟨_, -, rfl⟩ := List.mem_map.mp hcase
      simp
  have hother {ps : List String} (h : path ∉ ps) :
      (plan ps variants).filter (fun case => decide (case.1 = path)) = [] := by
    refine List.filter_eq_nil_iff.mpr fun case hcase => ?_
    obtain ⟨p, hp, hcase⟩ := List.mem_flatMap.mp hcase
    obtain ⟨_, -, rfl⟩ := List.mem_map.mp hcase
    simpa using fun heq : p = path => h (heq ▸ hp)
  induction paths with
  | nil => cases hmem
  | cons p ps ih =>
    rw [List.nodup_cons] at hnd
    rw [plan, List.flatMap_cons, List.filter_append]
    rcases List.mem_cons.mp hmem with rfl | hmem
    · rw [hsame path rfl]
      exact (congrArg _ (hother hnd.1)).trans (List.append_nil _)
    · have hne : p ≠ path := fun heq => hnd.1 (heq ▸ hmem)
      have hnil : (variants.map fun variant => (p, variant)).filter
          (fun case => decide (case.1 = path)) = [] :=
        List.filter_eq_nil_iff.mpr fun case hcase => by
          obtain ⟨_, -, rfl⟩ := List.mem_map.mp hcase
          simpa using hne
      rw [hnil, List.nil_append]
      exact ih hnd.2 hmem

/-- Each path has one result for each variant, whatever else is known of the results. -/
theorem results_path {R : Case → CaseResult → Prop} (hR : ∀ case c, R case c → c.path = case.1)
    {paths : List String} {variants : List ExhaustiveVariant} {results : List CaseResult}
    (h : List.Forall₂ R (plan paths (variants.map ExhaustiveVariant.toVariant)) results)
    (hnd : paths.Nodup) {path : String} (hmem : path ∈ paths) :
    List.Forall₂ (fun v c => R (path, v.toVariant) c) variants (casesOf results path) := by
  have hpath ⦃case : Case⦄ ⦃c : CaseResult⦄ (hc : R case c) :
      (decide (case.1 = path) = true) ↔ (decide (c.path = path) = true) := by
    rw [hR case c hc]
  have hfilter := List.rel_filter hpath h
  rw [plan_filter _ hnd hmem, List.map_map, List.forall₂_map_left_iff] at hfilter
  exact hfilter

theorem ran_path {paths : List String} {variants : List ExhaustiveVariant} {results : List CaseResult}
    (h : RanAll (plan paths (variants.map ExhaustiveVariant.toVariant)) results) (hnd : paths.Nodup)
    {path : String} (hmem : path ∈ paths) :
    List.Forall₂ (fun v c => Ran path v.toVariant c) variants (casesOf results path) :=
  results_path (fun _ _ hran => hran.keeps.1) h hnd hmem

theorem ran_shape {cases : List Case} {results : List CaseResult} (h : RanAll cases results) :
    ∀ c ∈ results, Shape c.stage := by
  intro c hc
  obtain ⟨case, -, hran⟩ := exists_of_forall₂_right h hc
  exact hran.shape

/-- Counts over all results are the sums over the paths. -/
theorem tally_paths (m : Metric) : ∀ {paths : List String} {results : List CaseResult},
    paths.Nodup → (∀ c ∈ results, c.path ∈ paths) →
    (paths.map fun path => tally (casesOf results path) m).sum = tally results m
  | [], results, _, hmem => by
    cases results with
    | nil => rfl
    | cons c results => exact absurd (hmem c (by simp)) (by simp)
  | p :: ps, results, hnd, hmem => by
    rw [List.nodup_cons] at hnd
    have hrest : (ps.map fun path => tally (casesOf results path) m) =
        ps.map fun path => tally (casesOf (results.filter fun c => !decide (c.path = p)) path) m := by
      refine List.map_congr_left fun path hpath => ?_
      rw [casesOf, casesOf, List.filter_filter]
      congr 1
      refine List.filter_congr fun c _ => ?_
      by_cases hc : c.path = path
      · have hne : c.path ≠ p := fun heq => hnd.1 (heq.symm.trans hc ▸ hpath)
        simp [hc, hc ▸ hne]
      · simp [hc]
    rw [List.map_cons, List.sum_cons, hrest, tally_paths m hnd.2 fun c hc => ?_]
    · have hsplit := (List.filter_append_perm (fun c => decide (c.path = p)) results).filter
        fun c => c.counts m
      rw [List.filter_append] at hsplit
      rw [tally, tally, tally, casesOf, ← List.length_append]
      exact hsplit.length_eq
    · obtain ⟨hc, hne⟩ := List.mem_filter.mp hc
      exact (List.mem_cons.mp (hmem c hc)).resolve_left (by simpa using hne)

end WebTransportEcho.Page
