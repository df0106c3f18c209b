import WebTransportEcho.Store.WellFormed
import Mathlib.Algebra.Group.Action.Defs

/-! What the checks on coverage and on the run's counts leave open. A snapshot repeats itself in
    three layers: the counts of the run, the counts of each path and the option matrix of each path.
    The lower two are compared with each other and the totals of the paths with the number of cases,
    but a path without any case passes, and the counts of the run are only bounded by it. This file
    says exactly which accepted submissions are complete, and for which the counts of the run, and
    with them the conclusion, are those of the matrices. -/

namespace WebTransportEcho.Store
open Js

/-! ### The submission a path was read from -/

/-- The entry of a path among the submitted ones. -/
def submittedPath (input : Json) (path : ResultPath) : Option Json :=
  match (Value.json input).optional "paths" with
  | .json (.arr items) => findPath (suppliedPaths items) path
  | _ => none

theorem SubmissionOf.paths_of {input : Json} {requireGrease : Bool} {s : Snapshot}
    (h : SubmissionOf input requireGrease s) :
    List.Forall₂ (fun path p => p.path = path ∧ ∃ item, submittedPath input path = some item ∧
      PathOf s.capabilities item p) resultPaths s.paths := by
  obtain ⟨items, hin, -, -, hall, -⟩ := sanitizePaths_eq_ok.mp h.paths
  simpa only [submittedPath, hin] using hall

theorem SubmissionOf.path_of {input : Json} {requireGrease : Bool} {s : Snapshot}
    (h : SubmissionOf input requireGrease s) {p : PathResult} (hp : p ∈ s.paths) :
    ∃ item, submittedPath input p.path = some item ∧ PathOf s.capabilities item p := by
  obtain ⟨path, -, rfl, hitem⟩ := exists_of_forall₂_right h.paths_of hp
  exact hitem

theorem SubmissionOf.of_submittedPath {input : Json} {requireGrease : Bool} {s : Snapshot}
    (h : SubmissionOf input requireGrease s) {path : ResultPath} {item : Json}
    (hitem : submittedPath input path = some item) :
    ∃ p ∈ s.paths, p.path = path ∧ PathOf s.capabilities item p := by
  have hmem : path ∈ s.paths.map PathResult.path := by
    rw [h.wellFormed.order]
    exact mem_resultPaths path
  obtain ⟨p, hp, rfl⟩ := List.mem_map.mp hmem
  obtain ⟨item', hitem', hof⟩ := h.path_of hp
  rw [hitem'] at hitem
  cases hitem
  exact ⟨p, hp, rfl, hof⟩

/-! ### Coverage -/

/-- Every path carries a full matrix, all of one size, and the run is all of them. -/
def Snapshot.Complete (s : Snapshot) : Prop :=
  ∃ size, (size = 16 ∨ size = 32) ∧ s.paths.map PathResult.path = resultPaths ∧
    (∀ p ∈ s.paths, p.total = size ∧ p.combinations.map Combination.mask = List.range size) ∧
    s.run.completedCases = 8 * size ∧ s.run.plannedCases = 8 * size

/-- 256 planned cases, or 128 of which no submitted path has none. -/
def PlansEveryPath (input : Json) : Prop :=
  let planned := asCount (((Value.json input).optional "run").optional "plannedCases")
  planned = some 256 ∨ planned = some 128 ∧
    ∀ path item, submittedPath input path = some item → asCount (item.get "total") ≠ some 0

/-- Pointwise ordered counts with equal sums are equal. -/
theorem eq_of_sum_eq {α : Type} {f g : α → Nat} {xs : List α} (hle : ∀ x ∈ xs, f x ≤ g x)
    (hsum : (xs.map f).sum = (xs.map g).sum) : ∀ x ∈ xs, f x = g x := by
  intro x hx
  by_contra hne
  have hlt := List.sum_lt_sum f g hle ⟨x, hx, lt_of_le_of_ne (hle x hx) hne⟩
  exact absurd hsum (Nat.ne_of_lt hlt)

theorem sum_map_const {α : Type} (b : Nat) (xs : List α) :
    (xs.map fun _ => b).sum = xs.length * b := by
  rw [List.map_const', List.sum_replicate, smul_eq_mul]

theorem Snapshot.WellFormed.length {s : Snapshot} (h : s.WellFormed) : s.paths.length = 8 := by
  have := congrArg List.length h.order
  rwa [List.length_map] at this

/-- All totals equal make the run complete. -/
theorem Snapshot.WellFormed.complete_of_totals {s : Snapshot} (h : s.WellFormed) {size : Nat}
    (hsize : size = 16 ∨ size = 32) (hw : s.capabilities.webTransport = true)
    (hall : ∀ p ∈ s.paths, p.total = size) : s.Complete := by
  have hsum : s.run.completedCases = 8 * size := by
    rw [← h.totals, List.map_congr_left hall, sum_map_const, h.length]
  refine ⟨size, hsize, h.order, fun p hp => ⟨hall p hp, ?_⟩, hsum, (h.complete hw).symm.trans hsum⟩
  rw [(h.path p hp).masks, hall p hp]

/-- An accepted run of a browser with the API covers every path with one full matrix size exactly
    when it plans 256 cases, or 128 with some case for every path. -/
theorem sanitizeSubmission_complete_iff (input : Json) (receivedAt : String) (requireGrease : Bool)
    (s : Snapshot) (h : sanitizeSubmission input receivedAt requireGrease = .ok s)
    (hw : s.capabilities.webTransport = true) : s.Complete ↔ PlansEveryPath input := by
  have hof := (sanitizeSubmission_eq_ok.mp h).2
  have hwf := hof.wellFormed
  have hplanned := hof.run.planned
  have hrun : (s.paths.map PathResult.total).sum = s.run.plannedCases := by
    rw [hwf.totals, hwf.complete hw]
  have hconst (size : Nat) : (s.paths.map fun _ => size).sum = 8 * size := by
    rw [sum_map_const, hwf.length]
  constructor
  · rintro ⟨size, hsize, -, hall, -, hp⟩
    rcases hsize with rfl | rfl
    · refine Or.inr ⟨by rw [hplanned, hp], fun path item hitem h0 => ?_⟩
      obtain ⟨p, hpm, -, hpath⟩ := hof.of_submittedPath hitem
      have htotal := hpath.total
      rw [(hall p hpm).1, h0] at htotal
      cases htotal
    · exact Or.inl (by rw [hplanned, hp])
  · rintro (hp | ⟨hp, hnonzero⟩)
    · rw [hplanned, Option.some.injEq] at hp
      refine hwf.complete_of_totals (Or.inr rfl) hw (eq_of_sum_eq (fun p hpm => ?_) ?_)
      · rcases (hwf.path p hpm).size with h | h | h <;> omega
      · rw [hrun, hconst, hp]
    · rw [hplanned, Option.some.injEq] at hp
      have hall : ∀ p ∈ s.paths, 16 = p.total := by
        refine eq_of_sum_eq (fun p hpm => ?_) (by rw [hrun, hconst, hp])
        obtain ⟨item, hitem, hpath⟩ := hof.path_of hpm
        have hne := hnonzero p.path item hitem
        rw [hpath.total] at hne
        rcases (hwf.path p hpm).size with h | h | h
        · exact absurd (congrArg some h) hne
        · omega
        · omega
      exact hwf.complete_of_totals (Or.inl rfl) hw fun p hpm => (hall p hpm).symm

/-- Sixteen planned cases, all of them on the first path. -/
def onePathRun : Json :=
  (firefoxRun 16 (fun m => if m = .path .datagramUnavailable then 0 else 16)
    (resultPaths.map fun p =>
      tallied p (fullMatrix (if p = .basic then 16 else 0) fun _ _ => .pass))).submission

set_option maxRecDepth 100000 in
/-- A run on a single path is accepted. -/
theorem onePathRun_partial : ∃ s, sanitizeSubmission onePathRun "2026-07-16T12:00:00.000Z" false =
    .ok s ∧ s.capabilities.webTransport = true ∧ ¬ s.Complete := by
  have hrun : (sanitizeSubmission onePathRun "2026-07-16T12:00:00.000Z" false).toOption.any (fun s =>
      s.capabilities.webTransport && decide (s.run.plannedCases = 16)) = true := by decide
  obtain ⟨s, hs, h⟩ := exists_of_any hrun
  rw [Bool.and_eq_true, decide_eq_true_eq] at h
  refine ⟨s, hs, h.1, ?_⟩
  rintro ⟨size, hsize, -, -, -, hplanned⟩
  omega

theorem fullEchoRun_complete_iff : ∃ s, sanitizeSubmission fullEchoRun "2026-07-16T12:00:00.000Z"
    false = .ok s ∧ (s.Complete ↔ PlansEveryPath fullEchoRun) := by
  obtain ⟨s, hs, hw⟩ := exists_of_any fullEchoRun_accepted
  exact ⟨s, hs, sanitizeSubmission_complete_iff _ _ _ s hs hw⟩

/-! ### The counts of the run -/

/-- The cases a count of the run is about. -/
def Metric.counts : Metric → Combination → Bool
  | .path (.stage s), c => decide (c.outcome s = .pass)
  | .path .datagramUnavailable, c => decide (c.outcome .datagram = .unavailable)
  | .streamEcho, c => [Stage.ready, .bidirectionalStream, .unidirectionalStream].all fun s =>
      decide (c.outcome s = .pass)
  | .fullEcho, c => [Stage.ready, .datagram, .bidirectionalStream, .unidirectionalStream].all fun s =>
      decide (c.outcome s = .pass)

/-- The count the stored matrices imply. -/
def Snapshot.matrixMetric (s : Snapshot) (m : Metric) : Nat :=
  (s.paths.map fun p => (p.combinations.filter m.counts).length).sum

/-- The counts of the run are those of the matrices, and so is the conclusion. -/
def Snapshot.MatchesMatrix (s : Snapshot) : Prop :=
  (∀ m, s.metrics m = s.matrixMetric m) ∧
    s.conclusion = conclusionFor s.capabilities s.matrixMetric

/-- The combinations submitted for a path. -/
def submittedCombinations (input : Json) (path : ResultPath) : List Json :=
  match (submittedPath input path).map (Json.get · "combinations") with
  | some (.json (.arr items)) => items
  | _ => []

/-- The sum over the paths of a count submitted for each. -/
def submittedCount (input : Json) (m : PathMetric) : Nat :=
  (resultPaths.map fun path =>
    ((submittedPath input path).bind fun item => asCount (item.get m.key)).getD 0).sum

/-- The number of submitted combinations that pass all of these stages. -/
def submittedPasses (input : Json) (stages : List Stage) : Nat :=
  (resultPaths.map fun path => ((submittedCombinations input path).filter fun c =>
    stages.all fun s => (c.get s.key).isStr "pass").length).sum

/-- The submitted counts of the run add up: those that are kept for each path are the sums of the
    paths' own, and the two echo counts are the submitted combinations with these echoes. -/
def CountsAddUp (input : Json) : Prop :=
  let submitted (m : Metric) := asCount (((Value.json input).optional "metrics").optional m.key)
  (∀ m : PathMetric, submitted (.path m) = some (submittedCount input m)) ∧
    submitted .streamEcho =
      some (submittedPasses input [.ready, .bidirectionalStream, .unidirectionalStream]) ∧
    submitted .fullEcho =
      some (submittedPasses input [.ready, .datagram, .bidirectionalStream, .unidirectionalStream])

theorem forall₂_filter_length {α β : Type} {R : α → β → Prop} {p : α → Bool} {q : β → Bool}
    {xs : List α} {ys : List β} (h : List.Forall₂ R xs ys) (hpq : ∀ x y, R x y → p x = q y) :
    (xs.filter p).length = (ys.filter q).length := by
  induction h with
  | nil => rfl
  | cons hxy _ ih => rw [List.filter_cons, List.filter_cons, hpq _ _ hxy]; split <;> simp [ih]

theorem isStr_text (o o' : Outcome) :
    (Value.json (.str o.text)).isStr o'.text = decide (o = o') := by
  cases o <;> cases o' <;> rfl

/-- Submitted combinations pass the stages that the stored ones pass. -/
theorem CombinationOf.passes {total : Nat} {item : Json} {c : Combination}
    (h : CombinationOf total item c) (stages : List Stage) :
    (stages.all fun s => (item.get s.key).isStr "pass") =
      stages.all fun s => decide (c.outcome s = .pass) := by
  congr 1
  funext s
  rw [h.outcome s]
  exact isStr_text _ .pass

theorem passes_length {input : Value} {path : ResultPath} {total : Nat} {cs : List Combination}
    (h : sanitizeCombinations input path total = .ok cs) (stages : List Stage) :
    ∃ items, input = .json (.arr items) ∧
      (items.filter fun c => stages.all fun s => (c.get s.key).isStr "pass").length =
        (cs.filter fun c => stages.all fun s => decide (c.outcome s = .pass)).length := by
  obtain ⟨items, hin, hlen, ⟨rfl, rfl⟩ | ⟨-, supplied, hall, -, rfl⟩⟩ :=
    sanitizeCombinations_eq_ok.mp h
  · exact ⟨items, hin, by rw [List.eq_nil_of_length_eq_zero hlen]; rfl⟩
  · refine ⟨items, hin, ?_⟩
    rw [((sortByMask_perm supplied).filter _).length_eq]
    exact forall₂_filter_length hall fun _ _ hc => hc.passes stages

theorem sum_map_of_forall₂ {α β : Type} {R : α → β → Prop} {f : α → Nat} {g : β → Nat}
    {xs : List α} {ys : List β} (h : List.Forall₂ R xs ys) (hfg : ∀ x y, R x y → f x = g y) :
    (xs.map f).sum = (ys.map g).sum := by
  induction h with
  | nil => rfl
  | cons hxy _ ih => rw [List.map_cons, List.map_cons, List.sum_cons, List.sum_cons, hfg _ _ hxy, ih]

theorem SubmissionOf.submittedPasses {input : Json} {requireGrease : Bool} {s : Snapshot}
    (h : SubmissionOf input requireGrease s) (stages : List Stage) :
    submittedPasses input stages = (s.paths.map fun p => (p.combinations.filter fun c =>
      stages.all fun st => decide (c.outcome st = .pass)).length).sum := by
  refine sum_map_of_forall₂ h.paths_of ?_
  rintro path p ⟨rfl, item, hitem, hof⟩
  obtain ⟨items, hin, hlength⟩ := passes_length hof.combinations stages
  rw [submittedCombinations, hitem, Option.map_some, hin]
  exact hlength

theorem SubmissionOf.submittedCount {input : Json} {requireGrease : Bool} {s : Snapshot}
    (h : SubmissionOf input requireGrease s) (m : PathMetric) :
    submittedCount input m = s.matrixMetric (.path m) := by
  refine sum_map_of_forall₂ h.paths_of ?_
  rintro path p ⟨rfl, item, hitem, hof⟩
  rw [hitem, Option.bind_some, (hof.count m).1, Option.getD_some]
  cases m with
  | stage st => exact (hof.passed st).symm
  | datagramUnavailable => exact hof.unavailable.symm

/-- The stored counts of the run and the stored conclusion are those of the stored matrices exactly
    when the submitted counts add up. -/
theorem sanitizeSubmission_matchesMatrix_iff (input : Json) (receivedAt : String)
    (requireGrease : Bool) (s : Snapshot)
    (h : sanitizeSubmission input receivedAt requireGrease = .ok s) :
    s.MatchesMatrix ↔ CountsAddUp input := by
  have hof := (sanitizeSubmission_eq_ok.mp h).2
  simp only [CountsAddUp, (hof.metrics _).1, Option.some.injEq, hof.submittedCount,
    hof.submittedPasses]
  constructor
  · rintro ⟨hm, -⟩
    exact ⟨fun m => hm (.path m), hm .streamEcho, hm .fullEcho⟩
  · rintro ⟨hpath, hstream, hfull⟩
    have hm : ∀ m, s.metrics m = s.matrixMetric m
      | .path m => hpath m
      | .streamEcho => hstream
      | .fullEcho => hfull
    exact ⟨hm, by rw [hof.conclusion, ← funext hm]⟩

/-- Every constructor call fails, and one full echo is claimed. -/
def claimedEchoRun : Json :=
  (firefoxRun 128 (fun m => if m = .fullEcho then 1 else 0)
    (resultPaths.map fun p => tallied p (fullMatrix 16 fun _ s =>
      if s = .constructor then .fail else .notRun))).submission

set_option maxRecDepth 100000 in
/-- It is accepted, with a conclusion that none of its cases supports. -/
theorem claimedEchoRun_contradicts : ∃ s, sanitizeSubmission claimedEchoRun
    "2026-07-16T12:00:00.000Z" false = .ok s ∧ ¬ s.MatchesMatrix ∧
      s.conclusion = "Full datagram and stream echo works" ∧ s.matrixMetric .fullEcho = 0 := by
  have hrun : (sanitizeSubmission claimedEchoRun "2026-07-16T12:00:00.000Z" false).toOption.any
      (fun s => decide (s.metrics .fullEcho = 1) && decide (s.matrixMetric .fullEcho = 0) &&
        decide (s.conclusion = "Full datagram and stream echo works")) = true := by decide
  obtain ⟨s, hs, h⟩ := exists_of_any hrun
  simp only [Bool.and_eq_true, decide_eq_true_eq] at h
  obtain ⟨⟨hclaimed, hmatrix⟩, hconclusion⟩ := h
  refine ⟨s, hs, fun hmatch => ?_, hconclusion, hmatrix⟩
  have := hmatch.1 .fullEcho
  omega

theorem fullEchoRun_matchesMatrix_iff : ∃ s, sanitizeSubmission fullEchoRun
    "2026-07-16T12:00:00.000Z" false = .ok s ∧ (s.MatchesMatrix ↔ CountsAddUp fullEchoRun) := by
  obtain ⟨s, hs, -⟩ := exists_of_any fullEchoRun_accepted
  exact ⟨s, hs, sanitizeSubmission_matchesMatrix_iff _ _ _ s hs⟩

end WebTransportEcho.Store
