import WebTransportEcho.Store.Sanitize
import Mathlib.Data.List.Perm.Subperm
import Mathlib.Data.Nat.Bitwise

/-! What acceptance says. One lemma for each sanitizer turns a normal return into the facts its
    checks established about the input and the record it built; a later proof cites the lemma and
    never looks at the checks again.

    The one check that needs an argument is the coverage of a matrix: `total` distinct masks below
    `total` are, once sorted, exactly `0, 1, …, total - 1`, so the loop that compares them with
    their positions cannot fail after the range and duplicate checks have passed. -/

namespace WebTransportEcho.Store
open Js

/-! ### Scalars -/

theorem requiredBoolean_eq_ok {value : Value} {label : String} {b : Bool} :
    requiredBoolean value label = .ok b ↔ value = .json (.bool b) := by
  unfold requiredBoolean
  split
  · simp
  · next hne =>
    constructor
    · intro h; cases h
    · rintro rfl; exact absurd rfl (hne b)

theorem asCount_le {value : Value} {n : Nat} (h : asCount value = some n) : n ≤ 4096 := by
  unfold asCount at h
  split at h
  · split at h
    · cases h
    · cases h; omega
  · cases h; omega
  · cases h

@[simp] theorem asCount_nat {n : Nat} (h : n ≤ 4096) : asCount (.json (.nat n)) = some n := by
  have hs : (n : Int).natAbs ≤ Num.maxSafe := by simp only [Num.maxSafe]; omega
  have hr : ¬ ((!(Num.int n).isSafeInteger) = true ∨ (n : Int) < 0 ∨ 4096 < (n : Int)) := by
    simp only [Num.isSafeInteger, hs, decide_true, Bool.not_true, Bool.false_eq_true, false_or]
    omega
  rw [asCount, if_neg hr, Int.toNat_natCast]

theorem requiredCount_eq_ok {value : Value} {label : String} {n : Nat} :
    requiredCount value label = .ok n ↔ asCount value = some n := by
  unfold requiredCount
  cases asCount value <;> simp

theorem asOutcome_eq_some {value : Value} {o : Outcome} :
    asOutcome value = some o ↔ value = .json (.str o.text) := by
  constructor
  · intro h
    unfold asOutcome at h
    exact (Value.isStr_iff _ _).mp (by simpa using List.find?_some h)
  · rintro rfl
    cases o <;> decide

theorem requiredCombinationOutcome_eq_ok {value : Value} {label : String} {o : Outcome} :
    requiredCombinationOutcome value label = .ok o ↔ value = .json (.str o.text) := by
  rw [← asOutcome_eq_some]
  unfold requiredCombinationOutcome
  cases asOutcome value <;> simp

theorem requiredArray_eq_ok {value : Value} {ok : List Json → Bool} {message : String}
    {items : List Json} : requiredArray value ok message = .ok items ↔
      value = .json (.arr items) ∧ ok items = true := by
  unfold requiredArray
  split
  · next items' =>
    split
    · next hok =>
      constructor
      · intro h; cases h; exact ⟨rfl, hok⟩
      · rintro ⟨h, -⟩; cases h; rfl
    · next hok =>
      constructor
      · intro h; cases h
      · rintro ⟨h, hok'⟩; cases h; exact absurd hok' hok
  · next hne =>
    constructor
    · intro h; cases h
    · rintro ⟨h, -⟩; exact absurd h (hne items)

theorem asOptionKey_eq_some {value : Value} {k : OptionKey} :
    asOptionKey value = some k ↔ value = .json (.str k.text) := by
  constructor
  · intro h
    unfold asOptionKey at h
    exact (Value.isStr_iff _ _).mp (by simpa using List.find?_some h)
  · rintro rfl
    cases k <;> decide

/-! ### Run and metrics -/

/-- What the checks on a run establish. -/
structure RunOf (capabilities : Capabilities) (input : Value) (r : Run) : Prop where
  mode : input.optional "mode" = .json (.str "exhaustive")
  cancelled : input.optional "cancelled" = .json (.bool false)
  planned : asCount (input.optional "plannedCases") = some r.plannedCases
  completed : asCount (input.optional "completedCases") = some r.completedCases
  planned_pos : 0 < r.plannedCases
  complete : capabilities.webTransport = true → r.completedCases = r.plannedCases
  empty : capabilities.webTransport = false → r.completedCases = 0

theorem same_false_iff (v : Value) : v.same (.json (.bool false)) = true ↔ v = .json (.bool false) := by
  cases v with
  | undefined => simp [Value.same]
  | native name => simp [Value.same]
  | json j => cases j <;> simp [Value.same]

theorem sanitizeRun_eq_ok {input : Value} {capabilities : Capabilities} {r : Run} :
    sanitizeRun input capabilities = .ok r ↔ RunOf capabilities input r := by
  unfold sanitizeRun
  simp only [bind_eq_ok, throwIf_eq_ok, requiredCount_eq_ok, not_not, Value.isStr_iff,
    same_false_iff, exists_const]
  constructor
  · rintro ⟨hmode, hcancelled, p, hp, c, hc, hcover, hcomplete, hempty, hr⟩
    cases hr
    refine ⟨hmode, hcancelled, hp, hc, Nat.pos_of_ne_zero fun h => hcover (Or.inl h),
      fun hw => ?_, fun hw => ?_⟩
    · by_contra hne; exact hcomplete ⟨hw, hne⟩
    · by_contra hne; exact hempty ⟨by simp [hw], hne⟩
  · intro h
    refine ⟨h.mode, h.cancelled, _, h.planned, _, h.completed, ?_, ?_, ?_, rfl⟩
    · have := h.planned_pos
      cases hw : capabilities.webTransport
      · have := h.empty hw; omega
      · have := h.complete hw; omega
    · rintro ⟨hw, hne⟩; exact hne (h.complete hw)
    · rintro ⟨hw, hne⟩; exact hne (h.empty (by simpa using hw))

theorem RunOf.completed_le {capabilities : Capabilities} {input : Value} {r : Run}
    (h : RunOf capabilities input r) : r.completedCases ≤ r.plannedCases := by
  cases hw : capabilities.webTransport
  · have := h.empty hw; omega
  · exact le_of_eq (h.complete hw)

theorem boundedCount_eq_ok {input : Value} {key label exceeds : String} {bound n : Nat} :
    boundedCount input key label bound exceeds = .ok n ↔
      asCount (input.optional key) = some n ∧ n ≤ bound := by
  unfold boundedCount
  simp only [bind_eq_ok, throwIf_eq_ok, requiredCount_eq_ok, exists_const, Except.ok.injEq]
  constructor
  · rintro ⟨m, hm, hle, rfl⟩; exact ⟨hm, by omega⟩
  · rintro ⟨hn, hle⟩; exact ⟨n, hn, by omega, rfl⟩

theorem sanitizeMetrics_eq_ok {input : Value} {completedCases : Nat} {g : Metric → Nat} :
    sanitizeMetrics input completedCases = .ok g ↔
      ∀ m : Metric, asCount (input.optional m.key) = some (g m) ∧ g m ≤ completedCases := by
  unfold sanitizeMetrics
  rw [fill_all (by decide) mem_metrics]
  simp only [boundedCount_eq_ok]

/-! ### Effects -/

/-- What the checks on one effect establish. -/
structure EffectOf (item : Json) (e : Effect) : Prop where
  key : (Value.json item).optional "key" = .json (.str e.key.text)
  withReady : asCount ((item.get "withOption").optional "ready") = some e.withOption.ready
  withTotal : asCount ((item.get "withOption").optional "total") = some e.withOption.total
  with_le : e.withOption.ready ≤ e.withOption.total
  withoutReady : asCount ((item.get "withoutOption").optional "ready") = some e.withoutOption.ready
  withoutTotal : asCount ((item.get "withoutOption").optional "total") = some e.withoutOption.total
  without_le : e.withoutOption.ready ≤ e.withoutOption.total

theorem sanitizeRatio_eq_ok {input : Value} {label : String} {r : Ratio} :
    sanitizeRatio input label = .ok r ↔ asCount (input.optional "ready") = some r.ready ∧
      asCount (input.optional "total") = some r.total ∧ r.ready ≤ r.total := by
  unfold sanitizeRatio
  simp only [bind_eq_ok, throwIf_eq_ok, requiredCount_eq_ok, exists_const]
  constructor
  · rintro ⟨a, ha, b, hb, hle, h⟩; cases h; exact ⟨ha, hb, by simpa using hle⟩
  · rintro ⟨ha, hb, hle⟩; exact ⟨_, ha, _, hb, by omega, rfl⟩

theorem sanitizeEffect_eq_ok {path : ResultPath} {seen : List OptionKey} {item : Json}
    {e : Effect} : sanitizeEffect path seen item = .ok e ↔ EffectOf item e ∧ e.key ∉ seen := by
  unfold sanitizeEffect
  constructor
  · intro h
    simp only at h
    split at h
    · cases h
    · next key hkey =>
      simp only [bind_eq_ok, throwIf_eq_ok, exists_const, sanitizeRatio_eq_ok] at h
      obtain ⟨hseen, w, ⟨h₁, h₂, h₃⟩, wo, ⟨h₄, h₅, h₆⟩, h⟩ := h
      cases h
      exact ⟨⟨asOptionKey_eq_some.mp hkey, h₁, h₂, h₃, h₄, h₅, h₆⟩, hseen⟩
  · rintro ⟨h, hseen⟩
    rw [asOptionKey_eq_some.mpr h.key]
    simp only [bind_eq_ok, throwIf_eq_ok, exists_const, sanitizeRatio_eq_ok]
    exact ⟨hseen, _, ⟨h.withReady, h.withTotal, h.with_le⟩, _,
      ⟨h.withoutReady, h.withoutTotal, h.without_le⟩, rfl⟩

theorem effects_eq_ok {path : ResultPath} {items : List Json} {es : List Effect} :
    mapUnique (sanitizeEffect path) Effect.key [] items = .ok es ↔
      List.Forall₂ EffectOf items es ∧ (es.map Effect.key).Nodup := by
  have hread (seen : List OptionKey) (x : Json) (e : Effect) :
      sanitizeEffect path seen x = .ok e ↔ EffectOf x e ∧ e.key ∉ seen := sanitizeEffect_eq_ok
  rw [mapUnique_eq_ok hread]
  simp

theorem sanitizeEffects_eq_ok {input : Value} {path : ResultPath} {es : List Effect} :
    sanitizeEffects input path = .ok es ↔ (input = .undefined ∧ es = []) ∨
      ∃ items, input = .json (.arr items) ∧ items.length ≤ 5 ∧
        List.Forall₂ EffectOf items es ∧ (es.map Effect.key).Nodup := by
  unfold sanitizeEffects
  split
  · simp [eq_comm]
  · next hne =>
    simp only [bind_eq_ok, requiredArray_eq_ok, effects_eq_ok, decide_eq_true_eq]
    have hlen : optionKeys.length = 5 := rfl
    rw [hlen]
    constructor
    · rintro ⟨items, ⟨h, hle⟩, hall, hnd⟩
      exact Or.inr ⟨items, h, hle, hall, hnd⟩
    · rintro (⟨h, -⟩ | ⟨items, h, hle, hall, hnd⟩)
      · exact absurd h hne
      · exact ⟨items, ⟨h, hle⟩, hall, hnd⟩

/-! ### The option matrix -/

/-- The bit of an option in a mask. -/
def OptionKey.bit : OptionKey → Nat
  | .allowPooling => 0
  | .requireUnreliable => 1
  | .congestionControl => 2
  | .protocols => 3
  | .serverCertificateHashes => 4

theorem and_shiftLeft_ne_zero (mask i : Nat) : mask &&& (1 <<< i) ≠ 0 ↔ mask.testBit i = true := by
  rw [Nat.shiftLeft_eq, Nat.one_mul, Nat.and_comm, Nat.two_pow_and]
  cases mask.testBit i <;> simp

/-- The rebuilt options are the option keys at the set bits of the mask, in key order. -/
theorem expectedOptions_eq (mask : Nat) :
    expectedOptions mask = optionKeys.filter fun k => mask.testBit k.bit := by
  simp only [expectedOptions, optionKeys, List.zipIdx_cons, List.zipIdx_nil, Nat.zero_add,
    List.filter_cons, List.filter_nil, and_shiftLeft_ne_zero, OptionKey.bit, Bool.decide_eq_true]
  cases mask.testBit 0 <;> cases mask.testBit 1 <;> cases mask.testBit 2 <;>
    cases mask.testBit 3 <;> cases mask.testBit 4 <;> rfl

/-- The supplied options are accepted when they are the texts of the expected ones. -/
theorem optionsMatch_iff : ∀ (expected : List OptionKey) (options : List Json),
    optionsMatch expected options = true ↔ options = expected.map fun k => .str k.text
  | [], [] => by simp [optionsMatch]
  | [], o :: os => by simp [optionsMatch]
  | k :: ks, [] => by simp [optionsMatch]
  | k :: ks, o :: os => by
    have ih := optionsMatch_iff ks os
    simp only [optionsMatch, Bool.and_eq_true, decide_eq_true_eq] at ih
    simp only [optionsMatch, List.length_cons, Nat.add_right_cancel_iff, List.zip_cons_cons,
      List.all_cons, Bool.and_eq_true, decide_eq_true_eq, Value.isStr_iff, Value.json.injEq,
      List.map_cons, List.cons.injEq, ← ih]
    exact and_left_comm

/-- What the checks on one combination establish. -/
structure CombinationOf (total : Nat) (item : Json) (c : Combination) : Prop where
  mask : asCount ((Value.json item).optional "mask") = some c.mask
  mask_lt : c.mask < total
  options : c.options = expectedOptions c.mask
  supplied : ∃ os, item.get "options" = .json (.arr os) ∧ optionsMatch c.options os = true
  outcome : ∀ s : Stage, item.get s.key = .json (.str (c.outcome s).text)

theorem sanitizeCombination_eq_ok {path : ResultPath} {total : Nat} {seen : List Nat} {item : Json}
    {c : Combination} : sanitizeCombination path total seen item = .ok c ↔
      CombinationOf total item c ∧ c.mask ∉ seen := by
  unfold sanitizeCombination
  simp only [bind_eq_ok, throwIf_eq_ok, requiredCount_eq_ok, requiredArray_eq_ok, exists_const,
    fill_all (show combinationStageKeys.Nodup by decide) mem_combinationStageKeys,
    requiredCombinationOutcome_eq_ok, not_or, not_le]
  constructor
  · rintro ⟨mask, hmask, ⟨hlt, hseen⟩, os, hos, outcome, hout, h⟩
    cases h
    exact ⟨⟨hmask, hlt, rfl, ⟨os, hos⟩, hout⟩, hseen⟩
  · rintro ⟨h, hseen⟩
    obtain ⟨os, hos, hmatch⟩ := h.supplied
    rw [h.options] at hmatch
    refine ⟨c.mask, h.mask, ⟨h.mask_lt, hseen⟩, os, ⟨hos, hmatch⟩, c.outcome, h.outcome, ?_⟩
    rw [← h.options]

theorem combinations_eq_ok {path : ResultPath} {total : Nat} {items : List Json}
    {cs : List Combination} :
    mapUnique (sanitizeCombination path total) Combination.mask [] items = .ok cs ↔
      List.Forall₂ (CombinationOf total) items cs ∧ (cs.map Combination.mask).Nodup := by
  have hread (seen : List Nat) (x : Json) (c : Combination) : sanitizeCombination path total seen x =
      .ok c ↔ CombinationOf total x c ∧ c.mask ∉ seen := sanitizeCombination_eq_ok
  rw [mapUnique_eq_ok hread]
  simp

theorem sortByMask_perm (cs : List Combination) : (sortByMask cs).Perm cs :=
  List.perm_insertionSort _ _

/-- `total` distinct masks below `total` are all of them: sorted, they are their own positions. -/
theorem sortByMask_masks {cs : List Combination} {total : Nat}
    (hnd : (cs.map Combination.mask).Nodup) (hlt : ∀ c ∈ cs, c.mask < total)
    (hlen : cs.length = total) : (sortByMask cs).map Combination.mask = List.range total := by
  have hperm : ((sortByMask cs).map Combination.mask).Perm (cs.map Combination.mask) :=
    (sortByMask_perm cs).map _
  have hsub : cs.map Combination.mask ⊆ List.range total := by
    intro m hm
    obtain ⟨c, hc, rfl⟩ := List.mem_map.mp hm
    exact List.mem_range.mpr (hlt c hc)
  have hall : (cs.map Combination.mask).Perm (List.range total) :=
    (hnd.subperm hsub).perm_of_length_le (by simp [hlen])
  have hsorted : ((sortByMask cs).map Combination.mask).SortedLE := by
    rw [sortByMask, List.map_insertionSort _ (· ≤ ·) Combination.mask cs fun _ _ _ _ => Iff.rfl]
    exact List.sortedLE_insertionSort
  exact (hperm.trans hall).eq_of_sortedLE hsorted (List.sortedLT_range total).sortedLE

/-- The coverage loop passes on a sorted matrix. -/
theorem masks_cover {cs : List Combination} {total : Nat}
    (h : cs.map Combination.mask = List.range total) :
    ∀ mask ∈ List.range total, (cs[mask]?).map Combination.mask = some mask := by
  intro mask hm
  have hget : (cs.map Combination.mask)[mask]? = some mask := by
    rw [h, List.getElem?_range (List.mem_range.mp hm)]
  rwa [List.getElem?_map] at hget

/-- The matrix of a path: nothing, or every mask of 16 or 32 in its place. -/
theorem sanitizeCombinations_eq_ok {input : Value} {path : ResultPath} {total : Nat}
    {cs : List Combination} : sanitizeCombinations input path total = .ok cs ↔
      ∃ items, input = .json (.arr items) ∧ items.length = total ∧
        ((total = 0 ∧ cs = []) ∨ ((total = 16 ∨ total = 32) ∧
          ∃ supplied, List.Forall₂ (CombinationOf total) items supplied ∧
            (supplied.map Combination.mask).Nodup ∧ cs = sortByMask supplied)) := by
  unfold sanitizeCombinations
  simp only [bind_eq_ok, requiredArray_eq_ok, decide_eq_true_eq]
  constructor
  · rintro ⟨items, ⟨hin, hlen⟩, h⟩
    refine ⟨items, hin, hlen, ?_⟩
    split at h
    · next hz => cases h; exact Or.inl ⟨hz, rfl⟩
    · simp only [bind_eq_ok, throwIf_eq_ok, exists_const, combinations_eq_ok] at h
      obtain ⟨hsize, supplied, ⟨hall, hnd⟩, -, h⟩ := h
      cases h
      exact Or.inr ⟨by omega, supplied, hall, hnd, rfl⟩
  · rintro ⟨items, hin, hlen, ⟨hz, rfl⟩ | ⟨hsize, supplied, hall, hnd, rfl⟩⟩
    · exact ⟨items, ⟨hin, hlen⟩, by rw [if_pos hz]⟩
    · refine ⟨items, ⟨hin, hlen⟩, ?_⟩
      have hlt : ∀ c ∈ supplied, c.mask < total := by
        intro c hc
        obtain ⟨item, -, hitem⟩ := exists_of_forall₂_right hall hc
        exact hitem.mask_lt
      have hcover := masks_cover (sortByMask_masks hnd hlt (hall.length_eq ▸ hlen))
      rw [if_neg (by omega)]
      simp only [bind_eq_ok, throwIf_eq_ok, exists_const, combinations_eq_ok, not_not]
      exact ⟨by omega, supplied, ⟨hall, hnd⟩, hcover, rfl⟩

theorem validateCombinationCounts_eq_ok {path : ResultPath} {count : PathMetric → Nat}
    {cs : List Combination} {u : Unit} : validateCombinationCounts path count cs = .ok u ↔
      (∀ s : Stage, outcomeCount cs s .pass = count (.stage s)) ∧
        outcomeCount cs .datagram .unavailable = count .datagramUnavailable := by
  unfold validateCombinationCounts
  simp only [bind_eq_ok, throwIf_eq_ok, forEach_throwIf, exists_const, not_not, ne_eq]
  constructor
  · rintro ⟨h, hu⟩
    exact ⟨fun s => h s (mem_combinationStageKeys s), hu⟩
  · rintro ⟨h, hu⟩
    exact ⟨fun s _ => h s, hu⟩

/-! ### Paths -/

/-- What the checks on one path establish. -/
structure PathOf (capabilities : Capabilities) (item : Json) (p : PathResult) : Prop where
  total : asCount (item.get "total") = some p.total
  count : ∀ m : PathMetric, asCount (item.get m.key) = some (p.count m) ∧ p.count m ≤ p.total
  effects : sanitizeEffects (item.get "effects") p.path = .ok p.effects
  combinations : sanitizeCombinations (item.get "combinations") p.path p.total = .ok p.combinations
  passed : ∀ s : Stage, outcomeCount p.combinations s .pass = p.count (.stage s)
  unavailable : outcomeCount p.combinations .datagram .unavailable = p.count .datagramUnavailable
  signal : p.signal = optionSignal p.total (p.count (.stage .ready)) p.effects capabilities

theorem sanitizePath_eq_ok {capabilities : Capabilities} {supplied : List (Value × Json)}
    {path : ResultPath} {p : PathResult} : sanitizePath capabilities supplied path = .ok p ↔
      p.path = path ∧ ∃ item, findPath supplied path = some item ∧ PathOf capabilities item p := by
  unfold sanitizePath
  cases hfind : findPath supplied path with
  | none => simp
  | some item =>
    simp only [bind_eq_ok, requiredCount_eq_ok, fill_all (show (pathMetrics.map Prod.fst).Nodup by
      decide) mem_pathMetrics, boundedCount_eq_ok, Value.optional_json,
      validateCombinationCounts_eq_ok, exists_const, Option.some.injEq]
    constructor
    · rintro ⟨total, htotal, count, hcount, es, hes, cs, hcs, ⟨hpass, hun⟩, h⟩
      cases h
      exact ⟨rfl, item, rfl, htotal, hcount, hes, hcs, hpass, hun, rfl⟩
    · rintro ⟨rfl, _, rfl, h⟩
      refine ⟨_, h.total, _, h.count, _, h.effects, _, h.combinations, ⟨h.passed, h.unavailable⟩, ?_⟩
      rw [← h.signal]

theorem sanitizePaths_eq_ok {input : Value} {run : Run} {capabilities : Capabilities}
    {ps : List PathResult} : sanitizePaths input run capabilities = .ok ps ↔
      ∃ items, input = .json (.arr items) ∧ items.length = 8 ∧ (suppliedPaths items).length = 8 ∧
        List.Forall₂ (fun path p => p.path = path ∧ ∃ item,
          findPath (suppliedPaths items) path = some item ∧ PathOf capabilities item p)
          resultPaths ps ∧
        (ps.map PathResult.total).sum = run.completedCases := by
  have hlen : resultPaths.length = 8 := rfl
  unfold sanitizePaths
  simp only [bind_eq_ok, requiredArray_eq_ok, decide_eq_true_eq, throwIf_eq_ok, not_not,
    mapM_eq_ok, sanitizePath_eq_ok, exists_const, hlen, ne_eq]
  constructor
  · rintro ⟨items, ⟨hin, h8⟩, hs8, ps', hps, hsum, h⟩
    cases h
    exact ⟨items, hin, h8, hs8, hps, hsum⟩
  · rintro ⟨items, hin, h8, hs8, hps, hsum⟩
    exact ⟨items, ⟨hin, h8⟩, hs8, ps, hps, hsum, rfl⟩

/-! ### GREASE -/

/-- The stage shapes a probe can have: construction, then `ready`, then all three echoes. -/
structure ProbeShape (p : Probe) : Prop where
  available : ∀ s, s ≠ .datagram → p s ≠ .unavailable
  constructed : p .constructor ≠ .pass → p .ready = .notRun
  before : p .ready ≠ .pass → ∀ s, s ≠ .constructor → s ≠ .ready → p s = .notRun
  after : p .ready = .pass → ∀ s, s ≠ .constructor → s ≠ .ready → p s ≠ .notRun

theorem sanitizeGreaseProbe_eq_ok {input : Value} {label : String} {p : Probe} :
    sanitizeGreaseProbe input label = .ok p ↔
      (∀ s : Stage, input.optional s.key = .json (.str (p s).text)) ∧ ProbeShape p := by
  have hecho (s : Stage) : s ∈ Stage.datagram :: greaseStreamKeys ↔
      s ≠ .constructor ∧ s ≠ .ready := by cases s <;> decide
  have hkeys (s : Stage) : s ∈ Stage.constructor :: .ready :: greaseStreamKeys ↔
      s ≠ .datagram := by cases s <;> decide
  unfold sanitizeGreaseProbe
  simp only [bind_eq_ok, throwIf_eq_ok, exists_const, forEach_throwIf,
    fill_all (show greaseProbeKeys.Nodup by decide) mem_greaseProbeKeys,
    requiredCombinationOutcome_eq_ok, hecho, hkeys]
  constructor
  · rintro ⟨g, hread, havail, hcons, hbefore, hafter, h⟩
    cases h
    refine ⟨hread, havail, fun hc => ?_, fun hr s h₁ h₂ => ?_, fun hr s h₁ h₂ hn => ?_⟩
    · by_contra hne; exact hcons ⟨hc, hne⟩
    · by_contra hne; exact hbefore ⟨hr, s, ⟨h₁, h₂⟩, hne⟩
    · exact hafter ⟨hr, s, ⟨h₁, h₂⟩, hn⟩
  · rintro ⟨hread, h⟩
    refine ⟨p, hread, h.available, ?_, ?_, ?_, rfl⟩
    · rintro ⟨hc, hne⟩; exact hne (h.constructed hc)
    · rintro ⟨hr, s, ⟨h₁, h₂⟩, hne⟩; exact hne (h.before hr s h₁ h₂)
    · rintro ⟨hr, s, ⟨h₁, h₂⟩, hn⟩; exact h.after hr s h₁ h₂ hn

/-- The verdict on a pair of probes. -/
def verdictOf (webTransport : Bool) (control enabled : Probe) : Verdict :=
  if webTransport = false then .apiUnavailable
  else if control .ready ≠ .pass then .controlFailed
  else if enabled .ready ≠ .pass then .affected
  else if ∃ s ∈ greaseProbeKeys, control s ≠ enabled s then .degraded
  else .tolerant

/-- What the checks on a GREASE differential establish. -/
structure GreaseOf (capabilities : Capabilities) (input : Value) (g : Grease) : Prop where
  present : input.isNullish = false
  control : ∀ s : Stage, (input.optional "control").optional s.key = .json (.str (g.control s).text)
  enabled : ∀ s : Stage, (input.optional "enabled").optional s.key = .json (.str (g.enabled s).text)
  controlShape : ProbeShape g.control
  enabledShape : ProbeShape g.enabled
  idle : capabilities.webTransport = false → ∀ s, g.control s = .notRun ∧ g.enabled s = .notRun
  verdict : g.verdict = verdictOf capabilities.webTransport g.control g.enabled

theorem sanitizeGrease_eq_ok {input : Value} {capabilities : Capabilities} {g : Option Grease} :
    sanitizeGrease input capabilities = .ok g ↔ (input.isNullish = true ∧ g = none) ∨
      ∃ g', g = some g' ∧ GreaseOf capabilities input g' := by
  unfold sanitizeGrease
  split
  · next hn =>
    constructor
    · intro h; cases h; exact Or.inl ⟨hn, rfl⟩
    · rintro (⟨-, rfl⟩ | ⟨g', -, h⟩)
      · rfl
      · rw [h.present] at hn; cases hn
  · next hn =>
    have hn' : input.isNullish = false := by simpa using hn
    simp only [bind_eq_ok, sanitizeGreaseProbe_eq_ok]
    constructor
    · rintro ⟨c, ⟨hc, hcs⟩, e, ⟨he, hes⟩, h⟩
      refine Or.inr ?_
      split at h
      · next hw =>
        have hw' : capabilities.webTransport = false := by simpa using hw
        simp only [bind_eq_ok, throwIf_eq_ok, exists_const] at h
        obtain ⟨hidle, h⟩ := h
        cases h
        refine ⟨_, rfl, hn', hc, he, hcs, hes, fun _ s => ?_, by simp [verdictOf, hw']⟩
        constructor
        · by_contra hne; exact hidle ⟨s, mem_greaseProbeKeys s, Or.inl hne⟩
        · by_contra hne; exact hidle ⟨s, mem_greaseProbeKeys s, Or.inr hne⟩
      · next hw =>
        have hw' : capabilities.webTransport = true := by simpa using hw
        have hidle : capabilities.webTransport = false →
            ∀ s, c s = .notRun ∧ e s = .notRun := by rw [hw']; intro h; cases h
        split at h
        · next hr => cases h; exact ⟨_, rfl, hn', hc, he, hcs, hes, hidle, by simp [verdictOf, hw', hr]⟩
        · next hr =>
          split at h
          · next hr₂ =>
            cases h
            exact ⟨_, rfl, hn', hc, he, hcs, hes, hidle, by simp [verdictOf, hw', hr, hr₂]⟩
          · next hr₂ =>
            split at h
            · next hd =>
              cases h
              exact ⟨_, rfl, hn', hc, he, hcs, hes, hidle, by
                rw [verdictOf, if_neg (by simp [hw']), if_neg hr, if_neg hr₂, if_pos hd]⟩
            · next hd =>
              cases h
              exact ⟨_, rfl, hn', hc, he, hcs, hes, hidle, by
                rw [verdictOf, if_neg (by simp [hw']), if_neg hr, if_neg hr₂, if_neg hd]⟩
    · rintro (⟨h, -⟩ | ⟨g', rfl, h⟩)
      · exact absurd h hn
      · refine ⟨_, ⟨h.control, h.controlShape⟩, _, ⟨h.enabled, h.enabledShape⟩, ?_⟩
        have hv := h.verdict
        obtain ⟨c, e, v⟩ := g'
        simp only at hv
        cases hw : capabilities.webTransport
        · have hidle := h.idle hw
          simp only at hidle
          rw [if_pos (by simp)]
          simp only [bind_eq_ok, throwIf_eq_ok, exists_const]
          rw [hw, verdictOf, if_pos rfl] at hv
          subst hv
          refine ⟨?_, rfl⟩
          rintro ⟨s, -, hne | hne⟩
          · exact hne (hidle s).1
          · exact hne (hidle s).2
        · rw [hw, verdictOf, if_neg (by simp)] at hv
          rw [if_neg (by simp)]
          simp only
          split_ifs at hv ⊢ <;> rw [hv]

/-! ### The whole submission -/

/-- What acceptance of a submission establishes. -/
structure SubmissionOf (input : Json) (requireGrease : Bool) (s : Snapshot) : Prop where
  schema : ((Value.json input).optional "schemaVersion").same (.json (.nat 1)) = true
  browser : normalizeBrowser ((Value.json input).optional "browser") = .ok s.browser
  secureContext : ((Value.json input).optional "capabilities").optional "secureContext" =
    .json (.bool s.capabilities.secureContext)
  webTransport : ((Value.json input).optional "capabilities").optional "webTransport" =
    .json (.bool s.capabilities.webTransport)
  run : RunOf s.capabilities ((Value.json input).optional "run") s.run
  metrics : ∀ m : Metric, asCount (((Value.json input).optional "metrics").optional m.key) =
    some (s.metrics m) ∧ s.metrics m ≤ s.run.completedCases
  paths : sanitizePaths ((Value.json input).optional "paths") s.run s.capabilities = .ok s.paths
  grease : sanitizeGrease ((Value.json input).optional "grease") s.capabilities = .ok s.grease
  required : requireGrease = true → s.grease ≠ none
  conclusion : s.conclusion = conclusionFor s.capabilities s.metrics

theorem sanitizeSubmission_eq_ok {input : Json} {receivedAt : String} {requireGrease : Bool}
    {s : Snapshot} : sanitizeSubmission input receivedAt requireGrease = .ok s ↔
      s.receivedAt = receivedAt ∧ SubmissionOf input requireGrease s := by
  unfold sanitizeSubmission
  simp only [bind_eq_ok, throwIf_eq_ok, exists_const, requiredBoolean_eq_ok, sanitizeRun_eq_ok,
    sanitizeMetrics_eq_ok, not_not]
  constructor
  · rintro ⟨hschema, b, hb, sc, hsc, wt, hwt, r, hr, m, hm, ps, hps, g, hg, hreq, h⟩
    cases h
    refine ⟨rfl, hschema, hb, hsc, hwt, hr, hm, hps, hg, fun hrg hnone => ?_, rfl⟩
    exact hreq ⟨hrg, by simp only at hnone; simp [hnone]⟩
  · rintro ⟨rfl, h⟩
    refine ⟨h.schema, _, h.browser, _, h.secureContext, _, h.webTransport, _, h.run, _, h.metrics,
      _, h.paths, _, h.grease, ?_, ?_⟩
    · rintro ⟨hrg, hnone⟩
      exact h.required hrg (by simpa using hnone)
    · rw [← h.conclusion]

end WebTransportEcho.Store
