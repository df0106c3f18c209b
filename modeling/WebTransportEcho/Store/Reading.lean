import WebTransportEcho.Store.Document

/-! Submissions that say what a snapshot says. A submission with a well-formed snapshot's counts,
    effects and matrices is accepted, and what is stored is that snapshot. Its path entries may be in
    any order and have other properties too. -/

namespace WebTransportEcho.Store
open Js

/-! ### Effects and matrices -/

theorem asCount_ratio {r : Ratio} (h : r.WellFormed) :
    asCount ((Value.json r.toJson).optional "ready") = some r.ready ∧
      asCount ((Value.json r.toJson).optional "total") = some r.total := by
  refine ⟨?_, ?_⟩
  · simp [Ratio.toJson, h.ready_le.trans h.total_le]
  · simp [Ratio.toJson, Json.get, List.lookup_cons, h.total_le]

theorem effectOf_toJson {e : Effect} (h : e.WellFormed) : EffectOf e.toJson e := by
  have hwith : e.toJson.get "withOption" = .json e.withOption.toJson := by
    simp [Effect.toJson, Json.get, List.lookup_cons]
  have hwithout : e.toJson.get "withoutOption" = .json e.withoutOption.toJson := by
    simp [Effect.toJson, Json.get, List.lookup_cons]
  obtain ⟨hwr, hwt⟩ := asCount_ratio h.withOption
  obtain ⟨hor, hot⟩ := asCount_ratio h.withoutOption
  exact {
    key := by simp [Effect.toJson]
    withReady := by rw [hwith, hwr]
    withTotal := by rw [hwith, hwt]
    with_le := h.withOption.ready_le
    withoutReady := by rw [hwithout, hor]
    withoutTotal := by rw [hwithout, hot]
    without_le := h.withoutOption.ready_le }

theorem sanitizeEffects_toJson {es : List Effect} (path : ResultPath)
    (hkeys : (es.map Effect.key).Nodup) (h : ∀ e ∈ es, e.WellFormed) :
    sanitizeEffects (.json (.arr (es.map Effect.toJson))) path = .ok es := by
  refine sanitizeEffects_eq_ok.mpr (.inr ⟨_, rfl, ?_, ?_, hkeys⟩)
  · have hsub : es.map Effect.key ⊆ optionKeys := fun k _ => by cases k <;> decide
    have hle := (hkeys.subperm hsub).length_le
    rwa [List.length_map] at hle ⊢
  · rw [List.forall₂_map_left_iff, List.forall₂_same]
    exact fun e he => effectOf_toJson (h e he)

theorem combinationOf_toJson {total : Nat} {c : Combination} (htotal : total ≤ 4096)
    (hmask : c.mask < total) (hoptions : c.options = expectedOptions c.mask) :
    CombinationOf total c.toJson c where
  mask := by
    have hle : c.mask ≤ 4096 := by omega
    simp [Combination.toJson, hle]
  mask_lt := hmask
  options := hoptions
  supplied := ⟨c.options.map fun k => .str k.text, by simp [Combination.toJson, Json.get, List.lookup_cons],
    (optionsMatch_iff _ _).mpr rfl⟩
  outcome s := by
    cases s <;> simp [Combination.toJson, stagesJson, combinationStageKeys, Stage.key, Json.get,
      List.lookup_cons]

/-- A full matrix in mask order is read back as it is. -/
theorem sanitizeCombinations_toJson {p : PathResult} (h : p.WellFormed) :
    sanitizeCombinations (.json (combinationsJson p.combinations)) p.path p.total =
      .ok p.combinations := by
  have hlen : p.combinations.length = p.total := by
    have := congrArg List.length h.masks
    rwa [List.length_map, List.length_range] at this
  refine sanitizeCombinations_eq_ok.mpr ⟨_, rfl, by rw [List.length_map, hlen], ?_⟩
  rcases h.size with hzero | hsize
  · exact .inl ⟨hzero, List.eq_nil_of_length_eq_zero (hlen.trans hzero)⟩
  · refine .inr ⟨hsize, p.combinations, ?_, by rw [h.masks]; exact List.nodup_range, ?_⟩
    · rw [List.forall₂_map_left_iff, List.forall₂_same]
      intro c hc
      have hle := h.total_le
      exact combinationOf_toJson (by omega) (h.mask_le c hc)
        ((h.options c hc).trans (expectedOptions_eq c.mask).symm)
    · have hsorted : (p.combinations.map Combination.mask).Pairwise (· ≤ ·) := by
        rw [h.masks]
        exact (List.pairwise_lt_range (n := p.total)).imp fun hlt => hlt.le
      exact ((List.pairwise_map.mp hsorted).insertionSort_eq).symm

/-! ### Paths -/

/-- The entry of a path says what the record says. -/
structure EntryOf (item : Json) (p : PathResult) : Prop where
  path : item.get "path" = .json (.str p.path.text)
  total : item.get "total" = .json (.nat p.total)
  count : ∀ m : PathMetric, item.get m.key = .json (.nat (p.count m))
  effects : item.get "effects" = .json (.arr (p.effects.map Effect.toJson))
  combinations : item.get "combinations" = .json (combinationsJson p.combinations)

theorem EntryOf.pathOf {capabilities : Capabilities} {item : Json} {p : PathResult}
    (he : EntryOf item p) (h : p.WellFormed)
    (hsignal : p.signal = optionSignal p.total (p.count (.stage .ready)) p.effects capabilities) :
    PathOf capabilities item p where
  total := by
    have hle := h.total_le
    rw [he.total, asCount_nat (by omega)]
  count m := by
    have hle := h.total_le
    have hcount := h.count_le m
    exact ⟨by rw [he.count m, asCount_nat (by omega)], hcount⟩
  effects := by rw [he.effects, sanitizeEffects_toJson p.path h.effectKeys h.effects]
  combinations := by rw [he.combinations, sanitizeCombinations_toJson h]
  passed s := (h.passed s).symm
  unavailable := h.unavailable.symm
  signal := hsignal

theorem mapSet_fresh {key : Value} (item : Json) : ∀ {m : List (Value × Json)},
    (∀ e ∈ m, e.1.same key = false) → mapSet key item m = m ++ [(key, item)]
  | [], _ => rfl
  | e :: m, h => by
    rw [mapSet, h e (by simp), if_neg (by simp), mapSet_fresh item fun e' he => h e' (by simp [he]),
      List.cons_append]

theorem isStr_path (p q : ResultPath) :
    (Value.json (.str p.text)).isStr q.text = decide (p = q) := by
  cases p <;> cases q <;> rfl

/-- Entries of different paths all stay in the map. -/
theorem suppliedPaths_from {items : List Json} {ps : List PathResult} (h : List.Forall₂ EntryOf items ps)
    (hnd : (ps.map PathResult.path).Nodup) (m : List (Value × Json))
    (hm : ∀ e ∈ m, ∀ p ∈ ps, e.1.isStr p.path.text = false) :
    items.foldl (fun m item => mapSet ((Value.json item).optional "path") item m) m =
      m ++ (ps.zip items).map fun e => (.json (.str e.1.path.text), e.2) := by
  induction h generalizing m with
  | nil => simp
  | @cons item p items ps he _ ih =>
    rw [List.map_cons, List.nodup_cons] at hnd
    have hfresh : mapSet ((Value.json item).optional "path") item m =
        m ++ [(.json (.str p.path.text), item)] := by
      rw [Value.optional_json, he.path]
      exact mapSet_fresh item fun e hem => hm e hem p (by simp)
    rw [List.foldl_cons, hfresh, ih hnd.2, List.zip_cons_cons, List.map_cons, List.append_assoc,
      List.singleton_append]
    intro e hem q hq
    rcases List.mem_append.mp hem with hem | hem
    · exact hm e hem q (by simp [hq])
    · rw [List.mem_singleton.mp hem, isStr_path, decide_eq_false_iff_not]
      exact fun heq => hnd.1 (List.mem_map.mpr ⟨q, hq, heq.symm⟩)

theorem suppliedPaths_eq {items : List Json} {ps : List PathResult} (h : List.Forall₂ EntryOf items ps)
    (hnd : (ps.map PathResult.path).Nodup) : suppliedPaths items =
      (ps.zip items).map fun e => (.json (.str e.1.path.text), e.2) :=
  suppliedPaths_from h hnd [] fun _ he => by cases he

theorem EntryOf.truthy {item : Json} {p : PathResult} (h : EntryOf item p) : item.truthy = true := by
  have hpath := h.path
  cases item <;> first | rfl | simp [Json.get, Json.inherited] at hpath

theorem find_entry {items : List Json} {ps : List PathResult} (h : List.Forall₂ EntryOf items ps)
    (hnd : (ps.map PathResult.path).Nodup) {p : PathResult} (hp : p ∈ ps) :
    ∃ item, ((ps.zip items).map fun e => (Value.json (.str e.1.path.text), e.2)).find?
      (fun e => e.1.isStr p.path.text) = some (.json (.str p.path.text), item) ∧ EntryOf item p := by
  induction h with
  | nil => cases hp
  | @cons item q items ps he _ ih =>
    rw [List.map_cons, List.nodup_cons] at hnd
    rw [List.zip_cons_cons, List.map_cons, List.find?_cons]
    rcases List.mem_cons.mp hp with rfl | hp
    · exact ⟨item, by rw [isStr_path, decide_eq_true rfl], he⟩
    · have hne : q.path ≠ p.path := fun heq => hnd.1 (List.mem_map.mpr ⟨p, hp, heq.symm⟩)
      rw [isStr_path, decide_eq_false hne]
      exact ih hnd.2 hp

theorem findPath_entry {items : List Json} {ps : List PathResult} (h : List.Forall₂ EntryOf items ps)
    (hnd : (ps.map PathResult.path).Nodup) {p : PathResult} (hp : p ∈ ps) :
    ∃ item, findPath (suppliedPaths items) p.path = some item ∧ EntryOf item p := by
  obtain ⟨item, hfind, he⟩ := find_entry h hnd hp
  refine ⟨item, ?_, he⟩
  rw [findPath, suppliedPaths_eq h hnd, hfind, Option.map_some, Option.filter_some, he.truthy, if_pos rfl]

/-! ### The whole submission -/

/-- The submission says what the snapshot says. -/
structure Submits (input : Json) (requireGrease : Bool) (s : Snapshot) : Prop where
  schema : input.get "schemaVersion" = .json (.nat 1)
  browser : normalizeBrowser (input.get "browser") = .ok s.browser
  capabilities : input.get "capabilities" = .json s.capabilities.toJson
  run : input.get "run" = .json s.run.toJson
  metrics : input.get "metrics" = .json (metricsJson s.metrics)
  paths : ∃ items, input.get "paths" = .json (.arr items) ∧ List.Forall₂ EntryOf items s.paths
  grease : sanitizeGrease (input.get "grease") s.capabilities = .ok s.grease
  required : requireGrease = true → s.grease ≠ none

/-- It is accepted, and stored as that snapshot. -/
theorem Submits.accepted {input : Json} {requireGrease : Bool} {s : Snapshot}
    (hs : Submits input requireGrease s) (h : s.WellFormed) :
    sanitizeSubmission input s.receivedAt requireGrease = .ok s := by
  have hplanned := h.planned_le
  have hcompleted := h.completed_le
  refine sanitizeSubmission_eq_ok.mpr ⟨rfl, ?_⟩
  refine {
    schema := by rw [Value.optional_json, hs.schema]; rfl
    browser := hs.browser
    secureContext := by simp [hs.capabilities]
    webTransport := by simp [hs.capabilities]
    run := ?_
    metrics := fun m => ?_
    paths := ?_
    grease := hs.grease
    required := hs.required
    conclusion := h.conclusion }
  · rw [Value.optional_json, hs.run]
    exact {
      mode := by simp [Run.toJson]
      cancelled := by simp [Run.toJson, Json.get, List.lookup_cons]
      planned := by rw [Value.optional_json, Run.get_plannedCases, asCount_nat hplanned]
      completed := by
        have hget : s.run.toJson.get "completedCases" = .json (.nat s.run.completedCases) := by
          simp [Run.toJson, Json.get, List.lookup_cons]
        rw [Value.optional_json, hget, asCount_nat (by omega)]
      planned_pos := h.planned_pos
      complete := h.complete
      empty := h.empty }
  · have hle := h.metrics_le m
    exact ⟨by rw [Value.optional_json, hs.metrics, Value.optional_json, metricsJson_get,
      asCount_nat (by omega)], hle⟩
  · obtain ⟨items, hitems, hall⟩ := hs.paths
    have hnd : (s.paths.map PathResult.path).Nodup := by rw [h.order]; decide
    have hlen : s.paths.length = 8 := by
      have := congrArg List.length h.order
      rwa [List.length_map] at this
    refine sanitizePaths_eq_ok.mpr ⟨items, hitems, hall.length_eq.trans hlen, ?_, ?_, h.totals⟩
    · rw [suppliedPaths_eq hall hnd, List.length_map, List.length_zip, hall.length_eq, hlen, Nat.min_self]
    · rw [← h.order, List.forall₂_map_left_iff, List.forall₂_same]
      intro p hp
      obtain ⟨item, hfind, he⟩ := findPath_entry hall hnd hp
      exact ⟨rfl, item, hfind, he.pathOf (h.path p hp) (h.signal p hp)⟩

end WebTransportEcho.Store
