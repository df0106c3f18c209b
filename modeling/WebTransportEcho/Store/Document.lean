import WebTransportEcho.Store.WellFormed
import WebTransportEcho.Js.RoundTrip

/-! The documents of the records. A stored record is read back by property name (`get_…`), survives
    `JSON.stringify` and `JSON.parse` when it is well-formed (`…_plain`), and is determined by its
    document (`…_injective`). -/

namespace WebTransportEcho.Store
open Js

/-! ### Properties -/

theorem Stage.key_injective : Function.Injective Stage.key := by
  intro a b h; revert h; cases a <;> cases b <;> decide

theorem PathMetric.key_injective : Function.Injective PathMetric.key := by
  have hnd : ((pathMetrics.map Prod.fst).map PathMetric.key).Nodup := by decide
  exact fun a b => List.inj_on_of_nodup_map hnd (mem_pathMetrics a) (mem_pathMetrics b)

theorem Metric.key_injective : Function.Injective Metric.key := by
  have hnd : ((metrics.map Prod.fst).map Metric.key).Nodup := by decide
  exact fun a b => List.inj_on_of_nodup_map hnd (mem_metrics a) (mem_metrics b)

/-- A record filled key by key reads back what was put in. -/
theorem lookup_keys {κ : Type} {key : κ → String} (hkey : Function.Injective key)
    (value : κ → Json) : ∀ {ks : List κ} {k : κ}, k ∈ ks →
    (ks.map fun k => (key k, value k)).lookup (key k) = some (value k)
  | j :: ks, k, hk => by
    rw [List.map_cons, List.lookup_cons]
    by_cases hj : key k = key j
    · rw [hj, beq_self_eq_true, hkey hj]
    · rw [beq_false_of_ne hj]
      exact lookup_keys hkey value (List.mem_of_ne_of_mem (fun h => hj (congrArg key h)) hk)

theorem metricsJson_get (m : Metric → Nat) (k : Metric) :
    (metricsJson m).get k.key = .json (.nat (m k)) := by
  have h := lookup_keys Metric.key_injective (fun k => .nat (m k)) (mem_metrics k)
  rw [List.map_map] at h
  rw [metricsJson, Json.get]
  simp only [Function.comp_def] at h
  rw [h]

theorem probeJson_get (p : Probe) (s : Stage) : (probeJson p).get s.key = .json (.str (p s).text) := by
  cases s <;> simp [probeJson, stagesJson, greaseProbeKeys, Stage.key, Json.get, List.lookup_cons]

section

variable (s : Snapshot) (p : PathResult) (b : Browser) (c : Capabilities) (r : Run) (g : Grease)

@[simp] theorem Snapshot.get_browser : s.toJson.get "browser" = .json s.browser.toJson := by
  simp [toJson, fields, Json.get, List.lookup_cons]

@[simp] theorem Snapshot.get_capabilities :
    s.toJson.get "capabilities" = .json s.capabilities.toJson := by
  simp [toJson, fields, Json.get, List.lookup_cons]

@[simp] theorem Snapshot.get_run : s.toJson.get "run" = .json s.run.toJson := by
  simp [toJson, fields, Json.get, List.lookup_cons]

@[simp] theorem Snapshot.get_metrics : s.toJson.get "metrics" = .json (metricsJson s.metrics) := by
  simp [toJson, fields, Json.get, List.lookup_cons]

@[simp] theorem Snapshot.get_paths :
    s.toJson.get "paths" = .json (.arr (s.paths.map PathResult.toJson)) := by
  simp [toJson, fields, Json.get, List.lookup_cons]

@[simp] theorem Snapshot.get_grease :
    s.toJson.get "grease" = .json (s.grease.elim .null Grease.toJson) := by
  simp [toJson, fields, Json.get, List.lookup_cons]

@[simp] theorem Browser.get_key : b.toJson.get "key" = .json (.str b.family.key) := by
  simp [toJson, Json.get]

@[simp] theorem Browser.get_name : b.toJson.get "name" = .json (.str b.family.name) := by
  simp [toJson, Json.get, List.lookup_cons]

@[simp] theorem Browser.get_version :
    b.toJson.get "version" = .json (b.version.elim .null .str) := by
  simp [toJson, Json.get, List.lookup_cons]

@[simp] theorem Capabilities.get_secureContext :
    c.toJson.get "secureContext" = .json (.bool c.secureContext) := by
  simp [toJson, Json.get]

@[simp] theorem Capabilities.get_webTransport :
    c.toJson.get "webTransport" = .json (.bool c.webTransport) := by
  simp [toJson, Json.get, List.lookup_cons]

@[simp] theorem Run.get_plannedCases :
    r.toJson.get "plannedCases" = .json (.nat r.plannedCases) := by
  simp [toJson, Json.get, List.lookup_cons]

@[simp] theorem PathResult.get_path : p.toJson.get "path" = .json (.str p.path.text) := by
  simp [toJson, Json.get]

@[simp] theorem PathResult.get_total : p.toJson.get "total" = .json (.nat p.total) := by
  simp [toJson, Json.get, List.lookup_cons]

@[simp] theorem PathResult.get_count (m : PathMetric) :
    p.toJson.get m.key = .json (.nat (p.count m)) := by
  rcases m with s | _
  · cases s <;> simp [toJson, Json.get, List.lookup_cons, pathMetrics, PathMetric.key, Stage.key]
  · simp [toJson, Json.get, List.lookup_cons, pathMetrics, PathMetric.key, Stage.key]

@[simp] theorem PathResult.get_signal : p.toJson.get "signal" = .json (.str p.signal) := by
  simp [toJson, Json.get, List.lookup_cons, pathMetrics, PathMetric.key, Stage.key]

@[simp] theorem PathResult.get_combinations :
    p.toJson.get "combinations" = .json (combinationsJson p.combinations) := by
  simp [toJson, Json.get, List.lookup_cons, pathMetrics, PathMetric.key, Stage.key]

@[simp] theorem Grease.get_verdict : g.toJson.get "verdict" = .json (.str g.verdict.text) := by
  simp [toJson, Json.get, List.lookup_cons]

end

/-! ### Documents that survive their text -/

theorem plain_nat {n : Nat} (h : n ≤ 4096) : (Json.nat n).Plain := by
  simp only [Json.Plain, Num.maxSafe]
  omega

theorem plain_arr {js : List Json} : (Json.arr js).Plain ↔ ∀ j ∈ js, j.Plain := plainItems_iff js

theorem plain_obj {fs : List (String × Json)} :
    (Json.obj fs).Plain ↔ (fs.map Prod.fst).Nodup ∧ ∀ f ∈ fs, f.2.Plain := by
  rw [Json.Plain, plainFields_iff]

theorem browser_plain (b : Browser) : b.toJson.Plain := by
  refine plain_obj.mpr ⟨by simp, ?_⟩
  cases b.version <;> simp [Json.Plain]

theorem capabilities_plain (c : Capabilities) : c.toJson.Plain := by
  refine plain_obj.mpr ⟨by simp, ?_⟩
  simp [Json.Plain]

theorem run_plain {r : Run} (hp : r.plannedCases ≤ 4096) (hc : r.completedCases ≤ 4096) :
    r.toJson.Plain := by
  refine plain_obj.mpr ⟨by simp, ?_⟩
  simp only [List.forall_mem_cons]
  exact ⟨trivial, plain_nat hp, plain_nat hc, trivial, by simp⟩

theorem metrics_plain {m : Metric → Nat} (h : ∀ k, m k ≤ 4096) : (metricsJson m).Plain := by
  have hnd : (metrics.map fun e => e.1.key).Nodup := by decide
  refine plain_obj.mpr ⟨by rw [List.map_map]; exact hnd, fun f hf => ?_⟩
  obtain ⟨e, -, rfl⟩ := List.mem_map.mp hf
  exact plain_nat (h e.1)

theorem ratio_plain {r : Ratio} (h : r.WellFormed) : r.toJson.Plain := by
  refine plain_obj.mpr ⟨by simp, ?_⟩
  simp only [List.forall_mem_cons]
  exact ⟨plain_nat (h.ready_le.trans h.total_le), plain_nat h.total_le, by simp⟩

theorem effect_plain {e : Effect} (h : e.WellFormed) : e.toJson.Plain := by
  refine plain_obj.mpr ⟨by simp, ?_⟩
  simp only [List.forall_mem_cons]
  exact ⟨trivial, ratio_plain h.withOption, ratio_plain h.withoutOption, by simp⟩

theorem stages_plain (keys : List Stage) (outcome : Stage → Outcome) :
    ∀ f ∈ stagesJson keys outcome, f.2.Plain := by
  intro f hf
  obtain ⟨s, -, rfl⟩ := List.mem_map.mp hf
  trivial

theorem combination_plain {c : Combination} (h : c.mask ≤ 4096) : c.toJson.Plain := by
  refine plain_obj.mpr ⟨by simp [stagesJson, combinationStageKeys, Stage.key], ?_⟩
  simp only [List.forall_mem_cons]
  refine ⟨plain_nat h, plain_arr.mpr fun j hj => ?_, stages_plain _ _⟩
  obtain ⟨k, -, rfl⟩ := List.mem_map.mp hj
  trivial

theorem probe_plain (p : Probe) : (probeJson p).Plain :=
  plain_obj.mpr ⟨by simp [stagesJson, greaseProbeKeys, Stage.key], stages_plain _ _⟩

theorem grease_plain (g : Grease) : g.toJson.Plain := by
  refine plain_obj.mpr ⟨by simp, ?_⟩
  simp only [List.forall_mem_cons]
  exact ⟨probe_plain _, probe_plain _, trivial, by simp⟩

theorem PathResult.WellFormed.mask_le {p : PathResult} (h : p.WellFormed) :
    ∀ c ∈ p.combinations, c.mask < p.total := by
  intro c hc
  have hmem : c.mask ∈ p.combinations.map Combination.mask := List.mem_map_of_mem hc
  rwa [h.masks, List.mem_range] at hmem

theorem PathResult.WellFormed.total_le {p : PathResult} (h : p.WellFormed) : p.total ≤ 32 := by
  rcases h.size with h | h | h <;> omega

theorem combinations_plain {p : PathResult} (h : p.WellFormed) :
    (combinationsJson p.combinations).Plain := by
  refine plain_arr.mpr fun j hj => ?_
  obtain ⟨c, hc, rfl⟩ := List.mem_map.mp hj
  have := h.mask_le c hc
  have := h.total_le
  exact combination_plain (by omega)

theorem path_plain {p : PathResult} (h : p.WellFormed) : p.toJson.Plain := by
  have hle := h.total_le
  refine plain_obj.mpr ⟨by simp [pathMetrics, PathMetric.key, Stage.key], ?_⟩
  simp only [List.cons_append, List.forall_mem_cons, List.forall_mem_append]
  refine ⟨trivial, plain_nat (by omega), fun f hf => ?_, plain_arr.mpr fun j hj => ?_,
    combinations_plain h, trivial, by simp⟩
  · obtain ⟨e, -, rfl⟩ := List.mem_map.mp hf
    have := h.count_le e.1
    exact plain_nat (by omega)
  · obtain ⟨e, he, rfl⟩ := List.mem_map.mp hj
    exact effect_plain (h.effects e he)

/-- A well-formed snapshot survives its text. -/
theorem snapshot_plain {s : Snapshot} (h : s.WellFormed) : s.toJson.Plain := by
  have hplanned := h.planned_le
  have hcompleted := h.completed_le
  refine plain_obj.mpr ⟨by simp [Snapshot.fields], ?_⟩
  simp only [Snapshot.fields, List.forall_mem_cons]
  refine ⟨trivial, browser_plain _, capabilities_plain _, run_plain hplanned (by omega),
    metrics_plain fun k => ?_, trivial, plain_arr.mpr fun j hj => ?_, ?_, by simp⟩
  · have := h.metrics_le k
    omega
  · obtain ⟨p, hp, rfl⟩ := List.mem_map.mp hj
    exact path_plain (h.path p hp)
  · cases s.grease with
    | none => trivial
    | some g => exact grease_plain g

/-! ### A record is determined by its document -/

theorem stagesJson_injective {keys : List Stage} (hall : ∀ s, s ∈ keys) {o o' : Stage → Outcome}
    (h : stagesJson keys o = stagesJson keys o') : o = o' := by
  funext s
  have hs := List.map_inj_left.mp h s (hall s)
  simp only [Prod.mk.injEq, Json.str.injEq, true_and] at hs
  exact Outcome.text_injective hs

theorem combination_injective : Function.Injective Combination.toJson := by
  rintro ⟨m, os, o⟩ ⟨m', os', o'⟩ h
  simp only [Combination.toJson, Json.obj.injEq, List.cons.injEq, Prod.mk.injEq, true_and,
    Json.num.injEq, Num.int.injEq, Int.natCast_inj, Json.arr.injEq] at h
  obtain ⟨rfl, hos, ho⟩ := h
  have htext : Function.Injective fun k : OptionKey => Json.str k.text := fun a b hab =>
    OptionKey.text_injective (Json.str.inj hab)
  rw [htext.list_map hos, stagesJson_injective mem_combinationStageKeys ho]

theorem combinationsJson_injective : Function.Injective combinationsJson := fun _ _ h =>
  combination_injective.list_map (Json.arr.inj h)

theorem probeJson_injective : Function.Injective probeJson := fun _ _ h =>
  stagesJson_injective mem_greaseProbeKeys (Json.obj.inj h)

theorem grease_injective : Function.Injective Grease.toJson := by
  rintro ⟨c, e, v⟩ ⟨c', e', v'⟩ h
  simp only [Grease.toJson, Json.obj.injEq, List.cons.injEq, Prod.mk.injEq, true_and,
    Json.str.injEq, and_true] at h
  rw [probeJson_injective h.1, probeJson_injective h.2.1, Verdict.text_injective h.2.2]

end WebTransportEcho.Store
