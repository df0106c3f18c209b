import Mathlib.Data.List.Induction
import WebTransportEcho.Js.Returns
import WebTransportEcho.Store.Reading
import WebTransportEcho.Store.Record

/-! Which stored documents a new snapshot can be compared with. `diffSnapshots` reads parts of the
    previous document and puts the values that differ into texts. It throws where a part is missing,
    where the paths are no list of entries, or where a value has no text. Since a value without a
    text differs from every other, this does not depend on the new snapshot. -/

namespace WebTransportEcho.Store
open Js

/-! ### What a comparison reads of the stored document -/

/-- The last entry of a path. -/
def lastEntry (items : List Json) (path : ResultPath) : Option Json :=
  items.reverse.find? fun item => (item.get "path").isStr path.text

/-- What is read of an entry for a path has a text. -/
structure EntryComparable (item : Json) : Prop where
  total : (item.get "total").Textable
  count : ∀ m : PathMetric, (item.get m.key).Textable

/-- What `diffSnapshots` reads of the previous document is there and has a text. -/
structure Comparable (previous : Json) : Prop where
  browser : (previous.get "browser").isNullish = false
  version : ((previous.get "browser").optional "version").Textable
  capabilities : (previous.get "capabilities").isNullish = false
  secureContext : ((previous.get "capabilities").optional "secureContext").Textable
  run : (previous.get "run").isNullish = false
  planned : ((previous.get "run").optional "plannedCases").Textable
  metrics : (previous.get "metrics").isNullish = false
  metric : ∀ m : Metric, ((previous.get "metrics").optional m.key).Textable
  verdict : ((previous.get "grease").optional "verdict").Textable
  paths : ∃ items, previous.get "paths" = .json (.arr items) ∧
    (∀ item ∈ items, (Value.json item).isNullish = false) ∧
    ∀ path item, lastEntry items path = some item → EntryComparable item

theorem returns_display {v : Value} : Returns (display v) ↔ v.Textable := by
  unfold display
  cases hv : v.isNullish with
  | false => rw [if_neg Bool.false_ne_true]; rfl
  | true =>
    rw [if_pos rfl]
    refine iff_of_true (returns_ok _) ?_
    cases v with
    | undefined => exact returns_ok _
    | native => cases hv
    | json j =>
      cases j with
      | null => exact returns_ok _
      | bool | num | str | arr | obj => cases hv

theorem returns_pushWhen {differs : Bool} {text : Except Error String} :
    Returns (pushWhen differs text) ↔ (differs = true → Returns text) := by
  cases differs with
  | false => exact iff_of_true (returns_ok _) (fun h => by cases h)
  | true =>
    rw [pushWhen, if_pos rfl, returns_bind_of_forall fun _ => returns_ok _]
    exact ⟨fun h _ => h, fun h => h rfl⟩

/-- A difference is noted without a throw exactly when the old value has a text: a value without one is
    different from every other. -/
theorem returns_note {old new : Value} {text : Except Error String}
    (htext : Returns text ↔ old.Textable) :
    Returns (pushWhen (!old.same new) text) ↔ old.Textable := by
  rw [returns_pushWhen, htext]
  refine ⟨fun h => ?_, fun h _ => h⟩
  cases hsame : old.same new with
  | false => exact h (by rw [hsame]; rfl)
  | true => exact (Value.textable_of_same hsame).1

section Difference

variable {j : Json} (hj : (Value.json j).isNullish = false) (s : Snapshot)

include hj

/-- A property of a part of both documents is read and compared. -/
theorem returns_field {part key : String} {current new : Value}
    {compare : Value → Value → Except Error (List String)}
    (hnew : (current.dot part >>= fun v => v.dot key) = .ok new) :
    Returns (do
      let old ← (← (Value.json j).dot part).dot key
      let new ← (← current.dot part).dot key
      compare old new) ↔
      (j.get part).isNullish = false ∧ Returns (compare ((j.get part).optional key) new) := by
  obtain ⟨v, hv, hkey⟩ := bind_eq_ok.mp hnew
  rw [Value.dot_of_not_nullish hj, ok_bind, Value.optional_json, returns_bind]
  simp only [hv, ok_bind, hkey, Value.dot_eq_ok]
  refine ⟨?_, fun h => ⟨_, ⟨h.1, rfl⟩, h.2⟩⟩
  rintro ⟨old, ⟨hpart, rfl⟩, hcompare⟩
  exact ⟨hpart, hcompare⟩

theorem returns_version : Returns (versionDifference (.json j) (.json s.toJson)) ↔
    (j.get "browser").isNullish = false ∧ ((j.get "browser").optional "version").Textable := by
  have hnew : ((Value.json s.toJson).dot "browser" >>= fun v => v.dot "version") =
      .ok (.json (s.browser.version.elim .null .str)) := by
    rw [snapshot_dot, ok_bind, Snapshot.get_browser, browser_dot, Browser.get_version]
  refine (returns_field hj hnew).trans (and_congr_right fun _ => returns_note ?_)
  rw [display_version]
  exact (returns_bind_of_forall fun _ => returns_ok _).trans returns_display

theorem returns_secureContext : Returns (secureContextDifference (.json j) (.json s.toJson)) ↔
    (j.get "capabilities").isNullish = false ∧
      ((j.get "capabilities").optional "secureContext").Textable := by
  have hnew : ((Value.json s.toJson).dot "capabilities" >>= fun v => v.dot "secureContext") =
      .ok (.json (.bool s.capabilities.secureContext)) := by
    rw [snapshot_dot, ok_bind, Snapshot.get_capabilities, capabilities_dot,
      Capabilities.get_secureContext]
  exact (returns_field hj hnew).trans (and_congr_right fun _ =>
    returns_note (returns_bind_of_forall fun _ => returns_ok _))

theorem returns_webTransport : Returns (webTransportDifference (.json j) (.json s.toJson)) ↔
    (j.get "capabilities").isNullish = false := by
  have hnew : ((Value.json s.toJson).dot "capabilities" >>= fun v => v.dot "webTransport") =
      .ok (.json (.bool s.capabilities.webTransport)) := by
    rw [snapshot_dot, ok_bind, Snapshot.get_capabilities, capabilities_dot,
      Capabilities.get_webTransport]
  refine (returns_field hj hnew).trans (and_iff_left ?_)
  exact returns_pushWhen.mpr fun _ => returns_ok _

theorem returns_planned : Returns (plannedDifference (.json j) (.json s.toJson)) ↔
    (j.get "run").isNullish = false ∧ ((j.get "run").optional "plannedCases").Textable := by
  have hnew : ((Value.json s.toJson).dot "run" >>= fun v => v.dot "plannedCases") =
      .ok (.json (.nat s.run.plannedCases)) := by
    rw [snapshot_dot, ok_bind, Snapshot.get_run, run_dot, Run.get_plannedCases]
  exact (returns_field hj hnew).trans (and_congr_right fun _ =>
    returns_note (returns_bind_of_forall fun _ => returns_ok _))

theorem returns_metric (m : Metric × String) :
    Returns (metricDifference (.json j) (.json s.toJson) m) ↔
      (j.get "metrics").isNullish = false ∧ ((j.get "metrics").optional m.1.key).Textable := by
  have hnew : ((Value.json s.toJson).dot "metrics" >>= fun v => v.dot m.1.key) =
      .ok (.json (.nat (s.metrics m.1))) := by
    rw [snapshot_dot, ok_bind, Snapshot.get_metrics, metrics_dot, metricsJson_get]
  exact (returns_field hj hnew).trans (and_congr_right fun _ =>
    returns_note (returns_bind_of_forall fun _ => returns_ok _))

theorem returns_grease : Returns (greaseDifference (.json j) (.json s.toJson)) ↔
    ((j.get "grease").optional "verdict").Textable := by
  have hnew : Returns (display ((s.toJson.get "grease").optional "verdict")) := by
    rw [Snapshot.get_grease]
    cases s.grease with
    | none => exact returns_ok _
    | some g =>
      rw [Option.elim_some, Value.optional_json, Grease.get_verdict]
      exact returns_ok _
  obtain ⟨after, hafter⟩ := hnew
  rw [greaseDifference, Value.dot_of_not_nullish hj, snapshot_dot, ok_bind, ok_bind,
    Value.optional_json, hafter]
  split_ifs with hsame
  · refine iff_of_true (returns_pushWhen.mpr fun _ => returns_ok _) ?_
    exact (Value.textable_of_same hsame).1
  · rw [returns_pushWhen, forall_prop_of_true rfl]
    exact (returns_bind_of_forall fun _ => returns_ok _).trans returns_display

end Difference

/-! ### Its paths -/

theorem returns_count (old : Json) (p : PathResult) (m : PathMetric × String) :
    Returns (countDifference old p.toJson m) ↔
      (old.get m.1.key).Textable ∧ (old.get "total").Textable := by
  rw [countDifference, returns_pushWhen, PathResult.get_count, PathResult.get_total]
  have htexts : Returns (do
      let before ← (old.get m.1.key).toText
      let beforeTotal ← (old.get "total").toText
      let after ← (Value.json (.nat (p.count m.1))).toText
      let afterTotal ← (Value.json (.nat p.total)).toText
      .ok s!"{m.2} {before}/{beforeTotal} -> {after}/{afterTotal}" : Except Error String) ↔
      (old.get m.1.key).Textable ∧ (old.get "total").Textable := by
    rw [returns_bind]
    constructor
    · rintro ⟨before, hbefore, hrest⟩
      exact ⟨⟨before, hbefore⟩, (returns_bind_of_forall fun _ => returns_ok _).mp hrest⟩
    · rintro ⟨⟨before, hbefore⟩, htotal⟩
      exact ⟨before, hbefore, (returns_bind_of_forall fun _ => returns_ok _).mpr htotal⟩
  rw [htexts]
  refine ⟨fun h => ?_, fun h _ => h⟩
  cases hcount : (old.get m.1.key).same (.json (.nat (p.count m.1))) with
  | false => exact h (by rw [hcount]; rfl)
  | true =>
    cases htotal : (old.get "total").same (.json (.nat p.total)) with
    | false => exact h (by rw [htotal, hcount]; rfl)
    | true => exact ⟨(Value.textable_of_same hcount).1, (Value.textable_of_same htotal).1⟩

theorem returns_pathDifferences (old : Json) (p : PathResult) :
    Returns (pathDifferences old p.toJson) ↔ EntryComparable old := by
  have hrest (counts : List (List String)) : Returns (do
      let signal ← pushWhen (!(old.get "signal").same (p.toJson.get "signal"))
        (.ok "option signal changed")
      let matrix ← pushWhen (stringifyValue (orEmpty (old.get "combinations")) !=
          stringifyValue (orEmpty (p.toJson.get "combinations")))
        (.ok (if (old.get "combinations").truthy then "option matrix changed"
          else "option matrix added"))
      .ok (counts.flatten ++ signal ++ matrix) : Except Error (List String)) := by
    obtain ⟨signal, hsignal⟩ := returns_pushWhen.mpr fun _ : _ = true =>
      returns_ok "option signal changed"
    rw [hsignal]
    exact (returns_bind_of_forall fun _ => returns_ok _).mpr
      (returns_pushWhen.mpr fun _ => returns_ok _)
  rw [pathDifferences, returns_bind_of_forall hrest, returns_mapM]
  simp only [returns_count]
  refine ⟨fun h => ⟨?_, fun m => ?_⟩, fun h m _ => ⟨h.count m.1, h.total⟩⟩
  · obtain ⟨e, he, -⟩ := List.mem_map.mp (mem_pathMetrics .datagramUnavailable)
    exact (h e he).2
  · obtain ⟨e, he, rfl⟩ := List.mem_map.mp (mem_pathMetrics m)
    exact (h e he).1

theorem returns_pathDifference (m : List (Value × Json)) (p : PathResult) :
    Returns (pathDifference m p.toJson) ↔
      ∀ old, mapGet m (.json (.str p.path.text)) = some old → EntryComparable old := by
  have hkey : (Value.json p.toJson).dot "path" = .ok (.json (.str p.path.text)) := by
    rw [path_dot, PathResult.get_path]
  rw [pathDifference, hkey, ok_bind]
  cases hget : mapGet m (.json (.str p.path.text)) with
  | none => exact iff_of_true (returns_pushWhen.mpr fun _ => returns_ok _) (fun _ h => by cases h)
  | some old =>
    refine (returns_bind_of_forall fun _ => returns_pushWhen.mpr fun _ => returns_ok _).trans ?_
    rw [returns_pathDifferences]
    exact ⟨fun h _ hold => Option.some.inj hold ▸ h, fun h => h old rfl⟩

/-- The map of the entries by path. -/
def entryMap (items : List Json) : List (Value × Json) :=
  items.foldl (fun m item => mapSet (item.get "path") item m) []

theorem pathMap_arr {items : List Json} {m : List (Value × Json)} :
    pathMap (.json (.arr items)) = .ok m ↔
      (∀ item ∈ items, (Value.json item).isNullish = false) ∧ m = entryMap items := by
  have hmap : ((items.map fun item => item.get "path").zip items).foldl
      (fun m e => mapSet e.1 e.2 m) [] = entryMap items := by
    rw [entryMap, ← List.map_id items, List.map_map, List.zip_map', List.foldl_map, List.foldl_map]
    rfl
  rw [pathMap, bind_eq_ok]
  constructor
  · rintro ⟨keys, hkeys, hm⟩
    have hitems : ∀ item ∈ items, (Value.json item).isNullish = false := fun item hitem => by
      obtain ⟨key, hkey⟩ := returns_mapM.mp ⟨keys, hkeys⟩ item hitem
      exact (Value.dot_eq_ok.mp hkey).1
    rw [mapM_ok fun item hitem => Value.dot_of_not_nullish (hitems item hitem) "path"] at hkeys
    cases hkeys
    exact ⟨hitems, (Except.ok.inj hm).symm.trans hmap⟩
  · rintro ⟨hitems, hm⟩
    have hkeys := mapM_ok fun item hitem => Value.dot_of_not_nullish (hitems item hitem) "path"
    exact ⟨items.map fun item => item.get "path", hkeys, by rw [hmap, hm]⟩

theorem pathMap_eq_ok {paths : Value} {m : List (Value × Json)} : pathMap paths = .ok m ↔
    ∃ items, paths = .json (.arr items) ∧ (∀ item ∈ items, (Value.json item).isNullish = false) ∧
      m = entryMap items := by
  refine ⟨fun h => ?_, ?_⟩
  · cases paths with
    | undefined | native => cases h
    | json j =>
      cases j with
      | arr items => exact ⟨items, rfl, pathMap_arr.mp h⟩
      | null | bool | num | str | obj => cases h
  · rintro ⟨items, rfl, h⟩
    exact pathMap_arr.mpr h

theorem isStr_of_same {v w : Value} (h : v.same w = true) (t : String) : v.isStr t = w.isStr t := by
  cases v with
  | undefined | native => cases w <;> first | rfl | cases h
  | json j =>
    cases w with
    | undefined | native => cases j <;> cases h
    | json k =>
      cases j <;> cases k <;> first
        | rfl
        | cases h
        | rw [of_decide_eq_true h]

/-- A string is looked up as it was last set. -/
theorem find_mapSet (key : Value) (item : Json) (t : String) : ∀ m : List (Value × Json),
    ((mapSet key item m).find? fun e => e.1.isStr t).map Prod.snd =
      if key.isStr t then some item else (m.find? fun e => e.1.isStr t).map Prod.snd
  | [] => by
    rw [mapSet, List.find?_cons]
    cases key.isStr t <;> rfl
  | e :: m => by
    rw [mapSet, List.find?_cons]
    cases hsame : e.1.same key with
    | true =>
      rw [if_pos rfl, List.find?_cons, isStr_of_same hsame t]
      cases key.isStr t <;> rfl
    | false =>
      rw [if_neg Bool.false_ne_true, List.find?_cons]
      cases he : e.1.isStr t with
      | true =>
        cases hkey : key.isStr t with
        | true =>
          rw [(Value.isStr_iff _ _).mp he, (Value.isStr_iff _ _).mp hkey] at hsame
          exact absurd hsame (by simp [Value.same])
        | false => rfl
      | false => exact find_mapSet key item t m

theorem lastEntry_snoc (items : List Json) (item : Json) (path : ResultPath) :
    lastEntry (items ++ [item]) path =
      if (item.get "path").isStr path.text then some item else lastEntry items path := by
  rw [lastEntry, List.reverse_concat', List.find?_cons]
  cases (item.get "path").isStr path.text <;> rfl

/-- The map has the last entry of each path. -/
theorem mapGet_entryMap (items : List Json) (path : ResultPath) :
    mapGet (entryMap items) (.json (.str path.text)) = lastEntry items path := by
  have hfind : ((entryMap items).find? fun e => e.1.isStr path.text).map Prod.snd =
      lastEntry items path := by
    induction items using List.reverseRecOn with
    | nil => rfl
    | append_singleton items item ih =>
      rw [entryMap, List.foldl_append, List.foldl_cons, List.foldl_nil, ← entryMap, find_mapSet, ih,
        lastEntry_snoc]
  refine (congrArg (Option.filter Json.truthy) hfind).trans ?_
  cases hlast : lastEntry items path with
  | none => rfl
  | some item =>
    rw [lastEntry] at hlast
    have hpath : item.get "path" = .json (.str path.text) := by
      simpa [Value.isStr_iff] using List.find?_some hlast
    have htruthy : item.truthy = true := by
      cases item <;> first | rfl | simp [Json.get, Json.inherited] at hpath
    rw [Option.filter_some, htruthy, if_pos rfl]

/-! ### The whole comparison -/

theorem returns_seq {α β : Type} {x : Except Error α} {f : α → Except Error β} {p : Prop}
    (hf : ∀ a, x = .ok a → (Returns (f a) ↔ p)) : Returns (x >>= f) ↔ Returns x ∧ p := by
  rw [returns_bind]
  exact ⟨fun ⟨a, ha, h⟩ => ⟨⟨a, ha⟩, (hf a ha).mp h⟩, fun ⟨⟨a, ha⟩, h⟩ => ⟨a, ha, (hf a ha).mpr h⟩⟩

theorem returns_paths {α : Type} {j : Json} (hj : (Value.json j).isNullish = false) {s : Snapshot}
    (hs : s.WellFormed) (g : List (List String) → α) :
    Returns (do
      let previousPaths ← pathMap (← (Value.json j).dot "paths")
      let paths ← (← iterate (← (Value.json s.toJson).dot "paths") "current.paths").mapM
        (pathDifference previousPaths)
      .ok (g paths) : Except Error α) ↔
      ∃ items, j.get "paths" = .json (.arr items) ∧
        (∀ item ∈ items, (Value.json item).isNullish = false) ∧
        ∀ path item, lastEntry items path = some item → EntryComparable item := by
  have hcurrent : (Value.json s.toJson).dot "paths" =
      .ok (.json (.arr (s.paths.map PathResult.toJson))) := by
    rw [snapshot_dot, Snapshot.get_paths]
  have hloop (items : List Json) : Returns ((s.paths.map PathResult.toJson).mapM
      (pathDifference (entryMap items))) ↔
      ∀ path item, lastEntry items path = some item → EntryComparable item := by
    rw [returns_mapM, List.forall_mem_map]
    simp only [returns_pathDifference, mapGet_entryMap]
    refine ⟨fun h path => ?_, fun h p _ => h p.path⟩
    have hmem : path ∈ s.paths.map PathResult.path := by
      rw [hs.order]
      exact mem_resultPaths path
    obtain ⟨p, hp, rfl⟩ := List.mem_map.mp hmem
    exact h p hp
  rw [Value.dot_of_not_nullish hj, ok_bind, Value.optional_json, returns_bind]
  simp only [pathMap_eq_ok, hcurrent, ok_bind, iterate]
  constructor
  · rintro ⟨m, ⟨items, hpaths, hitems, rfl⟩, hrest⟩
    rw [returns_bind_of_forall fun _ => returns_ok _, hloop] at hrest
    exact ⟨items, hpaths, hitems, hrest⟩
  · rintro ⟨items, hpaths, hitems, hentries⟩
    refine ⟨_, ⟨items, hpaths, hitems, rfl⟩, ?_⟩
    rw [returns_bind_of_forall fun _ => returns_ok _, hloop]
    exact hentries

theorem returns_allDifferences {j : Json} (hj : (Value.json j).isNullish = false) {s : Snapshot}
    (hs : s.WellFormed) :
    Returns (allDifferences (.json j) (.json s.toJson)) ↔ Comparable j := by
  have hparts : Returns (allDifferences (.json j) (.json s.toJson)) ↔
      Returns (versionDifference (.json j) (.json s.toJson)) ∧
      Returns (secureContextDifference (.json j) (.json s.toJson)) ∧
      Returns (webTransportDifference (.json j) (.json s.toJson)) ∧
      Returns (plannedDifference (.json j) (.json s.toJson)) ∧
      Returns (metrics.mapM (metricDifference (.json j) (.json s.toJson))) ∧
      Returns (greaseDifference (.json j) (.json s.toJson)) ∧
      ∃ items, j.get "paths" = .json (.arr items) ∧
        (∀ item ∈ items, (Value.json item).isNullish = false) ∧
        ∀ path item, lastEntry items path = some item → EntryComparable item :=
    returns_seq fun _ _ => returns_seq fun _ _ => returns_seq fun _ _ => returns_seq fun _ _ =>
      returns_seq fun _ _ => returns_seq fun _ _ => returns_paths hj hs _
  rw [hparts, returns_version hj, returns_secureContext hj, returns_webTransport hj,
    returns_planned hj, returns_mapM, returns_grease hj]
  simp only [returns_metric hj]
  refine ⟨fun h => ?_, fun h => ?_⟩
  · obtain ⟨⟨hbrowser, hversion⟩, ⟨hcapabilities, hsecure⟩, -, ⟨hrun, hplanned⟩, hmetrics, hverdict,
      hpaths⟩ := h
    have hmetric (m : Metric) : (j.get "metrics").isNullish = false ∧
        ((j.get "metrics").optional m.key).Textable := by
      obtain ⟨e, he, rfl⟩ := List.mem_map.mp (mem_metrics m)
      exact hmetrics e he
    exact {
      browser := hbrowser, version := hversion, capabilities := hcapabilities
      secureContext := hsecure, run := hrun, planned := hplanned
      metrics := (hmetric .fullEcho).1, metric := fun m => (hmetric m).2
      verdict := hverdict, paths := hpaths }
  · exact ⟨⟨h.browser, h.version⟩, ⟨h.capabilities, h.secureContext⟩, h.capabilities,
      ⟨h.run, h.planned⟩, fun m _ => ⟨h.metrics, h.metric m.1⟩, h.verdict, h.paths⟩

/-- Comparing a well-formed snapshot with a stored document returns exactly when the document is
    falsy, so that nothing is compared, or has what is read of it. -/
theorem returns_diffSnapshots (j : Json) {s : Snapshot} (hs : s.WellFormed) :
    Returns (diffSnapshots (.json j) (.json s.toJson)) ↔ (j.truthy = true → Comparable j) := by
  cases htruthy : j.truthy with
  | false =>
    have hnot : (!(Value.json j).truthy) = true := by rw [Value.truthy, htruthy]; rfl
    rw [diffSnapshots, if_pos hnot]
    exact iff_of_true (returns_ok _) fun h => by cases h
  | true =>
    have hnot : ¬ (!(Value.json j).truthy) = true := by rw [Value.truthy, htruthy]; decide
    rw [diffSnapshots, if_neg hnot, returns_bind_of_forall fun _ => returns_ok _,
      forall_prop_of_true rfl]
    exact returns_allDifferences (Value.isNullish_of_truthy htruthy) hs

end WebTransportEcho.Store
