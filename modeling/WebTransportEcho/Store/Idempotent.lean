import WebTransportEcho.Js.Zero
import WebTransportEcho.Store.Reordered

/-! A stored snapshot as a submission. What the sanitizers have made passes them again and is what they
    make of it: the family's name names the family, the digits of a version are the version's, and
    each derived text and verdict is derived again from what it was derived from. A count that was
    sent as `-0` and kept as such reads as `0`. -/

namespace WebTransportEcho.Store
open Js

/-! ### The sign of a zero -/

@[simp] theorem asCount_unsign (v : Value) : asCount v.unsign = asCount v := by
  cases v with
  | json j =>
    cases j with
    | num n => cases n <;> rfl
    | _ => rfl
  | _ => rfl

theorem normalizeBrowser_unsign (v : Value) : normalizeBrowser v.unsign = normalizeBrowser v := by
  have hversion (w : Value) : versionText w.unsign = versionText w := by
    rw [versionText, versionText, Value.isNullish_unsign]
    cases w with
    | json j => rw [Value.unsign, Value.toText, Value.toText, Json.toText_unsign]
    | _ => rfl
  simp only [normalizeBrowser, Value.optional_unsign, hversion]
  generalize v.optional "name" = name
  cases name with
  | json j => cases j <;> rfl
  | _ => rfl

theorem RunOf.of_unsign {capabilities : Capabilities} {v : Value} {r : Run}
    (h : RunOf capabilities v.unsign r) : RunOf capabilities v r where
  mode := by simpa using h.mode
  cancelled := by simpa using h.cancelled
  planned := by simpa using h.planned
  completed := by simpa using h.completed
  planned_pos := h.planned_pos
  complete := h.complete
  empty := h.empty

theorem EffectOf.of_unsign {item : Json} {e : Effect} (h : EffectOf item.unsign e) :
    EffectOf item e where
  key := by simpa using h.key
  withReady := by simpa using h.withReady
  withTotal := by simpa using h.withTotal
  with_le := h.with_le
  withoutReady := by simpa using h.withoutReady
  withoutTotal := by simpa using h.withoutTotal
  without_le := h.without_le

theorem sanitizeEffects_of_unsign {v : Value} {path : ResultPath} {es : List Effect}
    (h : sanitizeEffects v.unsign path = .ok es) : sanitizeEffects v path = .ok es := by
  refine sanitizeEffects_eq_ok.mpr ?_
  rcases sanitizeEffects_eq_ok.mp h with ⟨hv, hes⟩ | ⟨items, hitems, hlen, hall, hnd⟩
  · exact .inl ⟨by simpa using hv, hes⟩
  · obtain ⟨raw, hraw, rfl⟩ := Value.unsign_eq_arr.mp hitems
    rw [List.length_map] at hlen
    rw [List.forall₂_map_left_iff] at hall
    exact .inr ⟨raw, hraw, hlen, hall.imp fun _ _ h => h.of_unsign, hnd⟩

theorem CombinationOf.of_unsign {total : Nat} {item : Json} {c : Combination}
    (h : CombinationOf total item.unsign c) : CombinationOf total item c where
  mask := by simpa using h.mask
  mask_lt := h.mask_lt
  options := h.options
  supplied := by
    obtain ⟨os, hos, hmatch⟩ := h.supplied
    rw [Json.get_unsign] at hos
    obtain ⟨raw, hraw, rfl⟩ := Value.unsign_eq_arr.mp hos
    refine ⟨raw, hraw, ?_⟩
    rw [optionsMatch_iff] at hmatch ⊢
    -- a text is unchanged by `unsign`, and nothing else becomes one
    have htext : ∀ (js : List Json) (ks : List OptionKey),
        js.map Json.unsign = (ks.map fun k => Json.str k.text) → js = ks.map fun k => .str k.text := by
      intro js ks hjs
      induction js generalizing ks with
      | nil => cases ks <;> simp_all
      | cons j js ih =>
        cases ks with
        | nil => cases hjs
        | cons k ks =>
          rw [List.map_cons, List.map_cons, List.cons.injEq] at hjs
          have hj : Value.json j = .json (.str k.text) :=
            Value.unsign_eq_str.mp (congrArg Value.json hjs.1)
          rw [List.map_cons, ih ks hjs.2, Value.json.inj hj]
    exact htext raw c.options hmatch
  outcome s := by simpa using h.outcome s

theorem sanitizeCombinations_of_unsign {v : Value} {path : ResultPath} {total : Nat}
    {cs : List Combination} (h : sanitizeCombinations v.unsign path total = .ok cs) :
    sanitizeCombinations v path total = .ok cs := by
  obtain ⟨items, hitems, hlen, hcs⟩ := sanitizeCombinations_eq_ok.mp h
  obtain ⟨raw, hraw, rfl⟩ := Value.unsign_eq_arr.mp hitems
  rw [List.length_map] at hlen
  refine sanitizeCombinations_eq_ok.mpr ⟨raw, hraw, hlen, ?_⟩
  rcases hcs with hzero | ⟨hsize, supplied, hall, hnd, hsorted⟩
  · exact .inl hzero
  · rw [List.forall₂_map_left_iff] at hall
    exact .inr ⟨hsize, supplied, hall.imp fun _ _ h => h.of_unsign, hnd, hsorted⟩

theorem PathOf.of_unsign {capabilities : Capabilities} {item : Json} {p : PathResult}
    (h : PathOf capabilities item.unsign p) : PathOf capabilities item p where
  total := by simpa using h.total
  count m := by simpa using h.count m
  effects := sanitizeEffects_of_unsign (by rw [← Json.get_unsign]; exact h.effects)
  combinations := sanitizeCombinations_of_unsign (by rw [← Json.get_unsign]; exact h.combinations)
  passed := h.passed
  unavailable := h.unavailable
  signal := h.signal

theorem pathKey_unsign (item : Json) : pathKey item.unsign = (pathKey item).unsign :=
  Json.get_unsign item "path"

theorem Distinct.of_unsign {items : List Json} (h : Distinct (items.map Json.unsign)) :
    Distinct items := by
  refine (List.pairwise_map.mp h).imp fun {x y} hxy => ?_
  rwa [pathKey_unsign, pathKey_unsign, Value.same_unsign] at hxy

theorem sanitizePaths_of_unsign {v : Value} {run : Run} {capabilities : Capabilities}
    {ps : List PathResult} (h : sanitizePaths v.unsign run capabilities = .ok ps) :
    sanitizePaths v run capabilities = .ok ps := by
  obtain ⟨items, hitems, hlen, hsupplied, hps, hsum⟩ := sanitizePaths_eq_ok.mp h
  have hdistinct : Distinct items := distinct_iff.mp (hsupplied.trans hlen.symm)
  obtain ⟨raw, hraw, rfl⟩ := Value.unsign_eq_arr.mp hitems
  rw [List.length_map] at hlen
  have hdistinct' : Distinct raw := hdistinct.of_unsign
  refine sanitizePaths_eq_ok.mpr ⟨raw, hraw, hlen, (distinct_iff.mpr hdistinct').trans hlen,
    hps.imp ?_, hsum⟩
  rintro path p ⟨hpath, item, hfind, hof⟩
  obtain ⟨hmem, hkey, htruthy⟩ := (findPath_iff hdistinct).mp hfind
  obtain ⟨x, hx, rfl⟩ := List.mem_map.mp hmem
  refine ⟨hpath, x, (findPath_iff hdistinct').mpr ⟨hx, ?_, ?_⟩, hof.of_unsign⟩
  · rw [pathKey_unsign, Value.isStr_iff, Value.unsign_eq_str, ← Value.isStr_iff] at hkey
    exact hkey
  · rwa [Json.truthy_unsign] at htruthy

theorem sanitizeGrease_of_unsign {v : Value} {capabilities : Capabilities} {g : Option Grease}
    (h : sanitizeGrease v.unsign capabilities = .ok g) : sanitizeGrease v capabilities = .ok g := by
  refine sanitizeGrease_eq_ok.mpr ?_
  rcases sanitizeGrease_eq_ok.mp h with ⟨hv, hg⟩ | ⟨g', hg, hof⟩
  · exact .inl ⟨by simpa using hv, hg⟩
  · refine .inr ⟨g', hg, ?_⟩
    exact {
      present := by simpa using hof.present
      control := fun s => by simpa using hof.control s
      enabled := fun s => by simpa using hof.enabled s
      controlShape := hof.controlShape
      enabledShape := hof.enabledShape
      idle := hof.idle
      verdict := hof.verdict }

/-- What is accepted is accepted with any signs of its zeros. -/
theorem SubmissionOf.of_unsign {input : Json} {requireGrease : Bool} {s : Snapshot}
    (h : SubmissionOf input.unsign requireGrease s) : SubmissionOf input requireGrease s where
  schema := by
    have hschema := h.schema
    have hone : (Value.json (.nat 1)) = (Value.json (.nat 1)).unsign := rfl
    rwa [Value.optional_json, Json.get_unsign, hone, Value.same_unsign] at hschema
  browser := by
    have hbrowser := h.browser
    rwa [Value.optional_json, Json.get_unsign, normalizeBrowser_unsign] at hbrowser
  secureContext := by simpa using h.secureContext
  webTransport := by simpa using h.webTransport
  run := RunOf.of_unsign (by rw [Value.optional_json, ← Json.get_unsign]; exact h.run)
  metrics m := by simpa using h.metrics m
  paths := sanitizePaths_of_unsign (by rw [Value.optional_json, ← Json.get_unsign]; exact h.paths)
  grease := sanitizeGrease_of_unsign (by rw [Value.optional_json, ← Json.get_unsign]; exact h.grease)
  required := h.required
  conclusion := h.conclusion

/-! ### A snapshot says what it is -/

theorem leadingDigits_version {v : String} (h : IsVersion v) : leadingDigits v = some v := by
  have hall : v.toList.takeWhile Char.isDigit = v.toList := List.takeWhile_eq_self_iff.mpr h.2.2
  have hne : (v.toList.takeWhile Char.isDigit).take 4 = v.toList := by
    rw [hall, List.take_of_length_le h.2.1]
  unfold leadingDigits
  simp only [hne, List.isEmpty_iff, h.1, if_false, String.ofList_toList]

/-- The name of a family is a name of the family. -/
theorem family_of_name (f : Family) : (browserFamilies.lookup (toLowerCase f.name)).getD .other = f := by
  cases f <;> decide

theorem normalizeBrowser_toJson {b : Browser} (h : ∀ v ∈ b.version, IsVersion v) :
    normalizeBrowser (.json b.toJson) = .ok b := by
  have hversion : versionText (.json (b.version.elim .null .str)) = .ok (b.version.getD "") := by
    cases b.version <;> rfl
  have hdigits : leadingDigits (b.version.getD "") = b.version := by
    cases hv : b.version with
    | none => decide
    | some v => exact leadingDigits_version (h v hv)
  simp only [normalizeBrowser, Value.optional_json, Browser.get_name, Browser.get_version, hversion,
    ok_bind, hdigits, family_of_name]

theorem sanitizeGrease_toJson {capabilities : Capabilities} {g : Option Grease}
    (h : ∀ g' ∈ g, g'.WellFormed capabilities) :
    sanitizeGrease (.json (g.elim .null Grease.toJson)) capabilities = .ok g := by
  refine sanitizeGrease_eq_ok.mpr ?_
  cases g with
  | none => exact .inl ⟨rfl, rfl⟩
  | some g =>
    have hg := h g rfl
    refine .inr ⟨g, rfl, ?_⟩
    exact {
      present := rfl
      control := fun s => by simp [Grease.toJson, probeJson_get]
      enabled := fun s => by
        have henabled : g.toJson.get "enabled" = .json (probeJson g.enabled) := by
          simp [Grease.toJson, Json.get, List.lookup_cons]
        rw [Option.elim_some, Value.optional_json, henabled, Value.optional_json, probeJson_get]
      controlShape := hg.control
      enabledShape := hg.enabled
      idle := hg.idle
      verdict := hg.verdict }

theorem entryOf_toJson (p : PathResult) : EntryOf p.toJson p where
  path := p.get_path
  total := p.get_total
  count := p.get_count
  effects := by
    simp [PathResult.toJson, Json.get, List.lookup_cons, pathMetrics, PathMetric.key, Stage.key]
  combinations := p.get_combinations

theorem submission_get (s : Snapshot) {key : String} (h : key ≠ "schemaVersion") :
    s.submission.get key = s.toJson.get key :=
  Json.get_obj_cons_ne h _ _

theorem submission_submits {s : Snapshot} (h : s.WellFormed) {requireGrease : Bool}
    (hrequired : requireGrease = true → s.grease ≠ none) (receivedAt : String) :
    Submits s.submission requireGrease { s with receivedAt } where
  schema := Json.get_obj_cons_self _ _ _
  browser := by rw [submission_get s (by decide), s.get_browser, normalizeBrowser_toJson h.version]
  capabilities := by rw [submission_get s (by decide), s.get_capabilities]
  run := by rw [submission_get s (by decide), s.get_run]
  metrics := by rw [submission_get s (by decide), s.get_metrics]
  paths := by
    refine ⟨s.paths.map PathResult.toJson, by rw [submission_get s (by decide), s.get_paths], ?_⟩
    rw [List.forall₂_map_left_iff, List.forall₂_same]
    exact fun p _ => entryOf_toJson p
  grease := by rw [submission_get s (by decide), s.get_grease, sanitizeGrease_toJson h.grease]
  required := hrequired

theorem submission_plain {s : Snapshot} (h : s.WellFormed) : s.submission.Plain := by
  obtain ⟨hnd, hall⟩ := plain_obj.mp (snapshot_plain h)
  refine plain_obj.mpr ⟨?_, List.forall_mem_cons.mpr ⟨plain_nat (by decide), hall⟩⟩
  simp [Snapshot.fields]

/-- A document that is a snapshot's submission, but for the signs of its zeros, is accepted and read as
    the snapshot. -/
theorem sanitizeSubmission_submission {s : Snapshot} (h : s.WellFormed) {requireGrease : Bool}
    (hrequired : requireGrease = true → s.grease ≠ none) {document : Json}
    (hdocument : document.unsign = s.submission) (receivedAt : String) :
    sanitizeSubmission document receivedAt requireGrease = .ok { s with receivedAt } := by
  have hwf : ({ s with receivedAt } : Snapshot).WellFormed := { h with }
  have haccepted := (submission_submits h hrequired receivedAt).accepted hwf
  obtain ⟨hat, hof⟩ := sanitizeSubmission_eq_ok.mp haccepted
  rw [← hdocument] at hof
  exact sanitizeSubmission_eq_ok.mpr ⟨hat, hof.of_unsign⟩

/-- What is stored of a submission is accepted as one, as it is and read back from its text, and is
    stored as itself but for the time. -/
theorem sanitizeSubmission_idempotent (input : Json) (receivedAt : String) (requireGrease : Bool)
    (s : Snapshot) (h : sanitizeSubmission input receivedAt requireGrease = .ok s) (fed : Json)
    (hfed : fed.unsign = s.submission) (again : String) :
    sanitizeSubmission fed again requireGrease = .ok { s with receivedAt := again } ∧
    ∀ gap : Nat, ∃ parsed, parse (stringify gap fed) = .ok parsed ∧
      sanitizeSubmission parsed again requireGrease = .ok { s with receivedAt := again } := by
  have hof := (sanitizeSubmission_eq_ok.mp h).2
  have hwf := hof.wellFormed
  refine ⟨sanitizeSubmission_submission hwf hof.required hfed again, fun gap => ?_⟩
  have hparse := parse_stringify gap (submission_plain hwf) "" (.inl rfl)
  rw [String.append_empty, ← hfed, stringify_unsign, hfed] at hparse
  exact ⟨_, hparse, sanitizeSubmission_submission hwf hof.required
    (unsign_of_plain _ (submission_plain hwf)) again⟩

theorem fullEchoRun_idempotent : ∃ s, sanitizeSubmission fullEchoRun "2026-07-16T12:00:00.000Z" false =
    .ok s ∧ sanitizeSubmission s.submission "2026-07-17T12:00:00.000Z" false =
      .ok { s with receivedAt := "2026-07-17T12:00:00.000Z" } := by
  obtain ⟨s, hs, -⟩ := exists_of_any fullEchoRun_accepted
  have hwf := (sanitizeSubmission_eq_ok.mp hs).2.wellFormed
  exact ⟨s, hs, (sanitizeSubmission_idempotent _ _ _ s hs _
    (unsign_of_plain _ (submission_plain hwf)) _).1⟩

end WebTransportEcho.Store
