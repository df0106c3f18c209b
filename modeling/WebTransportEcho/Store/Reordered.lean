import WebTransportEcho.Store.Reading
import WebTransportEcho.Store.Record

/-! Submissions whose cases come in another order. The entries of `paths` are keyed by their path and
    those of a matrix by their mask, duplicates of either are refused, and a matrix is sorted: so an
    order of the cases, whatever it is, neither lets a submission in nor keeps it out, and leaves no
    trace in the snapshot. -/

namespace WebTransportEcho.Store
open Js

/-! ### Reorderings -/

/-- A path's entry whose `combinations` may have been reordered. -/
inductive ReorderedEntry : Json → Json → Prop where
  | same (item : Json) : ReorderedEntry item item
  | combinations (before after : List (String × Json)) {cs cs' : List Json} (h : cs.Perm cs') :
    ReorderedEntry (.obj (before ++ ("combinations", .arr cs) :: after))
      (.obj (before ++ ("combinations", .arr cs') :: after))

/-- A submission whose `paths`, and the `combinations` of each of them, may have been reordered. -/
inductive Reordered : Json → Json → Prop where
  | same (input : Json) : Reordered input input
  | paths (before after : List (String × Json)) {items reordered items' : List Json}
    (h : List.Forall₂ ReorderedEntry items reordered) (hperm : reordered.Perm items') :
    Reordered (.obj (before ++ ("paths", .arr items) :: after))
      (.obj (before ++ ("paths", .arr items') :: after))

/-- Two values of which only an array's order may differ. -/
inductive ReorderedArray : Value → Value → Prop where
  | same (v : Value) : ReorderedArray v v
  | items {xs ys : List Json} (h : xs.Perm ys) : ReorderedArray (.json (.arr xs)) (.json (.arr ys))

/-- Objects that differ in the value of one field. -/
theorem get_replaced (before after : List (String × Json)) (key : String) (x y : Json) (k : String) :
    (Json.obj (before ++ (key, x) :: after)).get k = (Json.obj (before ++ (key, y) :: after)).get k ∨
    k = key ∧ (Json.obj (before ++ (key, x) :: after)).get k = .json x ∧
      (Json.obj (before ++ (key, y) :: after)).get k = .json y := by
  induction before with
  | nil =>
    by_cases hk : k = key
    · subst hk
      exact .inr ⟨rfl, Json.get_obj_cons_self .., Json.get_obj_cons_self ..⟩
    · rw [List.nil_append, List.nil_append, Json.get_obj_cons_ne hk, Json.get_obj_cons_ne hk]
      exact .inl rfl
  | cons f before ih =>
    by_cases hk : k = f.1
    · subst hk
      exact .inl (by rw [List.cons_append, List.cons_append, Json.get_obj_cons_self,
        Json.get_obj_cons_self])
    · rw [List.cons_append, List.cons_append, Json.get_obj_cons_ne hk, Json.get_obj_cons_ne hk]
      exact ih

theorem ReorderedEntry.get {x y : Json} (h : ReorderedEntry x y) (key : String) :
    x.get key = y.get key ∨ key = "combinations" ∧ ReorderedArray (x.get key) (y.get key) := by
  cases h with
  | same => exact .inl rfl
  | combinations before after hperm =>
    rcases get_replaced before after "combinations" _ _ key with heq | ⟨hkey, hx, hy⟩
    · exact .inl heq
    · exact .inr ⟨hkey, by rw [hx, hy]; exact .items hperm⟩

theorem ReorderedEntry.get_eq {x y : Json} (h : ReorderedEntry x y) {key : String}
    (hkey : key ≠ "combinations") : x.get key = y.get key :=
  (h.get key).resolve_right fun hk => hkey hk.1

theorem ReorderedEntry.get_combinations {x y : Json} (h : ReorderedEntry x y) :
    ReorderedArray (x.get "combinations") (y.get "combinations") := by
  rcases h.get "combinations" with heq | ⟨-, hitems⟩
  · rw [heq]
    exact .same _
  · exact hitems

theorem ReorderedEntry.truthy {x y : Json} (h : ReorderedEntry x y) : x.truthy = y.truthy := by
  cases h <;> rfl

theorem ReorderedEntry.symm {x y : Json} (h : ReorderedEntry x y) : ReorderedEntry y x := by
  cases h with
  | same => exact .same _
  | combinations before after h => exact .combinations before after h.symm

theorem ReorderedArray.symm {v w : Value} (h : ReorderedArray v w) : ReorderedArray w v := by
  cases h with
  | same => exact .same _
  | items h => exact .items h.symm

/-! ### The matrix of a path -/

/-- A sort by distinct masks forgets the order. -/
theorem sortByMask_eq {cs cs' : List Combination} (h : cs.Perm cs')
    (hnd : (cs.map Combination.mask).Nodup) : sortByMask cs = sortByMask cs' := by
  have hperm : (sortByMask cs).Perm (sortByMask cs') :=
    ((sortByMask_perm cs).trans h).trans (sortByMask_perm cs').symm
  have hsorted (l : List Combination) : (sortByMask l).Pairwise fun a b => a.mask ≤ b.mask := by
    have hmasks : ((sortByMask l).map Combination.mask).SortedLE := by
      rw [sortByMask, List.map_insertionSort _ (· ≤ ·) Combination.mask l fun _ _ _ _ => Iff.rfl]
      exact List.sortedLE_insertionSort
    exact List.pairwise_map.mp hmasks.pairwise
  refine hperm.eq_of_pairwise (fun a b ha hb hab hba => ?_) (hsorted cs) (hsorted cs')
  have ha' : a ∈ cs := (sortByMask_perm cs).mem_iff.mp ha
  have hb' : b ∈ cs := h.mem_iff.mpr ((sortByMask_perm cs').mem_iff.mp hb)
  exact List.inj_on_of_nodup_map hnd ha' hb' (Nat.le_antisymm hab hba)

theorem sanitizeCombinations_of_reordered {v w : Value} (h : ReorderedArray v w) {path : ResultPath}
    {total : Nat} {cs : List Combination} (hv : sanitizeCombinations v path total = .ok cs) :
    sanitizeCombinations w path total = .ok cs := by
  cases h with
  | same => exact hv
  | @items xs ys hperm =>
    obtain ⟨items, hitems, hlen, hcs⟩ := sanitizeCombinations_eq_ok.mp hv
    cases hitems
    refine sanitizeCombinations_eq_ok.mpr ⟨ys, rfl, hperm.length_eq ▸ hlen, ?_⟩
    rcases hcs with hzero | ⟨hsize, supplied, hall, hnd, rfl⟩
    · exact .inl hzero
    · obtain ⟨supplied', hall', hperm'⟩ := List.perm_comp_forall₂ hperm.symm hall
      refine .inr ⟨hsize, supplied', hall', (hperm'.map _).nodup_iff.mpr hnd, ?_⟩
      exact sortByMask_eq hperm'.symm hnd

/-! ### The entries of the paths -/

theorem PathOf.of_reordered {capabilities : Capabilities} {x y : Json} {p : PathResult}
    (h : ReorderedEntry x y) (hx : PathOf capabilities x p) : PathOf capabilities y p where
  total := by rw [← h.get_eq (by decide), hx.total]
  count m := by
    have hkey : m.key ≠ "combinations" := by
      rcases m with s | _
      · cases s <;> decide
      · decide
    rw [← h.get_eq hkey]
    exact hx.count m
  effects := by rw [← h.get_eq (by decide), hx.effects]
  combinations := sanitizeCombinations_of_reordered h.get_combinations hx.combinations
  passed := hx.passed
  unavailable := hx.unavailable
  signal := hx.signal

/-- The path an entry is about. -/
def pathKey (item : Json) : Value := (Value.json item).optional "path"

/-- No two entries are about one path. -/
def Distinct (items : List Json) : Prop :=
  items.Pairwise fun x y => (pathKey x).same (pathKey y) = false

theorem same_comm (v w : Value) : v.same w = w.same v := by
  have hnum (a b : Js.Num) : a.same b = b.same a := by
    cases a <;> cases b <;> simp only [Num.same, eq_comm]
  cases v with
  | undefined => cases w with
    | json k => cases k <;> rfl
    | _ => rfl
  | native a => cases w with
    | undefined => rfl
    | native b => simp only [Value.same, eq_comm]
    | json k => cases k <;> rfl
  | json j => cases w with
    | undefined => cases j <;> rfl
    | native b => cases j <;> rfl
    | json k => cases j <;> cases k <;> simp only [Value.same, eq_comm, hnum]

theorem Distinct.perm {xs ys : List Json} (h : Distinct xs) (hperm : xs.Perm ys) : Distinct ys :=
  (hperm.pairwise_iff fun h => by rw [same_comm]; exact h).mp h

theorem Distinct.reordered {xs ys : List Json} (h : Distinct xs)
    (hall : List.Forall₂ ReorderedEntry xs ys) : Distinct ys := by
  induction hall with
  | nil => exact .nil
  | @cons x y xs ys hxy hrest ih =>
    obtain ⟨hfresh, h⟩ := List.pairwise_cons.mp h
    refine .cons (fun y' hy' => ?_) (ih h)
    obtain ⟨x', hx', hxy'⟩ := exists_of_forall₂_right hrest hy'
    have hkey : (pathKey x).same (pathKey x') = false := hfresh x' hx'
    rw [pathKey, pathKey, Value.optional_json, Value.optional_json] at hkey ⊢
    rw [← hxy.get_eq (by decide), ← hxy'.get_eq (by decide), hkey]

/-! ### The map of the entries -/

theorem length_mapSet_le (key : Value) (item : Json) : ∀ m : List (Value × Json),
    (mapSet key item m).length ≤ m.length + 1
  | [] => by simp [mapSet]
  | e :: m => by
    rw [mapSet]
    split
    · simp
    · simpa using length_mapSet_le key item m

/-- A map that grows has not had the key. -/
theorem fresh_of_length_mapSet {key : Value} {item : Json} : ∀ {m : List (Value × Json)},
    (mapSet key item m).length = m.length + 1 → ∀ e ∈ m, e.1.same key = false
  | [], _ => by simp
  | e :: m, h => by
    rw [mapSet] at h
    split at h
    · simp at h
    · next hne =>
      rw [List.forall_mem_cons]
      exact ⟨by simpa using hne, fresh_of_length_mapSet (by simpa using h)⟩

/-- `suppliedPaths` from a map that is already there. -/
def addPaths (m : List (Value × Json)) (items : List Json) : List (Value × Json) :=
  items.foldl (fun m item => mapSet (pathKey item) item m) m

theorem length_addPaths_le (items : List Json) : ∀ m : List (Value × Json),
    (addPaths m items).length ≤ m.length + items.length := by
  induction items with
  | nil => exact fun m => Nat.le_refl _
  | cons x xs ih =>
    intro m
    have hstep := ih (mapSet (pathKey x) x m)
    have hset := length_mapSet_le (pathKey x) x m
    rw [addPaths, List.foldl_cons, List.length_cons]
    rw [addPaths] at hstep
    omega

/-- Every entry that is added makes the map longer only when all are of different paths. -/
theorem distinct_of_length {items : List Json} : ∀ {m : List (Value × Json)},
    (addPaths m items).length = m.length + items.length →
    Distinct items ∧ ∀ e ∈ m, ∀ x ∈ items, e.1.same (pathKey x) = false := by
  induction items with
  | nil => exact fun _ => ⟨.nil, by simp⟩
  | cons x xs ih =>
    intro m h
    have hrest := length_addPaths_le xs (mapSet (pathKey x) x m)
    have hset := length_mapSet_le (pathKey x) x m
    rw [addPaths, List.foldl_cons, List.length_cons] at h
    rw [addPaths] at hrest
    have hgrows : (mapSet (pathKey x) x m).length = m.length + 1 := by omega
    have hfresh := fresh_of_length_mapSet hgrows
    rw [mapSet_fresh x hfresh] at h
    have hlength : (addPaths (m ++ [(pathKey x, x)]) xs).length =
        (m ++ [(pathKey x, x)]).length + xs.length := by
      rw [addPaths, h, List.length_append, List.length_singleton]
      omega
    obtain ⟨hdistinct, hold⟩ := ih hlength
    refine ⟨.cons (fun y hy => hold (pathKey x, x) (by simp) y hy) hdistinct, fun e he y hy => ?_⟩
    rcases List.mem_cons.mp hy with rfl | hy
    · exact hfresh e he
    · exact hold e (by simp [he]) y hy

theorem addPaths_of_distinct {items : List Json} (h : Distinct items) : ∀ {m : List (Value × Json)},
    (∀ e ∈ m, ∀ x ∈ items, e.1.same (pathKey x) = false) →
    addPaths m items = m ++ items.map fun item => (pathKey item, item) := by
  induction items with
  | nil => exact fun _ => (List.append_nil _).symm
  | cons x xs ih =>
    intro m hm
    obtain ⟨hfresh, h⟩ := List.pairwise_cons.mp h
    have hset : mapSet (pathKey x) x m = m ++ [(pathKey x, x)] :=
      mapSet_fresh x fun e he => hm e he x (by simp)
    rw [addPaths, List.foldl_cons, hset, ← addPaths, ih h, List.map_cons, List.append_assoc,
      List.singleton_append]
    intro e he y hy
    rcases List.mem_append.mp he with he | he
    · exact hm e he y (by simp [hy])
    · rw [List.mem_singleton.mp he]
      exact hfresh y hy

theorem suppliedPaths_of_distinct {items : List Json} (h : Distinct items) :
    suppliedPaths items = items.map fun item => (pathKey item, item) :=
  addPaths_of_distinct (m := []) h (by simp)

theorem distinct_iff {items : List Json} :
    (suppliedPaths items).length = items.length ↔ Distinct items := by
  refine ⟨fun h => ?_, fun h => ?_⟩
  · have hlength : (addPaths [] items).length = ([] : List (Value × Json)).length + items.length := by
      rw [List.length_nil, Nat.zero_add]
      exact h
    exact (distinct_of_length hlength).1
  · rw [suppliedPaths_of_distinct h, List.length_map]

/-- The entry of a path, wherever it stands. -/
theorem findPath_iff {items : List Json} (h : Distinct items) {path : ResultPath} {item : Json} :
    findPath (suppliedPaths items) path = some item ↔
      item ∈ items ∧ (pathKey item).isStr path.text = true ∧ item.truthy = true := by
  rw [findPath, suppliedPaths_of_distinct h, Option.filter_eq_some_iff, Option.map_eq_some_iff]
  constructor
  · rintro ⟨⟨e, he, rfl⟩, htruthy⟩
    obtain ⟨x, hx, rfl⟩ := List.mem_map.mp (List.mem_of_find?_eq_some he)
    have hkey := List.find?_some he
    exact ⟨hx, hkey, htruthy⟩
  · rintro ⟨hmem, hkey, htruthy⟩
    refine ⟨⟨(pathKey item, item), ?_, rfl⟩, htruthy⟩
    -- two entries with the text of the path would be of one path
    induction items with
    | nil => cases hmem
    | cons x xs ih =>
      obtain ⟨hfresh, h⟩ := List.pairwise_cons.mp h
      rw [List.map_cons, List.find?_cons]
      rcases List.mem_cons.mp hmem with rfl | hmem
      · rw [hkey]
      · have hx : (pathKey x).isStr path.text = false := by
          have hne := hfresh item hmem
          rw [(Value.isStr_iff _ _).mp hkey] at hne
          exact hne
        rw [hx]
        exact ih h hmem

/-! ### The whole submission -/

theorem sanitizePaths_of_reordered {items reordered items' : List Json}
    (hall : List.Forall₂ ReorderedEntry items reordered) (hperm : reordered.Perm items') {run : Run}
    {capabilities : Capabilities} {ps : List PathResult}
    (h : sanitizePaths (.json (.arr items)) run capabilities = .ok ps) :
    sanitizePaths (.json (.arr items')) run capabilities = .ok ps := by
  obtain ⟨_, hitems, hlen, hsupplied, hps, hsum⟩ := sanitizePaths_eq_ok.mp h
  cases hitems
  have hdistinct : Distinct items := distinct_iff.mp (hsupplied.trans hlen.symm)
  have hdistinct' : Distinct items' := (hdistinct.reordered hall).perm hperm
  have hlen' : items'.length = 8 := by rw [← hperm.length_eq, ← hall.length_eq, hlen]
  refine sanitizePaths_eq_ok.mpr ⟨items', rfl, hlen', (distinct_iff.mpr hdistinct').trans hlen',
    hps.imp ?_, hsum⟩
  rintro path p ⟨hpath, x, hfind, hx⟩
  obtain ⟨hmem, hkey, htruthy⟩ := (findPath_iff hdistinct).mp hfind
  obtain ⟨y, hy, hxy⟩ := exists_of_forall₂_right hall.flip hmem
  refine ⟨hpath, y, (findPath_iff hdistinct').mpr ⟨hperm.mem_iff.mp hy, ?_, ?_⟩, hx.of_reordered hxy⟩
  · rw [pathKey, Value.optional_json] at hkey ⊢
    rw [← hxy.get_eq (by decide), hkey]
  · rw [← hxy.truthy, htruthy]

theorem Reordered.symm {x y : Json} (h : Reordered x y) : Reordered y x := by
  cases h with
  | same => exact .same _
  | paths before after hall hperm =>
    obtain ⟨reordered, hall', hperm'⟩ := List.perm_comp_forall₂ hperm.symm hall.flip
    exact .paths before after (hall'.imp fun _ _ h => ReorderedEntry.symm h) hperm'

/-- A submission and what is read of its fields. -/
theorem Reordered.get {x y : Json} (h : Reordered x y) (key : String) : x.get key = y.get key ∨
    key = "paths" ∧ ∃ items reordered items', x.get key = .json (.arr items) ∧
      y.get key = .json (.arr items') ∧ List.Forall₂ ReorderedEntry items reordered ∧
      reordered.Perm items' := by
  cases h with
  | same => exact .inl rfl
  | paths before after hall hperm =>
    rcases get_replaced before after "paths" _ _ key with heq | ⟨hkey, hx, hy⟩
    · exact .inl heq
    · exact .inr ⟨hkey, _, _, _, hx, hy, hall, hperm⟩

theorem Reordered.get_eq {x y : Json} (h : Reordered x y) {key : String} (hkey : key ≠ "paths") :
    x.get key = y.get key :=
  (h.get key).resolve_right fun hk => hkey hk.1

theorem SubmissionOf.of_reordered {x y : Json} (h : Reordered x y) {requireGrease : Bool}
    {s : Snapshot} (hx : SubmissionOf x requireGrease s) : SubmissionOf y requireGrease s := by
  have hread {key : String} (hkey : key ≠ "paths") :
      (Value.json y).optional key = (Value.json x).optional key := (h.get_eq hkey).symm
  refine {
    schema := by rw [hread (by decide), hx.schema]
    browser := by rw [hread (by decide), hx.browser]
    secureContext := by rw [hread (by decide), hx.secureContext]
    webTransport := by rw [hread (by decide), hx.webTransport]
    run := by rw [hread (by decide)]; exact hx.run
    metrics := by rw [hread (by decide)]; exact hx.metrics
    paths := ?_
    grease := by rw [hread (by decide), hx.grease]
    required := hx.required
    conclusion := hx.conclusion }
  have hpaths := hx.paths
  rw [Value.optional_json] at hpaths ⊢
  rcases h.get "paths" with heq | ⟨-, items, reordered, items', hxs, hys, hall, hperm⟩
  · rw [← heq, hpaths]
  · rw [hxs] at hpaths
    rw [hys]
    exact sanitizePaths_of_reordered hall hperm hpaths

/-- The time of arrival is the store's. -/
theorem SubmissionOf.received {input : Json} {requireGrease : Bool} {s : Snapshot}
    (h : SubmissionOf input requireGrease s) (receivedAt : String) :
    SubmissionOf input requireGrease { s with receivedAt } :=
  { h with }

theorem Archive.find_record (a : Archive) (s t : Stored) (h : s.family = t.family) :
    (a.record s).find t.family = some s := by
  have hput : ∀ ts : List Stored,
      (putLatest s ts).find? (fun u => decide (u.family = t.family)) = some s := by
    intro ts
    induction ts with
    | nil => rw [putLatest, List.find?_cons, decide_eq_true h]
    | cons u ts ih =>
      rw [putLatest]
      split
      · rw [List.find?_cons, decide_eq_true h]
      · next hne => rw [List.find?_cons, decide_eq_false fun heq => hne (heq.trans h.symm), ih]
  exact hput a.latest

/-- A submission is accepted in every order of its cases or in none, and as the same snapshot. When it
    was recorded in one order, recording it in another is no change. -/
theorem sanitizeSubmission_reordered (input input' : Json) (h : Reordered input input') :
    (∀ (receivedAt : String) (requireGrease : Bool) (s : Snapshot),
      sanitizeSubmission input receivedAt requireGrease = .ok s ↔
        sanitizeSubmission input' receivedAt requireGrease = .ok s) ∧
    ∀ (config : Config) (a : Archive) (at₁ at₂ : String) (s : Stored),
      sanitizeSubmission input at₁ config.requireGrease = .ok s.snapshot →
      ∃ (next : StoreState) (result : Recorded),
        prepare config ((a.record s).toState config.maxChanges) input' at₂ = .ok (next, result) ∧
        result.changed = false ∧ next.changes = ((a.record s).toState config.maxChanges).changes := by
  refine ⟨fun receivedAt requireGrease s => ?_, fun config a at₁ at₂ s hs => ?_⟩
  · rw [sanitizeSubmission_eq_ok, sanitizeSubmission_eq_ok]
    exact and_congr_right fun _ => ⟨SubmissionOf.of_reordered h, SubmissionOf.of_reordered h.symm⟩
  · have hof := (sanitizeSubmission_eq_ok.mp hs).2
    let s' : Stored := ⟨{ s.snapshot with receivedAt := at₂ }, (hof.received at₂).wellFormed⟩
    have hs' : sanitizeSubmission input' at₂ config.requireGrease = .ok s'.snapshot :=
      sanitizeSubmission_eq_ok.mpr ⟨rfl, (hof.of_reordered h).received at₂⟩
    have hmaterial : ¬ (a.record s).Material s' := fun hmaterial =>
      hmaterial s (a.find_record s s' rfl) rfl
    have hnone : (a.record s).changesFor s' = none := by
      rwa [← Option.not_isSome_iff_eq_none, changesFor_isSome_iff]
    refine ⟨_, _, prepare_toState hs' (a.record s), ?_, ?_⟩
    · rw [Archive.recorded, hnone, Option.isSome_none]
    · rw [Archive.toState, Archive.record, hnone, Option.map_none, Option.toList_none,
        List.append_nil]
      rfl

/-! ### A run told backwards -/

def PathResult.reversed (p : PathResult) : PathResult :=
  { p with combinations := p.combinations.reverse }

def Snapshot.reversed (s : Snapshot) : Snapshot :=
  { s with paths := (s.paths.map PathResult.reversed).reverse }

theorem reversed_reorderedEntry (p : PathResult) : ReorderedEntry p.toJson p.reversed.toJson := by
  have hperm : (p.combinations.map Combination.toJson).Perm
      (p.combinations.reverse.map Combination.toJson) :=
    (List.reverse_perm p.combinations).symm.map _
  exact .combinations (("path", .str p.path.text) :: ("total", .nat p.total) ::
    (pathMetrics.map fun e => (e.1.key, .nat (p.count e.1))) ++
    [("effects", .arr (p.effects.map Effect.toJson))]) [("signal", .str p.signal)] hperm

theorem reversed_reordered (s : Snapshot) : Reordered s.submission s.reversed.submission := by
  have hall : List.Forall₂ ReorderedEntry (s.paths.map PathResult.toJson)
      ((s.paths.map PathResult.reversed).map PathResult.toJson) := by
    rw [List.map_map, List.forall₂_map_left_iff, List.forall₂_map_right_iff, List.forall₂_same]
    exact fun p _ => reversed_reorderedEntry p
  have hperm : ((s.paths.map PathResult.reversed).map PathResult.toJson).Perm
      (s.reversed.paths.map PathResult.toJson) :=
    (List.reverse_perm _).symm.map _
  exact .paths [("schemaVersion", .nat resultSchemaVersion), ("receivedAt", .str s.receivedAt),
    ("browser", s.browser.toJson), ("capabilities", s.capabilities.toJson), ("run", s.run.toJson),
    ("metrics", metricsJson s.metrics), ("conclusion", .str s.conclusion)]
    [("grease", s.grease.elim .null Grease.toJson)] hall hperm

/-- The run of which every case passes every stage. -/
def fullEcho : Snapshot :=
  firefoxRun 128 (fun m => if m = .path .datagramUnavailable then 0 else 128)
    (resultPaths.map fun p => tallied p (fullMatrix 16 fun _ _ => .pass))

theorem fullEcho_reversed : ∃ s, sanitizeSubmission fullEcho.reversed.submission
    "2026-07-16T12:00:00.000Z" false = .ok s := by
  obtain ⟨s, hs, -⟩ := exists_of_any fullEchoRun_accepted
  exact ⟨s, ((sanitizeSubmission_reordered _ _ (reversed_reordered fullEcho)).1 _ _ s).mp hs⟩

end WebTransportEcho.Store
