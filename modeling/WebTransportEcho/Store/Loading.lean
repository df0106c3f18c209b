import WebTransportEcho.Store.Comparable

/-! What a results file can do to the store. `load` looks at the outer shape of the file only, and what
    is inside `latest` is read later: by `snapshot`, which sorts the entries by name, and by `record`,
    which compares a new snapshot with the stored one. `Sound` says what these reads need. Every
    record keeps it, so a store that loaded a sound state never throws, and one that loaded another
    state throws within two calls. -/

namespace WebTransportEcho.Store
open Js

/-! ### What is safe -/

/-- `snapshot` returns, and would in whatever order an engine compares the entries. -/
structure SnapshotSafe (state : StoreState) : Prop where
  returns : ∀ localeCompare generatedAt, Returns (publicSnapshot localeCompare generatedAt state)
  anyOrder : ∀ localeCompare, ∀ latest : List Json, latest.Perm (state.latest.entries.map Prod.snd) →
    Returns (sortItems (compareNames localeCompare) latest)

/-- `record` of an accepted submission returns. -/
def RecordSafe (config : Config) (state : StoreState) : Prop :=
  ∀ input receivedAt s, sanitizeSubmission input receivedAt config.requireGrease = .ok s →
    Returns (prepare config state input receivedAt)

/-- The states of a store that loaded `loaded`: each record that returns is persisted. -/
inductive Reaches (config : Config) (loaded : StoreState) : StoreState → Prop
  | loaded : Reaches config loaded loaded
  | record {state next : StoreState} {input : Json} {receivedAt : String} {result : Recorded} :
    Reaches config loaded state → prepare config state input receivedAt = .ok (next, result) →
    Reaches config loaded next

/-- A store that loads the file never throws afterwards. -/
def LoadsSafely (config : Config) (file : Option String) : Prop :=
  ∀ loaded, load config file = .ok loaded → ∀ state, Reaches config loaded state →
    SnapshotSafe state ∧ RecordSafe config state

/-! ### What it takes -/

/-- The entry has a browser with a name. -/
def Named (entry : Json) : Prop :=
  ∃ name, ((Value.json entry).optional "browser").optional "name" = .json (.str name)

/-- Every entry has a name, and those of the families can be compared with. -/
structure Sound (state : StoreState) : Prop where
  named : ∀ e ∈ state.latest.entries, Named e.2
  comparable : ∀ (f : Family) (j : Json), state.latest.get f.key = .json j → j.truthy = true →
    Comparable j

/-! ### Names -/

theorem optional_of_nullish {v : Value} (h : v.isNullish = true) (key : String) :
    v.optional key = .undefined := by
  cases v with
  | undefined | native => rfl
  | json j =>
    cases j with
    | null => rfl
    | bool | num | str | arr | obj => cases h

theorem isNullish_of_optional {v : Value} {key : String} {j : Json} (h : v.optional key = .json j) :
    v.isNullish = false := by
  cases hv : v.isNullish with
  | false => rfl
  | true =>
    rw [optional_of_nullish hv] at h
    cases h

/-- The name of an entry is read without a throw. -/
theorem Named.read {entry : Json} (h : Named entry) : ∃ name,
    ((Value.json entry).dot "browser" >>= fun v => v.dot "name") = .ok (.json (.str name)) := by
  obtain ⟨name, hname⟩ := h
  have hbrowser := isNullish_of_optional hname
  have hentry : (Value.json entry).isNullish = false := by
    cases hv : (Value.json entry).isNullish with
    | false => rfl
    | true => rw [optional_of_nullish hv] at hbrowser; cases hbrowser
  refine ⟨name, ?_⟩
  rw [Value.dot_of_not_nullish hentry, ok_bind, Value.dot_of_not_nullish hbrowser, hname]

theorem returns_compareNames {left right : Json} (hleft : Named left) (hright : Named right)
    (localeCompare : String → String → Int) :
    Returns (compareNames localeCompare left right) := by
  obtain ⟨s, hs⟩ := hleft.read
  obtain ⟨t, ht⟩ := hright.read
  obtain ⟨v, hv, hs⟩ := bind_eq_ok.mp hs
  obtain ⟨w, hw, ht⟩ := bind_eq_ok.mp ht
  simp only [compareNames, hv, hs, hw, ht, ok_bind]
  exact returns_ok _

/-- What is compared has a name on the left. -/
theorem named_of_returns {localeCompare : String → String → Int} {left right : Json}
    (h : Returns (compareNames localeCompare left right)) : Named left := by
  obtain ⟨browser, hbrowser, h⟩ := returns_bind.mp h
  obtain ⟨name, hname, h⟩ := returns_bind.mp h
  obtain ⟨-, rfl⟩ := Value.dot_eq_ok.mp hbrowser
  obtain ⟨-, rfl⟩ := Value.dot_eq_ok.mp hname
  obtain ⟨_, -, h⟩ := returns_bind.mp h
  obtain ⟨_, -, h⟩ := returns_bind.mp h
  obtain ⟨_, -, h⟩ := returns_bind.mp h
  cases hv : ((Value.json left).optional "browser").optional "name" with
  | undefined | native => rw [hv] at h; exact absurd h (not_returns_error _)
  | json j =>
    cases j with
    | str name => exact ⟨name, hv⟩
    | null | bool | num | arr | obj => rw [hv] at h; exact absurd h (not_returns_error _)

/-! ### Sorting -/

section Sorting

variable {compare : Json → Json → Except Error Int}

theorem returns_insertSorted {x : Json} : ∀ {ys : List Json}, (∀ y ∈ ys, Returns (compare y x)) →
    ∃ zs, insertSorted compare x ys = .ok zs ∧ zs.Perm (x :: ys)
  | [], _ => ⟨[x], rfl, List.Perm.refl _⟩
  | y :: ys, h => by
    rw [List.forall_mem_cons] at h
    obtain ⟨order, horder⟩ := h.1
    obtain ⟨zs, hzs, hperm⟩ := returns_insertSorted h.2
    rw [insertSorted, horder, ok_bind]
    split_ifs
    · rw [hzs]
      exact ⟨y :: zs, rfl, (hperm.cons y).trans (List.Perm.swap x y ys)⟩
    · exact ⟨x :: y :: ys, rfl, List.Perm.refl _⟩

/-- A sort whose comparisons return, returns. -/
theorem returns_sortItems {items : List Json} (h : ∀ a ∈ items, ∀ b ∈ items, Returns (compare a b)) :
    ∃ sorted, sortItems compare items = .ok sorted ∧ sorted.Perm items := by
  induction items using List.reverseRecOn with
  | nil => exact ⟨[], rfl, List.Perm.refl _⟩
  | append_singleton items x ih =>
    obtain ⟨sorted, hsorted, hperm⟩ := ih fun a ha b hb => h a (by simp [ha]) b (by simp [hb])
    have hx (y : Json) (hy : y ∈ sorted) : Returns (compare y x) :=
      h y (by simp [hperm.mem_iff.mp hy]) x (by simp)
    obtain ⟨zs, hzs, hinsert⟩ := returns_insertSorted hx
    refine ⟨zs, ?_, hinsert.trans ((hperm.cons x).trans (List.perm_append_singleton x items).symm)⟩
    rw [sortItems, List.foldlM_append, ← sortItems, hsorted, ok_bind, List.foldlM_cons, hzs]
    rfl

/-- A sort compares its first two items. -/
theorem returns_first {x y : Json} {rest : List Json}
    (h : Returns (sortItems compare (x :: y :: rest))) : Returns (compare x y) := by
  obtain ⟨one, hone, h⟩ := returns_bind.mp h
  cases hone
  obtain ⟨two, htwo, -⟩ := returns_bind.mp h
  obtain ⟨order, horder, -⟩ := returns_bind.mp ⟨two, htwo⟩
  exact ⟨order, horder⟩

end Sorting

theorem snapshotSafe_of_named {state : StoreState} (h : ∀ e ∈ state.latest.entries, Named e.2) :
    SnapshotSafe state := by
  have hsort (localeCompare : String → String → Int) (latest : List Json)
      (hperm : latest.Perm (state.latest.entries.map Prod.snd)) :
      Returns (sortItems (compareNames localeCompare) latest) := by
    have hnamed (entry : Json) (hentry : entry ∈ latest) : Named entry := by
      obtain ⟨e, he, rfl⟩ := List.mem_map.mp (hperm.mem_iff.mp hentry)
      exact h e he
    obtain ⟨sorted, hsorted, -⟩ := returns_sortItems fun a ha b hb =>
      returns_compareNames (hnamed a ha) (hnamed b hb) localeCompare
    exact ⟨sorted, hsorted⟩
  refine ⟨fun localeCompare generatedAt => ?_, hsort⟩
  exact (returns_bind_of_forall fun _ => returns_ok _).mpr (hsort localeCompare _ (List.Perm.refl _))

/-- Where another entry is there to compare with, `snapshot` needs the entry's name. -/
theorem SnapshotSafe.named {state : StoreState} (h : SnapshotSafe state) {e other : String × Json}
    (he : e ∈ state.latest.entries) (hother : other ∈ state.latest.entries) (hne : e ≠ other) :
    Named e.2 := by
  obtain ⟨before, after, hsplit⟩ := List.append_of_mem he
  rw [hsplit] at hother
  have hrest : other ∈ before ++ after := by
    rcases List.mem_append.mp hother with hbefore | hafter
    · exact List.mem_append_left _ hbefore
    · rcases List.mem_cons.mp hafter with heq | hafter
      · exact absurd heq.symm hne
      · exact List.mem_append_right _ hafter
  obtain ⟨front, back, hrest⟩ := List.append_of_mem hrest
  have hperm : (e :: other :: (front ++ back)).Perm state.latest.entries := by
    rw [hsplit]
    refine List.Perm.trans ?_ List.perm_middle.symm
    rw [hrest]
    exact List.perm_middle.symm.cons e
  exact named_of_returns (returns_first (h.anyOrder (fun _ _ => 0) _ (hperm.map Prod.snd)))

/-! ### Recording -/

theorem toString_ne_key (n : Nat) (f : Family) : toString n ≠ f.key := by
  intro h
  have hany : (f.key.toList.any fun c => !c.isDigit) = true := by cases f <;> decide
  obtain ⟨c, hc, hletter⟩ := List.any_eq_true.mp hany
  rw [← h, Nat.toString_eq_repr, Nat.toList_repr] at hc
  rw [Nat.isDigit_of_mem_toDigits (by decide) (by decide) hc] at hletter
  cases hletter

theorem lookup_indexed {α : Type} (items : List α) (value : α → Json) (f : Family) :
    (items.zipIdx.map fun p => (toString p.2, value p.1)).lookup f.key = none := by
  rw [List.lookup_eq_none_iff]
  intro e he
  obtain ⟨p, -, rfl⟩ := List.mem_map.mp he
  exact bne_iff_ne.mpr (toString_ne_key p.2 f).symm

theorem inherited_key (name : String) (f : Family) : Json.inherited name f.key = .undefined := by
  cases f <;> rfl

/-- A spread keeps what is stored of a family. -/
theorem get_entries (latest : Json) (f : Family) :
    (Json.obj latest.entries).get f.key = latest.get f.key := by
  have hindexed {α : Type} (items : List α) (value : α → Json) (name : String) :
      (Json.obj (items.zipIdx.map fun p => (toString p.2, value p.1))).get f.key =
        Json.inherited name f.key := by
    rw [Json.get, lookup_indexed, inherited_key, inherited_key]
  cases latest with
  | null => exact inherited_key _ f
  | bool | num => exact (inherited_key _ f).trans (inherited_key _ f).symm
  | str s => exact hindexed s.toList (fun c => .str (String.ofList [c])) "String"
  | arr items => exact hindexed items id "Array"
  | obj fields => rfl

theorem get_setField (key : String) (j : Json) (k : String) : ∀ fields : List (String × Json),
    (Json.obj (Json.setField key j fields)).get k =
      if k = key then .json j else (Json.obj fields).get k
  | [] => by
    rw [Json.setField]
    split_ifs with h
    · rw [h, Json.get_obj_cons_self]
    · rw [Json.get_obj_cons_ne h]
  | f :: fields => by
    rw [Json.setField]
    by_cases hf : f.1 = key
    · rw [if_pos hf]
      split_ifs with h
      · rw [h, Json.get_obj_cons_self]
      · rw [Json.get_obj_cons_ne h, ← hf] at *
        rw [Json.get_obj_cons_ne h]
    · rw [if_neg hf]
      by_cases hk : k = f.1
      · rw [hk, if_neg hf, Json.get_obj_cons_self, Json.get_obj_cons_self]
      · rw [Json.get_obj_cons_ne hk, Json.get_obj_cons_ne hk, get_setField key j k fields]

theorem mem_setField_self (key : String) (j : Json) : ∀ fields : List (String × Json),
    (key, j) ∈ Json.setField key j fields
  | [] => List.mem_singleton_self _
  | f :: fields => by
    rw [Json.setField]
    split_ifs
    · exact List.mem_cons_self
    · exact List.mem_cons_of_mem _ (mem_setField_self key j fields)

theorem mem_setField_of_ne {key : String} (j : Json) {e : String × Json} (hne : e.1 ≠ key) :
    ∀ {fields : List (String × Json)}, e ∈ fields → e ∈ Json.setField key j fields
  | f :: fields, he => by
    rw [Json.setField]
    rcases List.mem_cons.mp he with rfl | he
    · rw [if_neg hne]
      exact List.mem_cons_self
    · split_ifs
      · exact List.mem_cons_of_mem _ he
      · exact List.mem_cons_of_mem _ (mem_setField_of_ne j hne he)

theorem mem_setField {key : String} {j : Json} {e : String × Json} :
    ∀ {fields : List (String × Json)}, e ∈ Json.setField key j fields → e = (key, j) ∨ e ∈ fields
  | [], he => Or.inl (List.mem_singleton.mp he)
  | f :: fields, he => by
    rw [Json.setField] at he
    split_ifs at he
    · rcases List.mem_cons.mp he with rfl | he
      · exact Or.inl rfl
      · exact Or.inr (List.mem_cons_of_mem _ he)
    · rcases List.mem_cons.mp he with rfl | he
      · exact Or.inr List.mem_cons_self
      · exact (mem_setField he).imp_right (List.mem_cons_of_mem _)

theorem returns_prepare {config : Config} {state : StoreState} {input : Json} {receivedAt : String}
    {s : Snapshot} (h : sanitizeSubmission input receivedAt config.requireGrease = .ok s) :
    Returns (prepare config state input receivedAt) ↔
      ∀ j, state.latest.get s.browser.family.key = .json j → j.truthy = true → Comparable j := by
  have hs := (sanitizeSubmission_eq_ok.mp h).2.wellFormed
  rw [prepare, h, ok_bind, returns_bind_of_forall fun _ => returns_ok _, ← get_entries, Json.get]
  cases state.latest.entries.lookup s.browser.family.key with
  | none =>
    rw [inherited_key]
    exact iff_of_true (returns_ok _) fun j hj => by cases hj
  | some previous =>
    refine (returns_diffSnapshots previous hs).trans ⟨fun hprevious j hj => ?_, fun hall => hall _ rfl⟩
    cases hj
    exact hprevious

/-- What a record leaves behind. -/
theorem prepare_latest {config : Config} {state next : StoreState} {input : Json} {receivedAt : String}
    {result : Recorded} (h : prepare config state input receivedAt = .ok (next, result)) :
    ∃ s, sanitizeSubmission input receivedAt config.requireGrease = .ok s ∧
      next.latest = .obj (Json.setField s.browser.family.key s.toJson state.latest.entries) := by
  obtain ⟨s, hs, h⟩ := bind_eq_ok.mp h
  obtain ⟨differences, -, h⟩ := bind_eq_ok.mp h
  cases h
  exact ⟨s, hs, rfl⟩

theorem comparable_toJson {s : Snapshot} (h : s.WellFormed) : Comparable s.toJson := by
  have hreturns := (returns_diffSnapshots s.toJson h).mp ⟨_, diffSnapshots_stored ⟨s, h⟩ ⟨s, h⟩⟩
  exact hreturns rfl

theorem named_toJson (s : Snapshot) : Named s.toJson := by
  refine ⟨s.browser.family.name, ?_⟩
  rw [Value.optional_json, Snapshot.get_browser, Value.optional_json, Browser.get_name]

/-! ### Every run -/

theorem Sound.record {config : Config} {state next : StoreState} {input : Json} {receivedAt : String}
    {result : Recorded} (h : Sound state)
    (hnext : prepare config state input receivedAt = .ok (next, result)) : Sound next := by
  obtain ⟨s, hs, hlatest⟩ := prepare_latest hnext
  refine ⟨fun e he => ?_, fun f j hj => ?_⟩
  · rw [hlatest, Json.entries] at he
    rcases mem_setField he with rfl | he
    · exact named_toJson s
    · exact h.named e he
  · rw [hlatest, get_setField, get_entries] at hj
    split_ifs at hj with hkey
    · cases hj
      exact fun _ => comparable_toJson (sanitizeSubmission_eq_ok.mp hs).2.wellFormed
    · exact h.comparable f j hj

theorem Sound.reaches {config : Config} {loaded state : StoreState} (h : Sound loaded)
    (hreach : Reaches config loaded state) : Sound state := by
  induction hreach with
  | loaded => exact h
  | record _ hnext ih => exact ih.record hnext

/-- A browser without the API, with the GREASE result that a store may ask for. -/
def idleRun (f : Family) : Json :=
  Snapshot.submission {
    receivedAt := ""
    browser := { family := f, version := none }
    capabilities := { secureContext := true, webTransport := false }
    run := { plannedCases := 128, completedCases := 0 }
    metrics := fun _ => 0
    conclusion := ""
    paths := resultPaths.map fun p => tallied p []
    grease := some
      { control := fun _ => .notRun, enabled := fun _ => .notRun, verdict := .apiUnavailable } }

theorem idleRun_accepted (f : Family) (requireGrease : Bool) :
    ∃ s, sanitizeSubmission (idleRun f) "" requireGrease = .ok s ∧ s.browser.family = f := by
  have hany : (sanitizeSubmission (idleRun f) "" requireGrease).toOption.any
      (fun s => decide (s.browser.family = f)) = true := by
    cases f <;> cases requireGrease <;> decide
  obtain ⟨s, hs, hfamily⟩ := exists_of_any hany
  exact ⟨s, hs, of_decide_eq_true hfamily⟩

/-- A state all of whose runs are safe is sound: a submission of each family is compared with what is
    stored, and one of another family puts a second entry beside each. -/
theorem sound_of_safe {config : Config} {loaded : StoreState}
    (h : ∀ state, Reaches config loaded state → SnapshotSafe state ∧ RecordSafe config state) :
    Sound loaded := by
  obtain ⟨-, hrecord⟩ := h loaded .loaded
  refine ⟨fun e he => ?_, fun f j hj => ?_⟩
  · obtain ⟨f, hf⟩ : ∃ f : Family, e.1 ≠ f.key := by
      by_cases hchrome : e.1 = Family.key .chrome
      · exact ⟨.firefox, fun hfirefox => absurd (hchrome.symm.trans hfirefox) (by decide)⟩
      · exact ⟨.chrome, hchrome⟩
    obtain ⟨s, hs, rfl⟩ := idleRun_accepted f config.requireGrease
    obtain ⟨⟨next, result⟩, hnext⟩ := hrecord _ _ s hs
    obtain ⟨s', hs', hlatest⟩ := prepare_latest hnext
    rw [hs] at hs'
    cases hs'
    obtain ⟨hsnapshot, -⟩ := h next (.record .loaded hnext)
    have hentries : next.latest.entries =
        Json.setField s.browser.family.key s.toJson loaded.latest.entries := by rw [hlatest]; rfl
    have hkept : e ∈ next.latest.entries := by
      rw [hentries]
      exact mem_setField_of_ne _ hf he
    have hnew : (s.browser.family.key, s.toJson) ∈ next.latest.entries := by
      rw [hentries]
      exact mem_setField_self _ _ _
    exact hsnapshot.named hkept hnew fun heq => hf (congrArg Prod.fst heq)
  · obtain ⟨s, hs, rfl⟩ := idleRun_accepted f config.requireGrease
    exact (returns_prepare hs).mp (hrecord _ _ s hs) j hj

/-- A file that stores these entries. -/
def storing (latest : List (String × Json)) : Json :=
  .obj [("schemaVersion", .nat resultSchemaVersion), ("latest", .obj latest), ("changes", .arr [])]

theorem load_storing (config : Config) {latest : List (String × Json)} (h : (Json.obj latest).Plain) :
    load config (some (stringify 0 (storing latest))) =
      .ok { latest := .obj latest, changes := [] } := by
  have hplain : (storing latest).Plain := by
    refine plain_obj.mpr ⟨by simp, ?_⟩
    simp only [List.forall_mem_cons]
    exact ⟨plain_nat (by decide), h, plain_arr.mpr (by simp), by simp⟩
  have hparse := parse_stringify 0 hplain "" (Or.inl rfl)
  rw [String.append_empty] at hparse
  have hslice : sliceLast config.maxChanges ([] : List Json) = [] := by simp [sliceLast]
  have hread : parseState config (stringify 0 (storing latest)) =
      .ok { latest := .obj latest, changes := sliceLast config.maxChanges [] } := by
    rw [parseState, hparse, ok_bind]
    rfl
  rw [load, hread, hslice]

theorem emptyEntry_throws {state : StoreState} (h : state.latest = .obj [("firefox", .obj [])])
    {config : Config} : ¬ Returns (prepare config state (idleRun .firefox) "") := by
  obtain ⟨s, hs, hfamily⟩ := idleRun_accepted .firefox config.requireGrease
  rw [returns_prepare hs, hfamily, h]
  intro hcomparable
  have hbrowser := (hcomparable (.obj []) rfl rfl).browser
  cases hbrowser

theorem nullEntries_throw {state : StoreState} (h : state.latest = .obj [("a", .null), ("b", .null)])
    (localeCompare : String → String → Int) (generatedAt : String) :
    ¬ Returns (publicSnapshot localeCompare generatedAt state) := by
  rw [publicSnapshot, returns_bind_of_forall fun _ => returns_ok _, h]
  intro hsort
  obtain ⟨name, hname⟩ := named_of_returns (returns_first hsort)
  cases hname

end WebTransportEcho.Store
