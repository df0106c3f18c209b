import WebTransportEcho.Store.Diff

/-! The state of a result store, and what one call of `record` computes before it persists.

    `StoreState` is the state as the source has it: a document of latest snapshots by family key and
    a bounded list of change events. `Archive` is what it stands for: one well-formed snapshot for
    each family that was ever seen, and the unbounded log of changes. `Archive.toState` keeps the
    last `maxChanges` entries, and `prepare_toState` shows that the source's computation on it is
    `Archive.record`. -/

namespace WebTransportEcho.Store
open Js

/-! ### The store's state -/

structure Config where
  maxChanges : Nat
  requireGrease : Bool

structure StoreState where
  latest : Json
  changes : List Json

def emptyState : StoreState := { latest := .obj [], changes := [] }

def StoreState.toJson (state : StoreState) : Json :=
  .obj [("schemaVersion", .nat resultSchemaVersion), ("latest", state.latest),
    ("changes", .arr state.changes)]

/-- `` `${JSON.stringify(state, null, 2)}\n` ``. -/
def StoreState.text (state : StoreState) : String := stringify 2 state.toJson ++ "\n"

/-- `items.slice(-n)`, where `-0` is `0`. -/
def sliceLast {α : Type} (n : Nat) (items : List α) : List α :=
  if n = 0 then items else items.drop (items.length - n)

/-- What a call of `record` resolves to. -/
structure Recorded where
  browserKey : String
  changed : Bool
  differences : List String
  receivedAt : String
  deriving DecidableEq

def changeEvent (receivedAt : String) (browser : Browser) (changes : List String) : Json :=
  .obj [("at", .str receivedAt), ("browserKey", .str browser.family.key),
    ("browserName", .str browser.family.name), ("browserVersion", browser.version.elim .null .str),
    ("changes", .arr (changes.map .str))]

/-- The body of `record` up to its call of `persist`: the next state and the result. -/
def prepare (config : Config) (state : StoreState) (input : Json) (receivedAt : String) :
    Except Error (StoreState × Recorded) := do
  let current ← sanitizeSubmission input receivedAt config.requireGrease
  let browserKey := current.browser.family.key
  let previous := (state.latest.get browserKey).orNull
  let differences ← diffSnapshots previous (.json current.toJson)
  let changed := previous.isNullish || !differences.isEmpty
  let event := changeEvent receivedAt current.browser
    (if previous.isNullish then ["Initial result recorded"] else differences)
  let changes :=
    if changed then sliceLast config.maxChanges (state.changes ++ [event]) else state.changes
  let latest := Json.obj (Json.setField browserKey current.toJson state.latest.entries)
  .ok ({ latest, changes }, { browserKey, changed, differences, receivedAt })

/-- The state in the text of a results file. -/
def parseState (config : Config) (text : String) : Except Error StoreState := do
  let parsed ← parse text
  let malformed := Error.error "unsupported or malformed browser-results state"
  if !(parsed.get "schemaVersion").same (.json (.nat resultSchemaVersion)) then .error malformed
  else match parsed.get "latest", parsed.get "changes" with
    | .json (.obj fields), .json (.arr changes) =>
      .ok { latest := .obj fields, changes := sliceLast config.maxChanges changes }
    | .json (.arr items), .json (.arr changes) =>
      .ok { latest := .arr items, changes := sliceLast config.maxChanges changes }
    | _, _ => .error malformed

/-- `load`: a file that is not there leaves the new store empty. -/
def load (config : Config) (file : Option String) : Except Error StoreState :=
  match file with
  | none => .ok emptyState
  | some text => parseState config text

/-! ### What the store gives out -/

/-- `left.browser.name.localeCompare(right.browser.name)`. -/
def compareNames (localeCompare : String → String → Int) (left right : Json) : Except Error Int := do
  let name ← (← (Value.json left).dot "browser").dot "name"
  let _ ← name.dot "localeCompare"
  let other ← (← (Value.json right).dot "browser").dot "name"
  match name with
  | .json (.str s) => do
    let t ← other.toText
    .ok (localeCompare s t)
  | _ => .error (.typeError "left.browser.name.localeCompare is not a function")

/-- `x` behind the items that compare as at most `x`. -/
def insertSorted (compare : Json → Json → Except Error Int) (x : Json) :
    List Json → Except Error (List Json)
  | [] => .ok [x]
  | y :: ys => do
    let order ← compare y x
    if order ≤ 0 then do
      let rest ← insertSorted compare x ys
      .ok (y :: rest)
    else .ok (x :: y :: ys)

/-- `items.sort(compare)`, which is stable. Which pairs an engine compares first is its own affair. -/
def sortItems (compare : Json → Json → Except Error Int) (items : List Json) :
    Except Error (List Json) :=
  items.foldlM (fun sorted x => insertSorted compare x sorted) []

/-- The locale's comparison of strings is a parameter. The language leaves open which pairs the
    comparator is called with, and in what order: of the calls that throw, `sortItems` meets one first
    and an engine may meet another. -/
def publicSnapshot (localeCompare : String → String → Int) (generatedAt : String)
    (state : StoreState) : Except Error Json := do
  let latest ← sortItems (compareNames localeCompare) (state.latest.entries.map Prod.snd)
  .ok (.obj [("schemaVersion", .nat resultSchemaVersion), ("generatedAt", .str generatedAt),
    ("latest", .arr latest), ("changes", .arr state.changes.reverse)])

/-! ### What the state stands for -/

/-- A snapshot that the store may hold. -/
structure Stored where
  snapshot : Snapshot
  wellFormed : snapshot.WellFormed

def Stored.family (s : Stored) : Family := s.snapshot.browser.family

/-- An entry of the log of changes. -/
structure Change where
  receivedAt : String
  browser : Browser
  changes : List String

def Change.toJson (c : Change) : Json := changeEvent c.receivedAt c.browser c.changes

/-- The latest snapshot of each family seen, in the order they were first seen, and every change. -/
structure Archive where
  latest : List Stored
  distinct : (latest.map Stored.family).Nodup
  log : List Change

/-- An existing entry of the family is replaced in its place. -/
def putLatest (s : Stored) : List Stored → List Stored
  | [] => [s]
  | t :: ts => if t.family = s.family then s :: ts else t :: putLatest s ts

theorem family_mem_putLatest (s : Stored) (f : Family) : ∀ ts : List Stored,
    f ∈ (putLatest s ts).map Stored.family ↔ f = s.family ∨ f ∈ ts.map Stored.family
  | [] => by simp [putLatest]
  | t :: ts => by
    rw [putLatest]
    split
    · next h => simp only [List.map_cons, List.mem_cons, h]; tauto
    · simp only [List.map_cons, List.mem_cons, family_mem_putLatest s f ts]; tauto

theorem putLatest_distinct (s : Stored) : ∀ {ts : List Stored}, (ts.map Stored.family).Nodup →
    ((putLatest s ts).map Stored.family).Nodup
  | [], _ => by simp [putLatest]
  | t :: ts, h => by
    rw [List.map_cons, List.nodup_cons] at h
    rw [putLatest]
    split
    · next heq => rw [List.map_cons, List.nodup_cons, ← heq]; exact h
    · next hne =>
      rw [List.map_cons, List.nodup_cons, family_mem_putLatest]
      exact ⟨fun hmem => hmem.elim hne h.1, putLatest_distinct s h.2⟩

namespace Archive

def empty : Archive := { latest := [], distinct := List.nodup_nil, log := [] }

def find (a : Archive) (f : Family) : Option Stored := a.latest.find? fun s => decide (s.family = f)

/-- What is logged about a new snapshot: a family's first result, or a non-empty difference. -/
def changesFor (a : Archive) (s : Stored) : Option (List String) :=
  match a.find s.family with
  | none => some ["Initial result recorded"]
  | some old =>
    let ds := differences old.snapshot s.snapshot
    if ds = [] then none else some ds

def record (a : Archive) (s : Stored) : Archive where
  latest := putLatest s a.latest
  distinct := putLatest_distinct s a.distinct
  log := a.log ++ ((a.changesFor s).map fun changes =>
    { receivedAt := s.snapshot.receivedAt, browser := s.snapshot.browser, changes }).toList

def recorded (a : Archive) (s : Stored) : Recorded where
  browserKey := s.family.key
  changed := (a.changesFor s).isSome
  differences := ((a.find s.family).map fun old => differences old.snapshot s.snapshot).getD []
  receivedAt := s.snapshot.receivedAt

/-- The state that stands for an archive. -/
def toState (a : Archive) (maxChanges : Nat) : StoreState where
  latest := .obj (a.latest.map fun s => (s.family.key, s.snapshot.toJson))
  changes := sliceLast maxChanges (a.log.map Change.toJson)

end Archive

/-! ### `record` on a state that stands for an archive -/

theorem sliceLast_append {α : Type} (n : Nat) (xs : List α) (x : α) :
    sliceLast n (sliceLast n xs ++ [x]) = sliceLast n (xs ++ [x]) := by
  unfold sliceLast
  split
  · rfl
  · have hle : xs.length - n ≤ xs.length := Nat.sub_le _ _
    rw [← List.drop_append_of_le_length hle, List.drop_drop]
    congr 1
    simp only [List.length_append, List.length_drop, List.length_singleton]
    omega

theorem sliceLast_sliceLast {α : Type} (n : Nat) (xs : List α) :
    sliceLast n (sliceLast n xs) = sliceLast n xs := by
  unfold sliceLast
  split
  · rfl
  · rw [List.drop_drop, List.length_drop]
    congr 1
    omega

theorem setField_latest (s : Stored) : ∀ ts : List Stored,
    Json.setField s.family.key s.snapshot.toJson (ts.map fun t => (t.family.key, t.snapshot.toJson)) =
      (putLatest s ts).map fun t => (t.family.key, t.snapshot.toJson)
  | [] => rfl
  | t :: ts => by
    rw [List.map_cons, Json.setField, putLatest]
    by_cases h : t.family = s.family
    · rw [if_pos (congrArg Family.key h), if_pos h, List.map_cons]
    · rw [if_neg fun hk => h (Family.key_injective hk), if_neg h, List.map_cons, setField_latest s ts]

theorem get_latest (f : Family) : ∀ ts : List Stored,
    (Json.obj (ts.map fun t => (t.family.key, t.snapshot.toJson))).get f.key =
      match ts.find? fun t => decide (t.family = f) with
      | some t => .json t.snapshot.toJson
      | none => .undefined
  | [] => by cases f <;> rfl
  | t :: ts => by
    rw [List.map_cons, List.find?_cons]
    by_cases h : t.family = f
    · rw [decide_eq_true h, ← h, Json.get_obj_cons_self]
    · rw [decide_eq_false h, Json.get_obj_cons_ne fun hk => h (Family.key_injective hk.symm),
        get_latest f ts]

/-- The difference from a stored snapshot needs no cap. -/
theorem diffSnapshots_stored (old s : Stored) :
    diffSnapshots (.json old.snapshot.toJson) (.json s.snapshot.toJson) =
      .ok (differences old.snapshot s.snapshot) := by
  have hle := differences_length_le (a := old.snapshot) s.wellFormed
  rw [diffSnapshots_toJson _ _ old.wellFormed.paths_nodup, List.take_of_length_le (by omega)]

theorem differences_of_changesFor {a : Archive} {s old : Stored} (hold : a.find s.family = some old) :
    a.changesFor s = if differences old.snapshot s.snapshot = [] then none
      else some (differences old.snapshot s.snapshot) := by
  rw [Archive.changesFor, hold]

/-- A submission that is refused leaves no trace. -/
theorem prepare_error {config : Config} {input : Json} {receivedAt : String} {e : Error}
    (h : sanitizeSubmission input receivedAt config.requireGrease = .error e) (state : StoreState) :
    prepare config state input receivedAt = .error e := by
  rw [prepare, h]
  rfl

/-- An accepted one is recorded as the archive does it. -/
theorem prepare_toState {config : Config} {input : Json} {receivedAt : String} {s : Stored}
    (h : sanitizeSubmission input receivedAt config.requireGrease = .ok s.snapshot) (a : Archive) :
    prepare config (a.toState config.maxChanges) input receivedAt =
      .ok ((a.record s).toState config.maxChanges, a.recorded s) := by
  have hat : s.snapshot.receivedAt = receivedAt := (sanitizeSubmission_eq_ok.mp h).1
  have hput := setField_latest s a.latest
  have hget := get_latest s.family a.latest
  have hfamily : s.snapshot.browser.family = s.family := rfl
  have hfind : a.latest.find? (fun t => decide (t.family = s.family)) = a.find s.family := rfl
  simp only [prepare, h, ok_bind, Archive.toState, Json.entries, hfamily, hget, hput, hfind]
  cases hold : a.find s.family with
  | none =>
    have hdiff : diffSnapshots (Value.orNull .undefined) (.json s.snapshot.toJson) = .ok [] := rfl
    have hnull : (Value.orNull .undefined).isNullish = true := rfl
    have hchanges : a.changesFor s = some ["Initial result recorded"] := by
      rw [Archive.changesFor, hold]
    simp only [hdiff, ok_bind, hnull, Bool.true_or, if_true, sliceLast_append, Archive.record,
      Archive.recorded, hchanges, hold, Option.map_some, Option.map_none, Option.toList_some,
      List.map_append, List.map_cons, List.map_nil, Change.toJson, hat, Option.isSome_some,
      Option.getD_none]
  | some old =>
    have hnull : (Value.json old.snapshot.toJson).orNull = .json old.snapshot.toJson := rfl
    have hpresent : (Value.json old.snapshot.toJson).isNullish = false := rfl
    have hchanges := differences_of_changesFor hold
    simp only [hnull, diffSnapshots_stored old s, ok_bind, hpresent, Bool.false_or,
      Bool.false_eq_true, if_false, Archive.record, Archive.recorded, hchanges, hold,
      Option.map_some, Option.getD_some]
    cases hd : differences old.snapshot s.snapshot with
    | nil => simp [hat]
    | cons d ds => simp [sliceLast_append, Change.toJson, hat]

/-! ### Material changes -/

/-- A family's first result, or one that differs in more than the time and the effects. -/
def Archive.Material (a : Archive) (s : Stored) : Prop :=
  ∀ old, a.find s.family = some old → old.snapshot.material ≠ s.snapshot.material

theorem Archive.find_family {a : Archive} {f : Family} {s : Stored} (h : a.find f = some s) :
    s.family = f := by
  simpa using List.find?_some h

theorem changesFor_isSome_iff (a : Archive) (s : Stored) :
    (a.changesFor s).isSome = true ↔ a.Material s := by
  unfold Archive.Material
  cases hold : a.find s.family with
  | none =>
    rw [Archive.changesFor, hold]
    simp
  | some old =>
    have hiff := differences_eq_nil_iff old.wellFormed s.wellFormed (Archive.find_family hold)
    rw [differences_of_changesFor hold]
    split
    · next hd => simp [hiff.mp hd]
    · next hd => simpa using fun h => hd (hiff.mpr h)

/-- A stored snapshot, or what `JSON.parse` gives back of its text. -/
def ReadsAs (s : Snapshot) (document : Json) : Prop :=
  document = s.toJson ∨ ∃ gap, parse (stringify gap s.toJson) = .ok document

theorem ReadsAs.eq {s : Snapshot} (h : s.WellFormed) {document : Json} (hd : ReadsAs s document) :
    document = s.toJson := by
  rcases hd with rfl | ⟨gap, hgap⟩
  · rfl
  · have := parse_stringify gap (snapshot_plain h) "" (Or.inl rfl)
    rw [String.append_empty, hgap] at this
    exact Except.ok.inj this

/-- The difference of two accepted snapshots of one family is empty exactly when they agree in
    everything but the time and the effects, and the cap never shortens it; so a call of `record`
    that gets that far adds an event exactly for a first result or a material change. -/
theorem diffSnapshots_material (config : Config) (a : Archive) (input₁ input₂ : Json)
    (at₁ at₂ : String) (previous current : Snapshot) (old new : Json)
    (h₁ : sanitizeSubmission input₁ at₁ config.requireGrease = .ok previous)
    (h₂ : sanitizeSubmission input₂ at₂ config.requireGrease = .ok current)
    (hfamily : previous.browser.family = current.browser.family)
    (hold : ReadsAs previous old) (hnew : ReadsAs current new) :
    (∃ ds, allDifferences (.json old) (.json new) = .ok ds ∧
      diffSnapshots (.json old) (.json new) = .ok ds ∧
      (ds = [] ↔ previous.material = current.material)) ∧
    ∃ (s : Stored) (next : StoreState) (result : Recorded), s.snapshot = current ∧
      prepare config (a.toState config.maxChanges) input₂ at₂ = .ok (next, result) ∧
      (result.changed = true ↔ a.Material s) ∧
      (a.Material s → ∃ event, next.changes =
        sliceLast config.maxChanges ((a.toState config.maxChanges).changes ++ [event])) ∧
      (¬ a.Material s → next.changes = (a.toState config.maxChanges).changes) := by
  have hwf₁ := (sanitizeSubmission_eq_ok.mp h₁).2.wellFormed
  have hwf₂ := (sanitizeSubmission_eq_ok.mp h₂).2.wellFormed
  constructor
  · obtain rfl := hold.eq hwf₁
    obtain rfl := hnew.eq hwf₂
    exact ⟨differences previous current, allDifferences_toJson _ _ hwf₁.paths_nodup,
      diffSnapshots_stored ⟨previous, hwf₁⟩ ⟨current, hwf₂⟩,
      differences_eq_nil_iff hwf₁ hwf₂ hfamily⟩
  · let s : Stored := ⟨current, hwf₂⟩
    refine ⟨s, _, _, rfl, prepare_toState (s := s) h₂ a, changesFor_isSome_iff a s, ?_, ?_⟩
    · intro hmaterial
      obtain ⟨ds, hds⟩ := Option.isSome_iff_exists.mp ((changesFor_isSome_iff a s).mpr hmaterial)
      refine ⟨Change.toJson ⟨current.receivedAt, current.browser, ds⟩, ?_⟩
      simp only [Archive.toState, Archive.record, hds, Option.map_some, Option.toList_some,
        List.map_append, List.map_cons, List.map_nil, sliceLast_append]
      rfl
    · intro hsame
      have hnone : a.changesFor s = none := by
        rw [← Option.not_isSome_iff_eq_none, changesFor_isSome_iff]
        exact hsame
      simp only [Archive.toState, Archive.record, hnone, Option.map_none, Option.toList_none,
        List.append_nil]

set_option maxRecDepth 100000 in
theorem readyCounts_accepted : ((sanitizeSubmission fullEchoRun "2026-07-16T12:00:00.000Z" false).toOption.any
      fun s => decide (s.browser.family = .firefox ∧ s.metrics (.stage .ready) = 128)) = true ∧
    ((sanitizeSubmission poolingRun "2026-07-16T12:00:01.000Z" false).toOption.any
      fun s => decide (s.browser.family = .firefox ∧ s.metrics (.stage .ready) = 64)) = true := by
  decide

/-- A run in which half as many get ready as before is a change. -/
theorem poolingRun_material : ∃ previous current,
    sanitizeSubmission fullEchoRun "2026-07-16T12:00:00.000Z" false = .ok previous ∧
    sanitizeSubmission poolingRun "2026-07-16T12:00:01.000Z" false = .ok current ∧
    ∃ ds, diffSnapshots (.json previous.toJson) (.json current.toJson) = .ok ds ∧ ds ≠ [] := by
  obtain ⟨previous, hprevious, hall⟩ := exists_of_any readyCounts_accepted.1
  obtain ⟨current, hcurrent, hhalf⟩ := exists_of_any readyCounts_accepted.2
  rw [decide_eq_true_iff] at hall hhalf
  obtain ⟨⟨ds, -, hds, hiff⟩, -⟩ := diffSnapshots_material ⟨100, false⟩ .empty fullEchoRun poolingRun _ _
    previous current _ _ hprevious hcurrent (hall.1.trans hhalf.1.symm) (Or.inl rfl) (Or.inl rfl)
  refine ⟨previous, current, hprevious, hcurrent, ds, hds, fun hnone => ?_⟩
  have hready : previous.metrics (.stage .ready) = current.metrics (.stage .ready) :=
    congrArg (fun s => s.metrics (.stage .ready)) (hiff.mp hnone)
  rw [hall.2, hhalf.2] at hready
  exact absurd hready (by decide)

end WebTransportEcho.Store
