import WebTransportEcho.Results.Views
import WebTransportEcho.Store.Recovery

/-! The overview page over time. `Reader` is the page for the one who reads it: whether it loads, and
    which overview it shows with which path chosen in each matrix. Whatever arrives, in whatever order
    the reader clicks, the page is what the reader is told (`run_page`); and what the reader is told
    comes from the server's store as it was when it answered (`overview_shown`). -/

namespace WebTransportEcho.Results
open Js Store Server

/-! ### The page -/

/-- What a page shows: an overview, and the path chosen in each matrix. -/
structure View where
  latest : List Stored
  changes : List Change
  chosen : Nat → Nat

def matrixed (latest : List Stored) : List Stored :=
  latest.filter fun s => !(matrixPaths s.snapshot).isEmpty

/-- The later of a date and that of a snapshot. -/
def laterText (dates : Dates) (latestDate : String) (s : Stored) : String :=
  match dates.parse s.snapshot.receivedAt, dates.parse latestDate with
  | some t, some u => if u < t then s.snapshot.receivedAt else latestDate
  | _, _ => latestDate

def lastView (dates : Dates) : List Stored → String
  | [] => "None"
  | first :: rest =>
    dates.text ((first :: rest).foldl (laterText dates) first.snapshot.receivedAt)

def shown (dates : Dates) (v : View) (status : String) (refreshDisabled : Bool) : Dom where
  status := status
  refreshDisabled := refreshDisabled
  browserCount := toString v.latest.length
  changeCount := toString v.changes.length
  lastResult := lastView dates v.latest
  latestEmptyHidden := !v.latest.isEmpty
  latestWrapHidden := v.latest.isEmpty
  latestBody := v.latest.map fun s => latestView dates s.snapshot
  greaseHidden := (v.latest.filter fun s => s.snapshot.grease.isSome).isEmpty
  greaseBody := v.latest.filterMap fun s => s.snapshot.grease.map (greaseView s.snapshot)
  pathHidden := v.latest.isEmpty
  pathDetails := v.latest.map fun s => detailView dates s.snapshot
  matrixHidden := (matrixed v.latest).isEmpty
  matrixDetails := (matrixed v.latest).mapIdx fun i s => matrixView dates s.snapshot (v.chosen i)
  changesEmptyHidden := !v.changes.isEmpty
  changesWrapHidden := v.changes.isEmpty
  changesBody := v.changes.map (changeView dates)

section Runs

theorem script_bind {α β : Type} {m : Script α} {f : α → Script β} {d d' : Dom} {a : α}
    (h : m.run.run d = (.ok a, d')) : (m >>= f).run.run d = (f a).run.run d' := by
  rw [ExceptT.run_bind, StateT.run_bind, h]
  rfl

theorem evaluate_ok {α : Type} {x : Except Error α} {a : α} (h : x = .ok a) (d : Dom) :
    (evaluate x).run.run d = (.ok a, d) := by
  rw [h]
  rfl

/-- A part of the page that is read by `get` and written by `put`. -/
structure Part (β : Type) where
  get : Dom → β
  put : β → Dom → Dom
  get_put : ∀ b d, get (put b d) = b
  put_put : ∀ a b d, put a (put b d) = put a d
  put_get : ∀ d, put (get d) d = d

theorem appendAll_run {α β : Type} (part : Part (List β)) {make : Json → Except Error β}
    {f : α → Json} {g : α → β} : ∀ {items : List α} (d : Dom),
    (∀ x ∈ items, make (f x) = .ok (g x)) →
      (appendAll make (fun b d => part.put (part.get d ++ [b]) d) (items.map f)).run.run d =
        (.ok (), part.put (part.get d ++ items.map g) d)
  | [], d, _ => by
    rw [List.map_nil, List.map_nil, List.append_nil, part.put_get]
    rfl
  | x :: items, d, h => by
    rw [List.map_cons, appendAll, script_bind (evaluate_ok (h x List.mem_cons_self) d)]
    have hrest := appendAll_run part (part.put (part.get d ++ [g x]) d) fun y hy =>
      h y (List.mem_cons_of_mem _ hy)
    rw [part.get_put, part.put_put, List.append_assoc] at hrest
    exact hrest

theorem modify_run (f : Dom → Dom) (d : Dom) : (modify f : Script Unit).run.run d = (.ok (), f d) := rfl

def latestPart : Part (List Row) where
  get := Dom.latestBody
  put b d := { d with latestBody := b }
  get_put _ _ := rfl
  put_put _ _ _ := rfl
  put_get _ := rfl

def greasePart : Part (List Row) where
  get := Dom.greaseBody
  put b d := { d with greaseBody := b }
  get_put _ _ := rfl
  put_put _ _ _ := rfl
  put_get _ := rfl

def pathPart : Part (List Detail) where
  get := Dom.pathDetails
  put b d := { d with pathDetails := b }
  get_put _ _ := rfl
  put_put _ _ _ := rfl
  put_get _ := rfl

def matrixPart : Part (List Matrix) where
  get := Dom.matrixDetails
  put b d := { d with matrixDetails := b }
  get_put _ _ := rfl
  put_put _ _ _ := rfl
  put_get _ := rfl

def changesPart : Part (List Row) where
  get := Dom.changesBody
  put b d := { d with changesBody := b }
  get_put _ _ := rfl
  put_put _ _ _ := rfl
  put_get _ := rfl

variable (dates : Dates) (latest : List Stored) (d : Dom)

def Dom.withLatest : Dom where
  __ := d
  latestBody := latest.map fun s => latestView dates s.snapshot
  latestEmptyHidden := !latest.isEmpty
  latestWrapHidden := latest.isEmpty

def Dom.withGrease : Dom where
  __ := d
  greaseBody := latest.filterMap fun s => s.snapshot.grease.map (greaseView s.snapshot)
  greaseHidden := (latest.filter fun s => s.snapshot.grease.isSome).isEmpty

def Dom.withPaths : Dom where
  __ := d
  pathDetails := latest.map fun s => detailView dates s.snapshot
  pathHidden := latest.isEmpty

def Dom.withMatrices : Dom where
  __ := d
  matrixDetails := (matrixed latest).map fun s => matrixView dates s.snapshot 0
  matrixHidden := (matrixed latest).isEmpty

def Dom.withChanges (changes : List Change) : Dom where
  __ := d
  changesBody := changes.map (changeView dates)
  changesEmptyHidden := !changes.isEmpty
  changesWrapHidden := changes.isEmpty

theorem renderLatest_run : (renderLatest dates (latest.map Stored.json)).run.run d =
    (.ok (), Dom.withLatest dates latest d) := by
  rw [renderLatest, script_bind (modify_run _ d)]
  refine (appendAll_run latestPart (g := fun s => latestView dates s.snapshot) _
    fun s _ => latestRow_stored dates s.snapshot).trans ?_
  simp only [List.isEmpty_map]
  rfl

theorem hasGrease_stored (s : Snapshot) : hasGrease s.toJson = .ok s.grease.isSome := by
  rw [hasGrease, snapshot_dot, Snapshot.get_grease, ok_bind]
  cases s.grease <;> rfl

theorem greaseRows (latest : List Stored) :
    ((latest.filter fun s => s.snapshot.grease.isSome).map fun s =>
      (s.snapshot.grease.map (greaseView s.snapshot)).getD []) =
    latest.filterMap fun s => s.snapshot.grease.map (greaseView s.snapshot) := by
  induction latest with
  | nil => rfl
  | cons s latest ih =>
    rw [List.filter_cons, List.filterMap_cons]
    cases hgrease : s.snapshot.grease with
    | none => exact ih
    | some g => simp only [Option.isSome_some, if_true, List.map_cons, hgrease, ih, Option.map_some,
        Option.getD_some]

theorem renderGrease_run : (renderGrease (latest.map Stored.json)).run.run d =
    (.ok (), Dom.withGrease latest d) := by
  have hfilter : filterE hasGrease (latest.map Stored.json) =
      .ok ((latest.filter fun s => s.snapshot.grease.isSome).map Stored.json) :=
    filterE_ok fun s _ => hasGrease_stored s.snapshot
  rw [renderGrease, script_bind (evaluate_ok hfilter d), script_bind (modify_run _ d), Dom.withGrease,
    ← greaseRows]
  refine (appendAll_run greasePart (g := fun s => (s.snapshot.grease.map (greaseView s.snapshot)).getD [])
    _ fun s hs => ?_).trans ?_
  · obtain ⟨g, hg⟩ := Option.isSome_iff_exists.mp (List.mem_filter.mp hs).2
    rw [hg]
    exact greaseRow_stored s.snapshot hg
  · simp only [List.isEmpty_map]
    rfl

theorem renderPaths_run : (renderPaths dates (latest.map Stored.json)).run.run d =
    (.ok (), Dom.withPaths dates latest d) := by
  rw [renderPaths, script_bind (modify_run _ d)]
  refine (appendAll_run pathPart (g := fun s => detailView dates s.snapshot) _
    fun s _ => pathDetail_stored dates s.snapshot).trans ?_
  simp only [List.isEmpty_map]
  rfl

theorem renderMatrices_run : (renderMatrices dates (latest.map Stored.json)).run.run d =
    (.ok (), Dom.withMatrices dates latest d) := by
  have hfilter : filterE hasMatrix (latest.map Stored.json) = .ok ((matrixed latest).map Stored.json) :=
    filterE_ok fun s _ => hasMatrix_stored s.snapshot
  rw [renderMatrices, script_bind (evaluate_ok hfilter d), script_bind (modify_run _ d)]
  refine (appendAll_run matrixPart (g := fun s => matrixView dates s.snapshot 0) _ fun s hs => ?_).trans ?_
  · have hmatrix := (List.mem_filter.mp hs).2
    exact matrixDetail_stored dates s (by simpa using hmatrix)
  · simp only [List.isEmpty_map]
    rfl

theorem renderChanges_run (changes : List Change) :
    (renderChanges dates (changes.map Change.toJson)).run.run d =
      (.ok (), Dom.withChanges dates d changes) := by
  rw [renderChanges, script_bind (modify_run _ d)]
  refine (appendAll_run changesPart (g := changeView dates) _
    fun c _ => changeRow_stored dates c).trans ?_
  simp only [List.isEmpty_map]
  rfl

theorem laterOf_stored (date : String) (s : Stored) :
    laterOf dates (.json (.str date)) (Stored.json s) = .ok (.json (.str (laterText dates date s))) := by
  have hparse (text : String) : dates.parseDate (.json (.str text)) = .ok (dates.parse text) := rfl
  rw [laterOf, Stored.json, snapshot_dot, get_receivedAt, ok_bind, hparse, hparse, ok_bind, ok_bind,
    laterText]
  cases dates.parse s.snapshot.receivedAt with
  | none => rfl
  | some t =>
    cases dates.parse date with
    | none => rfl
    | some u =>
      simp only
      split_ifs <;> rfl

theorem lastResult_stored : lastResult dates (latest.map Stored.json) = .ok (lastView dates latest) := by
  cases latest with
  | nil => rfl
  | cons first rest =>
    have hfold : ∀ (items : List Stored) (date : String),
        (items.map Stored.json).foldlM (laterOf dates) (.json (.str date)) =
          .ok (.json (.str (items.foldl (laterText dates) date))) := by
      intro items
      induction items with
      | nil => exact fun date => rfl
      | cons s items ih =>
        intro date
        rw [List.map_cons, List.foldlM_cons, laterOf_stored, ok_bind, ih, List.foldl_cons]
    have hstart : (Value.json (Stored.json first)).dot "receivedAt" =
        .ok (.json (.str first.snapshot.receivedAt)) := by
      rw [Stored.json, snapshot_dot, get_receivedAt]
    have hall := hfold (first :: rest) first.snapshot.receivedAt
    rw [List.map_cons] at hall
    rw [List.map_cons, lastResult, hstart, ok_bind, hall, ok_bind, formatDate_str, lastView]

theorem render_run (generatedAt : String) (changes : List Change) :
    (render dates (.json (overview generatedAt latest changes))).run.run d =
      (.ok (), shown dates ⟨latest, changes, fun _ => 0⟩ d.status d.refreshDisabled) := by
  have hlatest : (Value.json (overview generatedAt latest changes)).dot "latest" =
      .ok (.json (.arr (latest.map Stored.json))) := by
    simp [overview, Value.dot, Value.optional, Json.get, List.lookup_cons]
  have hchanges : (Value.json (overview generatedAt latest changes)).dot "changes" =
      .ok (.json (.arr (changes.map Change.toJson))) := by
    simp [overview, Value.dot, Value.optional, Json.get, List.lookup_cons]
  rw [render, script_bind (evaluate_ok hlatest d), script_bind (evaluate_ok hchanges d)]
  simp only [listOf]
  rw [script_bind (modify_run _ d), script_bind (evaluate_ok (lastResult_stored dates latest) _),
    script_bind (modify_run _ _), script_bind (renderLatest_run dates latest _),
    script_bind (renderGrease_run latest _), script_bind (renderPaths_run dates latest _),
    script_bind (renderMatrices_run dates latest _)]
  refine (renderChanges_run dates _ changes).trans ?_
  have hmatrices : (matrixed latest).mapIdx (fun _ s => matrixView dates s.snapshot 0) =
      (matrixed latest).map fun s => matrixView dates s.snapshot 0 := by
    rw [List.mapIdx_eq_iff]
    exact fun i => List.getElem?_map
  rw [shown, hmatrices]
  simp only [List.length_map]
  rfl

end Runs

/-! ### A reader -/

/-- What the page is answered, for what it is worth to the reader. -/
inductive Answer where
  | overview (generatedAt : String) (latest : List Stored) (changes : List Change)
  | brokenOff
  | failed (message : String)

inductive Act where
  | refresh
  | answered (a : Answer)
  | choose (matrix option : Nat)

/-- The page, for the reader. -/
structure Reader where
  loading : Bool
  status : String
  view : Option View

/-- A path is chosen in a matrix that has it. -/
def View.choose (v : View) (matrix option : Nat) : View where
  __ := v
  chosen i := if i = matrix ∧ ∀ s ∈ (matrixed v.latest)[i]?, option < (matrixPaths s.snapshot).length
    then option else v.chosen i

def Reader.step (dates : Dates) (r : Reader) : Act → Reader
  | .refresh =>
    if r.loading then r else { r with loading := true, status := "Loading latest browser results" }
  | .answered a =>
    if !r.loading then r
    else match a with
      | .overview generatedAt latest changes =>
        { loading := false
          status := s!"Updated {dates.text generatedAt}"
          view := some ⟨latest, changes, fun _ => 0⟩ }
      | .brokenOff =>
        { loading := false
          status := s!"Updated {dates.missing}"
          view := some ⟨[], [], fun _ => 0⟩ }
      | .failed message => { r with loading := false, status := message }
  | .choose matrix option => { r with view := r.view.map fun v => v.choose matrix option }

def reader (dates : Dates) (acts : List Act) : Reader :=
  acts.foldl (Reader.step dates) ⟨true, "Loading latest browser results", none⟩

/-- The page that the reader sees. -/
def Reader.page (dates : Dates) (r : Reader) : Dom :=
  match r.view with
  | none => { opened with status := r.status, refreshDisabled := r.loading }
  | some v => shown dates v r.status r.loading

/-- What the page is sent, and what that is to the reader. -/
inductive Conveys : Event → Act → Prop where
  | refresh : Conveys .refresh .refresh
  | choose (matrix option : Nat) : Conveys (.choose matrix option) (.choose matrix option)
  | overview (generatedAt : String) (latest : List Stored) (changes : List Change) :
    Conveys (.fetched (.ok ⟨200, .ok (stringify 0 (overview generatedAt latest changes))⟩))
      (.answered (.overview generatedAt latest changes))
  | brokenOff {response : Response} (h : response.ok = true) (e : Error)
      (hbody : response.text = .error e) : Conveys (.fetched (.ok response)) (.answered .brokenOff)
  | refused {response : Response} (h : response.ok = false) (message : String)
      (hbody : response.text = .ok (stringify 0 (errorBody message))) :
    Conveys (.fetched (.ok response)) (.answered (.failed message))
  | refusedBrokenOff {response : Response} (h : response.ok = false) (e : Error)
      (hbody : response.text = .error e) : Conveys (.fetched (.ok response))
      (.answered (.failed s!"results request failed: {response.status}"))
  | unreachable (e : Error) : Conveys (.fetched (.error e)) (.answered (.failed (message e)))

/-! ### The page shows it -/

theorem overview_plain (generatedAt : String) (latest : List Stored) (changes : List Change) :
    (overview generatedAt latest changes).Plain := by
  have hlatest : PlainItems (latest.map Stored.json) := by
    refine (plainItems_iff _).mpr fun j hj => ?_
    obtain ⟨s, -, rfl⟩ := List.mem_map.mp hj
    exact snapshot_plain s.wellFormed
  have hchanges : PlainItems (changes.map Change.toJson) := by
    refine (plainItems_iff _).mpr fun j hj => ?_
    obtain ⟨c, -, rfl⟩ := List.mem_map.mp hj
    exact event_plain c
  refine plain_obj.mpr ⟨by simp, ?_⟩
  simp [Json.Plain, hlatest, hchanges, resultSchemaVersion, Num.maxSafe]

variable {dates : Dates}

theorem body_of_parse (response : Response) {text : String} {body : Json}
    (htext : response.text = .ok text) (hparse : parse text = .ok body) : response.body = body := by
  have hbind : response.text.bind parse = .ok body := by
    rw [htext]
    exact hparse
  rw [Response.body, hbind]

theorem showResults_ok {response : Response} (hok : response.ok = true) {generatedAt : String}
    {latest : List Stored} {changes : List Change}
    (hbody : response.body = overview generatedAt latest changes) (d : Dom) :
    (showResults dates (.ok response)).run.run d =
      (.ok (), shown dates ⟨latest, changes, fun _ => 0⟩ s!"Updated {dates.text generatedAt}"
        d.refreshDisabled) := by
  have hgenerated : (Value.json (overview generatedAt latest changes)).dot "generatedAt" =
      .ok (.json (.str generatedAt)) := by
    simp [overview, Value.dot, Value.optional, Json.get, List.lookup_cons]
  rw [showResults, script_bind (evaluate_ok rfl d)]
  simp only [hbody, hok, Bool.not_true, Bool.false_eq_true, if_false]
  rw [script_bind (render_run dates latest d generatedAt changes), script_bind (evaluate_ok hgenerated _),
    script_bind (evaluate_ok (formatDate_str dates generatedAt) _)]
  rfl

theorem showResults_refused {response : Response} (hok : response.ok = false) {text : String}
    (hbody : response.body = errorBody text) (d : Dom) :
    (showResults dates (.ok response)).run.run d = (.error (.error text), d) := by
  have herror : (Value.json (errorBody text)).dot "error" = .ok (.json (.str text)) := by
    simp [errorBody, Value.dot, Value.optional, Json.get]
  rw [showResults, script_bind (evaluate_ok rfl d)]
  simp only [hbody, hok, Bool.not_false, if_true]
  rw [script_bind (evaluate_ok herror d)]
  rfl

theorem body_brokenOff (response : Response) {e : Error} (htext : response.text = .error e) :
    response.body = .obj [] := by
  have hbind : response.text.bind parse = .error e := by
    rw [htext]
    rfl
  rw [Response.body, hbind]

theorem showResults_brokenOff {response : Response} (hok : response.ok = true)
    (hbody : response.body = .obj []) (d : Dom) :
    (showResults dates (.ok response)).run.run d =
      (.ok (), shown dates ⟨[], [], fun _ => 0⟩ s!"Updated {dates.missing}" d.refreshDisabled) := by
  rw [showResults, script_bind (evaluate_ok rfl d)]
  simp only [hbody, hok, Bool.not_true, Bool.false_eq_true, if_false]
  have hrender : (render dates (.json (.obj []))).run.run d =
      (.ok (), shown dates ⟨[], [], fun _ => 0⟩ d.status d.refreshDisabled) := rfl
  have hgenerated : (Value.json (.obj [])).dot "generatedAt" = .ok .undefined := rfl
  rw [script_bind hrender, script_bind (evaluate_ok hgenerated _),
    script_bind (evaluate_ok (formatDate_undefined dates) _)]
  rfl

theorem showResults_refusedBrokenOff {response : Response} (hok : response.ok = false)
    (hbody : response.body = .obj []) (d : Dom) : (showResults dates (.ok response)).run.run d =
      (.error (.error s!"results request failed: {response.status}"), d) := by
  have herror : (Value.json (.obj [])).dot "error" = .ok .undefined := rfl
  rw [showResults, script_bind (evaluate_ok rfl d)]
  simp only [hbody, hok, Bool.not_false, if_true]
  rw [script_bind (evaluate_ok herror d)]
  rfl

theorem mapIdx_modify {α β : Type} (f : Nat → α → β) (g : β → β) (xs : List α) (n : Nat) :
    (xs.mapIdx f).modify n g = xs.mapIdx fun i x => if i = n then g (f i x) else f i x := by
  refine List.ext_getElem? fun i => ?_
  rw [List.getElem?_modify, List.getElem?_mapIdx, List.getElem?_mapIdx]
  cases xs[i]? with
  | none => rfl
  | some x =>
    by_cases h : n = i
    · simp [h]
    · simp [h, Ne.symm h]

theorem choose_shown (v : View) (status : String) (disabled : Bool) (matrix option : Nat) :
    step dates (shown dates v status disabled) (.choose matrix option) =
      shown dates (v.choose matrix option) status disabled := by
  have hmatrices : ((matrixed v.latest).mapIdx fun i s => matrixView dates s.snapshot (v.chosen i)).modify
      matrix (fun m => m.choose option) =
      (matrixed v.latest).mapIdx fun i s => matrixView dates s.snapshot ((v.choose matrix option).chosen i) := by
    rw [mapIdx_modify]
    refine List.ext_getElem? fun i => ?_
    rw [List.getElem?_mapIdx, List.getElem?_mapIdx]
    cases hs : (matrixed v.latest)[i]? with
    | none => rfl
    | some s =>
      rw [Option.map_some, Option.map_some, View.choose]
      by_cases hi : i = matrix
      · simp only [hi, true_and, if_true, choose_stored]
        rw [← hi, hs]
        simp
      · simp [hi]
  rw [step, shown, hmatrices]
  rfl

/-- Step by step, the page is what the reader is told. -/
theorem step_page {e : Event} {a : Act} (h : Conveys e a) (r : Reader) :
    step dates (r.page dates) e = (r.step dates a).page dates := by
  obtain ⟨loading, status, view⟩ := r
  have hdisabled : (Reader.page dates ⟨loading, status, view⟩).refreshDisabled = loading := by
    cases view <;> rfl
  cases h with
  | refresh =>
    rw [step, hdisabled, Reader.step]
    cases loading <;> cases view <;> rfl
  | choose matrix option =>
    cases view with
    | none =>
      rw [step]
      simp [Reader.page, Reader.step, opened]
    | some v => exact choose_shown v status loading matrix option
  | overview generatedAt latest changes =>
    have hbody := body_of_parse ⟨200, .ok (stringify 0 (overview generatedAt latest changes))⟩
      rfl (parse_stringify_self 0 (overview_plain generatedAt latest changes))
    rw [step, hdisabled, Reader.step, showResults_ok rfl hbody, hdisabled]
    cases loading with
    | false => rfl
    | true => rfl
  | @brokenOff response h e htext =>
    rw [step, hdisabled, Reader.step, showResults_brokenOff h (body_brokenOff response htext), hdisabled]
    cases loading with
    | false => rfl
    | true => rfl
  | @refusedBrokenOff response h e htext =>
    rw [step, hdisabled, Reader.step, showResults_refusedBrokenOff h (body_brokenOff response htext)]
    cases loading <;> cases view <;> rfl
  | @refused response h text htext =>
    have hplain : (errorBody text).Plain := plain_obj.mpr ⟨by simp, by simp [Json.Plain]⟩
    have hbody := body_of_parse response htext (parse_stringify_self 0 hplain)
    rw [step, hdisabled, Reader.step, showResults_refused h hbody]
    cases loading <;> cases view <;> rfl
  | unreachable e =>
    rw [step, hdisabled, Reader.step]
    cases loading <;> cases view <;> rfl

theorem run_page {events : List Event} {acts : List Act} (h : List.Forall₂ Conveys events acts) :
    run dates events = (reader dates acts).page dates := by
  suffices H : ∀ r : Reader, events.foldl (step dates) (r.page dates) =
      (acts.foldl (Reader.step dates) r).page dates from
    H ⟨true, "Loading latest browser results", none⟩
  induction h with
  | nil => exact fun r => rfl
  | cons hstep _ ih =>
    intro r
    rw [List.foldl_cons, List.foldl_cons, step_page hstep, ih]

theorem exists_forall₂ {α β : Type} {R : α → β → Prop} {xs : List α} (h : ∀ x ∈ xs, ∃ y, R x y) :
    ∃ ys, List.Forall₂ R xs ys := by
  induction xs with
  | nil => exact ⟨[], .nil⟩
  | cons x xs ih =>
    obtain ⟨ys, hys⟩ := ih fun x hx => h x (List.mem_cons_of_mem _ hx)
    obtain ⟨y, hy⟩ := h x List.mem_cons_self
    exact ⟨y :: ys, .cons hy hys⟩

/-! ### The page and its server -/

section Site

variable (newUrl : String → String → Option String) (server : PageServer)
  (localeCompare : String → String → Int) (config : Config) (a : Archive)
  (file temporary : Option String)

/-- What becomes of a fetch that the server answers, if it does, when `before` has happened to it: it
    fails, or there is the answer, whole or with a body that breaks off. -/
inductive Fetches (before : List Server.Event) : Except Error Response → Prop where
  | unreachable (e : Error) : Fetches before (.error e)
  | answered {req : Request} {answers : Answers} {generatedAt : String} {status : Nat}
      {headers : Headers} {text : String} {body : Except Error String}
      (hurl : newUrl (req.url.getD "/") req.base = some "/api/browser-results")
      (hget : req.method = "GET")
      (hsnapshot : answers.snapshot = publicSnapshot localeCompare generatedAt
        (serve config a file temporary before).queue.shared.state)
      (hwrites : ((requestHandler newUrl server answers req).run.run fresh).2.writes =
        [.head status headers, .finish (.text text)])
      (hbody : ∀ whole, body = .ok whole → whole = text) :
      Fetches before (.ok ⟨status, body⟩)

/-- An overview is up to date with the store to which `before` has happened. -/
def UpToDate (before : List Server.Event) : Act → Prop
  | .answered (.overview _ latest changes) => Current localeCompare config a
    (resolved (serve config a file temporary before).queue.calls) latest changes
  | _ => True

variable {newUrl server localeCompare config a file temporary}

theorem fetches_conveys (hcollates : Collates localeCompare) {before : List Server.Event}
    {r : Except Error Response}
    (h : Fetches newUrl server localeCompare config a file temporary before r) :
    ∃ act, Conveys (.fetched r) act ∧ UpToDate localeCompare config a file temporary before act := by
  cases h with
  | unreachable e => exact ⟨_, .unreachable e, trivial⟩
  | @answered req answers generatedAt status headers text body hurl hget hsnapshot hwrites hbody =>
    obtain ⟨latest, changes, hok, hcurrent⟩ :=
      serve_current hcollates config a file temporary before generatedAt
    rw [hok] at hsnapshot
    cases henabled : server.resultsEnabled with
    | false =>
      have hresponds : Responds 503 (stringify 0 (errorBody "browser results are disabled"))
          ((requestHandler newUrl server answers req).run.run fresh).2 := by
        simp only [requestHandler, hurl, handleBrowserResults, henabled]
        exact ⟨_, rfl⟩
      obtain ⟨rfl, rfl⟩ := hresponds.written hwrites
      cases body with
      | ok whole =>
        obtain rfl := hbody whole rfl
        exact ⟨_, .refused rfl _ rfl, trivial⟩
      | error e => exact ⟨_, .refusedBrokenOff rfl e rfl, trivial⟩
    | true =>
      obtain ⟨rfl, rfl⟩ := (get_responds answers henabled hurl hget hsnapshot).written hwrites
      cases body with
      | ok whole =>
        obtain rfl := hbody whole rfl
        exact ⟨_, .overview generatedAt latest changes, hcurrent⟩
      | error e => exact ⟨_, .brokenOff rfl e rfl, trivial⟩

variable (newUrl server) in
/-- However the page's fetches end and whatever its reader clicks, the page shows what the reader is
    told by the server: overviews that were up to date when the server gave them. Each event comes
    with what had happened to the server when it answered. -/
theorem overview_shown (hcollates : Collates localeCompare) (dates : Dates)
    (events : List (Event × List Server.Event))
    (hfetches : ∀ r before, (.fetched r, before) ∈ events →
      Fetches newUrl server localeCompare config a file temporary before r) :
    ∃ acts, List.Forall₂ (fun e act => Conveys e.1 act ∧
        UpToDate localeCompare config a file temporary e.2 act) events acts ∧
      run dates (events.map Prod.fst) = (reader dates acts).page dates := by
  have hevents : ∀ e ∈ events, ∃ act, Conveys e.1 act ∧
      UpToDate localeCompare config a file temporary e.2 act := by
    rintro ⟨e, before⟩ he
    cases e with
    | refresh => exact ⟨_, .refresh, trivial⟩
    | fetched r => exact fetches_conveys hcollates (hfetches r before he)
    | choose matrix option => exact ⟨_, .choose matrix option, trivial⟩
  obtain ⟨acts, hacts⟩ := exists_forall₂ hevents
  refine ⟨acts, hacts, run_page ?_⟩
  rw [List.forall₂_map_left_iff]
  exact hacts.imp fun _ _ h => h.1

end Site

/-- The dates of one submission, for a reader in Greenwich. -/
def greenwich : Dates where
  parse text := [("2026-07-16T12:00:00.000Z", 1784203200000),
    ("2026-07-16T12:00:01.000Z", 1784203201000)].lookup text
  ofNumber n := match n with
    | .int t => some t
    | _ => none
  format _ := "Jul 16, 2026, 12:00 PM"

/-- A load before the one submission, and one behind it. -/
theorem oneSubmission_shown : ∃ r r', Fetches plainUrl pageServer byCodePoint ⟨100, false⟩ .empty none none
    [] (.ok r) ∧ Fetches plainUrl pageServer byCodePoint ⟨100, false⟩ .empty none none oneSubmission
    (.ok r') ∧ ∃ acts, List.Forall₂ (fun e act => Conveys e.1 act ∧
        UpToDate byCodePoint ⟨100, false⟩ .empty none none e.2 act)
      [(.fetched (.ok r), []), (.refresh, oneSubmission), (.fetched (.ok r'), oneSubmission)] acts ∧
      run greenwich [.fetched (.ok r), .refresh, .fetched (.ok r')] =
        (reader greenwich acts).page greenwich := by
  have hurl : plainUrl ((getRequest "/api/browser-results").url.getD "/")
      (getRequest "/api/browser-results").base = some "/api/browser-results" := by decide
  have hanswered (before : List Server.Event) : ∃ r : Response,
      Fetches plainUrl pageServer byCodePoint ⟨100, false⟩ .empty none none before (.ok r) := by
    obtain ⟨latest, changes, hok, -⟩ := serve_current byCodePoint_collates ⟨100, false⟩ .empty none none
      before "2026-07-16T12:00:01.000Z"
    obtain ⟨headers, hwrites⟩ := get_responds { afterwards with
        snapshot := publicSnapshot byCodePoint "2026-07-16T12:00:01.000Z"
          (serve ⟨100, false⟩ .empty none none before).queue.shared.state }
      (rfl : pageServer.resultsEnabled = true) hurl rfl hok
    exact ⟨⟨200, .ok _⟩, .answered hurl rfl rfl hwrites fun whole h => (Except.ok.inj h).symm⟩
  obtain ⟨r, hr⟩ := hanswered []
  obtain ⟨r', hr'⟩ := hanswered oneSubmission
  refine ⟨r, r', hr, hr', overview_shown plainUrl pageServer byCodePoint_collates greenwich
    [(.fetched (.ok r), []), (.refresh, oneSubmission), (.fetched (.ok r'), oneSubmission)]
    fun q before hq => ?_⟩
  simp only [List.mem_cons, Prod.mk.injEq, Event.fetched.injEq, reduceCtorEq, false_and, false_or,
    List.not_mem_nil, or_false] at hq
  rcases hq with ⟨rfl, rfl⟩ | ⟨rfl, rfl⟩
  · exact hr
  · exact hr'

/-! ### The tables agree -/

/-- How many rows say this in a column. -/
def tally (rows : List Row) (column : Nat) (text : String) : Nat :=
  (rows.filter fun row => decide (row[column]?.map Cell.text = some text)).length

/-- What the table of the paths says of a path, by the rows of its matrix. -/
def summary (name signal : String) (rows : List Row) : Row :=
  let passed (column : Nat) : Cell := countCell (tally rows column "pass") rows.length
  [textCell name "", passed 1, passed 2, passed 3, passed 4,
    if tally rows 5 "not exposed" = tally rows 2 "pass" ∧ 0 < tally rows 2 "pass" then
      textCell "not exposed" "warn"
    else passed 5,
    textCell signal (if 0 < tally rows 2 "pass" then "muted" else "bad")]

theorem tally_stored {column : Nat} (stage : Stage) {text : String} {o : Outcome}
    (hcolumn : ∀ c : Combination, (combinationView c)[column]? = some (outcomeCell (c.outcome stage)))
    (htext : ∀ o' : Outcome, (outcomeCell o').text = text ↔ o' = o) (cs : List Combination) :
    tally (cs.map combinationView) column text = outcomeCount cs stage o := by
  rw [tally, List.filter_map, List.length_map, outcomeCount]
  congr 1
  refine List.filter_congr fun c _ => ?_
  rw [Function.comp, hcolumn, Option.map_some, decide_eq_decide, Option.some.injEq]
  exact htext _

theorem pathView_summary {p : PathResult} (h : p.WellFormed) :
    pathView p = summary p.path.text p.signal (p.combinations.map combinationView) := by
  have hpass : ∀ o : Outcome, (outcomeCell o).text = "pass" ↔ o = .pass := by
    intro o
    cases o <;> decide
  have hhidden : ∀ o : Outcome, (outcomeCell o).text = "not exposed" ↔ o = .unavailable := by
    intro o
    cases o <;> decide
  have htotal : (p.combinations.map combinationView).length = p.total := by
    have hmasks := congrArg List.length h.masks
    rwa [List.length_map, List.length_range, ← List.length_map (f := combinationView)] at hmasks
  have hcount (column : Nat) (stage : Stage) (hcolumn : ∀ c : Combination,
      (combinationView c)[column]? = some (outcomeCell (c.outcome stage))) :
      tally (p.combinations.map combinationView) column "pass" = p.count (.stage stage) := by
    rw [tally_stored stage hcolumn hpass, h.passed]
  have hunavailable : tally (p.combinations.map combinationView) 5 "not exposed" =
      p.count .datagramUnavailable := by
    rw [tally_stored .datagram (fun _ => rfl) hhidden, h.unavailable]
  rw [pathView, summary]
  simp only [hcount 1 .constructor fun _ => rfl, hcount 2 .ready fun _ => rfl,
    hcount 3 .bidirectionalStream fun _ => rfl, hcount 4 .unidirectionalStream fun _ => rfl,
    hcount 5 .datagram fun _ => rfl, hunavailable, htotal]
  rfl

/-- The cells of a GREASE row bear out the verdict. -/
def BearsOut (row : Row) : Prop :=
  ∃ label control enabled controlEcho enabledEcho verdict,
    row = [label, control, enabled, controlEcho, enabledEcho, verdict] ∧
    (verdict.text = "GREASE tolerated" →
      control.text = "pass" ∧ enabled = control ∧ enabledEcho = controlEcho) ∧
    (verdict.text = "Post-ready behavior changed" → control.text = "pass" ∧ enabled.text = "pass") ∧
    (verdict.text = "Affected by GREASE" →
      control.text = "pass" ∧ enabled.text ≠ "pass" ∧ enabledEcho.text = "not run") ∧
    (verdict.text = "Control failed" → control.text ≠ "pass" ∧ controlEcho.text = "not run") ∧
    (verdict.text = "API unavailable" → control.text = "not run" ∧ enabled.text = "not run" ∧
      controlEcho.text = "not run" ∧ enabledEcho.text = "not run") ∧
    verdict.text ∈ ["GREASE tolerated", "Post-ready behavior changed", "Affected by GREASE",
      "Control failed", "API unavailable"]

theorem greaseView_bearsOut {s : Stored} {g : Grease} (h : s.snapshot.grease = some g) :
    BearsOut (greaseView s.snapshot g) := by
  have hverdict := (s.wellFormed.grease g h).verdict
  have hpass {o : Outcome} (ho : o ≠ .pass) : (outcomeCell o).text ≠ "pass" := by
    revert ho
    cases o <;> decide
  have hpassed : (outcomeCell .pass).text = "pass" := rfl
  have hecho {p : Probe} (hp : p .ready ≠ .pass) : (echoCell p).text = "not run" := by
    rw [echoCell, if_pos hp]
    rfl
  refine ⟨_, _, _, _, _, _, rfl, ?_⟩
  rw [hverdict, verdictOf]
  split_ifs with hidle hcontrol henabled hdiffer
  · obtain ⟨hcontrol, henabled⟩ := (s.wellFormed.grease g h).idle hidle .ready
    have hidle' {p : Probe} (hp : p .ready = .notRun) : (echoCell p).text = "not run" :=
      hecho (by rw [hp]; decide)
    have hnotRun : (outcomeCell .notRun).text = "not run" := rfl
    simp [verdictCell, textCell, hcontrol, henabled, hidle' hcontrol, hidle' henabled, hnotRun]
  · simp [verdictCell, textCell, hpass hcontrol, hecho hcontrol]
  · rw [ne_eq, not_not] at hcontrol
    simp [verdictCell, textCell, hpass henabled, hecho henabled, hcontrol, hpassed]
  · rw [ne_eq, not_not] at hcontrol henabled
    simp [verdictCell, textCell, hcontrol, henabled, hpassed]
  · have hsame : g.control = g.enabled := by
      funext stage
      by_contra hne
      exact hdiffer ⟨stage, mem_greaseProbeKeys stage, hne⟩
    rw [ne_eq, not_not] at hcontrol
    simp [verdictCell, textCell, ← hsame, hcontrol, hpassed]

/-- In each matrix a path is chosen that it has. -/
def View.Chosen (v : View) : Prop :=
  ∀ i s, (matrixed v.latest)[i]? = some s → v.chosen i < (matrixPaths s.snapshot).length

theorem matrixed_pos {latest : List Stored} {i : Nat} {s : Stored} (h : (matrixed latest)[i]? = some s) :
    0 < (matrixPaths s.snapshot).length := by
  have hmatrix := (List.mem_filter.mp (List.mem_of_getElem? h)).2
  rw [List.length_pos_iff]
  simpa using hmatrix

theorem step_chosen {r : Reader} (h : ∀ v ∈ r.view, v.Chosen) (act : Act) :
    ∀ v ∈ (r.step dates act).view, v.Chosen := by
  cases act with
  | refresh =>
    simp only [Reader.step]
    split_ifs
    · exact h
    · exact h
  | answered a =>
    cases a with
    | overview generatedAt latest changes =>
      simp only [Reader.step]
      split_ifs
      · exact h
      · rintro v ⟨⟩ i s hs
        exact matrixed_pos hs
    | brokenOff =>
      simp only [Reader.step]
      split_ifs
      · exact h
      · rintro v ⟨⟩ i s hs
        exact matrixed_pos hs
    | failed text =>
      simp only [Reader.step]
      split_ifs
      · exact h
      · exact h
  | choose matrix option =>
    intro v hv i s hs
    obtain ⟨old, hold, rfl⟩ := Option.map_eq_some_iff.mp hv
    have hchosen := h old hold i s hs
    have hs' : (matrixed old.latest)[i]? = some s := hs
    rw [View.choose]
    simp only [hs', Option.mem_some_iff, forall_eq']
    split_ifs with hi
    · exact hi.2
    · exact hchosen

theorem reader_chosen (acts : List Act) : ∀ v ∈ (reader dates acts).view, v.Chosen := by
  induction acts using List.reverseRecOn with
  | nil => rintro v ⟨⟩
  | append_singleton acts act ih =>
    rw [reader, List.foldl_append]
    exact step_chosen ih act

/-- The tables of a page agree: each matrix is summed up in a row of the same browser's paths, and the
    GREASE probes bear out their verdict. -/
structure Agrees (d : Dom) : Prop where
  matrices : ∀ m ∈ d.matrixDetails, ∃ detail ∈ d.pathDetails,
    detail.title = m.title ∧ detail.received = m.received ∧
    ∃ name signal, (name, name) ∈ m.options ∧ summary name signal m.rows ∈ detail.rows
  grease : ∀ row ∈ d.greaseBody, BearsOut row

theorem shown_agrees {v : View} (h : v.Chosen) (status : String) (disabled : Bool) :
    Agrees (shown dates v status disabled) := by
  constructor
  · intro m hm
    obtain ⟨i, hi⟩ := List.mem_iff_getElem?.mp hm
    rw [shown, List.getElem?_mapIdx] at hi
    obtain ⟨s, hs, rfl⟩ := Option.map_eq_some_iff.mp hi
    have hlatest := (List.mem_filter.mp (List.mem_of_getElem? hs)).1
    have hlt := h i s hs
    let p := (matrixPaths s.snapshot)[v.chosen i]
    have hp : p ∈ matrixPaths s.snapshot := List.getElem_mem hlt
    have hpaths : p ∈ s.snapshot.paths := (List.mem_filter.mp hp).1
    refine ⟨detailView dates s.snapshot, List.mem_map_of_mem hlatest, rfl, rfl, p.path.text, p.signal,
      List.mem_map_of_mem hp, ?_⟩
    have hrows : (matrixView dates s.snapshot (v.chosen i)).rows = p.combinations.map combinationView := by
      rw [matrixView, List.getElem?_eq_getElem hlt]
      rfl
    rw [hrows, ← pathView_summary (s.wellFormed.path p hpaths)]
    exact List.mem_map_of_mem hpaths
  · intro row hrow
    obtain ⟨s, -, hgrease⟩ := List.mem_filterMap.mp hrow
    obtain ⟨g, hg, rfl⟩ := Option.map_eq_some_iff.mp hgrease
    exact greaseView_bearsOut hg

end WebTransportEcho.Results
