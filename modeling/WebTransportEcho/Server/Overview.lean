import WebTransportEcho.Server.Submissions
import WebTransportEcho.Server.Answered

/-! What a reader is shown, at any moment of a server's run. The overview agrees with what the posters
    were told: for each family it has one entry, of the submission that was accepted last, and its
    changes are the last of those that posters were told of (`overview_current`). What one reader has
    seen is never taken back for the next. -/

namespace WebTransportEcho.Server
open Js Store

variable {config : Config}

/-! ### What the posters were told -/

/-- A submission, and what its call has resolved to. -/
structure Told where
  input : Json
  recorded : Recorded

def resolution : Serial.Call Json Frame (Except Error Recorded) → Option Told
  | .settled input (.ok recorded) => some ⟨input, recorded⟩
  | _ => none

/-- What the calls have resolved to, in their order. -/
def resolved (calls : List (Serial.Call Json Frame (Except Error Recorded))) : List Told :=
  calls.filterMap resolution

theorem resolved_append (calls more : List (Serial.Call Json Frame (Except Error Recorded))) :
    resolved (calls ++ more) = resolved calls ++ resolved more := List.filterMap_append

theorem resolved_unsettled {calls : List (Serial.Call Json Frame (Except Error Recorded))}
    (h : ∀ c ∈ calls, c.isSettled = false) : resolved calls = [] := by
  refine List.filterMap_eq_nil_iff.mpr fun c hc => ?_
  have hunsettled := h c hc
  match c, hunsettled with
  | .waiting _, _ => rfl
  | .running _ _, _ => rfl

/-- What an archive becomes when one submission after the other is accepted and recorded, and what
    their posters are told. -/
inductive Recording (config : Config) (a : Archive) : List Told → Archive → Prop where
  | nil : Recording config a [] a
  | snoc {told : List Told} {b : Archive} {input : Json} {s : Stored}
      (h : Recording config a told b)
      (hs : sanitizeSubmission input s.snapshot.receivedAt config.requireGrease = .ok s.snapshot) :
      Recording config a (told ++ [⟨input, b.recorded s⟩]) (b.record s)

/-- Calls one at a time record what they resolve to. -/
theorem recordAll_recording (config : Config) (a : Archive) (file : Option String)
    (calls : List (Json × Attempt)) : ∃ b file',
      Recording config a (resolved (List.zipWith (fun call r => .settled call.1 r) calls
        (recordAll config ⟨a.toState config.maxChanges, file⟩ calls).2)) b ∧
      (recordAll config ⟨a.toState config.maxChanges, file⟩ calls).1 =
        ⟨b.toState config.maxChanges, file'⟩ := by
  induction calls using List.reverseRecOn with
  | nil => exact ⟨a, file, .nil, rfl⟩
  | append_singleton calls call ih =>
    obtain ⟨b, file', hrecording, hall⟩ := ih
    have hlength := recordAll_length config ⟨a.toState config.maxChanges, file⟩ calls
    rw [recordAll_snoc, List.zipWith_append hlength.symm, resolved_append, hall]
    rcases recordOne_toState config b file' call with ⟨e, hone⟩ | ⟨s, hs, hone⟩
    · rw [hone]
      exact ⟨b, file', by rwa [← List.append_nil (resolved _)] at hrecording, rfl⟩
    · rw [hone]
      obtain ⟨receivedAt, -, hs⟩ := hs
      obtain rfl := (sanitizeSubmission_eq_ok.mp hs).1
      exact ⟨b.record s, _, hrecording.snoc hs, rfl⟩

/-- The state of a store is what its calls have recorded; those that are settled come first. -/
theorem store_recording (config : Config) (a : Archive) (file temporary : Option String)
    (events : List (Serial.Event (recordProcedure config))) :
    let m := runStore config (a.toState config.maxChanges) file temporary events
    ∃ b n, Recording config a (resolved m.calls) b ∧ m.shared.state = b.toState config.maxChanges ∧
      (∀ c ∈ m.calls.take n, c.isSettled = true) ∧ ∀ c ∈ m.calls.drop n, c.isSettled = false := by
  intro m
  obtain ⟨calls, stored, h⟩ := run_sequential config a file temporary events
  obtain ⟨b, file', hrecording, hall⟩ := recordAll_recording config a file calls
  refine ⟨b, calls.length, ?_, by rw [h.state, hall], fun c hc => ?_, h.unsettled⟩
  · rwa [← List.take_append_drop calls.length m.calls, resolved_append, resolved_unsettled h.unsettled,
      List.append_nil, h.settled]
  · rw [h.settled] at hc
    obtain ⟨i, hi, rfl⟩ := List.mem_iff_getElem.mp hc
    rw [List.getElem_zipWith]
    rfl

/-! ### What the archive makes of it -/

theorem find_putLatest (s : Stored) (f : Family) : ∀ ts : List Stored,
    (putLatest s ts).find? (fun t => decide (t.family = f)) =
      if s.family = f then some s else ts.find? fun t => decide (t.family = f)
  | [] => by
    rw [putLatest, List.find?_cons]
    by_cases h : s.family = f <;> simp [h]
  | t :: ts => by
    rw [putLatest]
    by_cases hts : t.family = s.family
    · rw [if_pos hts, List.find?_cons, List.find?_cons, hts]
      by_cases h : s.family = f <;> simp [h]
    · rw [if_neg hts, List.find?_cons, List.find?_cons, find_putLatest s f ts]
      by_cases ht : t.family = f
      · have hs : s.family ≠ f := fun h => hts (ht.trans h.symm)
        simp [ht, hs]
      · simp [ht]

theorem find_record (a : Archive) (s : Stored) (f : Family) :
    (a.record s).find f = if s.family = f then some s else a.find f := find_putLatest s f a.latest

/-- The last that was told of a family. -/
def lastOf (f : Family) (told : List Told) : Option Told :=
  told.reverse.find? fun t => decide (t.recorded.browserKey = f.key)

theorem lastOf_snoc (f : Family) (told : List Told) (t : Told) :
    lastOf f (told ++ [t]) = if t.recorded.browserKey = f.key then some t else lastOf f told := by
  rw [lastOf, List.reverse_append, List.reverse_singleton, List.singleton_append, List.find?_cons]
  by_cases h : t.recorded.browserKey = f.key <;> simp [h, lastOf]

/-- What is kept of a family: what the submission that was told of last was accepted as, or, when
    none was, what there was before. -/
def Newest (config : Config) (told : List Told) (f : Family) (before now : Option Stored) : Prop :=
  match lastOf f told with
  | some t => ∃ s, now = some s ∧
      sanitizeSubmission t.input t.recorded.receivedAt config.requireGrease = .ok s.snapshot
  | none => now = before

theorem Recording.newest {a b : Archive} {told : List Told} (h : Recording config a told b)
    (f : Family) : Newest config told f (a.find f) (b.find f) := by
  induction h with
  | nil => rfl
  | @snoc told b input s h hs ih =>
    rw [Newest, lastOf_snoc, find_record]
    have hkey : (b.recorded s).browserKey = s.family.key := rfl
    by_cases hfamily : s.family = f
    · rw [if_pos (hkey.trans (congrArg Family.key hfamily)), if_pos hfamily]
      exact ⟨s, rfl, hs⟩
    · rw [if_neg fun hk => hfamily (Family.key_injective (hkey.symm.trans hk)), if_neg hfamily]
      exact ih

/-- A change, as far as its poster was told of it. -/
structure Noted where
  receivedAt : String
  browserKey : String
  changes : List String

def Change.noted (c : Change) : Noted := ⟨c.receivedAt, c.browser.family.key, c.changes⟩

def Told.noted (t : Told) : Noted where
  receivedAt := t.recorded.receivedAt
  browserKey := t.recorded.browserKey
  changes := if t.recorded.differences = [] then ["Initial result recorded"] else t.recorded.differences

/-- The changes that were told of, in their order. -/
def changesOf (told : List Told) : List Noted :=
  (told.filter fun t => t.recorded.changed).map Told.noted

theorem log_record (a : Archive) (s : Stored) (input : Json) : (a.record s).log.map Change.noted =
    a.log.map Change.noted ++ changesOf [⟨input, a.recorded s⟩] := by
  rw [Archive.record, List.map_append]
  congr 1
  cases hold : a.find s.family with
  | none =>
    have hfirst : a.changesFor s = some ["Initial result recorded"] := by rw [Archive.changesFor, hold]
    rw [changesOf, Archive.recorded, hfirst, hold]
    simp [Told.noted, Change.noted, Stored.family]
  | some old =>
    rw [changesOf, Archive.recorded, differences_of_changesFor hold, hold]
    by_cases hnone : differences old.snapshot s.snapshot = []
    · simp [hnone]
    · simp [hnone, Told.noted, Change.noted, Stored.family]

/-- The log is what was there and what was told. -/
theorem Recording.log {a b : Archive} {told : List Told} (h : Recording config a told b) :
    b.log.map Change.noted = a.log.map Change.noted ++ changesOf told := by
  induction h with
  | nil => exact (List.append_nil _).symm
  | @snoc told b input s h hs ih =>
    rw [log_record b s input, ih, List.append_assoc, changesOf, changesOf, changesOf, ← List.map_append,
      ← List.filter_append]

/-! ### The overview -/

/-- The order of a locale: any two names compare, and consistently. -/
structure Collates (localeCompare : String → String → Int) : Prop where
  total : ∀ s t, localeCompare s t ≤ 0 ∨ localeCompare t s ≤ 0
  trans : ∀ s t u, localeCompare s t ≤ 0 → localeCompare t u ≤ 0 → localeCompare s u ≤ 0

def Stored.name (s : Stored) : String := s.snapshot.browser.family.name

def Stored.json (s : Stored) : Json := s.snapshot.toJson

/-- Listed by name. -/
def Listed (localeCompare : String → String → Int) (latest : List Stored) : Prop :=
  latest.Pairwise fun s t => localeCompare (Stored.name s) (Stored.name t) ≤ 0

theorem compareNames_stored (localeCompare : String → String → Int) (s t : Stored) :
    compareNames localeCompare (Stored.json s) (Stored.json t) =
      .ok (localeCompare (Stored.name s) (Stored.name t)) := by
  simp only [compareNames, Stored.json, snapshot_dot, Snapshot.get_browser, browser_dot,
    Browser.get_name, ok_bind]
  rfl

variable {localeCompare : String → String → Int}

theorem insertSorted_stored (h : Collates localeCompare) (s : Stored) : ∀ ts : List Stored,
    Listed localeCompare ts → ∃ us, insertSorted (compareNames localeCompare) (Stored.json s)
      (ts.map Stored.json) = .ok (us.map Stored.json) ∧ us.Perm (s :: ts) ∧ Listed localeCompare us
  | [], _ => ⟨[s], rfl, .refl _, List.pairwise_singleton _ _⟩
  | t :: ts, hlisted => by
    obtain ⟨hle, hrest⟩ := List.pairwise_cons.mp hlisted
    rw [List.map_cons, insertSorted, compareNames_stored, ok_bind]
    by_cases hts : localeCompare (Stored.name t) (Stored.name s) ≤ 0
    · obtain ⟨us, hinsert, hperm, hus⟩ := insertSorted_stored h s ts hrest
      rw [if_pos hts, hinsert]
      refine ⟨t :: us, rfl, (hperm.cons t).trans (.swap s t ts), List.pairwise_cons.mpr ⟨?_, hus⟩⟩
      intro u hu
      rcases List.mem_cons.mp (hperm.subset hu) with rfl | hmem
      · exact hts
      · exact hle u hmem
    · have hst := (h.total _ _).resolve_left hts
      rw [if_neg hts]
      refine ⟨s :: t :: ts, rfl, .refl _, List.pairwise_cons.mpr ⟨?_, hlisted⟩⟩
      intro u hu
      rcases List.mem_cons.mp hu with rfl | hmem
      · exact hst
      · exact h.trans _ _ _ hst (hle u hmem)

theorem sortItems_stored (h : Collates localeCompare) (ss : List Stored) :
    ∃ us, sortItems (compareNames localeCompare) (ss.map Stored.json) = .ok (us.map Stored.json) ∧
      us.Perm ss ∧ Listed localeCompare us := by
  induction ss using List.reverseRecOn with
  | nil => exact ⟨[], rfl, .refl _, List.Pairwise.nil⟩
  | append_singleton ss s ih =>
    obtain ⟨us, hsort, hperm, hus⟩ := ih
    obtain ⟨vs, hinsert, hperm', hvs⟩ := insertSorted_stored h s us hus
    refine ⟨vs, ?_, hperm'.trans ((hperm.cons s).trans (List.perm_append_singleton s ss).symm), hvs⟩
    rw [sortItems] at hsort ⊢
    rw [List.map_append, List.foldlM_append, hsort]
    exact (bind_pure _).trans hinsert

/-- The text of an overview. -/
def overview (generatedAt : String) (latest : List Stored) (changes : List Change) : Json :=
  .obj [("schemaVersion", .nat resultSchemaVersion), ("generatedAt", .str generatedAt),
    ("latest", .arr (latest.map Stored.json)), ("changes", .arr (changes.map Change.toJson))]

/-- An overview that is up to date with what was told since the server started with an archive. -/
structure Current (localeCompare : String → String → Int) (config : Config) (a : Archive)
    (told : List Told) (latest : List Stored) (changes : List Change) : Prop where
  listed : Listed localeCompare latest
  distinct : (latest.map Stored.family).Nodup
  newest : ∀ f, Newest config told f (a.find f) (latest.find? fun s => decide (s.family = f))
  changes : changes.map Change.noted =
    (sliceLast config.maxChanges (a.log.map Change.noted ++ changesOf told)).reverse

theorem find?_of_nodup {α κ : Type} [DecidableEq κ] {key : α → κ} {xs : List α}
    (hnodup : (xs.map key).Nodup) {x : α} (hx : x ∈ xs) :
    xs.find? (fun y => decide (key y = key x)) = some x := by
  have hfound : (xs.find? fun y => decide (key y = key x)).isSome = true :=
    List.find?_isSome.mpr ⟨x, hx, decide_eq_true rfl⟩
  obtain ⟨y, hy⟩ := Option.isSome_iff_exists.mp hfound
  have hkey := List.find?_some hy
  rw [decide_eq_true_eq] at hkey
  rw [hy, List.inj_on_of_nodup_map hnodup (List.mem_of_find?_eq_some hy) hx hkey]

theorem find?_perm {ss ts : List Stored} (h : ss.Perm ts) (hdistinct : (ss.map Stored.family).Nodup)
    (f : Family) : ss.find? (fun s => decide (s.family = f)) = ts.find? fun s => decide (s.family = f) := by
  cases hts : ts.find? fun s => decide (s.family = f) with
  | none =>
    rw [List.find?_eq_none] at hts ⊢
    exact fun s hs => hts s (h.subset hs)
  | some t =>
    have ht := List.find?_some hts
    rw [decide_eq_true_eq] at ht
    rw [← ht]
    exact find?_of_nodup hdistinct (h.symm.subset (List.mem_of_find?_eq_some hts))

theorem map_sliceLast {α β : Type} (g : α → β) (n : Nat) (xs : List α) :
    (sliceLast n xs).map g = sliceLast n (xs.map g) := by
  rw [sliceLast, sliceLast]
  split
  · rfl
  · rw [List.map_drop, List.length_map]

/-- The snapshot of a state that stands for an archive. -/
theorem publicSnapshot_current (h : Collates localeCompare) {a b : Archive} {told : List Told}
    (hb : Recording config a told b) (generatedAt : String) : ∃ latest changes,
      publicSnapshot localeCompare generatedAt (b.toState config.maxChanges) =
        .ok (overview generatedAt latest changes) ∧
      Current localeCompare config a told latest changes := by
  obtain ⟨latest, hsort, hperm, hlisted⟩ := sortItems_stored h b.latest
  have hdistinct : (latest.map Stored.family).Nodup :=
    (hperm.map Stored.family).nodup_iff.mpr b.distinct
  refine ⟨latest, (sliceLast config.maxChanges b.log).reverse, ?_, hlisted, hdistinct, fun f => ?_, ?_⟩
  · have hentries : (b.toState config.maxChanges).latest.entries.map Prod.snd =
        b.latest.map Stored.json := by
      rw [Archive.toState, Json.entries, List.map_map]
      rfl
    rw [publicSnapshot, hentries, hsort, ok_bind, overview, Archive.toState, List.map_reverse,
      map_sliceLast]
  · rw [find?_perm hperm hdistinct f]
    exact hb.newest f
  · rw [List.map_reverse, map_sliceLast, hb.log]

/-! ### From one reader to the next -/

theorem run_settled (store : Shared) (before after : List Event) {n : Nat} {input : Json}
    {r : Except Error Recorded}
    (h : (run store before : Accepting config).queue.calls[n]? = some (.settled input r)) :
    (run store (before ++ after) : Accepting config).queue.calls[n]? = some (.settled input r) := by
  induction after using List.reverseRecOn with
  | nil => rwa [List.append_nil]
  | append_singleton after e ih =>
    rw [← List.append_assoc, run_snoc]
    rcases step_queue (run store (before ++ after) : Accepting config) e with hsame | ⟨q, hstep, -⟩
    · rw [hsame, ih]
    · rw [hstep, Serial.step_settled q ih]

/-- What is told stays told when the settled calls stay, and come first. -/
theorem resolved_extends {calls later : List (Serial.Call Json Frame (Except Error Recorded))} {n : Nat}
    (hsettled : ∀ c ∈ calls.take n, c.isSettled = true)
    (hrest : ∀ c ∈ calls.drop n, c.isSettled = false)
    (hstays : ∀ (k : Nat) (input : Json) (r : Except Error Recorded),
      calls[k]? = some (.settled input r) → later[k]? = some (.settled input r)) :
    resolved calls <+: resolved later := by
  have htake : calls.take n <+: later := by
    rw [List.prefix_iff_getElem?]
    intro k hk
    have hmem := hsettled _ (List.getElem_mem hk)
    have hget : calls[k]? = some (calls.take n)[k] := by
      rw [List.getElem_take]
      exact List.getElem?_eq_getElem _
    revert hmem
    generalize hc : (calls.take n)[k] = c
    intro hmem
    match c, hmem with
    | .settled input r, _ => exact hstays k input r (hget.trans (congrArg some hc))
  rw [← List.take_append_drop n calls, resolved_append, resolved_unsettled hrest, List.append_nil]
  exact htake.filterMap resolution

/-- At any moment, the snapshot of the store is up to date. -/
theorem serve_current (hcollates : Collates localeCompare) (config : Config) (a : Archive)
    (file temporary : Option String) (before : List Event) (generatedAt : String) : ∃ latest changes,
      publicSnapshot localeCompare generatedAt
        (serve config a file temporary before).queue.shared.state = .ok (overview generatedAt latest changes) ∧
      Current localeCompare config a (resolved (serve config a file temporary before).queue.calls)
        latest changes := by
  obtain ⟨queued, hqueue, -⟩ :=
    @run_queue config ⟨⟨a.toState config.maxChanges, file⟩, temporary⟩ before
  rw [← serve] at hqueue
  obtain ⟨b, n, hrecording, hstate, -⟩ := store_recording config a file temporary queued
  rw [runStore, ← hqueue] at hrecording hstate
  rw [hstate]
  exact publicSnapshot_current hcollates hrecording generatedAt

/-- What is told stays told. -/
theorem serve_extends (config : Config) (a : Archive) (file temporary : Option String)
    (before after : List Event) : resolved (serve config a file temporary before).queue.calls <+:
      resolved (serve config a file temporary (before ++ after)).queue.calls := by
  obtain ⟨queued, hqueue, -⟩ :=
    @run_queue config ⟨⟨a.toState config.maxChanges, file⟩, temporary⟩ before
  rw [← serve] at hqueue
  obtain ⟨b, n, -, -, hsettled, hrest⟩ := store_recording config a file temporary queued
  rw [runStore, ← hqueue] at hsettled hrest
  exact resolved_extends hsettled hrest fun k input r => run_settled _ before after

/-- A reader is given the snapshot of the store. -/
theorem get_responds {newUrl : String → String → Option String} {server : PageServer}
    (answers : Answers) {req : Request} (henabled : server.resultsEnabled = true)
    (hurl : newUrl (req.url.getD "/") req.base = some "/api/browser-results") (hget : req.method = "GET")
    {snapshot : Json} (hsnapshot : answers.snapshot = .ok snapshot) :
    Responds 200 (stringify 0 snapshot) ((requestHandler newUrl server answers req).run.run fresh).2 := by
  simp only [requestHandler, hurl, handleBrowserResults, henabled, hget, hsnapshot]
  exact ⟨_, rfl⟩

/-- At any moment of a server's run, a reader is shown the snapshots that were accepted last, one for
    each family, and the last of the changes that posters were told of. What was told before it is
    told of from then on. -/
theorem overview_current (hcollates : Collates localeCompare) (newUrl : String → String → Option String)
    (server : PageServer) (henabled : server.resultsEnabled = true) (a : Archive)
    (file temporary : Option String) (before after : List Event) (req : Request)
    (hurl : newUrl (req.url.getD "/") req.base = some "/api/browser-results") (hget : req.method = "GET")
    (answers : Answers) (generatedAt : String)
    (hsnapshot : answers.snapshot = publicSnapshot localeCompare generatedAt
      (serve config a file temporary before).queue.shared.state) :
    let told := resolved (serve config a file temporary before).queue.calls
    (∃ latest changes, Responds 200 (stringify 0 (overview generatedAt latest changes))
        ((requestHandler newUrl server answers req).run.run fresh).2 ∧
      Current localeCompare config a told latest changes) ∧
    told <+: resolved (serve config a file temporary (before ++ after)).queue.calls := by
  intro told
  constructor
  · obtain ⟨latest, changes, hok, hcurrent⟩ :=
      serve_current hcollates config a file temporary before generatedAt
    exact ⟨latest, changes, get_responds answers henabled hurl hget (hsnapshot.trans hok), hcurrent⟩
  · exact serve_extends config a file temporary before after

/-- The order of the code points, which is that of a locale on the families' names. -/
def byCodePoint (s t : String) : Int := if s < t then -1 else if t < s then 1 else 0

theorem byCodePoint_le_zero (s t : String) : byCodePoint s t ≤ 0 ↔ s ≤ t := by
  rw [byCodePoint, ← not_lt (a := t)]
  split_ifs with hlt hgt
  · exact iff_of_true (by decide) (not_lt.mpr hlt.le)
  · exact iff_of_false (by decide) (not_not_intro hgt)
  · exact iff_of_true (le_refl 0) hgt

theorem byCodePoint_collates : Collates byCodePoint where
  total s t := by simpa only [byCodePoint_le_zero] using le_total s t
  trans s t u := by simpa only [byCodePoint_le_zero] using le_trans

/-- One submission, and nothing else. -/
def oneSubmission : List Event := .post fullEchoRun 5000 :: undisturbedCall "2026-07-16T12:00:00.000Z"

def afterwards : Answers where
  now := 6000
  lastSubmissionAt _ := none
  recorded := .error (.error "nothing is recorded")
  snapshot := publicSnapshot byCodePoint "2026-07-16T12:00:01.000Z"
    (serve ⟨100, false⟩ .empty none none oneSubmission).queue.shared.state
  readFile _ := .error (.error "ENOENT: no such file or directory")

/-- A reader who comes after one submission is shown it. -/
theorem oneSubmission_current : ∃ latest changes,
    Responds 200 (stringify 0 (overview "2026-07-16T12:00:01.000Z" latest changes))
      ((requestHandler plainUrl pageServer afterwards
        (getRequest "/api/browser-results")).run.run fresh).2 ∧
    Current byCodePoint ⟨100, false⟩ .empty
      (resolved (serve ⟨100, false⟩ .empty none none oneSubmission).queue.calls) latest changes :=
  (overview_current byCodePoint_collates plainUrl pageServer rfl .empty none none oneSubmission []
    (getRequest "/api/browser-results") (by decide) rfl afterwards "2026-07-16T12:00:01.000Z" rfl).1

end WebTransportEcho.Server
