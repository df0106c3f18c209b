import Mathlib.Data.List.Forall2

/-! Calls that are chained on a promise. Each call waits for the one issued before it to settle, in
    whatever way, and then runs in steps over a shared state; between two steps of a call anything
    else may happen, and the environment answers each step (a clock reading, an I/O result).

    `run_serialised` is the one induction over runs: however the events are ordered, the calls that
    have settled form an initial segment, the shared state is what they leave when they run one
    after the other to completion, and at most the next call has begun on top of it. -/

namespace Serial

/-- A procedure in steps over a state `σ`, from an input `ι` to an outcome `ρ`. A step leaves a frame
    `φ` to resume from or settles the call; `α` is what the environment answers to the first step,
    `β` to the later ones. -/
structure Procedure (σ ι φ ρ α β : Type) where
  start : ι → α → σ → σ × (φ ⊕ ρ)
  resume : φ → β → σ → σ × (φ ⊕ ρ)

inductive Call (ι φ ρ : Type) where
  | waiting (input : ι)
  | running (input : ι) (frame : φ)
  | settled (input : ι) (outcome : ρ)

def Call.input {ι φ ρ : Type} : Call ι φ ρ → ι
  | .waiting i => i
  | .running i _ => i
  | .settled i _ => i

def Call.isSettled {ι φ ρ : Type} : Call ι φ ρ → Bool
  | .settled _ _ => true
  | _ => false

def Call.outcome {ι φ ρ : Type} : Call ι φ ρ → Option ρ
  | .settled _ r => some r
  | _ => none

/-- The call after a step. -/
def Call.after {ι φ ρ : Type} (i : ι) : φ ⊕ ρ → Call ι φ ρ
  | .inl f => .running i f
  | .inr r => .settled i r

variable {σ ι φ ρ α β : Type}

structure State (p : Procedure σ ι φ ρ α β) where
  shared : σ
  calls : List (Call ι φ ρ)

inductive Event (p : Procedure σ ι φ ρ α β) where
  | issue (input : ι)
  | start (call : Nat) (answer : α)
  | resume (call : Nat) (answer : β)

/-- The call that this one is chained on has settled. -/
def unblocked (calls : List (Call ι φ ρ)) (n : Nat) : Bool :=
  n = 0 || (calls[n - 1]?).any Call.isSettled

/-- The `n`-th call, on this input, has taken a step. -/
def State.advance {p : Procedure σ ι φ ρ α β} (s : State p) (n : Nat) (i : ι)
    (x : σ × (φ ⊕ ρ)) : State p :=
  { shared := x.1, calls := s.calls.set n (.after i x.2) }

/-- One event. An event that is not enabled does nothing. -/
def step {p : Procedure σ ι φ ρ α β} (s : State p) : Event p → State p
  | .issue i => { s with calls := s.calls ++ [.waiting i] }
  | .start n a =>
    match s.calls[n]? with
    | some (.waiting i) =>
      if unblocked s.calls n then s.advance n i (p.start i a s.shared) else s
    | _ => s
  | .resume n a =>
    match s.calls[n]? with
    | some (.running i f) => s.advance n i (p.resume f a s.shared)
    | _ => s

def run (p : Procedure σ ι φ ρ α β) (shared : σ) (events : List (Event p)) : State p :=
  events.foldl step { shared, calls := [] }

/-- The inputs of the calls that were issued, in order. -/
def issued {p : Procedure σ ι φ ρ α β} (events : List (Event p)) : List ι :=
  events.filterMap fun
    | .issue i => some i
    | _ => none

/-- The answers that were given to the starts of calls, in order. -/
def started {p : Procedure σ ι φ ρ α β} (events : List (Event p)) : List α :=
  events.filterMap fun
    | .start _ a => some a
    | _ => none

/-! ### The sequential runs -/

/-- One call on its own, started with the answer `a`, as far as it got. -/
inductive Exec (p : Procedure σ ι φ ρ α β) (i : ι) (a : α) (s : σ) : σ → φ ⊕ ρ → Prop where
  | start : Exec p i a s (p.start i a s).1 (p.start i a s).2
  | resume {s' : σ} {f : φ} (h : Exec p i a s s' (.inl f)) (b : β) :
      Exec p i a s (p.resume f b s').1 (p.resume f b s').2

/-- A call that has settled: its input, the answer to its start and its outcome. -/
structure Done (α ι ρ : Type) where
  input : ι
  answer : α
  outcome : ρ

/-- Calls run to completion one after the other. -/
inductive Sequential (p : Procedure σ ι φ ρ α β) (s : σ) : List (Done α ι ρ) → σ → Prop where
  | nil : Sequential p s [] s
  | snoc {done : List (Done α ι ρ)} {s' s'' : σ} {i : ι} {a : α} {r : ρ}
      (h : Sequential p s done s') (hx : Exec p i a s' s'' (.inr r)) :
      Sequential p s (done ++ [⟨i, a, r⟩]) s''

/-- The calls that have settled. -/
def settledCalls (done : List (Done α ι ρ)) : List (Call ι φ ρ) :=
  done.map fun d => .settled d.input d.outcome

/-- A state of the queue that is one of its sequential runs: the settled calls come first, then
    possibly a call on its way, then the waiting ones. The calls that have begun took their answers
    in the order of `answers`. -/
inductive Serialised (p : Procedure σ ι φ ρ α β) (s₀ : σ) (answers : List α)
    (done : List (Done α ι ρ)) : State p → Prop where
  | idle {s : σ} (h : Sequential p s₀ done s) (rest : List ι)
      (ha : (done.map Done.answer).Sublist answers) : Serialised p s₀ answers done
        { shared := s, calls := settledCalls done ++ rest.map .waiting }
  | busy {s s' : σ} {i : ι} {a : α} {f : φ} (h : Sequential p s₀ done s)
      (hx : Exec p i a s s' (.inl f)) (rest : List ι)
      (ha : (done.map Done.answer ++ [a]).Sublist answers) : Serialised p s₀ answers done
        { shared := s', calls := settledCalls done ++ .running i f :: rest.map .waiting }

/-! ### Every run is serialised -/

section Calls

variable (done : List (Done α ι ρ)) {rest : List ι} {n : Nat}

theorem length_settledCalls : (settledCalls (φ := φ) done).length = done.length := List.length_map ..

theorem settledCalls_snoc (d : Done α ι ρ) :
    settledCalls (φ := φ) (done ++ [d]) = settledCalls done ++ [.settled d.input d.outcome] :=
  List.map_append ..

variable {done}

theorem isSettled_of_lt {c : Call ι φ ρ} (tail : List (Call ι φ ρ)) (h : n < done.length)
    (hc : (settledCalls done ++ tail)[n]? = some c) : c.isSettled = true := by
  rw [List.getElem?_append_left (by rwa [length_settledCalls]), settledCalls, List.getElem?_map] at hc
  obtain ⟨d, -, rfl⟩ := Option.map_eq_some_iff.mp hc
  rfl

theorem getElem?_rest {i : ι} (h : done.length ≤ n)
    (hc : (settledCalls (φ := φ) done ++ rest.map .waiting)[n]? = some (.waiting i)) :
    rest[n - done.length]? = some i := by
  rw [List.getElem?_append_right (by rwa [length_settledCalls]), length_settledCalls,
    List.getElem?_map] at hc
  obtain ⟨j, hj, hji⟩ := Option.map_eq_some_iff.mp hc
  cases hji
  exact hj

/-- A call settled before the `n`-th means that all before the `n`-th are. -/
theorem le_length_of_unblocked {tail : List (Call ι φ ρ)} (htail : ∀ c ∈ tail, c.isSettled = false)
    (h : unblocked (settledCalls done ++ tail) n = true) : n ≤ done.length := by
  by_contra hlt
  rw [unblocked, Bool.or_eq_true, decide_eq_true_eq] at h
  rcases h with rfl | h
  · omega
  · obtain ⟨c, hc, hsettled⟩ := Option.any_eq_true _ _ |>.mp h
    rw [List.getElem?_append_right (by rw [length_settledCalls]; omega)] at hc
    rw [htail c (List.mem_of_getElem? hc)] at hsettled
    cases hsettled

theorem getElem?_next (x : Call ι φ ρ) (tail : List (Call ι φ ρ)) :
    (settledCalls done ++ x :: tail)[done.length]? = some x := by
  rw [List.getElem?_append_right (Nat.le_of_eq (length_settledCalls done)), length_settledCalls,
    Nat.sub_self, List.getElem?_cons_zero]

theorem set_next (x y : Call ι φ ρ) (tail : List (Call ι φ ρ)) :
    (settledCalls done ++ x :: tail).set done.length y = settledCalls done ++ y :: tail := by
  rw [← length_settledCalls (φ := φ) done, List.set_append_right _ _ (Nat.le_refl _), Nat.sub_self,
    List.set_cons_zero]

end Calls

variable {p : Procedure σ ι φ ρ α β} {s₀ : σ} {answers : List α} {done : List (Done α ι ρ)}

theorem isSettled_waiting (rest : List ι) :
    ∀ c ∈ rest.map (Call.waiting (φ := φ) (ρ := ρ)), c.isSettled = false := by
  intro c hc
  obtain ⟨i, -, rfl⟩ := List.mem_map.mp hc
  rfl

/-- The next call takes a step: it stays the next one, or it joins the settled ones. -/
theorem serialised_after {s s' : σ} {i : ι} {a : α} {x : φ ⊕ ρ} (rest : List ι)
    (h : Sequential p s₀ done s) (hx : Exec p i a s s' x)
    (ha : (done.map Done.answer ++ [a]).Sublist answers) : ∃ done', Serialised p s₀ answers done'
      { shared := s', calls := settledCalls done ++ .after i x :: rest.map .waiting } := by
  cases x with
  | inl f => exact ⟨done, .busy h hx rest ha⟩
  | inr r =>
    refine ⟨done ++ [⟨i, a, r⟩], ?_⟩
    have hidle : Serialised p s₀ answers _ _ :=
      .idle (h.snoc hx) rest (by rwa [List.map_append])
    rwa [settledCalls_snoc, List.append_assoc] at hidle

theorem Serialised.mono {s : State p} (h : Serialised p s₀ answers done s) {answers' : List α}
    (hsub : answers.Sublist answers') : Serialised p s₀ answers' done s := by
  cases h with
  | idle h rest ha => exact .idle h rest (ha.trans hsub)
  | busy h hx rest ha => exact .busy h hx rest (ha.trans hsub)

theorem step_serialised {s : State p} (h : Serialised p s₀ answers done s) (e : Event p) :
    ∃ done', Serialised p s₀ (answers ++ started [e]) done' (step s e) := by
  have hsub : answers.Sublist (answers ++ started [e]) := List.sublist_append_left _ _
  have hstay : ∃ done', Serialised p s₀ (answers ++ started [e]) done' s := ⟨done, h.mono hsub⟩
  cases h with
  | @idle s h rest ha =>
    cases e with
    | issue i =>
      refine ⟨done, ?_⟩
      have hidle := Serialised.idle h (rest ++ [i]) (ha.trans hsub)
      rwa [List.map_append, ← List.append_assoc] at hidle
    | start n a =>
      rw [step]
      split
      · next i hi =>
        split
        · next hun =>
          have hle := le_length_of_unblocked (isSettled_waiting rest) hun
          have hge : done.length ≤ n := by
            by_contra hlt
            cases isSettled_of_lt _ (Nat.lt_of_not_le hlt) hi
          obtain rfl : n = done.length := Nat.le_antisymm hle hge
          have hrest := getElem?_rest hge hi
          rw [Nat.sub_self] at hrest
          obtain ⟨rest, rfl⟩ : ∃ rest', rest = i :: rest' := by
            cases rest with
            | nil => cases hrest
            | cons j rest => cases hrest; exact ⟨rest, rfl⟩
          rw [State.advance, List.map_cons, set_next]
          exact serialised_after rest h .start (ha.append (List.Sublist.refl [a]))
        · exact hstay
      · exact hstay
    | resume n b =>
      rw [step]
      split
      · next i f hi =>
        exfalso
        rcases Nat.lt_or_ge n done.length with hlt | hge
        · cases isSettled_of_lt _ hlt hi
        · rw [List.getElem?_append_right (by rwa [length_settledCalls]), List.getElem?_map] at hi
          obtain ⟨j, -, hj⟩ := Option.map_eq_some_iff.mp hi
          cases hj
      · exact hstay
  | @busy s s' i a f h hx rest ha =>
    cases e with
    | issue j =>
      refine ⟨done, ?_⟩
      have hbusy := Serialised.busy h hx (rest ++ [j]) (ha.trans hsub)
      rwa [List.map_append, ← List.cons_append, ← List.append_assoc] at hbusy
    | start n b =>
      rw [step]
      split
      · next j hj =>
        split
        · next hun =>
          exfalso
          have hle : n ≤ done.length := by
            refine le_length_of_unblocked (fun c hc => ?_) hun
            rcases List.mem_cons.mp hc with rfl | hc
            · rfl
            · exact isSettled_waiting rest c hc
          rcases Nat.lt_or_eq_of_le hle with hlt | rfl
          · cases isSettled_of_lt _ hlt hj
          · rw [getElem?_next] at hj
            cases hj
        · exact hstay
      · exact hstay
    | resume n b =>
      rw [step]
      split
      · next j g hj =>
        rcases Nat.lt_trichotomy n done.length with hlt | rfl | hgt
        · cases isSettled_of_lt _ hlt hj
        · rw [getElem?_next] at hj
          cases hj
          rw [State.advance, set_next]
          exact serialised_after rest h (hx.resume b) (ha.trans hsub)
        · exfalso
          rw [List.getElem?_append_right (by rw [length_settledCalls]; omega), length_settledCalls,
            List.getElem?_cons, if_neg (by omega), List.getElem?_map] at hj
          obtain ⟨k, -, hk⟩ := Option.map_eq_some_iff.mp hj
          cases hk
      · exact hstay

/-- However the events are ordered, the calls take effect one after the other, in call order. -/
theorem run_serialised (p : Procedure σ ι φ ρ α β) (s₀ : σ) (events : List (Event p)) :
    ∃ done, Serialised p s₀ (started events) done (run p s₀ events) := by
  suffices H : ∀ (events : List (Event p)) (s : State p) (answers : List α)
      (done : List (Done α ι ρ)), Serialised p s₀ answers done s →
      ∃ done', Serialised p s₀ (answers ++ started events) done' (events.foldl step s) from
    H events _ [] [] (.idle .nil [] (List.Sublist.refl []))
  intro events
  induction events with
  | nil => exact fun s answers done h => ⟨done, by simpa [started] using h⟩
  | cons e events ih =>
    intro s answers done h
    obtain ⟨done', h'⟩ := step_serialised h e
    obtain ⟨done'', h''⟩ := ih _ _ done' h'
    refine ⟨done'', ?_⟩
    rw [List.append_assoc] at h''
    rwa [show started (e :: events) = started [e] ++ started events from
      (List.filterMap_append (l := [e]) ..)]

theorem advance_inputs {p : Procedure σ ι φ ρ α β} {s : State p} {n : Nat} {c : Call ι φ ρ}
    (hc : s.calls[n]? = some c) (x : σ × (φ ⊕ ρ)) :
    (s.advance n c.input x).calls.map Call.input = s.calls.map Call.input := by
  have hinput : (Call.after c.input x.2).input = c.input := by cases x.2 <;> rfl
  obtain ⟨hlt, hget⟩ := List.getElem?_eq_some_iff.mp hc
  have hlt' : n < (s.calls.map Call.input).length := by rwa [List.length_map]
  have hget' : (s.calls.map Call.input)[n] = c.input := by rw [List.getElem_map, hget]
  rw [State.advance, List.map_set, hinput, ← hget', List.set_getElem_self]

theorem step_inputs (s : State p) (e : Event p) :
    (step s e).calls.map Call.input = s.calls.map Call.input ++ issued [e] := by
  cases e with
  | issue i => simp [step, issued, Call.input]
  | start n a =>
    rw [step]
    split
    · next i hi =>
      split
      · exact (advance_inputs hi _).trans (List.append_nil _).symm
      · simp [issued]
    · simp [issued]
  | resume n a =>
    rw [step]
    split
    · next i f hi => exact (advance_inputs hi _).trans (List.append_nil _).symm
    · simp [issued]

/-- The calls are those that were issued, in order. -/
theorem run_inputs (p : Procedure σ ι φ ρ α β) (s₀ : σ) (events : List (Event p)) :
    (run p s₀ events).calls.map Call.input = issued events := by
  suffices H : ∀ (events : List (Event p)) (s : State p), (events.foldl step s).calls.map Call.input =
      s.calls.map Call.input ++ issued events from H events _
  intro events
  induction events with
  | nil => simp [issued]
  | cons e events ih =>
    intro s
    rw [List.foldl_cons, ih, step_inputs, List.append_assoc]
    congr 1
    exact (List.filterMap_append ..).symm

/-! ### One call at a time -/

/-- What an event does to the calls: each is what it was, is new, or has taken a step. -/
theorem step_call {s : State p} (e : Event p) {n : Nat} {c : Call ι φ ρ}
    (hc : (step s e).calls[n]? = some c) :
    s.calls[n]? = some c ∨ (n = s.calls.length ∧ ∃ i, c = .waiting i) ∨
      (∃ i a, s.calls[n]? = some (.waiting i) ∧ c = .after i (p.start i a s.shared).2) ∨
      ∃ i f b, s.calls[n]? = some (.running i f) ∧ c = .after i (p.resume f b s.shared).2 := by
  have hset {m : Nat} {old new : Call ι φ ρ} (hold : s.calls[m]? = some old)
      (hnew : (s.calls.set m new)[n]? = some c) :
      s.calls[n]? = some c ∨ (s.calls[n]? = some old ∧ c = new) := by
    by_cases hm : m = n
    · subst hm
      rw [List.getElem?_set_self (List.getElem?_eq_some_iff.mp hold).1] at hnew
      exact .inr ⟨hold, (Option.some.inj hnew).symm⟩
    · rw [List.getElem?_set_ne hm] at hnew
      exact .inl hnew
  cases e with
  | issue i =>
    rw [step, List.getElem?_append] at hc
    split at hc
    · exact .inl hc
    · next hge =>
      obtain rfl := List.mem_singleton.mp (List.mem_of_getElem? hc)
      have hlt := (List.getElem?_eq_some_iff.mp hc).1
      rw [List.length_singleton] at hlt
      exact .inr (.inl ⟨by omega, i, rfl⟩)
  | start m a =>
    rw [step] at hc
    split at hc
    · next i hi =>
      split at hc
      · exact (hset hi hc).imp id fun h => .inr (.inl ⟨i, a, h⟩)
      · exact .inl hc
    · exact .inl hc
  | resume m b =>
    rw [step] at hc
    split at hc
    · next i f hi => exact (hset hi hc).imp id fun h => .inr (.inr ⟨i, f, b, h⟩)
    · exact .inl hc

/-- The step is the event's own. -/
theorem step_call_of {s : State p} (e : Event p) {n : Nat} {c : Call ι φ ρ}
    (hc : (step s e).calls[n]? = some c) :
    s.calls[n]? = some c ∨ (∃ i, c = .waiting i) ∨
      (∃ i a, e = .start n a ∧ c = .after i (p.start i a s.shared).2) ∨
      ∃ i f b, e = .resume n b ∧ s.calls[n]? = some (.running i f) ∧
        c = .after i (p.resume f b s.shared).2 := by
  have hset {m : Nat} {new : Call ι φ ρ} (hnew : (s.calls.set m new)[n]? = some c) :
      s.calls[n]? = some c ∨ (m = n ∧ c = new) := by
    by_cases hm : m = n
    · subst hm
      rw [List.getElem?_set] at hnew
      simp only [if_true] at hnew
      split at hnew
      · exact .inr ⟨rfl, (Option.some.inj hnew).symm⟩
      · cases hnew
    · rw [List.getElem?_set_ne hm] at hnew
      exact .inl hnew
  cases e with
  | issue i =>
    rw [step, List.getElem?_append] at hc
    split at hc
    · exact .inl hc
    · exact .inr (.inl ⟨i, List.mem_singleton.mp (List.mem_of_getElem? hc)⟩)
  | start m a =>
    rw [step] at hc
    split at hc
    · next i _ =>
      split at hc
      · rcases hset hc with hold | ⟨rfl, hnew⟩
        · exact .inl hold
        · exact .inr (.inr (.inl ⟨i, a, rfl, hnew⟩))
      · exact .inl hc
    · exact .inl hc
  | resume m b =>
    rw [step] at hc
    split at hc
    · next i f hi =>
      rcases hset hc with hold | ⟨rfl, hnew⟩
      · exact .inl hold
      · exact .inr (.inr (.inr ⟨i, f, b, rfl, hi, hnew⟩))
    · exact .inl hc

/-- What every step of a call keeps holds of all calls. -/
theorem step_forall {P : Call ι φ ρ → Prop} (hwaiting : ∀ i, P (.waiting i))
    (hstart : ∀ i a s, P (.after i (p.start i a s).2))
    (hresume : ∀ i f b s, P (.running i f) → P (.after i (p.resume f b s).2)) {s : State p}
    (h : ∀ c ∈ s.calls, P c) (e : Event p) : ∀ c ∈ (step s e).calls, P c := by
  intro c hc
  obtain ⟨n, hn⟩ := List.mem_iff_getElem?.mp hc
  rcases step_call e hn with hold | ⟨-, i, rfl⟩ | ⟨i, a, -, rfl⟩ | ⟨i, f, b, hf, rfl⟩
  · exact h c (List.mem_of_getElem? hold)
  · exact hwaiting i
  · exact hstart i a _
  · exact hresume i f b _ (h _ (List.mem_of_getElem? hf))

theorem length_step (s : State p) (e : Event p) :
    (step s e).calls.length = s.calls.length + (issued [e]).length := by
  have hinputs := congrArg List.length (step_inputs s e)
  rwa [List.length_map, List.length_append, List.length_map] at hinputs

/-- What has settled stays as it is. -/
theorem step_settled {s : State p} (e : Event p) {n : Nat} {i : ι} {r : ρ}
    (h : s.calls[n]? = some (.settled i r)) : (step s e).calls[n]? = some (.settled i r) := by
  have hlt := (List.getElem?_eq_some_iff.mp h).1
  have hlt' : n < (step s e).calls.length := by rw [length_step]; omega
  have hc := List.getElem?_eq_getElem hlt'
  rcases step_call e hc with hold | ⟨hn, -⟩ | ⟨_, _, hold, -⟩ | ⟨_, _, _, hold, -⟩
  · rw [hc, ← hold, h]
  · omega
  · rw [h] at hold
    cases hold
  · rw [h] at hold
    cases hold

/-! ### What a serialised state shows -/

section Serialised

variable {s : State p}

/-- The settled calls come first. -/
theorem Serialised.take_calls (h : Serialised p s₀ answers done s) :
    s.calls.take done.length = settledCalls done := by
  cases h <;> exact List.take_left' (length_settledCalls done)

theorem Serialised.drop_calls (h : Serialised p s₀ answers done s) :
    ∀ c ∈ s.calls.drop done.length, c.isSettled = false := by
  intro c hc
  cases h with
  | idle h rest ha =>
    rw [List.drop_left' (length_settledCalls done)] at hc
    exact isSettled_waiting rest c hc
  | busy h hx rest ha =>
    rw [List.drop_left' (length_settledCalls done)] at hc
    rcases List.mem_cons.mp hc with rfl | hc
    · rfl
    · exact isSettled_waiting rest c hc

/-- The shared state is that of the settled calls, or the next call has begun on it. -/
theorem Serialised.shared_cases (h : Serialised p s₀ answers done s) :
    Sequential p s₀ done s.shared ∨ ∃ s' i a f, Sequential p s₀ done s' ∧
      Exec p i a s' s.shared (.inl f) ∧ s.calls[done.length]? = some (.running i f) ∧
      (done.map Done.answer ++ [a]).Sublist answers := by
  cases h with
  | idle h rest ha => exact .inl h
  | @busy s' _ i a f h hx rest ha => exact .inr ⟨s', i, a, f, h, hx, getElem?_next _ _, ha⟩

/-- The settled calls had the inputs that were issued first. -/
theorem Serialised.inputs (h : Serialised p s₀ answers done s) :
    done.map Done.input = (s.calls.map Call.input).take done.length := by
  rw [← List.map_take, h.take_calls, settledCalls, List.map_map]
  rfl

theorem Serialised.answers_sublist (h : Serialised p s₀ answers done s) :
    (done.map Done.answer).Sublist answers := by
  cases h with
  | idle h rest ha => exact ha
  | busy h hx rest ha => exact (List.sublist_append_left _ _).trans ha

end Serialised

/-! ### Inputs that a procedure does not tell apart -/

section Related

variable (R : ι → ι → Prop)

/-- Events that differ in the input of a call at most. -/
inductive Event.Rel : Event p → Event p → Prop where
  | issue {i j : ι} (h : R i j) : Event.Rel (.issue i) (.issue j)
  | start (n : Nat) (a : α) : Event.Rel (.start n a) (.start n a)
  | resume (n : Nat) (b : β) : Event.Rel (.resume n b) (.resume n b)

/-- Calls that differ in the input at most. -/
inductive Call.Rel : Call ι φ ρ → Call ι φ ρ → Prop where
  | waiting {i j : ι} (h : R i j) : Call.Rel (.waiting i) (.waiting j)
  | running {i j : ι} (h : R i j) (f : φ) : Call.Rel (.running i f) (.running j f)
  | settled {i j : ι} (h : R i j) (r : ρ) : Call.Rel (.settled i r) (.settled j r)

structure State.Rel (s t : State p) : Prop where
  shared : s.shared = t.shared
  calls : List.Forall₂ (Call.Rel R) s.calls t.calls

variable {R}

theorem forall₂_getElem? {γ δ : Type} {Q : γ → δ → Prop} {xs : List γ} {ys : List δ}
    (h : List.Forall₂ Q xs ys) (n : Nat) : Option.Rel Q xs[n]? ys[n]? := by
  induction h generalizing n with
  | nil => exact .none
  | cons hxy _ ih =>
    cases n with
    | zero => exact .some hxy
    | succ n => exact ih n

theorem forall₂_set {γ δ : Type} {Q : γ → δ → Prop} {xs : List γ} {ys : List δ}
    (h : List.Forall₂ Q xs ys) (n : Nat) {x : γ} {y : δ} (hxy : Q x y) :
    List.Forall₂ Q (xs.set n x) (ys.set n y) := by
  induction h generalizing n with
  | nil => exact .nil
  | cons h hs ih =>
    cases n with
    | zero => exact .cons hxy hs
    | succ n => exact .cons h (ih n)

theorem Call.Rel.isSettled {c d : Call ι φ ρ} (h : Call.Rel R c d) : c.isSettled = d.isSettled := by
  cases h <;> rfl

theorem outcome_rel {cs ds : List (Call ι φ ρ)} (h : List.Forall₂ (Call.Rel R) cs ds) :
    cs.map Call.outcome = ds.map Call.outcome := by
  induction h with
  | nil => rfl
  | cons hcd _ ih =>
    rw [List.map_cons, List.map_cons, ih]
    cases hcd <;> rfl

theorem unblocked_rel {cs ds : List (Call ι φ ρ)} (h : List.Forall₂ (Call.Rel R) cs ds) (n : Nat) :
    unblocked cs n = unblocked ds n := by
  have hget := forall₂_getElem? h (n - 1)
  unfold unblocked
  generalize cs[n - 1]? = c at hget
  generalize ds[n - 1]? = d at hget
  cases hget with
  | none => rfl
  | some hcd => simp only [Option.any_some, hcd.isSettled]

theorem State.Rel.advance {s t : State p} (h : State.Rel R s t) (n : Nat) {i j : ι} (hij : R i j)
    (x : σ × (φ ⊕ ρ)) : State.Rel R (s.advance n i x) (t.advance n j x) := by
  refine ⟨rfl, forall₂_set h.calls n ?_⟩
  cases x.2 with
  | inl f => exact .running hij f
  | inr r => exact .settled hij r

theorem step_rel (hstart : ∀ i j, R i j → p.start i = p.start j) {s t : State p}
    (h : State.Rel R s t) {e e' : Event p} (he : Event.Rel R e e') :
    State.Rel R (step s e) (step t e') := by
  cases he with
  | issue hij => exact ⟨h.shared, List.rel_append h.calls (.cons (.waiting hij) .nil)⟩
  | start n a =>
    have hget := forall₂_getElem? h.calls n
    rw [step, step, unblocked_rel h.calls n]
    generalize s.calls[n]? = c at hget
    generalize t.calls[n]? = d at hget
    cases hget with
    | none => exact h
    | some hcd =>
      cases hcd with
      | @waiting i j hij =>
        by_cases hun : unblocked t.calls n = true
        · simp only [hun, if_true, hstart i j hij, h.shared]
          exact h.advance n hij _
        · simp only [hun]
          exact h
      | running hij f => exact h
      | settled hij r => exact h
  | resume n b =>
    have hget := forall₂_getElem? h.calls n
    rw [step, step]
    generalize s.calls[n]? = c at hget
    generalize t.calls[n]? = d at hget
    cases hget with
    | none => exact h
    | some hcd =>
      cases hcd with
      | waiting hij => exact h
      | @running i j hij f =>
        simp only [h.shared]
        exact h.advance n hij _
      | settled hij r => exact h

/-- Runs on inputs that start the same way leave the same state and the same outcomes. -/
theorem run_rel (hstart : ∀ i j, R i j → p.start i = p.start j) (s₀ : σ) {events events' : List (Event p)}
    (h : List.Forall₂ (Event.Rel R) events events') :
    State.Rel R (run p s₀ events) (run p s₀ events') := by
  suffices H : ∀ s t : State p, State.Rel R s t →
      State.Rel R (events.foldl step s) (events'.foldl step t) from H _ _ ⟨rfl, .nil⟩
  induction h with
  | nil => exact fun _ _ h => h
  | cons he _ ih => exact fun s t hst => ih _ _ (step_rel hstart hst he)

end Related

end Serial
