import WebTransportEcho.Js.Loop

/-! Code that returns: no part of it throws. A sequence returns when each part does, and a loop when
    every turn does. What is compared with `===` without being an object or an array has a text. -/

namespace Js

/-- The computation does not throw. -/
def Returns {α : Type} (x : Except Error α) : Prop := ∃ a, x = .ok a

section

variable {α β : Type}

@[simp] theorem returns_ok (a : α) : Returns (.ok a) := ⟨a, rfl⟩

@[simp] theorem not_returns_error (e : Error) : ¬ Returns (.error e : Except Error α) := by
  rintro ⟨a, h⟩
  cases h

theorem returns_bind {x : Except Error α} {f : α → Except Error β} :
    Returns (x >>= f) ↔ ∃ a, x = .ok a ∧ Returns (f a) := by
  refine ⟨fun ⟨b, hb⟩ => ?_, fun ⟨a, ha, b, hb⟩ => ⟨b, bind_eq_ok.mpr ⟨a, ha, hb⟩⟩⟩
  obtain ⟨a, ha, hf⟩ := bind_eq_ok.mp hb
  exact ⟨a, ha, b, hf⟩

/-- When the second part returns on every result, only the first one can throw. -/
theorem returns_bind_of_forall {x : Except Error α} {f : α → Except Error β}
    (h : ∀ a, Returns (f a)) : Returns (x >>= f) ↔ Returns x := by
  rw [returns_bind]
  exact ⟨fun ⟨a, ha, _⟩ => ⟨a, ha⟩, fun ⟨a, ha⟩ => ⟨a, ha, h a⟩⟩

theorem returns_mapM {f : α → Except Error β} : ∀ {xs : List α},
    Returns (xs.mapM f) ↔ ∀ x ∈ xs, Returns (f x)
  | [] => by
    rw [List.mapM_nil]
    exact iff_of_true ⟨[], rfl⟩ (by simp)
  | x :: xs => by
    rw [List.mapM_cons, List.forall_mem_cons, ← returns_mapM, returns_bind]
    refine ⟨fun ⟨y, hy, hrest⟩ => ⟨⟨y, hy⟩, ?_⟩, fun ⟨⟨y, hy⟩, ys, hys⟩ => ⟨y, hy, ?_⟩⟩
    · obtain ⟨ys, hys, -⟩ := returns_bind.mp hrest
      exact ⟨ys, hys⟩
    · exact returns_bind.mpr ⟨ys, hys, y :: ys, rfl⟩

end

/-- The value has a text. -/
def Value.Textable (v : Value) : Prop := Returns v.toText

/-- What is `===` to something is no object and no array. -/
theorem Value.textable_of_same {v w : Value} (h : v.same w = true) : v.Textable ∧ w.Textable := by
  cases v with
  | undefined =>
    cases w with
    | undefined => exact ⟨returns_ok _, returns_ok _⟩
    | native | json => cases h
  | native =>
    cases w with
    | native => exact ⟨returns_ok _, returns_ok _⟩
    | undefined | json => cases h
  | json j =>
    cases w with
    | undefined | native => cases j <;> cases h
    | json k =>
      cases j <;> cases k <;> first
        | exact ⟨returns_ok _, returns_ok _⟩
        | cases h

/-- A property can be read exactly of what is neither `null` nor `undefined`. -/
theorem Value.dot_eq_ok {v w : Value} {key : String} :
    v.dot key = .ok w ↔ v.isNullish = false ∧ v.optional key = w := by
  cases hv : v.isNullish with
  | false => rw [Value.dot_of_not_nullish hv, Except.ok.injEq, eq_self, true_and]
  | true =>
    refine iff_of_false (fun h => ?_) (fun h => absurd h.1.symm Bool.false_ne_true)
    cases v with
    | undefined => cases h
    | native => cases hv
    | json j =>
      cases j with
      | null => cases h
      | bool | num | str | arr | obj => cases hv

theorem Value.isNullish_of_truthy {v : Value} (h : v.truthy = true) : v.isNullish = false := by
  cases v with
  | undefined => cases h
  | native => rfl
  | json j =>
    cases j with
    | null => cases h
    | bool | num | str | arr | obj => rfl

end Js
