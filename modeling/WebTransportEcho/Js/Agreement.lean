import WebTransportEcho.Js.Loop

/-! Documents that differ only in what a program does not read. An `Agreement` relates two values;
    `Record` builds one for objects of which some fields are read by name, whatever else is in them,
    and `Items` one for arrays. What a check makes of two values that agree is the same, since it
    sees of an object or an array only that it is one (`Alike`). -/

namespace Js

abbrev Agreement := Value → Value → Prop

/-- The same value, or both an array, or both an object. -/
inductive Alike : Agreement where
  | refl (v : Value) : Alike v v
  | arrays (xs ys : List Json) : Alike (.json (.arr xs)) (.json (.arr ys))
  | objects (fs gs : List (String × Json)) : Alike (.json (.obj fs)) (.json (.obj gs))

/-- Values that are alike and agree in the listed fields. -/
def Record (fields : List (String × Agreement)) : Agreement := fun v w =>
  Alike v w ∧ ∀ f ∈ fields, f.2 (v.optional f.1) (w.optional f.1)

/-- Arrays that agree item by item, or values that are alike and no arrays. -/
inductive Items (item : Agreement) : Agreement where
  | arrays {xs ys : List Json} (h : List.Forall₂ (fun x y => item (.json x) (.json y)) xs ys) :
    Items item (.json (.arr xs)) (.json (.arr ys))
  | others {v w : Value} (h : Alike v w) (hv : ∀ xs, v ≠ .json (.arr xs)) : Items item v w

theorem Record.alike {fields : List (String × Agreement)} {v w : Value} (h : Record fields v w) :
    Alike v w := h.1

theorem Record.field {fields : List (String × Agreement)} {v w : Value} (h : Record fields v w)
    (key : String) {R : Agreement} (hmem : (key, R) ∈ fields) : R (v.optional key) (w.optional key) :=
  h.2 _ hmem

theorem Items.alike {item : Agreement} {v w : Value} (h : Items item v w) : Alike v w := by
  cases h with
  | arrays h => exact .arrays _ _
  | others h _ => exact h

theorem Record.refl {fields : List (String × Agreement)} (h : ∀ f ∈ fields, ∀ v, f.2 v v) (v : Value) :
    Record fields v v := ⟨.refl v, fun f hf => h f hf _⟩

/-- Objects that differ in the value of one field. -/
theorem Record.of_field {fields : List (String × Agreement)} {key : String} {x y : Json}
    (rest : List (String × Json)) (h : ∀ f ∈ fields, f.1 ≠ key → ∀ v, f.2 v v)
    (hkey : ∀ R, (key, R) ∈ fields → R (.json x) (.json y)) :
    Record fields (.json (.obj ((key, x) :: rest))) (.json (.obj ((key, y) :: rest))) := by
  refine ⟨.objects _ _, fun f hf => ?_⟩
  by_cases hk : f.1 = key
  · obtain ⟨k, R⟩ := f
    obtain rfl : k = key := hk
    simpa using hkey R hf
  · rw [Value.optional_json, Value.optional_json, Json.get_obj_cons_ne hk, Json.get_obj_cons_ne hk]
    exact h f hf hk _

theorem Items.refl {item : Agreement} (h : ∀ v, item v v) (v : Value) : Items item v v := by
  by_cases hv : ∃ xs, v = .json (.arr xs)
  · obtain ⟨xs, rfl⟩ := hv
    exact .arrays (List.forall₂_same.mpr fun x _ => h _)
  · exact .others (.refl v) fun xs hxs => hv ⟨xs, hxs⟩

namespace Alike

/-- Nothing is `===` to an object or an array from another place. -/
theorem same {v v' w w' : Value} (h : Alike v v') (h' : Alike w w') : v.same w = v'.same w' := by
  have hright (u : Value) : u.same w = u.same w' := by
    cases h' with
    | refl => rfl
    | arrays xs ys => cases u with
      | json j => cases j <;> rfl
      | _ => rfl
    | objects fs gs => cases u with
      | json j => cases j <;> rfl
      | _ => rfl
  rw [hright]
  cases h with
  | refl => rfl
  | arrays xs ys => rfl
  | objects fs gs => rfl

variable {v w : Value}

theorem isStr (h : Alike v w) (s : String) : v.isStr s = w.isStr s := h.same (.refl _)

theorem isNullish (h : Alike v w) : v.isNullish = w.isNullish := by cases h <;> rfl

theorem truthy (h : Alike v w) : v.truthy = w.truthy := by cases h <;> rfl

end Alike

/-- Items that agree are taken from both arrays, or neither value is one. -/
theorem Items.cases_array {item : Agreement} {v w : Value} (h : Items item v w) :
    (∃ xs ys, v = .json (.arr xs) ∧ w = .json (.arr ys) ∧
      List.Forall₂ (fun x y => item (.json x) (.json y)) xs ys) ∨
    (Alike v w ∧ (∀ xs, v ≠ .json (.arr xs)) ∧ ∀ ys, w ≠ .json (.arr ys)) := by
  cases h with
  | arrays h => exact .inl ⟨_, _, rfl, rfl, h⟩
  | others h hv =>
    refine .inr ⟨h, hv, fun ys hw => ?_⟩
    subst hw
    cases h with
    | refl => exact hv _ rfl
    | arrays xs => exact hv _ rfl

end Js
