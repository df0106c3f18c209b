import WebTransportEcho.Js.RoundTrip

/-! Documents up to the sign of their zeros. `unsign` writes `0` for `-0`; what is read of a document
    by name, compared with `===` or turned into text is not told apart by it. -/

namespace Js

def Num.unsign : Num → Num
  | negZero => int 0
  | n => n

mutual
/-- The document with `0` for each `-0`. -/
def Json.unsign : Json → Json
  | .num n => .num n.unsign
  | .arr items => .arr (unsignItems items)
  | .obj fields => .obj (unsignFields fields)
  | j => j

def unsignItems : List Json → List Json
  | [] => []
  | j :: js => j.unsign :: unsignItems js

def unsignFields : List (String × Json) → List (String × Json)
  | [] => []
  | (k, j) :: fs => (k, j.unsign) :: unsignFields fs
end

def Value.unsign : Value → Value
  | .json j => .json j.unsign
  | v => v

theorem unsignItems_eq : ∀ js : List Json, unsignItems js = js.map Json.unsign
  | [] => rfl
  | j :: js => by rw [unsignItems, List.map_cons, unsignItems_eq js]

mutual
/-- A plain document has no `-0`. -/
theorem unsign_of_plain : ∀ j : Json, j.Plain → j.unsign = j
  | .null, _ => rfl
  | .bool _, _ => rfl
  | .num (.int _), _ => rfl
  | .num .negZero, h => by cases h
  | .num (.other _), h => by cases h
  | .str _, _ => rfl
  | .arr items, h => by rw [Json.unsign, unsignItems_of_plain items h]
  | .obj fields, h => by
    rw [Json.Plain] at h
    rw [Json.unsign, unsignFields_of_plain fields h.2]

theorem unsignItems_of_plain : ∀ js : List Json, PlainItems js → unsignItems js = js
  | [], _ => rfl
  | j :: js, h => by rw [unsignItems, unsign_of_plain j h.1, unsignItems_of_plain js h.2]

theorem unsignFields_of_plain : ∀ fs : List (String × Json), PlainFields fs → unsignFields fs = fs
  | [], _ => rfl
  | (k, j) :: fs, h => by rw [unsignFields, unsign_of_plain j h.1, unsignFields_of_plain fs h.2]
end

/-! ### What is read -/

theorem lookup_unsignFields (key : String) : ∀ fs : List (String × Json),
    (unsignFields fs).lookup key = (fs.lookup key).map Json.unsign
  | [] => rfl
  | (k, j) :: fs => by
    rw [unsignFields, List.lookup_cons, List.lookup_cons]
    cases key == k
    · exact lookup_unsignFields key fs
    · rfl

@[simp] theorem inherited_unsign (name key : String) :
    (Json.inherited name key).unsign = Json.inherited name key := by
  unfold Json.inherited
  split <;> rfl

@[simp] theorem Json.get_unsign (j : Json) (key : String) : j.unsign.get key = (j.get key).unsign := by
  cases j with
  | obj fields =>
    rw [unsign, get, get, lookup_unsignFields]
    cases fields.lookup key with
    | none => exact (inherited_unsign _ _).symm
    | some j => rfl
  | null => rfl
  | _ => exact (inherited_unsign _ _).symm

@[simp] theorem Value.optional_unsign (v : Value) (key : String) :
    v.unsign.optional key = (v.optional key).unsign := by
  cases v with
  | json j => exact j.get_unsign key
  | _ => rfl

@[simp] theorem Value.same_unsign (v w : Value) : v.unsign.same w.unsign = v.same w := by
  have hnum (a b : Num) : a.unsign.same b.unsign = a.same b := by
    cases a <;> cases b <;> simp [Num.unsign, Num.same, eq_comm]
  cases v with
  | json j =>
    cases w with
    | json k => cases j <;> cases k <;> first | rfl | exact hnum _ _
    | _ => cases j <;> rfl
  | undefined =>
    cases w with
    | json k => cases k <;> rfl
    | _ => rfl
  | native name =>
    cases w with
    | json k => cases k <;> rfl
    | _ => rfl

@[simp] theorem Value.isNullish_unsign (v : Value) : v.unsign.isNullish = v.isNullish := by
  cases v with
  | json j => cases j <;> rfl
  | _ => rfl

@[simp] theorem Json.truthy_unsign (j : Json) : j.unsign.truthy = j.truthy := by
  cases j with
  | num n => cases n <;> rfl
  | _ => rfl

@[simp] theorem Value.unsign_eq_str {v : Value} {s : String} :
    v.unsign = .json (.str s) ↔ v = .json (.str s) := by
  cases v with
  | json j => cases j <;> simp [unsign, Json.unsign]
  | _ => simp [unsign]

@[simp] theorem Value.unsign_eq_bool {v : Value} {b : Bool} :
    v.unsign = .json (.bool b) ↔ v = .json (.bool b) := by
  cases v with
  | json j => cases j <;> simp [unsign, Json.unsign]
  | _ => simp [unsign]

@[simp] theorem Value.unsign_eq_undefined {v : Value} : v.unsign = .undefined ↔ v = .undefined := by
  cases v <;> simp [unsign]

theorem Value.unsign_eq_arr {v : Value} {items : List Json} : v.unsign = .json (.arr items) ↔
    ∃ raw, v = .json (.arr raw) ∧ raw.map Json.unsign = items := by
  cases v with
  | json j => cases j <;> simp [unsign, Json.unsign, unsignItems_eq]
  | _ => simp [unsign]

/-! ### Texts -/

theorem Num.text_unsign (n : Num) : n.unsign.text = n.text := by cases n <;> rfl

theorem Num.json_unsign (n : Num) : n.unsign.json = n.json := by cases n <;> rfl

mutual
theorem Json.toText_unsign : ∀ j : Json, j.unsign.toText = j.toText
  | .null => rfl
  | .bool _ => rfl
  | .num n => by rw [Json.unsign, Json.toText, Json.toText, Num.text_unsign]
  | .str _ => rfl
  | .arr items => by rw [Json.unsign, Json.toText, Json.toText, elementTexts_unsign items]
  | .obj fields => by
    rw [Json.unsign, Json.toText, Json.toText, lookup_unsignFields, Option.isSome_map]

theorem elementTexts_unsign : ∀ js : List Json,
    Json.elementTexts (unsignItems js) = Json.elementTexts js
  | [] => rfl
  | j :: rest => by
    have hrest := elementTexts_unsign rest
    have htext := Json.toText_unsign j
    rw [unsignItems]
    cases j with
    | null => simp only [Json.unsign, Json.elementTexts, hrest]
    | _ =>
      simp only [Json.unsign] at htext ⊢
      simp only [Json.elementTexts, hrest, htext]
end

mutual
theorem print_unsign (gap : Nat) : ∀ (depth : Nat) (j : Json), print gap depth j.unsign = print gap depth j
  | _, .null => rfl
  | _, .bool _ => rfl
  | _, .num n => by rw [Json.unsign, print, print, Num.json_unsign]
  | _, .str _ => rfl
  | _, .arr [] => rfl
  | depth, .arr (j :: js) => by
    rw [Json.unsign, unsignItems, print, print, print_unsign gap _ j, printItems_unsign gap _ js]
  | _, .obj [] => rfl
  | depth, .obj ((k, j) :: fs) => by
    rw [Json.unsign, unsignFields, print, print, print_unsign gap _ j, printFields_unsign gap _ fs]

theorem printItems_unsign (gap : Nat) : ∀ (depth : Nat) (js : List Json),
    printItems gap depth (unsignItems js) = printItems gap depth js
  | _, [] => rfl
  | depth, j :: js => by
    rw [unsignItems, printItems, printItems, print_unsign gap _ j, printItems_unsign gap _ js]

theorem printFields_unsign (gap : Nat) : ∀ (depth : Nat) (fs : List (String × Json)),
    printFields gap depth (unsignFields fs) = printFields gap depth fs
  | _, [] => rfl
  | depth, (k, j) :: fs => by
    rw [unsignFields, printFields, printFields, print_unsign gap _ j, printFields_unsign gap _ fs]
end

theorem stringify_unsign (gap : Nat) (j : Json) : stringify gap j.unsign = stringify gap j := by
  rw [stringify, stringify, print_unsign]

end Js
