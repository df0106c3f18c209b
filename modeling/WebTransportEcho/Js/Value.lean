import WebTransportEcho.Js.Number

/-! JavaScript values of a program that handles `JSON.parse` results.

    `Json` is what `JSON.parse` returns. Reading a property can also give `undefined` or, for
    `constructor`, the function every object inherits; `Value` adds these two. A read of a property
    of `null` or `undefined` throws (`Value.dot`) unless it is written `?.` (`Value.optional`).
    Objects are told apart by identity: two that were parsed at different places are never `===`. -/

namespace Js

/-- A parsed JSON document. The keys of an object are in insertion order, each at most once. -/
inductive Json where
  | null
  | bool (b : Bool)
  | num (n : Num)
  | str (s : String)
  | arr (items : List Json)
  | obj (fields : List (String × Json))

/-- What an expression over parsed documents evaluates to. -/
inductive Value where
  | undefined
  | native (name : String)
  | json (j : Json)

/-- What a program throws. -/
inductive Error where
  | typeError (message : String)
  | syntaxError (message : String)
  | error (message : String)
  deriving DecidableEq, Repr

namespace Json

/-- A count as a JSON number. -/
abbrev nat (n : Nat) : Json := .num (.int n)

/-- What an absent property reads as: `constructor` is inherited, the others are not. -/
def inherited (name key : String) : Value :=
  if key = "constructor" then .native name else .undefined

/-- The property `key` of a document that is not `null`. Arrays and strings are not read by name
    except for what they inherit. -/
def get : Json → String → Value
  | .null, _ => .undefined
  | .bool _, key => inherited "Boolean" key
  | .num _, key => inherited "Number" key
  | .str _, key => inherited "String" key
  | .arr _, key => inherited "Array" key
  | .obj fields, key =>
    match fields.lookup key with
    | some j => .json j
    | none => inherited "Object" key

/-- `{ ...fields, [key]: j }`: an existing key keeps its place. -/
def setField (key : String) (j : Json) : List (String × Json) → List (String × Json)
  | [] => [(key, j)]
  | (k, i) :: rest => if k = key then (key, j) :: rest else (k, i) :: setField key j rest

/-- The own enumerable properties a spread copies. -/
def entries : Json → List (String × Json)
  | .arr items => items.zipIdx.map fun p => (toString p.2, p.1)
  | .str s => s.toList.zipIdx.map fun p => (toString p.2, .str (String.ofList [p.1]))
  | .obj fields => fields
  | _ => []

/-- `Boolean(value)`. -/
def truthy : Json → Bool
  | .null => false
  | .bool b => b
  | .num n => !(n.same (.int 0) || decide (n = .other "NaN"))
  | .str s => !decide (s = "")
  | .arr _ => true
  | .obj _ => true

mutual
/-- `String(value)`. An object has a text only through an inherited `toString`. -/
def toText : Json → Except Error String
  | .null => .ok "null"
  | .bool b => .ok (if b then "true" else "false")
  | .num n => .ok n.text
  | .str s => .ok s
  | .arr items => (elementTexts items).map fun ts => String.intercalate "," ts
  | .obj fields =>
    if (fields.lookup "toString").isSome then
      .error (.typeError "Cannot convert object to primitive value")
    else .ok "[object Object]"

/-- The texts `Array.prototype.join` puts its commas between: `null` has the empty one. -/
def elementTexts : List Json → Except Error (List String)
  | [] => .ok []
  | .null :: rest => (elementTexts rest).map ("" :: ·)
  | j :: rest =>
    match toText j with
    | .error e => .error e
    | .ok t => (elementTexts rest).map (t :: ·)
end

end Json

namespace Value

/-- `value?.key`. -/
def optional : Value → String → Value
  | .json j, key => j.get key
  | _, _ => .undefined

/-- `value.key`. -/
def dot : Value → String → Except Error Value
  | .undefined, key =>
    .error (.typeError s!"Cannot read properties of undefined (reading '{key}')")
  | .json .null, key => .error (.typeError s!"Cannot read properties of null (reading '{key}')")
  | v, key => .ok (v.optional key)

/-- `value ?? null`. -/
def orNull : Value → Value
  | .undefined => .json .null
  | v => v

/-- `value === null || value === undefined`. -/
def isNullish : Value → Bool
  | .undefined => true
  | .json .null => true
  | _ => false

def truthy : Value → Bool
  | .undefined => false
  | .native _ => true
  | .json j => j.truthy

/-- `a === b` of values from different places. -/
def same : Value → Value → Bool
  | .undefined, .undefined => true
  | .native a, .native b => decide (a = b)
  | .json .null, .json .null => true
  | .json (.bool a), .json (.bool b) => decide (a = b)
  | .json (.num a), .json (.num b) => a.same b
  | .json (.str a), .json (.str b) => decide (a = b)
  | _, _ => false

/-- The value is the string `s`. -/
def isStr (v : Value) (s : String) : Bool := v.same (.json (.str s))

/-- `String(value)`. -/
def toText : Value → Except Error String
  | .undefined => .ok "undefined"
  | .native name => .ok s!"function {name}() \x7b [native code] \x7d"
  | .json j => j.toText

end Value

/-! ### Reading a property -/

@[simp] theorem Json.get_obj_cons_self (key : String) (j : Json) (rest : List (String × Json)) :
    (Json.obj ((key, j) :: rest)).get key = .json j := by
  simp [Json.get]

theorem Json.get_obj_cons_ne {key k : String} (h : key ≠ k) (j : Json)
    (rest : List (String × Json)) :
    (Json.obj ((k, j) :: rest)).get key = (Json.obj rest).get key := by
  have hk : (key == k) = false := by simpa using h
  simp only [Json.get, List.lookup_cons, hk]

@[simp] theorem Value.optional_json (j : Json) (key : String) :
    (Value.json j).optional key = j.get key := rfl

@[simp] theorem Value.optional_undefined (key : String) :
    Value.undefined.optional key = .undefined := rfl

theorem Value.dot_of_not_nullish {v : Value} (h : v.isNullish = false) (key : String) :
    v.dot key = .ok (v.optional key) := by
  cases v with
  | undefined => simp [Value.isNullish] at h
  | native name => rfl
  | json j => cases j <;> first | rfl | simp [Value.isNullish] at h

@[simp] theorem Value.dot_obj (fields : List (String × Json)) (key : String) :
    (Value.json (.obj fields)).dot key = .ok ((Json.obj fields).get key) := rfl

theorem Value.isStr_iff (v : Value) (s : String) : v.isStr s = true ↔ v = .json (.str s) := by
  cases v with
  | undefined => simp [isStr, same]
  | native name => simp [isStr, same]
  | json j => cases j <;> simp [isStr, same]

end Js
