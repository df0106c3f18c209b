import WebTransportEcho.Js.Text
import WebTransportEcho.Split

/-! `Number(value)` and the comparisons `<`, `>` and `>=`. What is compared is made a primitive first;
    two strings are compared by their code units, anything else as numbers, and nothing holds of what
    is no number. A number that is told by its text is compared by the decimal that the text shows,
    which keeps the order of the doubles. -/

namespace Js
open Split

/-! ### Numbers of texts -/

/-- White space and line ends: `\s` of a regular expression, and what `trim` and `Number` leave out. -/
def isBlank (c : Char) : Bool :=
  let n := c.toNat
  (9 ≤ n && n ≤ 13) || n = 0x20 || n = 0xA0 || n = 0x1680 || (0x2000 ≤ n && n ≤ 0x200A) || n = 0x2028 ||
    n = 0x2029 || n = 0x202F || n = 0x205F || n = 0x3000 || n = 0xFEFF

/-- A sign, and the rest. -/
def signed : List Char → Bool × List Char
  | '-' :: text => (true, text)
  | '+' :: text => (false, text)
  | text => (false, text)

def notANumber : Num := .other "NaN"

/-- The digits of a decimal, and the power of ten that they are of. -/
def decimalParts (text : List Char) : Option (Nat × Int) :=
  let whole := digits text
  let fraction := match whole.2 with
    | '.' :: rest => digits rest
    | rest => ([], rest)
  if whole.1.isEmpty ∧ fraction.1.isEmpty then none
  else match exponent fraction.2 with
    | some (e, []) => some (digitsValue (whole.1 ++ fraction.1), e - (fraction.1.length : Int))
    | _ => none

def decimalNumber (negative : Bool) (text : List Char) : Num :=
  if text = "Infinity".toList then .other (if negative then "-Infinity" else "Infinity")
  else match decimalParts text with
    | some (m, e) => .ofDecimal negative m e
    | none => notANumber

/-- The digits behind `0x`, `0o` or `0b`. -/
def radixNumber (radix : Nat) (text : List Char) : Num :=
  match text.mapM fun c => (hexValue c).filter (· < radix) with
  | some (d :: ds) => .ofDecimal false ((d :: ds).foldl (fun n d => n * radix + d) 0) 0
  | _ => notANumber

/-- `Number(text)`. -/
def toNumber (text : String) : Num :=
  match trim isBlank text.toList with
  | [] => .int 0
  | '0' :: 'x' :: rest => radixNumber 16 rest
  | '0' :: 'X' :: rest => radixNumber 16 rest
  | '0' :: 'o' :: rest => radixNumber 8 rest
  | '0' :: 'O' :: rest => radixNumber 8 rest
  | '0' :: 'b' :: rest => radixNumber 2 rest
  | '0' :: 'B' :: rest => radixNumber 2 rest
  | rest => decimalNumber (signed rest).1 (signed rest).2

example : toNumber "\u00a05e3\n" = .int 5000 ∧ toNumber "0x1F" = .int 31 ∧ toNumber "-.5" = .other "-0.5" ∧
    toNumber "" = .int 0 ∧ toNumber "1 2" = notANumber ∧ toNumber "0x" = notANumber := by decide +kernel

/-! ### Order -/

/-- The decimal that a text shows, between the infinities. -/
def rankText (negative : Bool) (text : List Char) : Option (Int × Rat) :=
  if text = "Infinity".toList then some (if negative then (-1, 0) else (1, 0))
  else (decimalParts text).map fun p =>
    (0, (if negative then -1 else 1) * (p.1 : Rat) * (10 : Rat) ^ p.2)

/-- Where a number stands, unless it is none. -/
def Num.rank : Num → Option (Int × Rat)
  | .int n => some (0, n)
  | .negZero => some (0, 0)
  | .other text => rankText (signed text.toList).1 (signed text.toList).2

/-- `a < b`, which is undefined when one is no number. -/
def Num.less : Num → Num → Option Bool
  | .int a, .int b => some (decide (a < b))
  | a, b =>
    match a.rank, b.rank with
    | some x, some y => some (decide (x.1 < y.1 ∨ x.1 = y.1 ∧ x.2 < y.2))
    | _, _ => none

/-- The UTF-16 code units of a character. -/
def codeUnits (c : Char) : List Nat :=
  if c.toNat < 0x10000 then [c.toNat]
  else [0xd800 + (c.toNat - 0x10000) / 0x400, 0xdc00 + (c.toNat - 0x10000) % 0x400]

def textLess (s t : String) : Bool :=
  decide (s.toList.flatMap codeUnits < t.toList.flatMap codeUnits)

namespace Value

/-- An object is taken by its text. -/
def primitive : Value → Except Error Value
  | .json (.arr items) => (Json.arr items).toText.map fun t => .json (.str t)
  | .json (.obj fields) => (Json.obj fields).toText.map fun t => .json (.str t)
  | .native name => (Value.native name).toText.map fun t => .json (.str t)
  | v => .ok v

/-- `Number(value)` of a primitive. -/
def number : Value → Num
  | .json .null => .int 0
  | .json (.bool b) => .int (if b then 1 else 0)
  | .json (.num n) => n
  | .json (.str s) => toNumber s
  | _ => notANumber

/-- `a < b`. -/
def less (a b : Value) : Except Error (Option Bool) := do
  let a ← a.primitive
  let b ← b.primitive
  match a, b with
  | .json (.str s), .json (.str t) => .ok (some (textLess s t))
  | a, b => .ok (a.number.less b.number)

/-- `a > b`. -/
def above (a b : Value) : Except Error Bool := do
  let r ← less b a
  .ok (r == some true)

/-- `a >= b`. -/
def atLeast (a b : Value) : Except Error Bool := do
  let r ← less a b
  .ok (r == some false)

@[simp] theorem above_nat (m n : Nat) :
    above (.json (.nat m)) (.json (.nat n)) = .ok (decide (n < m)) := by
  have hless : less (.json (.nat n)) (.json (.nat m)) = .ok (some (decide ((n : Int) < m))) := rfl
  rw [above, hless]
  by_cases h : n < m <;> simp [h, bind, Except.bind]

@[simp] theorem atLeast_nat (m n : Nat) :
    atLeast (.json (.nat m)) (.json (.nat n)) = .ok (decide (n ≤ m)) := by
  have hless : less (.json (.nat m)) (.json (.nat n)) = .ok (some (decide ((m : Int) < n))) := rfl
  rw [atLeast, hless]
  by_cases h : m < n
  · simp [h, bind, Except.bind]
  · simp [Nat.le_of_not_lt h, bind, Except.bind]

end Value

example : (Num.other "1e+21").less (.int 5) = some false ∧ (Num.other "-1.5").less (.int (-1)) = some true ∧
    notANumber.less (.int 0) = none ∧ textLess "a" "b" = true := by decide +kernel

end Js
