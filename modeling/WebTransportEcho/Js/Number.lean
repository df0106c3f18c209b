import Mathlib.Data.Nat.Log
import Mathlib.Data.Rat.Floor

/-! JavaScript numbers, as a program meets them that never computes with a number it has not checked.

    A safe integer is kept as an integer, `-0` on its own, and any other number (a fraction, an
    integer from 2^53 on, an infinity) by the text `String(value)` gives it, which determines it.
    A JSON number literal is a decimal; `ofDecimal` rounds it to the nearest double and finds that
    double's text, so `1.0`, `10e-1` and `1` are one number and `1e999` is an infinity. -/

namespace Js

/-- A JavaScript number. -/
inductive Num where
  | int (n : Int)
  | negZero
  | other (text : String)
  deriving DecidableEq, Repr

namespace Num

/-- The largest integer below which every integer is a double of its own. -/
def maxSafe : Nat := 9007199254740991

/-- `Number.isSafeInteger(value)`. -/
def isSafeInteger : Num → Bool
  | int n => decide (n.natAbs ≤ maxSafe)
  | negZero => true
  | other _ => false

/-- `===` on numbers: `-0` equals `0`. -/
def same : Num → Num → Bool
  | int a, int b => decide (a = b)
  | int a, negZero => decide (a = 0)
  | negZero, int b => decide (b = 0)
  | negZero, negZero => true
  | other a, other b => decide (a = b)
  | _, _ => false

/-- `String(value)`. -/
def text : Num → String
  | int n => toString n
  | negZero => "0"
  | other t => t

/-- The positive rational `num / den` divided by `2 ^ e`. -/
def scale (num den : Nat) (e : Int) : Nat × Nat := (num * 2 ^ (-e).toNat, den * 2 ^ e.toNat)

/-- The quotient rounded to the nearest integer, ties to the even one. -/
def roundEven (num den : Nat) : Nat :=
  let q := num / den
  let r := num % den
  if den < 2 * r ∨ (den = 2 * r ∧ q % 2 = 1) then q + 1 else q

/-- The double nearest to `num / den`: mantissa and binary exponent, `none` past the largest. -/
def nearest (num den : Nat) : Option (Nat × Int) :=
  if num = 0 then some (0, 0) else
  let e₀ : Int := (Nat.log2 num : Int) - (Nat.log2 den : Int) - 52
  let s := scale num den e₀
  let e₁ := if s.1 / s.2 < 2 ^ 52 then e₀ - 1 else e₀
  let e := max e₁ (-1074)
  let t := scale num den e
  let m := roundEven t.1 t.2
  let r : Nat × Int := if m = 2 ^ 53 then (2 ^ 52, e + 1) else (m, e)
  if 971 < r.2 then none else some r

/-- `m · 10 ^ e` as a quotient of naturals. -/
def decimal (m : Nat) (e : Int) : Nat × Nat := (m * 10 ^ e.toNat, 10 ^ (-e).toNat)

/-- Of the two `k`-digit decimals next to `x`, those that round to `d`, the closer one. -/
def digitsAt (num den : Nat) (d : Nat × Int) (n : Int) (k : Nat) : Option Nat :=
  let u := decimal 1 ((k : Int) - n)
  let q := num * u.1 / (den * u.2)
  let r := num * u.1 % (den * u.2)
  let fits (s : Nat) : Bool :=
    let v := decimal s (n - (k : Int))
    decide (nearest v.1 v.2 = some d)
  if fits q && (!fits (q + 1) || decide (2 * r ≤ den * u.2)) then some q
  else if fits (q + 1) then some (q + 1) else none

/-- The least number of digits that tells the double apart, with those digits. -/
def shortest (num den : Nat) (d : Nat × Int) (n : Int) : Nat × Nat :=
  ((List.range 17).findSome? fun i => (digitsAt num den d n (i + 1)).map fun s => (s, i + 1)).getD
    (num / den, 17)

/-- The text of the digits `s` (`k` of them) with the decimal point after the first `n`. -/
def layout (s k : Nat) (n : Int) : String :=
  let ds := (toString s).toList
  let e := n - 1
  let sign := if e < 0 then "-" else "+"
  if (k : Int) ≤ n ∧ n ≤ 21 then String.ofList (ds ++ List.replicate (n.toNat - k) '0')
  else if 0 < n ∧ n ≤ 21 then String.ofList (ds.take n.toNat ++ '.' :: ds.drop n.toNat)
  else if -6 < n ∧ n ≤ 0 then String.ofList ('0' :: '.' :: List.replicate (-n).toNat '0' ++ ds)
  else if k = 1 then toString s ++ "e" ++ sign ++ toString e.natAbs
  else String.ofList (ds.take 1 ++ '.' :: ds.drop 1) ++ "e" ++ sign ++ toString e.natAbs

/-- Power of ten above `num / den`: the least `n` with `num / den < 10 ^ n`. -/
def magnitude (num den : Nat) : Int :=
  let below (n : Int) : Bool :=
    let u := decimal 1 n
    decide (num * u.2 < den * u.1)
  let e := ((Nat.log2 num : Int) - (Nat.log2 den : Int)) * 3 / 10 - 1
  ((List.range 60).findSome? fun i =>
    if below (e + (i : Int)) then some (e + (i : Int)) else none).getD 0

/-- The number a double is, told by its text unless it is a safe integer. -/
def ofDouble (neg : Bool) : Option (Nat × Int) → Num
  | none => other (if neg then "-Infinity" else "Infinity")
  | some (0, _) => if neg then negZero else int 0
  | some (m, e) =>
    let v := scale m 1 (-e)
    if v.1 % v.2 = 0 ∧ v.1 / v.2 ≤ maxSafe then
      int (if neg then -((v.1 / v.2 : Nat) : Int) else ((v.1 / v.2 : Nat) : Int))
    else
      let n := magnitude v.1 v.2
      let d := shortest v.1 v.2 (m, e) n
      -- a carry to the next power of ten moves the point one place
      let n' := if d.1 = 10 ^ d.2 then n + 1 else n
      let s := if d.1 = 10 ^ d.2 then 1 else d.1
      let k := if d.1 = 10 ^ d.2 then 1 else d.2
      other ((if neg then "-" else "") ++ layout s k n')

/-- The number a JSON literal `±m · 10 ^ e` denotes. An integer up to `maxSafe` is a double. -/
def ofDecimal (neg : Bool) (m : Nat) (e : Int) : Num :=
  if e = 0 ∧ m ≤ maxSafe then
    if m = 0 ∧ neg then negZero else int (if neg then -(m : Int) else (m : Int))
  else ofDouble neg (nearest (decimal m e).1 (decimal m e).2)

end Num

end Js
