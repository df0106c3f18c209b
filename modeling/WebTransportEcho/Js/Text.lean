import WebTransportEcho.Js.Value

/-! JSON text: `JSON.stringify` with and without an indentation gap, and `JSON.parse`.

    The printer follows the quoting and layout of `JSON.stringify` (`gap` spaces a level; a gap of
    zero is the compact form). The parser reads the JSON grammar by recursive descent; its fuel
    falls with each nested call, every second of which consumes a character, so twice the length of
    the text is always enough. Text is a list of Unicode scalar values: a lone surrogate, which a
    JavaScript string can hold and a `\u` escape can spell, is read as U+FFFD. -/

namespace Js

def quote : Char := Char.ofNat 0x22
def backslash : Char := Char.ofNat 0x5c
def openBrace : Char := Char.ofNat 0x7b
def closeBrace : Char := Char.ofNat 0x7d

/-! ### `JSON.stringify` -/

def hexDigit (n : Nat) : Char := Char.ofNat (if n < 10 then 0x30 + n else 0x57 + n)

/-- One character of a quoted string. -/
def escape (c : Char) : List Char :=
  if c = quote then [backslash, quote]
  else if c = backslash then [backslash, backslash]
  else if c.toNat = 0x08 then [backslash, 'b']
  else if c.toNat = 0x0c then [backslash, 'f']
  else if c.toNat = 0x0a then [backslash, 'n']
  else if c.toNat = 0x0d then [backslash, 'r']
  else if c.toNat = 0x09 then [backslash, 't']
  else if c.toNat < 0x20 then
    [backslash, 'u', '0', '0', hexDigit (c.toNat / 16), hexDigit (c.toNat % 16)]
  else [c]

def quoted (s : String) : List Char := quote :: (s.toList.flatMap escape ++ [quote])

/-- The text of a number in JSON, where only finite numbers have one. -/
def Num.json : Num → String
  | other "Infinity" => "null"
  | other "-Infinity" => "null"
  | other "NaN" => "null"
  | n => n.text

/-- A line break and the indentation of the next line; nothing in the compact form. -/
def newline (gap depth : Nat) : List Char :=
  if gap = 0 then [] else Char.ofNat 0x0a :: List.replicate (gap * depth) ' '

def colon (gap : Nat) : List Char := if gap = 0 then [':'] else [':', ' ']

mutual
def print (gap depth : Nat) : Json → List Char
  | .null => "null".toList
  | .bool b => (if b then "true" else "false").toList
  | .num n => n.json.toList
  | .str s => quoted s
  | .arr [] => ['[', ']']
  | .arr (j :: js) =>
    '[' :: (newline gap (depth + 1) ++ print gap (depth + 1) j ++ printItems gap (depth + 1) js ++
      newline gap depth ++ [']'])
  | .obj [] => [openBrace, closeBrace]
  | .obj ((k, j) :: fs) =>
    openBrace :: (newline gap (depth + 1) ++ quoted k ++ colon gap ++ print gap (depth + 1) j ++
      printFields gap (depth + 1) fs ++ newline gap depth ++ [closeBrace])

/-- The elements after the first, each behind its comma. -/
def printItems (gap depth : Nat) : List Json → List Char
  | [] => []
  | j :: js => ',' :: (newline gap depth ++ print gap depth j ++ printItems gap depth js)

/-- The properties after the first, each behind its comma. -/
def printFields (gap depth : Nat) : List (String × Json) → List Char
  | [] => []
  | (k, j) :: fs =>
    ',' :: (newline gap depth ++ quoted k ++ colon gap ++ print gap depth j ++
      printFields gap depth fs)
end

/-- `JSON.stringify(j, null, gap)`, without a limit on the engine's stack. -/
def stringify (gap : Nat) (j : Json) : String := String.ofList (print gap 0 j)

/-! ### `JSON.parse` -/

def isSpace (c : Char) : Bool :=
  c.toNat = 0x20 || c.toNat = 0x0a || c.toNat = 0x0d || c.toNat = 0x09

/-- The rest of the text after its white space. -/
def skip : List Char → List Char
  | [] => []
  | c :: cs => if isSpace c then skip cs else c :: cs

/-- The rest after the fixed word `word`. -/
def expect : List Char → List Char → Option (List Char)
  | [], cs => some cs
  | _ :: _, [] => none
  | w :: ws, c :: cs => if w = c then expect ws cs else none

def hexValue (c : Char) : Option Nat :=
  let n := c.toNat
  if 0x30 ≤ n ∧ n ≤ 0x39 then some (n - 0x30)
  else if 0x41 ≤ n ∧ n ≤ 0x46 then some (n - 0x37)
  else if 0x61 ≤ n ∧ n ≤ 0x66 then some (n - 0x57)
  else none

/-- The code unit of a `\uXXXX` escape. -/
def codeUnit (a b c d : Char) : Option Nat := do
  let a ← hexValue a
  let b ← hexValue b
  let c ← hexValue c
  let d ← hexValue d
  some (((a * 16 + b) * 16 + c) * 16 + d)

/-- The character a one-letter escape stands for. -/
def shortEscape (c : Char) : Option Nat :=
  if c = quote then some 0x22
  else if c = backslash then some 0x5c
  else if c = '/' then some 0x2f
  else if c = 'b' then some 0x08
  else if c = 'f' then some 0x0c
  else if c = 'n' then some 0x0a
  else if c = 'r' then some 0x0d
  else if c = 't' then some 0x09
  else none

/-- The code units of a string after its opening quote, and the rest after its closing quote. -/
def stringUnits : List Char → Option (List Nat × List Char)
  | [] => none
  | c :: cs =>
    if c = quote then some ([], cs)
    else if c.toNat < 0x20 then none
    else if c = backslash then
      match cs with
      | [] => none
      | e :: rest =>
        if e = 'u' then
          match rest with
          | h₁ :: h₂ :: h₃ :: h₄ :: rest' => do
            let u ← codeUnit h₁ h₂ h₃ h₄
            let (us, out) ← stringUnits rest'
            some (u :: us, out)
          | _ => none
        else do
          let u ← shortEscape e
          let (us, out) ← stringUnits rest
          some (u :: us, out)
    else do
      let (us, out) ← stringUnits cs
      some (c.toNat :: us, out)

def isHigh (u : Nat) : Bool := 0xd800 ≤ u && u ≤ 0xdbff
def isLow (u : Nat) : Bool := 0xdc00 ≤ u && u ≤ 0xdfff

/-- Surrogate pairs joined; a lone surrogate becomes U+FFFD. -/
def joinUnits : List Nat → List Char
  | [] => []
  | [u] => [if isHigh u || isLow u then Char.ofNat 0xfffd else Char.ofNat u]
  | u :: v :: rest =>
    if isHigh u && isLow v then
      Char.ofNat (0x10000 + (u - 0xd800) * 0x400 + (v - 0xdc00)) :: joinUnits rest
    else
      (if isHigh u || isLow u then Char.ofNat 0xfffd else Char.ofNat u) :: joinUnits (v :: rest)

def parseString (cs : List Char) : Option (String × List Char) :=
  (stringUnits cs).map fun p => (String.ofList (joinUnits p.1), p.2)

/-- The leading digits and the rest. -/
def digits : List Char → List Char × List Char
  | [] => ([], [])
  | c :: cs => if c.isDigit then let p := digits cs; (c :: p.1, p.2) else ([], c :: cs)

def digitsValue (ds : List Char) : Nat := Nat.ofDigitChars 10 ds 0

/-- The digits after a decimal point; none without a point. -/
def fraction : List Char → Option (List Char × List Char)
  | c :: cs =>
    if c = '.' then
      let p := digits cs
      if p.1.isEmpty then none else some p
    else some ([], c :: cs)
  | [] => some ([], [])

/-- The value of an exponent part; zero without one. -/
def exponent : List Char → Option (Int × List Char)
  | c :: cs =>
    if c = 'e' ∨ c = 'E' then
      let signed : Bool × List Char :=
        match cs with
        | s :: rest => if s = '-' then (true, rest) else if s = '+' then (false, rest) else (false, cs)
        | [] => (false, cs)
      let p := digits signed.2
      if p.1.isEmpty then none
      else some (if signed.1 then -(digitsValue p.1 : Int) else (digitsValue p.1 : Int), p.2)
    else some (0, c :: cs)
  | [] => some (0, [])

/-- A number after its optional minus sign: no leading zero, then fraction and exponent. -/
def parseNumber (neg : Bool) (cs : List Char) : Option (Num × List Char) := do
  let p := digits cs
  if p.1.isEmpty ∨ (1 < p.1.length ∧ p.1.head? = some '0') then none
  let f ← fraction p.2
  let e ← exponent f.2
  some (Num.ofDecimal neg (digitsValue (p.1 ++ f.1)) (e.1 - (f.1.length : Int)), e.2)

/-- `JSON.parse` keeps the place of a repeated key's first mention and the value of its last. -/
def mergeFields (fs : List (String × Json)) : List (String × Json) :=
  fs.foldl (fun acc f => Json.setField f.1 f.2 acc) []

mutual
/-- A value whose first character is next. -/
def parseValue : Nat → List Char → Option (Json × List Char)
  | 0, _ => none
  | _ + 1, [] => none
  | fuel + 1, c :: cs =>
    if c = 'n' then (expect "ull".toList cs).map fun rest => (.null, rest)
    else if c = 't' then (expect "rue".toList cs).map fun rest => (.bool true, rest)
    else if c = 'f' then (expect "alse".toList cs).map fun rest => (.bool false, rest)
    else if c = quote then (parseString cs).map fun p => (.str p.1, p.2)
    else if c = '[' then
      match skip cs with
      | [] => none
      | d :: ds =>
        if d = ']' then some (.arr [], ds)
        else (parseItems fuel (d :: ds)).map fun p => (.arr p.1, p.2)
    else if c = openBrace then
      match skip cs with
      | [] => none
      | d :: ds =>
        if d = closeBrace then some (.obj [], ds)
        else (parseFields fuel (d :: ds)).map fun p => (.obj (mergeFields p.1), p.2)
    else if c = '-' then (parseNumber true cs).map fun p => (.num p.1, p.2)
    else (parseNumber false (c :: cs)).map fun p => (.num p.1, p.2)

/-- The elements up to the closing bracket, the first of them next. -/
def parseItems : Nat → List Char → Option (List Json × List Char)
  | 0, _ => none
  | fuel + 1, cs => do
    let (j, rest) ← parseValue fuel cs
    match skip rest with
    | [] => none
    | d :: ds =>
      if d = ']' then some ([j], ds)
      else if d = ',' then do
        let (js, out) ← parseItems fuel (skip ds)
        some (j :: js, out)
      else none

/-- The properties up to the closing brace, the first key next. -/
def parseFields : Nat → List Char → Option (List (String × Json) × List Char)
  | 0, _ => none
  | _ + 1, [] => none
  | fuel + 1, c :: cs =>
    if c = quote then do
      let (k, afterKey) ← parseString cs
      let afterColon ← expect [':'] (skip afterKey)
      let (j, rest) ← parseValue fuel (skip afterColon)
      match skip rest with
      | [] => none
      | d :: ds =>
        if d = closeBrace then some ([(k, j)], ds)
        else if d = ',' then do
          let (fs, out) ← parseFields fuel (skip ds)
          some ((k, j) :: fs, out)
        else none
    else none
end

/-- `JSON.parse(text)`, without a limit on the engine's stack. -/
def parse (text : String) : Except Error Json :=
  let cs := text.toList
  match parseValue (2 * cs.length + 2) (skip cs) with
  | some (j, rest) =>
    if (skip rest).isEmpty then .ok j else .error (.syntaxError "Unexpected token in JSON")
  | none => .error (.syntaxError "Unexpected token in JSON")

end Js
