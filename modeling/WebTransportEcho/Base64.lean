import Mathlib.Data.List.Basic

/-! Standard padded base64. Three bytes are four digits of six bits each; one or two bytes at the end
    are padded. `decode` takes padded text only, and no bits in it that no byte has. -/

namespace Base64

def digit (n : Nat) : Char :=
  if n < 26 then Char.ofNat (0x41 + n)
  else if n < 52 then Char.ofNat (0x61 + (n - 26))
  else if n < 62 then Char.ofNat (0x30 + (n - 52))
  else if n = 62 then '+'
  else '/'

def value (c : Char) : Option Nat :=
  let n := c.toNat
  if 0x41 ≤ n ∧ n ≤ 0x5A then some (n - 0x41)
  else if 0x61 ≤ n ∧ n ≤ 0x7A then some (n - 0x61 + 26)
  else if 0x30 ≤ n ∧ n ≤ 0x39 then some (n - 0x30 + 52)
  else if c = '+' then some 62
  else if c = '/' then some 63
  else none

def encode : List UInt8 → List Char
  | [] => []
  | [a] => [digit (a.toNat / 4), digit (a.toNat % 4 * 16), '=', '=']
  | [a, b] =>
    [digit (a.toNat / 4), digit (a.toNat % 4 * 16 + b.toNat / 16), digit (b.toNat % 16 * 4), '=']
  | a :: b :: c :: rest =>
    digit (a.toNat / 4) :: digit (a.toNat % 4 * 16 + b.toNat / 16) ::
      digit (b.toNat % 16 * 4 + c.toNat / 64) :: digit (c.toNat % 64) :: encode rest

def decode : List Char → Option (List UInt8)
  | [] => some []
  | p :: q :: r :: s :: rest => do
    let x ← value p
    let y ← value q
    if r = '=' ∧ s = '=' ∧ rest = [] then
      if y % 16 = 0 then some [UInt8.ofNat (x * 4 + y / 16)] else none
    else
      let z ← value r
      if s = '=' ∧ rest = [] then
        if z % 4 = 0 then some [UInt8.ofNat (x * 4 + y / 16), UInt8.ofNat (y % 16 * 16 + z / 4)]
        else none
      else
        let w ← value s
        let bytes ← decode rest
        some (UInt8.ofNat (x * 4 + y / 16) :: UInt8.ofNat (y % 16 * 16 + z / 4) ::
          UInt8.ofNat (z % 4 * 64 + w) :: bytes)
  | _ => none

theorem value_digit : ∀ n < 64, value (digit n) = some n := by decide

theorem digit_ne_pad : ∀ n < 64, digit n ≠ '=' := by decide

/-- A byte is put together again from its two parts. -/
theorem ofNat_parts {a : UInt8} {n : Nat} (h : n = a.toNat) : UInt8.ofNat n = a := by
  rw [h, UInt8.ofNat_toNat]

theorem decode_encode (bytes : List UInt8) : decode (encode bytes) = some bytes := by
  induction bytes using encode.induct with
  | case1 => rfl
  | case2 a =>
    have ha : a.toNat < 256 := a.toNat_lt
    rw [encode, decode, value_digit _ (by omega), value_digit _ (by omega)]
    simp only [Option.bind_eq_bind, Option.bind_some, and_self, if_true]
    rw [if_pos (by omega), ofNat_parts (a := a) (by omega)]
  | case3 a b =>
    have ha : a.toNat < 256 := a.toNat_lt
    have hb : b.toNat < 256 := b.toNat_lt
    rw [encode, decode, value_digit _ (by omega), value_digit _ (by omega), value_digit _ (by omega)]
    simp only [Option.bind_eq_bind, Option.bind_some, and_self, if_true]
    rw [if_neg (fun h => digit_ne_pad _ (by omega) h.1), if_pos (by omega),
      ofNat_parts (a := a) (by omega), ofNat_parts (a := b) (by omega)]
  | case4 a b c rest ih =>
    have ha : a.toNat < 256 := a.toNat_lt
    have hb : b.toNat < 256 := b.toNat_lt
    have hc : c.toNat < 256 := c.toNat_lt
    rw [encode, decode, value_digit _ (by omega), value_digit _ (by omega), value_digit _ (by omega),
      value_digit _ (by omega), ih]
    simp only [Option.bind_eq_bind, Option.bind_some]
    rw [if_neg (fun h => digit_ne_pad _ (by omega) h.1), if_neg (fun h => digit_ne_pad _ (by omega) h.1),
      ofNat_parts (a := a) (by omega), ofNat_parts (a := b) (by omega), ofNat_parts (a := c) (by omega)]

/-- A character of encoded text. -/
def IsDigit (c : Char) : Prop := c = '=' ∨ ∃ n < 64, c = digit n

theorem isDigit_of_mem {bytes : List UInt8} : ∀ c ∈ encode bytes, IsDigit c := by
  have hdigit (n : Nat) (h : n < 64) : IsDigit (digit n) := Or.inr ⟨n, h, rfl⟩
  have hpad : IsDigit '=' := Or.inl rfl
  induction bytes using encode.induct with
  | case1 => exact fun c hc => absurd hc List.not_mem_nil
  | case2 a =>
    have ha : a.toNat < 256 := a.toNat_lt
    simp only [encode, List.forall_mem_cons]
    exact ⟨hdigit _ (by omega), hdigit _ (by omega), hpad, hpad, by simp⟩
  | case3 a b =>
    have ha : a.toNat < 256 := a.toNat_lt
    have hb : b.toNat < 256 := b.toNat_lt
    simp only [encode, List.forall_mem_cons]
    exact ⟨hdigit _ (by omega), hdigit _ (by omega), hdigit _ (by omega), hpad, by simp⟩
  | case4 a b c rest ih =>
    have ha : a.toNat < 256 := a.toNat_lt
    have hb : b.toNat < 256 := b.toNat_lt
    have hc : c.toNat < 256 := c.toNat_lt
    simp only [encode, List.forall_mem_cons]
    exact ⟨hdigit _ (by omega), hdigit _ (by omega), hdigit _ (by omega), hdigit _ (by omega), ih⟩

end Base64
