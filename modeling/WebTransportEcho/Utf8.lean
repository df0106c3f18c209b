import Mathlib.Data.List.Basic

/-! Text in bytes that need not be UTF-8. `decode` never fails: each maximal part of an ill-formed
    sequence reads as one replacement character, which is what `bytes.decode("utf8", "replace")`,
    `String::from_utf8_lossy` and `Buffer.toString("utf8")` do. It inverts `encode`, and a text
    without a replacement character was decoded from its own encoding. -/

namespace Utf8

/-- U+FFFD. -/
def replacement : Char := '\uFFFD'

def encode (text : List Char) : List UInt8 := text.flatMap String.utf8EncodeChar

/-- How many bytes follow a first byte, and the least and the greatest that the next may be. -/
def continuation (b : UInt8) : Nat × UInt8 × UInt8 :=
  if b < 0xC2 then (0, 0x80, 0xBF)
  else if b < 0xE0 then (1, 0x80, 0xBF)
  else if b = 0xE0 then (2, 0xA0, 0xBF)
  else if b = 0xED then (2, 0x80, 0x9F)
  else if b < 0xF0 then (2, 0x80, 0xBF)
  else if b = 0xF0 then (3, 0x90, 0xBF)
  else if b < 0xF4 then (3, 0x80, 0xBF)
  else if b = 0xF4 then (3, 0x80, 0x8F)
  else (0, 0x80, 0xBF)

/-- How many of the `n` bytes that should follow are there. -/
def subpart : Nat → UInt8 → UInt8 → List UInt8 → Nat
  | 0, _, _, _ => 0
  | _ + 1, _, _, [] => 0
  | n + 1, low, high, b :: rest =>
    if low ≤ b ∧ b ≤ high then 1 + subpart n 0x80 0xBF rest else 0

/-- The first character, and the bytes after it. -/
def decodeFirst (b : UInt8) (rest : List UInt8) : Char × List UInt8 :=
  match (b :: rest).toByteArray.utf8DecodeChar? 0 with
  | some c => (c, (b :: rest).drop c.utf8Size)
  | none =>
    let (n, low, high) := continuation b
    (replacement, rest.drop (subpart n low high rest))

/-- The first `n` characters. -/
def decodeUpTo : Nat → List UInt8 → List Char
  | 0, _ => []
  | _ + 1, [] => []
  | n + 1, b :: rest => (decodeFirst b rest).1 :: decodeUpTo n (decodeFirst b rest).2

/-- Every character takes a byte at least. -/
def decode (bytes : List UInt8) : List Char := decodeUpTo bytes.length bytes

example : decode [0x61, 0xE2, 0x82, 0x62, 0xE2, 0x82, 0xAC, 0xC0, 0xAF] =
    ['a', replacement, 'b', '€', replacement, replacement] := by decide

theorem encode_cons (c : Char) (text : List Char) :
    encode (c :: text) = String.utf8EncodeChar c ++ encode text := rfl

theorem encode_append (a b : List Char) : encode (a ++ b) = encode a ++ encode b := List.flatMap_append

theorem length_encode_cons (c : Char) (text : List Char) :
    (encode (c :: text)).length = c.utf8Size + (encode text).length := by
  rw [encode_cons, List.length_append, String.length_utf8EncodeChar]

/-- A text that is all ASCII has a byte for each character. -/
theorem length_encode_ascii : ∀ {text : List Char}, (∀ c ∈ text, c.utf8Size = 1) →
    (encode text).length = text.length
  | [], _ => rfl
  | c :: text, h => by
    obtain ⟨hc, htext⟩ := List.forall_mem_cons.mp h
    rw [length_encode_cons, hc, length_encode_ascii htext, List.length_cons, Nat.add_comm]

/-! ### Decoding step by step -/

theorem length_decodeFirst_le (b : UInt8) (rest : List UInt8) :
    (decodeFirst b rest).2.length ≤ rest.length := by
  unfold decodeFirst
  split
  · next c _ =>
    have hpos := c.utf8Size_pos
    simp only [List.length_drop, List.length_cons]
    omega
  · simp

theorem decodeUpTo_succ : ∀ {n : Nat} {bytes : List UInt8}, bytes.length ≤ n →
    decodeUpTo (n + 1) bytes = decodeUpTo n bytes
  | 0, [], _ => rfl
  | n + 1, [], _ => rfl
  | n + 1, b :: rest, h => by
    have hrest : rest.length ≤ n := Nat.le_of_succ_le_succ h
    rw [decodeUpTo, decodeUpTo, decodeUpTo_succ (Nat.le_trans (length_decodeFirst_le b rest) hrest)]

theorem decodeUpTo_of_le {n : Nat} {bytes : List UInt8} (h : bytes.length ≤ n) :
    decodeUpTo n bytes = decode bytes := by
  induction h with
  | refl => rfl
  | step h ih => rw [decodeUpTo_succ h, ih]

theorem decode_cons (b : UInt8) (rest : List UInt8) :
    decode (b :: rest) = (decodeFirst b rest).1 :: decode (decodeFirst b rest).2 := by
  rw [decode, List.length_cons, decodeUpTo, decodeUpTo_of_le (length_decodeFirst_le b rest)]

theorem decode_encodeChar (c : Char) (rest : List UInt8) :
    decode (String.utf8EncodeChar c ++ rest) = c :: decode rest := by
  obtain ⟨b, bs, hb⟩ := List.exists_cons_of_ne_nil (String.utf8EncodeChar_ne_nil (c := c))
  have hread : (b :: (bs ++ rest)).toByteArray.utf8DecodeChar? 0 = some c := by
    rw [← List.cons_append, ← hb, List.toByteArray_append]
    exact ByteArray.utf8DecodeChar?_utf8EncodeChar_append
  have hdrop : (b :: (bs ++ rest)).drop c.utf8Size = rest := by
    rw [← List.cons_append, ← hb]
    exact List.drop_left' (String.length_utf8EncodeChar c)
  rw [hb, List.cons_append, decode_cons]
  simp only [decodeFirst, hread, hdrop]

theorem decode_encode (text : List Char) : decode (encode text) = text := by
  induction text with
  | nil => rfl
  | cons c text ih => rw [encode_cons, decode_encodeChar, ih]

/-- A character that was not put in for ill-formed bytes stands for its encoding. -/
theorem decodeFirst_eq {b : UInt8} {rest : List UInt8} (h : (decodeFirst b rest).1 ≠ replacement) :
    String.utf8EncodeChar (decodeFirst b rest).1 ++ (decodeFirst b rest).2 = b :: rest := by
  unfold decodeFirst at h ⊢
  split at h
  · next c hc =>
    have hbytes := String.toByteArray_utf8EncodeChar_of_utf8DecodeChar?_eq_some hc
    have htake : String.utf8EncodeChar c = (b :: rest).take c.utf8Size := by
      have := congrArg (fun bytes => bytes.data.toList) hbytes
      simpa [ByteArray.data_extract] using this
    rw [htake, List.take_append_drop]
  · exact absurd rfl h

theorem encode_decode {bytes : List UInt8} (h : replacement ∉ decode bytes) :
    encode (decode bytes) = bytes := by
  induction hn : bytes.length using Nat.strongRecOn generalizing bytes with
  | ind n ih =>
    cases bytes with
    | nil => rfl
    | cons b rest =>
      have hshort := length_decodeFirst_le b rest
      rw [decode_cons, List.mem_cons, not_or] at h
      rw [List.length_cons] at hn
      rw [decode_cons, encode_cons, ih _ (by omega) h.2 rfl, decodeFirst_eq (Ne.symm h.1)]

/-- A text without a replacement character is decoded from its encoding alone. -/
theorem decode_eq_iff {bytes : List UInt8} {text : List Char} (h : replacement ∉ text) :
    decode bytes = text ↔ bytes = encode text := by
  refine ⟨fun hdecode => ?_, fun hbytes => by rw [hbytes, decode_encode]⟩
  rw [← hdecode] at h ⊢
  exact (encode_decode h).symm

/-- The bytes are the encoding of a text. -/
def Valid (bytes : List UInt8) : Prop := ∃ text, encode text = bytes

theorem valid_iff {bytes : List UInt8} : Valid bytes ↔ encode (decode bytes) = bytes := by
  refine ⟨?_, fun h => ⟨_, h⟩⟩
  rintro ⟨text, rfl⟩
  rw [decode_encode]

instance (bytes : List UInt8) : Decidable (Valid bytes) := decidable_of_iff _ valid_iff.symm

end Utf8
