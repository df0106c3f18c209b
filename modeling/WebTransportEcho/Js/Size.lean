import WebTransportEcho.Js.RoundTrip
import WebTransportEcho.Utf8
import Mathlib.Algebra.Group.Action.Defs
import Mathlib.Algebra.Order.BigOperators.Group.List

/-! How many bytes the compact text of a JSON document has. `size` goes through the document as the
    printer does (`length_stringify`), so a bound is found part by part: of a string by the number of
    its characters, of a count by its digits, of an array or an object by the sum over what is in it.
    The keys of an object are often known when its values are not, so their part is `keysSize`. -/

namespace Js

/-- The bytes of a text. -/
def utf8 (s : String) : List UInt8 := Utf8.encode s.toList

def quotedSize (s : String) : Nat := (Utf8.encode (quoted s)).length

mutual
/-- The number of bytes of `JSON.stringify(j)`. -/
def Json.size : Json → Nat
  | .null => 4
  | .bool b => if b then 4 else 5
  | .num n => (utf8 n.json).length
  | .str s => quotedSize s
  | .arr [] => 2
  | .arr (j :: js) => 2 + j.size + itemsSize js
  | .obj [] => 2
  | .obj ((k, j) :: fs) => 3 + quotedSize k + j.size + fieldsSize fs

/-- The elements after the first, each with its comma. -/
def itemsSize : List Json → Nat
  | [] => 0
  | j :: js => 1 + j.size + itemsSize js

/-- The properties after the first, each with its comma. -/
def fieldsSize : List (String × Json) → Nat
  | [] => 0
  | (k, j) :: fs => 2 + quotedSize k + j.size + fieldsSize fs
end

/-! ### The size is that of the text -/

theorem length_encode_ascii_cons {c : Char} (h : c.utf8Size = 1) (cs : List Char) :
    (Utf8.encode (c :: cs)).length = 1 + (Utf8.encode cs).length := by
  rw [Utf8.length_encode_cons, h]

theorem length_encode_append (as bs : List Char) :
    (Utf8.encode (as ++ bs)).length = (Utf8.encode as).length + (Utf8.encode bs).length := by
  rw [Utf8.encode_append, List.length_append]

mutual
theorem length_print (depth : Nat) : ∀ j : Json, (Utf8.encode (print 0 depth j)).length = j.size
  | .null => by rw [print, Json.size]; decide
  | .bool b => by rw [print, Json.size]; cases b <;> decide
  | .num n => by rw [print, Json.size, utf8]
  | .str s => by rw [print, Json.size, quotedSize]
  | .arr [] => by rw [print, Json.size]; decide
  | .arr (j :: js) => by
    have hj := length_print (depth + 1) j
    have hjs := length_printItems (depth + 1) js
    have hend : (Utf8.encode [']']).length = 1 := by decide
    simp only [print, newline, if_true, List.nil_append, List.append_nil,
      length_encode_ascii_cons (c := '[') rfl, length_encode_append, hj, hjs, hend, Json.size]
    omega
  | .obj [] => by rw [print, Json.size]; decide
  | .obj ((k, j) :: fs) => by
    have hj := length_print (depth + 1) j
    have hfs := length_printFields (depth + 1) fs
    have hcolon : (Utf8.encode [':']).length = 1 := by decide
    have hend : (Utf8.encode [closeBrace]).length = 1 := by decide
    simp only [print, newline, colon, if_true, List.nil_append, List.append_nil,
      length_encode_ascii_cons (c := openBrace) rfl, length_encode_append, hj, hfs, hcolon, hend,
      Json.size, quotedSize]
    omega

theorem length_printItems (depth : Nat) : ∀ js : List Json,
    (Utf8.encode (printItems 0 depth js)).length = itemsSize js
  | [] => rfl
  | j :: js => by
    have hj := length_print depth j
    have hjs := length_printItems depth js
    simp only [printItems, newline, if_true, List.nil_append, length_encode_ascii_cons (c := ',') rfl,
      length_encode_append, hj, hjs, itemsSize]
    omega

theorem length_printFields (depth : Nat) : ∀ fs : List (String × Json),
    (Utf8.encode (printFields 0 depth fs)).length = fieldsSize fs
  | [] => rfl
  | (k, j) :: fs => by
    have hj := length_print depth j
    have hfs := length_printFields depth fs
    have hcolon : (Utf8.encode [':']).length = 1 := by decide
    simp only [printFields, newline, colon, if_true, List.nil_append,
      length_encode_ascii_cons (c := ',') rfl, length_encode_append, hj, hfs, hcolon, fieldsSize,
      quotedSize]
    omega
end

theorem length_stringify (j : Json) : (utf8 (stringify 0 j)).length = j.size := by
  rw [utf8, stringify, String.toList_ofList, length_print]

/-! ### Bounds of the parts -/

theorem length_escape_le (c : Char) : (Utf8.encode (escape c)).length ≤ 6 := by
  have hplain : (Utf8.encode [c]).length ≤ 6 := by
    have hsize := c.utf8Size_le_four
    rw [Utf8.length_encode_cons]
    exact Nat.add_le_add hsize (Nat.zero_le 2)
  have hhex : ∀ n < 0x20, (Utf8.encode
      [backslash, 'u', '0', '0', hexDigit (n / 16), hexDigit (n % 16)]).length ≤ 6 := by decide
  unfold escape
  split_ifs with _ _ _ _ _ _ _ hlow
  · decide
  · decide
  · decide
  · decide
  · decide
  · decide
  · decide
  · exact hhex c.toNat hlow
  · exact hplain

/-- A character takes at most six bytes, as an escape of a control character does. -/
theorem quotedSize_le (s : String) : quotedSize s ≤ 6 * s.length + 2 := by
  have hchars : ∀ cs : List Char, (Utf8.encode (cs.flatMap escape)).length ≤ 6 * cs.length := by
    intro cs
    induction cs with
    | nil => exact Nat.le_refl 0
    | cons c cs ih =>
      have hc := length_escape_le c
      rw [List.flatMap_cons, length_encode_append, List.length_cons]
      omega
  have hs := hchars s.toList
  have hend : (Utf8.encode [quote]).length = 1 := by decide
  rw [quotedSize, quoted, length_encode_ascii_cons (c := quote) rfl, length_encode_append, hend]
  rw [String.length_toList] at hs
  omega

theorem size_nat_le {n k : Nat} (hk : 0 < k) (h : n < 10 ^ k) : (Json.nat n).size ≤ k := by
  have hascii : ∀ c ∈ Nat.toDigits 10 n, c.utf8Size = 1 := by
    intro c hc
    have hdigit := Nat.isDigit_of_mem_toDigits (by decide) (by decide) hc
    rw [Char.isDigit_iff_toNat] at hdigit
    rw [Char.utf8Size_eq_one_iff, UInt32.le_iff_toNat_le]
    exact hdigit.2.trans (by decide)
  rw [Json.size, utf8, toList_json_int, if_neg (by omega), List.nil_append, Int.natAbs_natCast,
    Utf8.length_encode_ascii hascii]
  exact (Nat.length_toDigits_le_iff (by decide) hk).mpr h

theorem itemsSize_eq : ∀ js : List Json, itemsSize js = (js.map fun j => 1 + j.size).sum
  | [] => rfl
  | j :: js => by rw [itemsSize, itemsSize_eq js, List.map_cons, List.sum_cons]

theorem size_arr_le (js : List Json) : (Json.arr js).size ≤ 2 + (js.map fun j => 1 + j.size).sum := by
  cases js with
  | nil => exact Nat.le_refl 2
  | cons j js =>
    rw [Json.size, itemsSize_eq, List.map_cons, List.sum_cons]
    omega

theorem size_arr_le_of_forall {js : List Json} {n : Nat} (h : ∀ j ∈ js, j.size ≤ n) :
    (Json.arr js).size ≤ 2 + js.length * (1 + n) := by
  have hsum := List.sum_le_card_nsmul (js.map fun j => 1 + j.size) (1 + n) fun m hm => by
    obtain ⟨j, hj, rfl⟩ := List.mem_map.mp hm
    exact Nat.add_le_add_left (h j hj) 1
  rw [List.length_map, smul_eq_mul] at hsum
  exact (size_arr_le js).trans (Nat.add_le_add_left hsum 2)

/-- What the keys of an object take, with a colon and a comma for each. -/
def keysSize (keys : List String) : Nat := (keys.map fun k => 2 + quotedSize k).sum

/-- Each value is at most as long as its bound. -/
abbrev Bounded (fs : List (String × Json)) (bounds : List Nat) : Prop :=
  List.Forall₂ (fun f n => f.2.size ≤ n) fs bounds

theorem bounded_map {α : Type} (keys : List α) (field : α → String × Json) (bound : Nat)
    (h : ∀ k, (field k).2.size ≤ bound) : Bounded (keys.map field) (keys.map fun _ => bound) := by
  rw [Bounded, List.forall₂_map_left_iff, List.forall₂_map_right_iff, List.forall₂_same]
  exact fun k _ => h k

theorem fieldsSize_le {fs : List (String × Json)} {bounds : List Nat} (h : Bounded fs bounds) :
    fieldsSize fs ≤ keysSize (fs.map Prod.fst) + bounds.sum := by
  induction h with
  | nil => exact Nat.le_refl 0
  | @cons f n fs bounds hf _ ih =>
    obtain ⟨k, j⟩ := f
    simp only [fieldsSize, keysSize, List.map_cons, List.sum_cons] at ih hf ⊢
    omega

/-- An object is as long as its keys and the bounds of its values allow. -/
theorem size_obj_le (keys : List String) (bounds : List Nat) {fs : List (String × Json)} {n : Nat}
    (hkeys : fs.map Prod.fst = keys) (h : Bounded fs bounds)
    (hn : 2 + keysSize keys + bounds.sum ≤ n) : (Json.obj fs).size ≤ n := by
  have hfields := fieldsSize_le h
  subst hkeys
  cases fs with
  | nil =>
    rw [Json.size]
    omega
  | cons f fs =>
    obtain ⟨k, j⟩ := f
    rw [fieldsSize] at hfields
    rw [Json.size]
    omega

end Js
