import WebTransportEcho.Js.Text
import Mathlib.Data.List.Nodup

/-! Round trip of JSON text: `JSON.parse(JSON.stringify(j, null, gap))` is `j` again, for every gap,
    when the numbers of `j` are safe integers and no object of it repeats a key. Hence
    `JSON.stringify` is injective on such documents, and comparing two texts compares the values. -/

namespace Js

mutual
/-- Documents that survive their text: integers only (no `-0`, whose text is that of `0`), and no
    key twice in an object. -/
def Json.Plain : Json → Prop
  | .num (.int n) => n.natAbs ≤ Num.maxSafe
  | .num .negZero => False
  | .num (.other _) => False
  | .arr items => PlainItems items
  | .obj fields => (fields.map Prod.fst).Nodup ∧ PlainFields fields
  | _ => True

def PlainItems : List Json → Prop
  | [] => True
  | j :: js => j.Plain ∧ PlainItems js

def PlainFields : List (String × Json) → Prop
  | [] => True
  | (_, j) :: fs => j.Plain ∧ PlainFields fs
end

theorem plainItems_iff : ∀ js : List Json, PlainItems js ↔ ∀ j ∈ js, j.Plain
  | [] => by simp [PlainItems]
  | j :: js => by simp [PlainItems, plainItems_iff js]

theorem plainFields_iff : ∀ fs : List (String × Json), PlainFields fs ↔ ∀ f ∈ fs, f.2.Plain
  | [] => by simp [PlainFields]
  | (k, j) :: fs => by simp [PlainFields, plainFields_iff fs]

mutual
/-- Fuel a document's text needs. -/
def weight : Json → Nat
  | .arr items => 1 + weightItems items
  | .obj fields => 1 + weightFields fields
  | _ => 1

def weightItems : List Json → Nat
  | [] => 0
  | j :: js => 1 + weight j + weightItems js

def weightFields : List (String × Json) → Nat
  | [] => 0
  | (_, j) :: fs => 1 + weight j + weightFields fs
end

/-! ### Strings -/

theorem char_not_surrogate (c : Char) : (isHigh c.toNat || isLow c.toNat) = false := by
  have h := c.valid
  have hn : c.toNat = c.val.toNat := rfl
  simp only [UInt32.isValidChar, Nat.isValidChar] at h
  simp only [isHigh, isLow, Bool.or_eq_false_iff, Bool.and_eq_false_iff, decide_eq_false_iff_not]
  omega

theorem joinUnits_toNat : ∀ cs : List Char, joinUnits (cs.map Char.toNat) = cs
  | [] => rfl
  | [c] => by
    simp only [List.map_cons, List.map_nil, joinUnits, char_not_surrogate]
    simp [Char.ofNat_toNat]
  | c :: d :: cs => by
    have hc := char_not_surrogate c
    have hrest := joinUnits_toNat (d :: cs)
    simp only [List.map_cons] at hrest
    rw [Bool.or_eq_false_iff] at hc
    simp only [List.map_cons, joinUnits, hc.1, hc.2, hrest]
    simp [Char.ofNat_toNat]

theorem codeUnit_hexDigit : ∀ n < 32,
    codeUnit '0' '0' (hexDigit (n / 16)) (hexDigit (n % 16)) = some n := by decide

theorem stringUnits_quote (cs : List Char) : stringUnits (quote :: cs) = some ([], cs) := by
  rw [stringUnits.eq_def]
  simp only [if_true]

theorem stringUnits_short {e : Char} {u : Nat} (hu : e ≠ 'u') (hs : shortEscape e = some u)
    (cs : List Char) : stringUnits (backslash :: e :: cs) =
      (stringUnits cs).map fun p => (u :: p.1, p.2) := by
  have hq : backslash ≠ quote := by decide
  have hl : ¬ backslash.toNat < 0x20 := by decide
  rw [stringUnits.eq_def]
  simp only [hq, hl, hu, hs, if_true, if_false, Option.bind_eq_bind, Option.bind_some]
  cases stringUnits cs <;> rfl

theorem stringUnits_hex {h₁ h₂ h₃ h₄ : Char} {u : Nat} (hu : codeUnit h₁ h₂ h₃ h₄ = some u)
    (cs : List Char) : stringUnits (backslash :: 'u' :: h₁ :: h₂ :: h₃ :: h₄ :: cs) =
      (stringUnits cs).map fun p => (u :: p.1, p.2) := by
  have hq : backslash ≠ quote := by decide
  have hl : ¬ backslash.toNat < 0x20 := by decide
  rw [stringUnits.eq_def]
  simp only [hq, hl, hu, if_true, if_false, Option.bind_eq_bind, Option.bind_some]
  cases stringUnits cs <;> rfl

theorem stringUnits_plain {c : Char} (hq : c ≠ quote) (hl : ¬ c.toNat < 0x20) (hb : c ≠ backslash)
    (cs : List Char) :
    stringUnits (c :: cs) = (stringUnits cs).map fun p => (c.toNat :: p.1, p.2) := by
  rw [stringUnits.eq_def]
  simp only [hq, hl, hb, if_false, Option.bind_eq_bind]
  cases stringUnits cs <;> rfl

/-- One escaped character is read back as that character. -/
theorem stringUnits_escape (c : Char) (rest : List Char) :
    stringUnits (escape c ++ rest) = (stringUnits rest).map fun p => (c.toNat :: p.1, p.2) := by
  unfold escape
  split_ifs with h₁ h₂ h₃ h₄ h₅ h₆ h₇ h₈
  · subst h₁; exact stringUnits_short (by decide) (by decide) rest
  · subst h₂; exact stringUnits_short (by decide) (by decide) rest
  · rw [h₃]; exact stringUnits_short (by decide) (by decide) rest
  · rw [h₄]; exact stringUnits_short (by decide) (by decide) rest
  · rw [h₅]; exact stringUnits_short (by decide) (by decide) rest
  · rw [h₆]; exact stringUnits_short (by decide) (by decide) rest
  · rw [h₇]; exact stringUnits_short (by decide) (by decide) rest
  · exact stringUnits_hex (codeUnit_hexDigit c.toNat (by omega)) rest
  · exact stringUnits_plain h₁ h₈ h₂ rest

theorem stringUnits_escaped (rest : List Char) : ∀ cs : List Char,
    stringUnits (cs.flatMap escape ++ quote :: rest) = some (cs.map Char.toNat, rest)
  | [] => by rw [List.flatMap_nil, List.nil_append, stringUnits_quote, List.map_nil]
  | c :: cs => by
    rw [List.flatMap_cons, List.append_assoc, stringUnits_escape, stringUnits_escaped rest cs]
    rfl

theorem parseString_quoted (s : String) (rest : List Char) :
    parseString (s.toList.flatMap escape ++ quote :: rest) = some (s, rest) := by
  rw [parseString, stringUnits_escaped, Option.map_some, joinUnits_toNat, String.ofList_toList]

/-! ### White space and what may follow a value -/

theorem isSpace_lineFeed : isSpace (Char.ofNat 0x0a) = true := by decide

theorem skip_replicate (cs : List Char) : ∀ n, skip (List.replicate n ' ' ++ cs) = skip cs
  | 0 => rfl
  | n + 1 => by
    rw [List.replicate_succ, List.cons_append, skip, if_pos (by decide)]
    exact skip_replicate cs n

theorem skip_newline (gap depth : Nat) (cs : List Char) : skip (newline gap depth ++ cs) = skip cs := by
  unfold newline
  split
  · rfl
  · rw [List.cons_append, skip, if_pos isSpace_lineFeed, skip_replicate]

theorem skip_cons {c : Char} (h : isSpace c = false) (cs : List Char) : skip (c :: cs) = c :: cs := by
  rw [skip, h]; rfl

/-- A text that begins behind a value: nothing, a comma, a closing bracket or a line break. -/
def Ends (rest : List Char) : Prop :=
  ∀ c ∈ rest.head?, c = ',' ∨ c = ']' ∨ c = closeBrace ∨ c = Char.ofNat 0x0a

theorem ends_nil : Ends [] := by simp [Ends]

theorem ends_cons {c : Char} (h : c = ',' ∨ c = ']' ∨ c = closeBrace ∨ c = Char.ofNat 0x0a)
    (cs : List Char) : Ends (c :: cs) := by simpa [Ends] using h

theorem ends_newline (gap depth : Nat) {cs : List Char} (h : Ends cs) :
    Ends (newline gap depth ++ cs) := by
  unfold newline
  split
  · exact h
  · exact ends_cons (by simp) _

/-! ### Numbers -/

theorem digits_append {rest : List Char} (hr : ∀ c ∈ rest.head?, c.isDigit = false) :
    ∀ ds : List Char, (∀ c ∈ ds, c.isDigit = true) → digits (ds ++ rest) = (ds, rest)
  | [], _ => by
    cases rest with
    | nil => rfl
    | cons c cs => rw [List.nil_append, digits, hr c (by simp)]; rfl
  | d :: ds, hd => by
    rw [List.cons_append, digits, hd d (by simp), if_pos rfl,
      digits_append hr ds (fun c hc => hd c (by simp [hc]))]

theorem Ends.not_digit {rest : List Char} (h : Ends rest) : ∀ c ∈ rest.head?, c.isDigit = false := by
  intro c hc
  rcases h c hc with rfl | rfl | rfl | rfl <;> decide

theorem Ends.fraction {rest : List Char} (h : Ends rest) : fraction rest = some ([], rest) := by
  cases rest with
  | nil => rfl
  | cons c cs =>
    have hne : c ≠ '.' := by rcases h c (by simp) with rfl | rfl | rfl | rfl <;> decide
    rw [Js.fraction, if_neg hne]

theorem Ends.exponent {rest : List Char} (h : Ends rest) : exponent rest = some (0, rest) := by
  cases rest with
  | nil => rfl
  | cons c cs =>
    have hne : ¬ (c = 'e' ∨ c = 'E') := by
      rcases h c (by simp) with rfl | rfl | rfl | rfl <;> decide
    rw [Js.exponent.eq_def]
    simp only [hne, if_false]

theorem toDigits_head_ne_zero {n : Nat} (hn : 10 ≤ n) : (Nat.toDigits 10 n).head? ≠ some '0' := by
  induction n using Nat.strongRecOn with
  | _ n ih =>
    rw [Nat.toDigits_of_base_le (by decide) hn]
    by_cases hlt : n / 10 < 10
    · rw [Nat.toDigits_of_lt_base hlt]
      simp only [List.cons_append, List.head?_cons, ne_eq, Option.some.injEq, Nat.digitChar_eq_zero]
      omega
    · have := ih (n / 10) (by omega) (by omega)
      rw [List.head?_append_of_ne_nil _ Nat.toDigits_ne_nil]
      exact this

theorem parseNumber_toDigits (neg : Bool) (n : Nat) {rest : List Char} (h : Ends rest) :
    parseNumber neg (Nat.toDigits 10 n ++ rest) = some (Num.ofDecimal neg n 0, rest) := by
  have hd : digits (Nat.toDigits 10 n ++ rest) = (Nat.toDigits 10 n, rest) :=
    digits_append h.not_digit _ fun c hc =>
      Nat.isDigit_of_mem_toDigits (by decide) (by decide) hc
  have hlead : ¬ ((Nat.toDigits 10 n).isEmpty ∨
      (1 < (Nat.toDigits 10 n).length ∧ (Nat.toDigits 10 n).head? = some '0')) := by
    rintro (he | ⟨hl, hz⟩)
    · exact Nat.toDigits_ne_nil (List.isEmpty_iff.mp he)
    · refine toDigits_head_ne_zero ?_ hz
      by_contra hlt
      rw [Nat.toDigits_of_lt_base (by omega)] at hl
      simp at hl
  unfold parseNumber
  simp only [hd, hlead, if_false, h.fraction, h.exponent, Option.bind_eq_bind, Option.bind_some,
    List.append_nil, List.length_nil]
  simp [digitsValue]

theorem ofDecimal_natAbs {n : Int} (h : n.natAbs ≤ Num.maxSafe) :
    Num.ofDecimal (decide (n < 0)) n.natAbs 0 = .int n := by
  rw [Num.ofDecimal, if_pos ⟨rfl, h⟩]
  by_cases hn : n < 0
  · have h0 : n.natAbs ≠ 0 := by omega
    simp only [hn, h0, decide_true, false_and, if_true, if_false, Num.int.injEq]
    omega
  · simp only [hn, decide_false, Bool.false_eq_true, and_false, if_false, Num.int.injEq]
    omega

theorem toList_json_int (n : Int) : (Num.int n).json.toList =
    (if n < 0 then ['-'] else []) ++ Nat.toDigits 10 n.natAbs := by
  show (toString n).toList = _
  rw [Int.toString_eq_repr, Int.repr_eq_if]
  by_cases hn : n < 0
  · rw [if_neg (by omega), if_pos hn, String.toList_append, Nat.toList_repr]
    have : (-n).toNat = n.natAbs := by omega
    rw [this]; rfl
  · rw [if_pos (by omega), if_neg hn, Nat.toList_repr]
    have : n.toNat = n.natAbs := by omega
    rw [this]; rfl

theorem digit_cases {c : Char} (h : c.isDigit = true) :
    isSpace c = false ∧ c ≠ 'n' ∧ c ≠ 't' ∧ c ≠ 'f' ∧ c ≠ quote ∧ c ≠ '[' ∧ c ≠ ']' ∧
      c ≠ openBrace ∧ c ≠ '-' := by
  refine ⟨?_, ?_, ?_, ?_, ?_, ?_, ?_, ?_, ?_⟩
  · rw [Char.isDigit_iff_toNat] at h
    have h0 : '0'.toNat = 0x30 := rfl
    simp only [isSpace, Bool.or_eq_false_iff, decide_eq_false_iff_not]
    omega
  all_goals rintro rfl; revert h; decide

theorem toDigits_cons (n : Nat) : ∃ c cs, Nat.toDigits 10 n = c :: cs ∧ c.isDigit = true := by
  obtain ⟨c, cs, hcons⟩ := List.exists_cons_of_ne_nil (Nat.toDigits_ne_nil (b := 10) (n := n))
  have hmem : c ∈ Nat.toDigits 10 n := by
    rw [hcons]
    exact List.mem_cons_self
  exact ⟨c, cs, hcons, Nat.isDigit_of_mem_toDigits (by decide) (by decide) hmem⟩

theorem parseValue_int {n : Int} (h : n.natAbs ≤ Num.maxSafe) (fuel : Nat) {rest : List Char}
    (hr : Ends rest) :
    parseValue (fuel + 1) ((Num.int n).json.toList ++ rest) = some (.num (.int n), rest) := by
  rw [toList_json_int]
  have hnum := parseNumber_toDigits (decide (n < 0)) n.natAbs hr
  rw [ofDecimal_natAbs h] at hnum
  by_cases hn : n < 0
  · simp only [hn, decide_true] at hnum
    rw [if_pos hn, List.cons_append, List.nil_append, List.cons_append, parseValue.eq_def]
    simp only [show ¬ '-' = 'n' by decide, show ¬ '-' = 't' by decide, show ¬ '-' = 'f' by decide,
      show ¬ '-' = quote by decide, show ¬ '-' = '[' by decide, show ¬ '-' = openBrace by decide,
      if_true, if_false, hnum, Option.map_some]
  · simp only [hn, decide_false] at hnum
    simp only [hn, if_false, List.nil_append]
    obtain ⟨c, cs, hd, hc⟩ := toDigits_cons n.natAbs
    obtain ⟨-, h₁, h₂, h₃, h₄, h₅, -, h₆, h₇⟩ := digit_cases hc
    rw [hd, List.cons_append] at hnum
    rw [hd, List.cons_append, parseValue.eq_def]
    simp only [h₁, h₂, h₃, h₄, h₅, h₆, h₇, if_false, hnum]
    rfl

/-! ### Values -/

/-- The text of a document starts with a character that is neither space nor a closing bracket. -/
theorem print_head (gap depth : Nat) : ∀ j : Json, j.Plain →
    ∃ c cs, print gap depth j = c :: cs ∧ isSpace c = false ∧ c ≠ ']'
  | .null, _ => ⟨'n', _, by rw [print]; rfl, by decide, by decide⟩
  | .bool true, _ => ⟨'t', _, by rw [print]; rfl, by decide, by decide⟩
  | .bool false, _ => ⟨'f', _, by rw [print]; rfl, by decide, by decide⟩
  | .num (.int n), _ => by
    rw [print, toList_json_int]
    by_cases hn : n < 0
    · exact ⟨'-', _, by rw [if_pos hn]; rfl, by decide, by decide⟩
    · obtain ⟨c, cs, hd, hc⟩ := toDigits_cons n.natAbs
      obtain ⟨hs, -, -, -, -, -, hb, -, -⟩ := digit_cases hc
      rw [if_neg hn, List.nil_append]
      exact ⟨c, cs, hd, hs, hb⟩
  | .num .negZero, h => absurd h (by simp [Json.Plain])
  | .num (.other _), h => absurd h (by simp [Json.Plain])
  | .str s, _ => ⟨quote, _, by rw [print, quoted], by decide, by decide⟩
  | .arr [], _ => ⟨'[', _, by rw [print], by decide, by decide⟩
  | .arr (_ :: _), _ => ⟨'[', _, by rw [print], by decide, by decide⟩
  | .obj [], _ => ⟨openBrace, _, by rw [print], by decide, by decide⟩
  | .obj ((_, _) :: _), _ => ⟨openBrace, _, by rw [print], by decide, by decide⟩

theorem skip_print (gap depth : Nat) {j : Json} (h : j.Plain) (rest : List Char) :
    skip (print gap depth j ++ rest) = print gap depth j ++ rest := by
  obtain ⟨c, cs, hp, hs, -⟩ := print_head gap depth j h
  rw [hp, List.cons_append, skip_cons hs]

theorem ends_items (gap depth : Nat) (js : List Json) {rest : List Char} (h : Ends rest) :
    Ends (printItems gap depth js ++ rest) := by
  cases js with
  | nil => simpa [printItems] using h
  | cons j js => rw [printItems, List.cons_append]; exact ends_cons (by simp) _

theorem ends_fields (gap depth : Nat) (fs : List (String × Json)) {rest : List Char}
    (h : Ends rest) : Ends (printFields gap depth fs ++ rest) := by
  cases fs with
  | nil => simpa [printFields] using h
  | cons f fs => rw [printFields, List.cons_append]; exact ends_cons (by simp) _

theorem expect_append : ∀ (w rest : List Char), expect w (w ++ rest) = some rest
  | [], _ => by simp [expect]
  | c :: cs, rest => by rw [List.cons_append, expect, if_pos rfl, expect_append cs rest]

theorem skip_quoted (s : String) (rest : List Char) : skip (quoted s ++ rest) = quoted s ++ rest := by
  rw [quoted, List.cons_append, skip_cons (by decide)]

theorem skip_colon (gap : Nat) {j : Json} (depth : Nat) (h : j.Plain) (rest : List Char) :
    (expect [':'] (skip (colon gap ++ (print gap depth j ++ rest)))).map skip =
      some (print gap depth j ++ rest) := by
  unfold colon
  split
  · rw [List.cons_append, skip_cons (by decide), expect, if_pos rfl, expect, List.nil_append,
      Option.map_some, skip_print gap depth h]
  · rw [List.cons_append, skip_cons (by decide), expect, if_pos rfl, expect, List.cons_append,
      List.nil_append, Option.map_some, skip, if_pos (by decide), skip_print gap depth h]

theorem setField_fresh (key : String) (j : Json) : ∀ fs : List (String × Json),
    key ∉ fs.map Prod.fst → Json.setField key j fs = fs ++ [(key, j)]
  | [], _ => rfl
  | (k, i) :: fs, h => by
    simp only [List.map_cons, List.mem_cons, not_or] at h
    rw [Json.setField, if_neg (Ne.symm h.1), setField_fresh key j fs h.2, List.cons_append]

theorem mergeFields_nodup {fs : List (String × Json)} (h : (fs.map Prod.fst).Nodup) :
    mergeFields fs = fs := by
  suffices H : ∀ (gs acc : List (String × Json)), ((acc ++ gs).map Prod.fst).Nodup →
      gs.foldl (fun acc f => Json.setField f.1 f.2 acc) acc = acc ++ gs by
    exact H fs [] h
  intro gs
  induction gs with
  | nil => intro acc _; simp
  | cons g gs ih =>
    intro acc hnd
    have hfresh : g.1 ∉ acc.map Prod.fst := by
      intro hmem
      rw [List.map_append, List.map_cons] at hnd
      exact (List.nodup_append.mp hnd).2.2 g.1 hmem g.1 (by simp) rfl
    rw [List.foldl_cons, setField_fresh _ _ _ hfresh, ih]
    · simp
    · simpa using hnd

mutual
theorem parseValue_print (gap : Nat) : ∀ (j : Json) (depth fuel : Nat) (rest : List Char),
    j.Plain → weight j ≤ fuel → Ends rest →
    parseValue fuel (print gap depth j ++ rest) = some (j, rest)
  | j, _, 0, _, _, hw, _ => by cases j <;> simp [weight] at hw
  | .null, _, fuel + 1, rest, _, _, _ => by
    rw [print, show "null".toList = 'n' :: "ull".toList from rfl, List.cons_append, parseValue.eq_def]
    simp only [if_true, expect_append, Option.map_some]
  | .bool true, _, fuel + 1, rest, _, _, _ => by
    rw [print, if_pos rfl, show "true".toList = 't' :: "rue".toList from rfl, List.cons_append,
      parseValue.eq_def]
    simp only [show ¬ 't' = 'n' by decide, if_true, if_false, expect_append, Option.map_some]
  | .bool false, _, fuel + 1, rest, _, _, _ => by
    rw [print, if_neg (by decide), show "false".toList = 'f' :: "alse".toList from rfl,
      List.cons_append, parseValue.eq_def]
    simp only [show ¬ 'f' = 'n' by decide, show ¬ 'f' = 't' by decide, if_true, if_false,
      expect_append, Option.map_some]
  | .num (.int n), _, fuel + 1, rest, hp, _, hr => by
    rw [print]
    exact parseValue_int hp fuel hr
  | .num .negZero, _, _, _, hp, _, _ => absurd hp (by simp [Json.Plain])
  | .num (.other _), _, _, _, hp, _, _ => absurd hp (by simp [Json.Plain])
  | .str s, _, fuel + 1, rest, _, _, _ => by
    rw [print, quoted, List.cons_append, List.append_assoc, parseValue.eq_def]
    simp only [show ¬ quote = 'n' by decide, show ¬ quote = 't' by decide,
      show ¬ quote = 'f' by decide, if_true, if_false, List.cons_append, List.nil_append,
      parseString_quoted, Option.map_some]
  | .arr [], _, fuel + 1, rest, _, _, _ => by
    rw [print, List.cons_append, parseValue.eq_def]
    simp only [show ¬ '[' = 'n' by decide, show ¬ '[' = 't' by decide, show ¬ '[' = 'f' by decide,
      show ¬ '[' = quote by decide, if_true, if_false, List.cons_append, List.nil_append,
      skip_cons (show isSpace ']' = false by decide)]
  | .arr (j :: js), depth, fuel + 1, rest, hp, hw, _ => by
    simp only [Json.Plain, PlainItems] at hp
    simp only [weight, weightItems] at hw
    obtain ⟨c, cs, hc, -, hne⟩ := print_head gap (depth + 1) j hp.1
    have hitems := parseItems_print gap js j (depth + 1) fuel depth rest hp.1 hp.2 (by omega)
    rw [print, List.cons_append, parseValue.eq_def]
    simp only [show ¬ '[' = 'n' by decide, show ¬ '[' = 't' by decide, show ¬ '[' = 'f' by decide,
      show ¬ '[' = quote by decide, if_true, if_false, List.append_assoc, skip_newline,
      skip_print gap _ hp.1, List.cons_append, List.nil_append]
    rw [hc, List.cons_append] at hitems ⊢
    simp only [hne, if_false, hitems, Option.map_some]
  | .obj [], _, fuel + 1, rest, _, _, _ => by
    rw [print, List.cons_append, parseValue.eq_def]
    simp only [show ¬ openBrace = 'n' by decide, show ¬ openBrace = 't' by decide,
      show ¬ openBrace = 'f' by decide, show ¬ openBrace = quote by decide,
      show ¬ openBrace = '[' by decide, if_true, if_false, List.cons_append, List.nil_append,
      skip_cons (show isSpace closeBrace = false by decide)]
  | .obj ((k, j) :: fs), depth, fuel + 1, rest, hp, hw, _ => by
    simp only [Json.Plain, PlainFields] at hp
    simp only [weight, weightFields] at hw
    have hfields :=
      parseFields_print gap fs k j (depth + 1) fuel depth rest hp.2.1 hp.2.2 (by omega)
    rw [print, List.cons_append, parseValue.eq_def]
    simp only [show ¬ openBrace = 'n' by decide, show ¬ openBrace = 't' by decide,
      show ¬ openBrace = 'f' by decide, show ¬ openBrace = quote by decide,
      show ¬ openBrace = '[' by decide, if_true, if_false, List.append_assoc, skip_newline,
      skip_quoted, List.cons_append, List.nil_append]
    rw [quoted, List.cons_append] at hfields ⊢
    simp only [show ¬ quote = closeBrace by decide, if_false, hfields, Option.map_some,
      mergeFields_nodup hp.1]
termination_by _ _ fuel => fuel

theorem parseItems_print (gap : Nat) : ∀ (js : List Json) (j : Json) (depth fuel outer : Nat)
    (rest : List Char), j.Plain → PlainItems js → 1 + weight j + weightItems js ≤ fuel →
    parseItems fuel (print gap depth j ++ (printItems gap depth js ++
      (newline gap outer ++ ']' :: rest))) = some (j :: js, rest)
  | _, _, _, 0, _, _, _, _, hw => by omega
  | [], j, depth, fuel + 1, outer, rest, hp, _, hw => by
    have hv := parseValue_print gap j depth fuel
      (printItems gap depth [] ++ (newline gap outer ++ ']' :: rest)) hp (by omega)
      (ends_items _ _ _ (ends_newline _ _ (ends_cons (by simp) _)))
    rw [parseItems, hv]
    simp only [Option.bind_eq_bind, Option.bind_some, printItems, List.nil_append, skip_newline,
      skip_cons (show isSpace ']' = false by decide), if_true]
  | i :: js, j, depth, fuel + 1, outer, rest, hp, hps, hw => by
    simp only [PlainItems] at hps
    simp only [weightItems] at hw
    have hv := parseValue_print gap j depth fuel
      (printItems gap depth (i :: js) ++ (newline gap outer ++ ']' :: rest)) hp (by omega)
      (ends_items _ _ _ (ends_newline _ _ (ends_cons (by simp) _)))
    have hs := parseItems_print gap js i depth fuel outer rest hps.1 hps.2 (by omega)
    rw [parseItems, hv]
    simp only [Option.bind_eq_bind, Option.bind_some, printItems, List.cons_append,
      List.append_assoc, skip_cons (show isSpace ',' = false by decide),
      show ¬ ',' = ']' by decide, if_true, if_false, skip_newline, skip_print gap depth hps.1, hs]
termination_by _ _ _ fuel => fuel

theorem parseFields_print (gap : Nat) : ∀ (fs : List (String × Json)) (k : String) (j : Json)
    (depth fuel outer : Nat) (rest : List Char), j.Plain → PlainFields fs →
    1 + weight j + weightFields fs ≤ fuel →
    parseFields fuel (quoted k ++ (colon gap ++ (print gap depth j ++ (printFields gap depth fs ++
      (newline gap outer ++ closeBrace :: rest))))) = some ((k, j) :: fs, rest)
  | _, _, _, _, 0, _, _, _, _, hw => by omega
  | fs, k, j, depth, fuel + 1, outer, rest, hp, hps, hw => by
    have hv := parseValue_print gap j depth fuel
      (printFields gap depth fs ++ (newline gap outer ++ closeBrace :: rest)) hp (by omega)
      (ends_fields _ _ _ (ends_newline _ _ (ends_cons (by simp) _)))
    have hcolon := skip_colon gap depth hp
      (printFields gap depth fs ++ (newline gap outer ++ closeBrace :: rest))
    obtain ⟨after, hexp, hskip⟩ := Option.map_eq_some_iff.mp hcolon
    rw [quoted, List.cons_append, List.append_assoc, parseFields]
    simp only [if_true, List.cons_append, List.nil_append, parseString_quoted,
      Option.bind_eq_bind, Option.bind_some, hexp, hskip, hv]
    cases fs with
    | nil =>
      simp only [printFields, List.nil_append, skip_newline,
        skip_cons (show isSpace closeBrace = false by decide), if_true]
    | cons f fs =>
      obtain ⟨k', i⟩ := f
      simp only [PlainFields] at hps
      simp only [weightFields] at hw
      have hs := parseFields_print gap fs k' i depth fuel outer rest hps.1 hps.2 (by omega)
      simp only [printFields, List.cons_append, List.append_assoc,
        skip_cons (show isSpace ',' = false by decide), show ¬ ',' = closeBrace by decide, if_true,
        if_false, skip_newline, skip_quoted, hs, Option.bind_some]
termination_by _ _ _ _ fuel => fuel
end

mutual
/-- The parser's fuel covers every document it could have to read. -/
theorem weight_le (gap : Nat) : ∀ (j : Json) (depth : Nat),
    weight j ≤ 2 * (print gap depth j).length + 1
  | .null, _ => by simp [weight]
  | .bool _, _ => by simp [weight]
  | .num _, _ => by simp [weight]
  | .str _, _ => by simp [weight]
  | .arr [], _ => by simp [weight, weightItems]
  | .arr (j :: js), depth => by
    have hj := weight_le gap j (depth + 1)
    have hjs := weightItems_le gap js (depth + 1)
    simp only [weight, weightItems, print, List.length_cons, List.length_append]
    omega
  | .obj [], _ => by simp [weight, weightFields]
  | .obj ((k, j) :: fs), depth => by
    have hj := weight_le gap j (depth + 1)
    have hfs := weightFields_le gap fs (depth + 1)
    simp only [weight, weightFields, print, List.length_cons, List.length_append]
    omega

theorem weightItems_le (gap : Nat) : ∀ (js : List Json) (depth : Nat),
    weightItems js ≤ 2 * (printItems gap depth js).length
  | [], _ => by simp [weightItems]
  | j :: js, depth => by
    have hj := weight_le gap j depth
    have hjs := weightItems_le gap js depth
    simp only [weightItems, printItems, List.length_cons, List.length_append]
    omega

theorem weightFields_le (gap : Nat) : ∀ (fs : List (String × Json)) (depth : Nat),
    weightFields fs ≤ 2 * (printFields gap depth fs).length
  | [], _ => by simp [weightFields]
  | (k, j) :: fs, depth => by
    have hj := weight_le gap j depth
    have hfs := weightFields_le gap fs depth
    simp only [weightFields, printFields, List.length_cons, List.length_append]
    omega
end

/-- `JSON.parse` gives back what `JSON.stringify` wrote, also with a line break behind it. -/
theorem parse_stringify (gap : Nat) {j : Json} (h : j.Plain) (tail : String)
    (ht : tail = "" ∨ tail = "\n") : parse (stringify gap j ++ tail) = .ok j := by
  have hends : Ends tail.toList := by
    rcases ht with rfl | rfl
    · exact ends_nil
    · exact ends_cons (c := Char.ofNat 0x0a) (by simp) []
  have hskip : skip tail.toList = [] := by rcases ht with rfl | rfl <;> rfl
  have hw := weight_le gap j 0
  have htext : (stringify gap j ++ tail).toList = print gap 0 j ++ tail.toList := by
    rw [stringify, String.toList_append, String.toList_ofList]
  have hv := parseValue_print gap j 0 (2 * (print gap 0 j ++ tail.toList).length + 2) tail.toList h
    (by rw [List.length_append]; omega) hends
  unfold parse
  simp only [htext, skip_print gap 0 h, hv, hskip, List.isEmpty_nil, if_true]

theorem parse_stringify_self (gap : Nat) {j : Json} (h : j.Plain) : parse (stringify gap j) = .ok j := by
  have hparse := parse_stringify gap h "" (Or.inl rfl)
  rwa [String.append_empty] at hparse

theorem stringify_injective (gap : Nat) {i j : Json} (hi : i.Plain) (hj : j.Plain)
    (h : stringify gap i = stringify gap j) : i = j := by
  have h₁ := parse_stringify gap hi "" (Or.inl rfl)
  have h₂ := parse_stringify gap hj "" (Or.inl rfl)
  rw [h] at h₁
  exact Except.ok.inj (h₁.symm.trans h₂)

/-- What a number is read as that was sent: a whole number as itself, and one that is not finite as
    `null`. Nothing is said of fractions and of integers from 2^53 on. -/
def Num.sent : Num → Option Json
  | .int n => if n.natAbs ≤ maxSafe then some (.num (.int n)) else none
  | .negZero => some (.nat 0)
  | .other text => if text ∈ ["NaN", "Infinity", "-Infinity"] then some .null else none

theorem sent_plain {n : Num} {j : Json} (h : n.sent = some j) : j.Plain := by
  cases n with
  | int n =>
    simp only [Num.sent, Option.ite_none_right_eq_some, Option.some.injEq] at h
    obtain ⟨hsafe, rfl⟩ := h
    exact hsafe
  | negZero =>
    cases h
    exact Nat.zero_le _
  | other text =>
    simp only [Num.sent, Option.ite_none_right_eq_some, Option.some.injEq] at h
    obtain ⟨-, rfl⟩ := h
    trivial

/-- The two are printed alike. -/
def SameText (i j : Json) : Prop := ∀ gap depth, print gap depth i = print gap depth j

theorem sameText_refl (j : Json) : SameText j j := fun _ _ => rfl

theorem SameText.stringify {i j : Json} (h : SameText i j) (gap : Nat) :
    stringify gap i = stringify gap j := by
  rw [Js.stringify, Js.stringify, h gap 0]

theorem sent_sameText {n : Num} {j : Json} (h : n.sent = some j) : SameText (.num n) j := by
  intro gap depth
  cases n with
  | int n =>
    simp only [Num.sent, Option.ite_none_right_eq_some, Option.some.injEq] at h
    rw [h.2]
  | negZero =>
    cases h
    rfl
  | other text =>
    simp only [Num.sent, Option.ite_none_right_eq_some, Option.some.injEq] at h
    obtain ⟨htext, rfl⟩ := h
    simp only [List.mem_cons, List.not_mem_nil, or_false] at htext
    rcases htext with rfl | rfl | rfl <;> rfl

/-- The same keys, with values that are printed alike. -/
def SameFields : List (String × Json) → List (String × Json) → Prop :=
  List.Forall₂ fun f g => f.1 = g.1 ∧ SameText f.2 g.2

theorem SameFields.print {fs gs : List (String × Json)} (h : SameFields fs gs) (gap depth : Nat) :
    printFields gap depth fs = printFields gap depth gs := by
  induction h with
  | nil => rfl
  | @cons f g fs gs hfg _ ih =>
    obtain ⟨k, i⟩ := f
    obtain ⟨l, j⟩ := g
    obtain ⟨rfl, hij⟩ : k = l ∧ SameText i j := hfg
    rw [printFields, printFields, hij gap depth, ih]

theorem sameText_obj {fs gs : List (String × Json)} (h : SameFields fs gs) :
    SameText (.obj fs) (.obj gs) := by
  intro gap depth
  cases h with
  | nil => rfl
  | @cons f g fs gs hfg hrest =>
    obtain ⟨k, i⟩ := f
    obtain ⟨l, j⟩ := g
    obtain ⟨rfl, hij⟩ : k = l ∧ SameText i j := hfg
    rw [print, print, hij gap (depth + 1), SameFields.print hrest]

end Js
