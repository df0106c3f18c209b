import Mathlib.Data.List.Basic
import Mathlib.Data.List.TakeWhile

/-! Lists cut at a separator and trimmed at both ends. A piece of a list is what stands between two
    separators, or between one and an end; what is left of a piece when it is trimmed is told by what
    was cut off around it. -/

namespace Split

variable {α : Type*} {sep : α} {drop : α → Bool}

/-- A piece may begin behind this. -/
def Opens (sep : α) (before : List α) : Prop := before = [] ∨ ∃ front, before = front ++ [sep]

/-- A piece may end before this. -/
def Closes (sep : α) (after : List α) : Prop := after = [] ∨ ∃ back, after = sep :: back

theorem opens_cons {before : List α} (h : Opens sep before) (x : List α) :
    Opens sep (x ++ sep :: before) := by
  rcases h with rfl | ⟨front, rfl⟩
  · exact Or.inr ⟨x, rfl⟩
  · exact Or.inr ⟨x ++ sep :: front, by simp⟩

/-! ### Pieces -/

theorem exists_of_intercalate (sep : α) (item : List α) (rest : List (List α)) :
    ∀ pieces : List (List α), ∃ before after,
      [sep].intercalate (pieces ++ item :: rest) = before ++ item ++ after ∧
      Opens sep before ∧ Closes sep after
  | [] => by
    cases rest with
    | nil => exact ⟨[], [], by simp, Or.inl rfl, Or.inl rfl⟩
    | cons next rest =>
      exact ⟨[], sep :: [sep].intercalate (next :: rest), by simp [List.intercalate_cons_cons],
        Or.inl rfl, Or.inr ⟨_, rfl⟩⟩
  | piece :: pieces => by
    obtain ⟨before, after, heq, hopens, hcloses⟩ := exists_of_intercalate sep item rest pieces
    refine ⟨piece ++ sep :: before, after, ?_, opens_cons hopens piece, hcloses⟩
    have hne : pieces ++ item :: rest ≠ [] := by simp
    obtain ⟨first, others, hcons⟩ := List.exists_cons_of_ne_nil hne
    rw [List.cons_append, hcons, List.intercalate_cons_cons, ← hcons, heq]
    simp

section Cut

variable [DecidableEq α]

theorem not_mem_of_mem_splitOn : ∀ {xs item : List α}, item ∈ xs.splitOn sep → sep ∉ item
  | [], item, h => by
    rw [List.splitOn_nil, List.mem_singleton] at h
    simp [h]
  | x :: xs, item, h => by
    have ih (piece : List α) (hpiece : piece ∈ xs.splitOn sep) := not_mem_of_mem_splitOn hpiece
    obtain ⟨first, others, hcons⟩ := List.exists_cons_of_ne_nil (List.splitOn_ne_nil sep xs)
    rw [List.splitOn_cons_eq_if_modifyHead] at h
    rw [hcons] at h ih
    split_ifs at h with hx
    · rcases List.mem_cons.mp h with rfl | hrest
      · exact List.not_mem_nil
      · exact ih item hrest
    · rw [beq_iff_eq] at hx
      rcases List.mem_cons.mp h with rfl | hrest
      · exact List.not_mem_cons_of_ne_of_not_mem (Ne.symm hx) (ih first List.mem_cons_self)
      · exact ih item (List.mem_cons_of_mem _ hrest)

theorem mem_splitOn_iff {xs item : List α} : item ∈ xs.splitOn sep ↔ sep ∉ item ∧
    ∃ before after, xs = before ++ item ++ after ∧ Opens sep before ∧ Closes sep after := by
  constructor
  · intro h
    refine ⟨not_mem_of_mem_splitOn h, ?_⟩
    obtain ⟨pieces, rest, hsplit⟩ := List.append_of_mem h
    obtain ⟨before, after, heq, hends⟩ := exists_of_intercalate sep item rest pieces
    rw [← hsplit, List.intercalate_splitOn] at heq
    exact ⟨before, after, heq, hends⟩
  · rintro ⟨hitem, before, after, rfl, hopens, hcloses⟩
    have hlast : item ∈ (item ++ after).splitOn sep := by
      rcases hcloses with rfl | ⟨back, rfl⟩
      · rw [List.append_nil, List.splitOn_eq_singleton hitem]
        exact List.mem_singleton_self item
      · rw [List.splitOn_append_cons_self_of_not_mem hitem]
        exact List.mem_cons_self
    rcases hopens with rfl | ⟨front, rfl⟩
    · exact hlast
    · rw [List.append_assoc, List.append_assoc, List.singleton_append, List.splitOn_append_cons_self]
      exact List.mem_append_right _ hlast

/-- What stands before the first separator. -/
theorem takeWhile_ne_eq_iff {xs front : List α} : xs.takeWhile (fun x => decide (x ≠ sep)) = front ↔
    sep ∉ front ∧ ∃ after, xs = front ++ after ∧ Closes sep after := by
  constructor
  · rintro rfl
    refine ⟨fun hmem => by simpa using List.mem_takeWhile_imp hmem, _,
      List.takeWhile_append_dropWhile.symm, ?_⟩
    cases hdrop : xs.dropWhile fun x => decide (x ≠ sep) with
    | nil => exact Or.inl rfl
    | cons x back =>
      have hx := List.head?_dropWhile_not (fun x => decide (x ≠ sep)) xs
      rw [hdrop] at hx
      have hx : x = sep := by simpa using hx
      exact Or.inr ⟨back, by rw [hx]⟩
  · rintro ⟨hfront, after, rfl, hcloses⟩
    have hall : ∀ x ∈ front, decide (x ≠ sep) = true := by
      intro x hx
      exact decide_eq_true fun h => hfront (h ▸ hx)
    rw [List.takeWhile_append_of_pos hall]
    rcases hcloses with rfl | ⟨back, rfl⟩ <;> simp

end Cut

/-! ### Prefixes -/

/-- What is taken while something holds does not reach past something for which it does not. -/
theorem takeWhile_append_stop {added : List α} (h : ∀ x ∈ added.head?, drop x = false) (xs : List α) :
    (xs ++ added).takeWhile drop = xs.takeWhile drop := by
  induction xs with
  | nil =>
    cases added with
    | nil => rfl
    | cons x added =>
      rw [List.nil_append, List.takeWhile_cons, h x rfl, if_neg Bool.false_ne_true]
      rfl
  | cons x xs ih =>
    rw [List.cons_append, List.takeWhile_cons, List.takeWhile_cons, ih]

theorem dropWhile_append_stop {added : List α} (h : ∀ x ∈ added.head?, drop x = false) (xs : List α) :
    (xs ++ added).dropWhile drop = xs.dropWhile drop ++ added := by
  have hsplit : (xs ++ added).takeWhile drop ++ (xs ++ added).dropWhile drop =
      xs.takeWhile drop ++ (xs.dropWhile drop ++ added) := by
    rw [List.takeWhile_append_dropWhile, ← List.append_assoc, List.takeWhile_append_dropWhile]
  rw [takeWhile_append_stop h] at hsplit
  exact List.append_cancel_left hsplit

/-! ### Trimming -/

/-- Dropped from both ends. -/
def trim (drop : α → Bool) (xs : List α) : List α :=
  ((xs.dropWhile drop).reverse.dropWhile drop).reverse

/-- It neither begins nor ends with something to drop. -/
def Trimmed (drop : α → Bool) (xs : List α) : Prop :=
  xs ≠ [] ∧ (∀ x ∈ xs.head?, drop x = false) ∧ ∀ x ∈ xs.getLast?, drop x = false

theorem exists_trim (drop : α → Bool) (xs : List α) : ∃ front back, xs = front ++ trim drop xs ++ back ∧
    (∀ x ∈ front, drop x = true) ∧ ∀ x ∈ back, drop x = true := by
  refine ⟨xs.takeWhile drop, ((xs.dropWhile drop).reverse.takeWhile drop).reverse, ?_,
    fun x hx => List.mem_takeWhile_imp hx, fun x hx => ?_⟩
  · rw [trim, List.append_assoc, ← List.reverse_append, List.takeWhile_append_dropWhile,
      List.reverse_reverse, List.takeWhile_append_dropWhile]
  · exact List.mem_takeWhile_imp (List.mem_reverse.mp hx)

theorem dropWhile_append_trimmed {front xs : List α} (hfront : ∀ x ∈ front, drop x = true)
    (hne : xs ≠ []) (hhead : ∀ x ∈ xs.head?, drop x = false) :
    (front ++ xs).dropWhile drop = xs := by
  rw [List.dropWhile_append_of_pos hfront]
  cases xs with
  | nil => exact absurd rfl hne
  | cons x xs => rw [List.dropWhile_cons, hhead x rfl, if_neg Bool.false_ne_true]

theorem trim_eq_iff {xs kept : List α} (h : Trimmed drop kept) : trim drop xs = kept ↔
    ∃ front back, xs = front ++ kept ++ back ∧ (∀ x ∈ front, drop x = true) ∧
      ∀ x ∈ back, drop x = true := by
  constructor
  · rintro rfl
    exact exists_trim drop xs
  · rintro ⟨front, back, rfl, hfront, hback⟩
    obtain ⟨hne, hhead, hlast⟩ := h
    have hback' : ∀ x ∈ back.reverse, drop x = true := fun x hx => hback x (List.mem_reverse.mp hx)
    rw [trim, List.append_assoc, dropWhile_append_trimmed hfront (by simp [hne])
      (by rwa [List.head?_append_of_ne_nil _ hne]), List.reverse_append,
      dropWhile_append_trimmed hback' (by simp [hne]) (by rwa [List.head?_reverse]),
      List.reverse_reverse]

/-- A text without anything to drop is left of it with anything to drop around. -/
theorem trim_append {front kept back : List α} (hfront : ∀ x ∈ front, drop x = true)
    (hkept : ∀ x ∈ kept, drop x = false) (hback : ∀ x ∈ back, drop x = true) :
    trim drop (front ++ kept ++ back) = kept := by
  by_cases hne : kept = []
  · subst hne
    have hall : ∀ x ∈ front ++ back, drop x = true := List.forall_mem_append.mpr ⟨hfront, hback⟩
    rw [trim, List.append_nil, List.dropWhile_eq_nil_iff.mpr hall]
    rfl
  · refine (trim_eq_iff ⟨hne, fun x hx => hkept x ?_, fun x hx => hkept x ?_⟩).mpr
      ⟨front, back, rfl, hfront, hback⟩
    · exact List.mem_of_mem_head? hx
    · exact List.mem_of_mem_getLast? hx

end Split
