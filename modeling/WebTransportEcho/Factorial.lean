import Mathlib.Data.List.Perm.Basic
import Mathlib.Data.List.Count

/-! Trials over a set of factors. In each trial a factor is present or absent, and the trial passes
    or not. From the counts with and without a factor one reads which factors separate passing from
    failing: a factor whose passes are all on one side is required on that side. -/

namespace Factorial

structure Trial (κ : Type) where
  has : κ → Bool
  passed : Bool

variable {κ : Type} {trials trials' : List (Trial κ)} {k : κ} {present : Bool}

/-- How many trials have the factor on this side. -/
def tried (trials : List (Trial κ)) (present : Bool) (k : κ) : Nat :=
  trials.countP fun t => t.has k == present

/-- How many of these pass. -/
def passes (trials : List (Trial κ)) (present : Bool) (k : κ) : Nat :=
  trials.countP fun t => t.has k == present && t.passed

/-- Both sides of the factor were tried. -/
def Varies (trials : List (Trial κ)) (k : κ) : Prop := ∀ present, ∃ t ∈ trials, t.has k = present

/-- Every trial that passes has the factor on this side. -/
def Requires (trials : List (Trial κ)) (present : Bool) (k : κ) : Prop :=
  ∀ t ∈ trials, t.passed = true → t.has k = present

theorem passes_eq_zero_iff : passes trials (!present) k = 0 ↔ Requires trials present k := by
  rw [passes, List.countP_eq_zero]
  constructor
  · intro h t ht hp
    have := h t ht
    cases hk : t.has k <;> cases present <;> simp_all
  · intro h t ht hboth
    rw [Bool.and_eq_true, beq_iff_eq] at hboth
    have := h t ht hboth.2
    rw [hboth.1] at this
    cases present <;> cases this

/-- When something passes, the counts of a factor show a requirement exactly where there is one. -/
theorem separates_iff (hpass : ∃ t ∈ trials, t.passed = true) :
    (0 < passes trials present k ∧ passes trials (!present) k = 0) ↔ Requires trials present k := by
  rw [passes_eq_zero_iff]
  refine ⟨fun h => h.2, fun h => ⟨?_, h⟩⟩
  obtain ⟨t, ht, hp⟩ := hpass
  exact List.countP_pos_iff.mpr ⟨t, ht, by simp [h t ht hp, hp]⟩

/-- The two sides of a factor are all trials. -/
theorem tried_add (trials : List (Trial κ)) (k : κ) :
    tried trials true k + tried trials false k = trials.length := by
  rw [trials.length_eq_countP_add_countP fun t => t.has k, tried, tried]
  congr 1 <;> refine List.countP_congr fun t _ => ?_ <;> cases t.has k <;> simp

theorem passes_add (trials : List (Trial κ)) (k : κ) :
    passes trials true k + passes trials false k = trials.countP Trial.passed := by
  induction trials with
  | nil => rfl
  | cons t ts ih =>
    simp only [passes, beq_true, beq_false, List.countP_cons] at ih ⊢
    cases t.has k <;> simp <;> omega

theorem tried_perm (h : trials.Perm trials') : tried trials present k = tried trials' present k :=
  h.countP_eq _

theorem passes_perm (h : trials.Perm trials') : passes trials present k = passes trials' present k :=
  h.countP_eq _

theorem varies_perm (h : trials.Perm trials') : Varies trials k ↔ Varies trials' k := by
  simp only [Varies, h.mem_iff]

theorem requires_perm (h : trials.Perm trials') :
    Requires trials present k ↔ Requires trials' present k := by
  simp only [Requires, h.mem_iff]

end Factorial
