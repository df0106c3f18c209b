import Mathlib.Data.List.Flatten
import Mathlib.Data.List.Range

/-! A stream that is offered to a sink chunk by chunk. The sink takes some of the front of each chunk,
    and the rest of a chunk is offered to nobody. The places that are taken have no gap exactly where a
    chunk that is cut short is the last of which anything is taken. -/

namespace Chunks

variable {α : Type*}

/-- A chunk, how much of its front is taken, and whether the stream's end is taken with it. -/
structure Offer (α : Type*) where
  chunk : List α
  taken : Nat
  ended : Bool
  bound : taken ≤ chunk.length
  whole : ended = true → taken = chunk.length

/-- All that is offered. -/
def offered (offers : List (Offer α)) : List α := offers.flatMap Offer.chunk

/-- All that is taken. -/
def received (offers : List (Offer α)) : List α := offers.flatMap fun o => o.chunk.take o.taken

/-- The places in the stream of what is taken, from `start` on. -/
def places (start : Nat) : List (Offer α) → List Nat
  | [] => []
  | o :: offers => List.range' start o.taken ++ places (start + o.chunk.length) offers

/-- The places of the ends that are taken, from `start` on. -/
def ends (start : Nat) : List (Offer α) → List Nat
  | [] => []
  | o :: offers =>
    (if o.ended then [start + o.chunk.length] else []) ++ ends (start + o.chunk.length) offers

/-- Nothing is skipped before a place that is taken or before an end. -/
def NoGap (start : Nat) (offers : List (Offer α)) : Prop :=
  ∀ place ∈ places start offers ++ ends start offers, ∀ earlier, start ≤ earlier → earlier < place →
    earlier ∈ places start offers

/-- Nothing of the chunk is taken, nor an end with it. -/
def Offer.Refused (o : Offer α) : Prop := o.taken = 0 ∧ o.ended = false

/-- Once a chunk is cut short, the later ones are refused. -/
def CutLast (offers : List (Offer α)) : Prop :=
  offers.Pairwise fun o later => o.taken < o.chunk.length → later.Refused

theorem le_of_mem_places {place : Nat} : ∀ {offers : List (Offer α)} {start : Nat},
    place ∈ places start offers → start ≤ place
  | [], _, h => by cases h
  | o :: offers, start, h => by
    rcases List.mem_append.mp h with hfirst | hrest
    · exact (List.mem_range'_1.mp hfirst).1
    · exact (Nat.le_add_right _ _).trans (le_of_mem_places hrest)

theorem le_of_mem_ends {place : Nat} : ∀ {offers : List (Offer α)} {start : Nat},
    place ∈ ends start offers → start ≤ place
  | [], _, h => by cases h
  | o :: offers, start, h => by
    rcases List.mem_append.mp h with hfirst | hrest
    · cases hended : o.ended with
      | true =>
        rw [hended, if_pos rfl, List.mem_singleton] at hfirst
        exact hfirst ▸ Nat.le_add_right _ _
      | false =>
        rw [hended, if_neg Bool.false_ne_true] at hfirst
        cases hfirst
    · exact (Nat.le_add_right _ _).trans (le_of_mem_ends hrest)

/-- Refused chunks take no place, and only they. -/
theorem nothing_iff (start : Nat) (offers : List (Offer α)) :
    places start offers ++ ends start offers = [] ↔ ∀ o ∈ offers, o.Refused := by
  rw [List.append_eq_nil_iff]
  induction offers generalizing start with
  | nil => simp [places, ends]
  | cons o offers ih =>
    rw [List.forall_mem_cons, ← ih (start + o.chunk.length), places, ends, List.append_eq_nil_iff,
      List.append_eq_nil_iff, List.range'_eq_nil_iff]
    have hended : (if o.ended then [start + o.chunk.length] else []) = [] ↔ o.ended = false := by
      cases o.ended <;> simp
    rw [hended, Offer.Refused]
    tauto

/-- A chunk that is taken whole leaves no gap. -/
theorem noGap_cons_whole {o : Offer α} (h : o.taken = o.chunk.length) (start : Nat)
    (offers : List (Offer α)) :
    NoGap start (o :: offers) ↔ NoGap (start + o.chunk.length) offers := by
  have hplaces (place : Nat) : place ∈ places start (o :: offers) ↔
      (start ≤ place ∧ place < start + o.chunk.length) ∨
        place ∈ places (start + o.chunk.length) offers := by
    rw [places, List.mem_append, List.mem_range'_1, h]
  have hends (place : Nat) : place ∈ ends start (o :: offers) ↔
      (o.ended = true ∧ place = start + o.chunk.length) ∨
        place ∈ ends (start + o.chunk.length) offers := by
    rw [ends, List.mem_append]
    cases o.ended <;> simp
  refine ⟨fun hgap place hplace earlier hle hlt => ?_, fun hgap place hplace earlier hle hlt => ?_⟩
  · have hmem : place ∈ places start (o :: offers) ++ ends start (o :: offers) := by
      rw [List.mem_append, hplaces, hends]
      rcases List.mem_append.mp hplace with hp | he
      · exact Or.inl (Or.inr hp)
      · exact Or.inr (Or.inr he)
    rcases (hplaces earlier).mp (hgap place hmem earlier (by omega) hlt) with hfirst | hrest
    · omega
    · exact hrest
  · rw [hplaces]
    rcases Nat.lt_or_ge earlier (start + o.chunk.length) with hfirst | hge
    · exact Or.inl ⟨hle, hfirst⟩
    · refine Or.inr (hgap place ?_ earlier hge hlt)
      rw [List.mem_append, hplaces, hends] at hplace
      rw [List.mem_append]
      rcases hplace with (hp | hp) | (he | he)
      · omega
      · exact Or.inl hp
      · omega
      · exact Or.inr he

/-- Behind a chunk that is cut short everything is refused. -/
theorem noGap_cons_cut {o : Offer α} (h : o.taken < o.chunk.length) (start : Nat)
    (offers : List (Offer α)) : NoGap start (o :: offers) ↔ ∀ later ∈ offers, later.Refused := by
  have hended : o.ended = false := by
    cases hend : o.ended with
    | true => exact absurd (o.whole hend) h.ne
    | false => rfl
  rw [← nothing_iff (start + o.chunk.length) offers, NoGap, places, ends, hended,
    if_neg Bool.false_ne_true, List.nil_append]
  refine ⟨fun hgap => List.eq_nil_iff_forall_not_mem.mpr fun place hplace => ?_, fun hnone => ?_⟩
  · have hlate : start + o.chunk.length ≤ place := by
      rcases List.mem_append.mp hplace with hp | he
      · exact le_of_mem_places hp
      · exact le_of_mem_ends he
    -- the first place that the short chunk leaves out
    have hskipped := hgap place (by rw [List.append_assoc]; exact List.mem_append_right _ hplace)
      (start + o.taken) (Nat.le_add_right _ _) (by omega)
    rcases List.mem_append.mp hskipped with hfirst | hrest
    · have := (List.mem_range'_1.mp hfirst).2
      omega
    · have := le_of_mem_places hrest
      omega
  · intro place hplace earlier hle hlt
    rw [List.append_assoc, hnone, List.append_nil, List.mem_range'_1] at hplace
    exact List.mem_append_left _ (List.mem_range'_1.mpr ⟨hle, by omega⟩)

theorem noGap_iff (start : Nat) (offers : List (Offer α)) : NoGap start offers ↔ CutLast offers := by
  induction offers generalizing start with
  | nil => simp [NoGap, places, ends, CutLast]
  | cons o offers ih =>
    rw [CutLast, List.pairwise_cons]
    rcases Nat.lt_or_eq_of_le o.bound with hcut | hwhole
    · rw [noGap_cons_cut hcut]
      refine ⟨fun h => ⟨fun later hlater _ => h later hlater, ?_⟩, fun h later hlater => ?_⟩
      · exact List.pairwise_of_forall_mem_list fun _ _ later hlater _ => h later hlater
      · exact h.1 later hlater hcut
    · rw [noGap_cons_whole hwhole, ih, CutLast]
      exact ⟨fun h => ⟨fun _ _ hcut => absurd hwhole hcut.ne, h⟩, fun h => h.2⟩

/-- What is taken without a gap is the front of the stream. -/
theorem received_of_cutLast : ∀ {offers : List (Offer α)}, CutLast offers →
    received offers <+: offered offers
  | [], _ => List.prefix_rfl
  | o :: offers, h => by
    obtain ⟨hfirst, hrest⟩ := List.pairwise_cons.mp h
    rw [received, List.flatMap_cons, offered, List.flatMap_cons]
    rcases Nat.lt_or_eq_of_le o.bound with hcut | hwhole
    · have hnothing : offers.flatMap (fun o => o.chunk.take o.taken) = [] := by
        refine List.flatMap_eq_nil_iff.mpr fun later hlater => ?_
        rw [(hfirst later hlater hcut).1, List.take_zero]
      rw [hnothing, List.append_nil]
      exact (List.take_prefix _ _).trans (List.prefix_append _ _)
    · rw [hwhole, List.take_length]
      exact (List.prefix_append_right_inj _).mpr (received_of_cutLast hrest)

end Chunks
