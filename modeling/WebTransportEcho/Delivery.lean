import Mathlib.Data.List.Infix

/-! Streams that arrive in pieces. A stream is sent as segments, and what arrives of it is cut into
    segments anew; only the bytes, their order and the end are kept. Delivery composes, so what a
    relay passes on of what it got can be traced back to what was sent first. -/

namespace Delivery

variable {α : Type*}

/-- A piece of a stream, and whether the stream ends with it. -/
abbrev Segment (α : Type*) := List α × Bool

def content (segments : List (Segment α)) : List α := segments.flatMap Prod.fst

def ended (segments : List (Segment α)) : Bool := segments.any Prod.snd

/-- What arrives is the front of what is sent, and all of it once the end has come. -/
structure Follows (sent received : List (Segment α)) : Prop where
  content : content received <+: content sent
  ended : ended received = true → ended sent = true ∧ Delivery.content received = Delivery.content sent

/-- This has been so after each segment. -/
def Carried (sent received : List (Segment α)) : Prop :=
  ∀ front, front <+: received → Follows sent front

/-! ### Segments one after the other -/

@[simp] theorem content_nil : content ([] : List (Segment α)) = [] := rfl

@[simp] theorem ended_nil : ended ([] : List (Segment α)) = false := rfl

@[simp] theorem content_append (front back : List (Segment α)) :
    content (front ++ back) = content front ++ content back := List.flatMap_append

@[simp] theorem ended_append (front back : List (Segment α)) :
    ended (front ++ back) = (ended front || ended back) := List.any_append

@[simp] theorem content_singleton (s : Segment α) : content [s] = s.1 := List.flatMap_singleton _ _

@[simp] theorem ended_singleton (s : Segment α) : ended [s] = s.2 := by simp [ended]

/-! ### Delivery -/

theorem follows_iff {sent received : List (Segment α)} : Follows sent received ↔
    content received <+: content sent ∧
      (ended received = true → ended sent = true ∧ content received = content sent) :=
  ⟨fun h => ⟨h.content, h.ended⟩, fun h => ⟨h.1, h.2⟩⟩

theorem carried_iff {sent received : List (Segment α)} :
    Carried sent received ↔ ∀ front ∈ received.inits, Follows sent front := by
  simp only [Carried, List.mem_inits]

instance [DecidableEq α] (sent received : List (Segment α)) : Decidable (Follows sent received) :=
  decidable_of_iff _ follows_iff.symm

instance [DecidableEq α] (sent received : List (Segment α)) : Decidable (Carried sent received) :=
  decidable_of_iff _ carried_iff.symm

variable {first sent received front : List (Segment α)}

theorem Follows.refl (sent : List (Segment α)) : Follows sent sent :=
  ⟨List.prefix_refl _, fun h => ⟨h, rfl⟩⟩

theorem Follows.trans (h : Follows first sent) (h' : Follows sent received) : Follows first received where
  content := h'.content.trans h.content
  ended := fun hended => by
    obtain ⟨hsent, hall⟩ := h'.ended hended
    obtain ⟨hfirst, hwhole⟩ := h.ended hsent
    exact ⟨hfirst, hall.trans hwhole⟩

theorem follows_nil (sent : List (Segment α)) : Follows sent [] :=
  ⟨List.nil_prefix, fun h => by cases h⟩

/-- Nothing arrives of what is not sent. -/
theorem Follows.of_nil (h : Follows [] received) (sent : List (Segment α)) : Follows sent received := by
  refine ⟨?_, fun hended => absurd (h.ended hended).1 (by simp)⟩
  rw [List.prefix_nil.mp h.content]
  exact List.nil_prefix

theorem Carried.follows (h : Carried sent received) : Follows sent received := h _ (List.prefix_refl _)

theorem carried_nil (sent : List (Segment α)) : Carried sent [] := fun front hfront => by
  rw [List.prefix_nil.mp hfront]
  exact follows_nil sent

theorem Carried.of_front (h : Carried sent received) (hfront : front <+: received) :
    Carried sent front := fun _ h' => h _ (h'.trans hfront)

theorem Carried.of_nil (h : Carried [] received) (sent : List (Segment α)) : Carried sent received :=
  fun front hfront => (h front hfront).of_nil sent

/-- A relay that follows what it is sent. -/
theorem Follows.carried (h : Follows first sent) (h' : Carried sent received) : Carried first received :=
  fun front hfront => h.trans (h' front hfront)

end Delivery
