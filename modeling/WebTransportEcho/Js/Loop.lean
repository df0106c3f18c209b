import WebTransportEcho.Js.Value
import Mathlib.Data.List.Forall2
import Mathlib.Logic.Function.Basic

/-! Code that checks and throws: a guard, the loop that fills a record key by key, and a map whose
    function may throw. Each comes with the one fact its users need: what a normal return says. -/

namespace Js

/-- `if (c) throw new TypeError(message);` -/
def throwIf (c : Prop) [Decidable c] (message : String) : Except Error Unit :=
  if c then .error (.typeError message) else .ok ()

@[simp] theorem throwIf_eq_ok (c : Prop) [Decidable c] (message : String) (u : Unit) :
    throwIf c message = .ok u ↔ ¬ c := by
  unfold throwIf
  split <;> simp_all

/-- A sequence returns when its first part does and its second does on that result. -/
theorem bind_eq_ok {ε α β : Type} {x : Except ε α} {f : α → Except ε β} {b : β} :
    (x >>= f) = .ok b ↔ ∃ a, x = .ok a ∧ f a = .ok b := by
  cases x with
  | error e => constructor <;> simp [bind, Except.bind]
  | ok a => simp [bind, Except.bind]

@[simp] theorem ok_bind {ε α β : Type} (a : α) (f : α → Except ε β) :
    ((Except.ok a : Except ε α) >>= f) = f a := rfl

section Fill

variable {κ α : Type} [DecidableEq κ]

/-- `for (const key of keys) out[key] = read(key);` -/
def fill (read : κ → Except Error α) : List κ → (κ → α) → Except Error (κ → α)
  | [], out => .ok out
  | k :: ks, out => do
    let v ← read k
    fill read ks (Function.update out k v)

/-- After the loop every listed key holds what was read for it, and no other key has changed. -/
theorem fill_eq_ok {read : κ → Except Error α} : ∀ {keys : List κ} {out g : κ → α}, keys.Nodup →
    (fill read keys out = .ok g ↔
      (∀ k ∈ keys, read k = .ok (g k)) ∧ ∀ k, k ∉ keys → g k = out k)
  | [], out, g, _ => by
    simp only [fill, Except.ok.injEq, List.not_mem_nil, false_implies, implies_true, true_and,
      not_false_eq_true, true_implies]
    exact ⟨fun h k => by rw [h], fun h => (funext h).symm⟩
  | k :: ks, out, g, hnd => by
    obtain ⟨hk, hks⟩ := List.nodup_cons.mp hnd
    rw [fill, bind_eq_ok]
    constructor
    · rintro ⟨v, hv, hrest⟩
      obtain ⟨hmem, hout⟩ := (fill_eq_ok hks).mp hrest
      have hgk : g k = v := by rw [hout k hk, Function.update_self]
      refine ⟨fun k' hk' => ?_, fun k' hk' => ?_⟩
      · rcases List.mem_cons.mp hk' with rfl | h
        · rw [hgk]; exact hv
        · exact hmem k' h
      · simp only [List.mem_cons, not_or] at hk'
        rw [hout k' hk'.2, Function.update_of_ne hk'.1]
    · rintro ⟨hmem, hout⟩
      refine ⟨g k, hmem k (by simp), (fill_eq_ok hks).mpr ⟨fun k' h => hmem k' (by simp [h]), ?_⟩⟩
      intro k' hk'
      by_cases hkk : k' = k
      · rw [hkk, Function.update_self]
      · rw [Function.update_of_ne hkk]
        exact hout k' (by simp [hkk, hk'])

/-- When the list has every key, the initial record does not matter. -/
theorem fill_all {read : κ → Except Error α} {keys : List κ} {out g : κ → α} (hnd : keys.Nodup)
    (hall : ∀ k, k ∈ keys) : fill read keys out = .ok g ↔ ∀ k, read k = .ok (g k) := by
  rw [fill_eq_ok hnd]
  exact ⟨fun h k => h.1 k (hall k), fun h => ⟨fun k _ => h k, fun k hk => absurd (hall k) hk⟩⟩

theorem fill_congr {read read' : κ → Except Error α} : ∀ (keys : List κ) (out : κ → α),
    (∀ k ∈ keys, read k = read' k) → fill read keys out = fill read' keys out
  | [], _, _ => rfl
  | k :: ks, out, h => by
    rw [fill, fill, h k (by simp)]
    congr 1
    funext v
    exact fill_congr ks _ (fun k' hk' => h k' (by simp [hk']))

end Fill

section MapM

variable {ε α β : Type}

theorem mapM_eq_ok {f : α → Except ε β} : ∀ {xs : List α} {ys : List β},
    xs.mapM f = .ok ys ↔ List.Forall₂ (fun x y => f x = .ok y) xs ys
  | [], ys => by
    rw [List.mapM_nil]
    constructor
    · intro h; cases h; exact .nil
    · intro h; cases h; rfl
  | x :: xs, ys => by
    rw [List.mapM_cons, bind_eq_ok]
    constructor
    · rintro ⟨y, hy, hrest⟩
      obtain ⟨ys', hys', hpure⟩ := bind_eq_ok.mp hrest
      cases hpure
      exact .cons hy (mapM_eq_ok.mp hys')
    · intro h
      cases h with
      | cons hy hys => exact ⟨_, hy, bind_eq_ok.mpr ⟨_, mapM_eq_ok.mpr hys, rfl⟩⟩

/-- `for (const x of xs) body(x);` for a body that only checks. -/
def forEach (body : α → Except ε Unit) : List α → Except ε Unit
  | [] => .ok ()
  | x :: xs => do
    body x
    forEach body xs

/-- A loop of guards returns when no guard throws. -/
theorem forEach_throwIf {c : α → Prop} [DecidablePred c] {message : α → String} {u : Unit}
    {xs : List α} :
    forEach (fun x => throwIf (c x) (message x)) xs = .ok u ↔ ∀ x ∈ xs, ¬ c x := by
  induction xs with
  | nil => simp [forEach]
  | cons x xs ih => simp [forEach, bind_eq_ok, ih]

theorem exists_of_forall₂_right {R : α → β → Prop} {xs : List α} {ys : List β} {y : β}
    (h : List.Forall₂ R xs ys) (hy : y ∈ ys) : ∃ x ∈ xs, R x y := by
  induction h with
  | nil => cases hy
  | cons hxy _ ih =>
    rcases List.mem_cons.mp hy with rfl | hy
    · exact ⟨_, by simp, hxy⟩
    · obtain ⟨x, hx, hR⟩ := ih hy
      exact ⟨x, by simp [hx], hR⟩

end MapM

section Unique

variable {κ α β : Type}

/-- `input.map((item) => …)` over a set `seen` of the keys met so far, where `read` throws on an
    item whose key is in it. -/
def mapUnique (read : List κ → α → Except Error β) (key : β → κ) :
    List κ → List α → Except Error (List β)
  | _, [] => .ok []
  | seen, x :: xs => do
    let y ← read seen x
    let rest ← mapUnique read key (key y :: seen) xs
    .ok (y :: rest)

/-- The loop returns when every item reads, the keys are distinct and none was seen before. -/
theorem mapUnique_eq_ok {read : List κ → α → Except Error β} {key : β → κ} {R : α → β → Prop}
    (hread : ∀ seen x y, read seen x = .ok y ↔ R x y ∧ key y ∉ seen) :
    ∀ {seen : List κ} {xs : List α} {ys : List β}, mapUnique read key seen xs = .ok ys ↔
      List.Forall₂ R xs ys ∧ (ys.map key).Nodup ∧ ∀ y ∈ ys, key y ∉ seen
  | seen, [], ys => by
    rw [mapUnique]
    constructor
    · intro h; cases h; simp
    · rintro ⟨h, -, -⟩; cases h; rfl
  | seen, x :: xs, ys => by
    simp only [mapUnique, bind_eq_ok, hread]
    constructor
    · rintro ⟨y, ⟨hy, hseen⟩, rest, hrest, h⟩
      cases h
      obtain ⟨hall, hnd, hfresh⟩ := (mapUnique_eq_ok hread).mp hrest
      refine ⟨.cons hy hall, ?_, ?_⟩
      · rw [List.map_cons, List.nodup_cons]
        refine ⟨fun hmem => ?_, hnd⟩
        obtain ⟨y', hy', hk⟩ := List.mem_map.mp hmem
        exact hfresh y' hy' (by simp [hk])
      · intro y' hy'
        rcases List.mem_cons.mp hy' with rfl | h
        · exact hseen
        · exact fun hs => hfresh y' h (by simp [hs])
    · rintro ⟨hall, hnd, hfresh⟩
      cases hall with
      | cons hy hall =>
        rw [List.map_cons, List.nodup_cons] at hnd
        refine ⟨_, ⟨hy, hfresh _ (by simp)⟩, _,
          (mapUnique_eq_ok hread).mpr ⟨hall, hnd.2, fun y' hy' hmem => ?_⟩, rfl⟩
        rcases List.mem_cons.mp hmem with hk | hs
        · exact hnd.1 (List.mem_map.mpr ⟨y', hy', hk⟩)
        · exact hfresh y' (by simp [hy']) hs

theorem mapUnique_congr {read read' : List κ → α → Except Error β} (key : β → κ) :
    ∀ {xs xs' : List α} (seen : List κ), List.Forall₂ (fun x x' => ∀ s, read s x = read' s x') xs xs' →
      mapUnique read key seen xs = mapUnique read' key seen xs'
  | [], _, _, h => by cases h; rfl
  | x :: xs, _, seen, h => by
    cases h with
    | cons hx hxs =>
      rw [mapUnique, mapUnique, hx seen]
      congr 1
      funext y
      rw [mapUnique_congr key _ hxs]

end Unique

end Js
