import Mathlib.Algebra.Order.Group.Nat
import Mathlib.Tactic.IntervalCases
import Mathlib.Tactic.Positivity
import Mathlib.Tactic.Ring

/-! The variable-length integers of QUIC. The two high bits of the first byte say how many bytes
    there are, 1, 2, 4 or 8, and the value is the rest of them, highest first. `encode` takes the
    shortest form, and `decode` reads it back from the front of any bytes. -/

namespace Varint

/-- The low `n` bytes of `v`, highest first. -/
def bigEndian : Nat → Nat → List UInt8
  | 0, _ => []
  | n + 1, v => UInt8.ofNat (v / 256 ^ n) :: bigEndian n v

def ofBigEndian (bytes : List UInt8) : Nat := bytes.foldl (fun v b => 256 * v + b.toNat) 0

/-- How many bytes a form has. -/
def size (form : Nat) : Nat := 2 ^ form

/-- The values a form can hold are the ones below this. -/
def bound (form : Nat) : Nat := 2 ^ (8 * size form - 2)

/-- The shortest form. -/
def form (v : Nat) : Nat :=
  if v < 2 ^ 6 then 0 else if v < 2 ^ 14 then 1 else if v < 2 ^ 30 then 2 else 3

def encode (v : Nat) : List UInt8 := bigEndian (size (form v)) (form v * bound (form v) + v)

/-- The value at the front, and the bytes after it. -/
def decode : List UInt8 → Option (Nat × List UInt8)
  | [] => none
  | b :: rest =>
    let form := b.toNat / 64
    let bytes := b :: rest
    if bytes.length < size form then none
    else some (ofBigEndian (bytes.take (size form)) % bound form, bytes.drop (size form))

example : encode 0x54 = [0x40, 0x54] := by decide

theorem length_bigEndian (v : Nat) : ∀ n, (bigEndian n v).length = n
  | 0 => rfl
  | n + 1 => by rw [bigEndian, List.length_cons, length_bigEndian v n]

theorem foldl_bigEndian (v : Nat) : ∀ n start : Nat,
    (bigEndian n v).foldl (fun v b => 256 * v + b.toNat) start = 256 ^ n * start + v % 256 ^ n
  | 0, start => by simp [bigEndian, Nat.mod_one]
  | n + 1, start => by
    have hbyte : (UInt8.ofNat (v / 256 ^ n)).toNat = v / 256 ^ n % 256 := by simp
    rw [bigEndian, List.foldl_cons, foldl_bigEndian v n, hbyte, pow_succ, Nat.mod_mul]
    ring

theorem ofBigEndian_bigEndian (n v : Nat) : ofBigEndian (bigEndian n v) = v % 256 ^ n := by
  rw [ofBigEndian, foldl_bigEndian, Nat.mul_zero, Nat.zero_add]

/-- What is above the low bytes does not count. -/
theorem bigEndian_add (v : Nat) : ∀ n a : Nat, bigEndian n (256 ^ n * a + v) = bigEndian n v
  | 0, _ => rfl
  | n + 1, a => by
    have hhigh : 256 ^ (n + 1) * a = 256 ^ n * (256 * a) := by ring
    have hbyte : UInt8.ofNat (256 * a + v / 256 ^ n) = UInt8.ofNat (v / 256 ^ n) := by
      rw [← UInt8.toNat_inj]
      simp
    rw [bigEndian, bigEndian, hhigh, bigEndian_add v n, Nat.mul_add_div (by positivity), hbyte]

/-- The first byte of a form, and the low bytes of the value. -/
theorem bigEndian_form {k n v : Nat} (h : size k = n + 1) :
    bigEndian (size k) (k * bound k + v) = UInt8.ofNat (64 * k + v / 256 ^ n) :: bigEndian n v := by
  have hbound : k * bound k = 256 ^ n * (64 * k) := by
    rw [bound, h, show 8 * (n + 1) - 2 = 8 * n + 6 by omega, pow_add, pow_mul]
    ring
  rw [hbound, h, bigEndian, bigEndian_add, Nat.mul_add_div (by positivity)]

theorem form_spec {v : Nat} (h : v < 2 ^ 62) : form v < 4 ∧ v < bound (form v) := by
  unfold form
  split_ifs
  all_goals
    refine ⟨by decide, ?_⟩
    simp only [bound, size]
    omega

/-- The first byte says which form it is. -/
theorem first_form {k v : Nat} (hk : k < 4) (hv : v < bound k) :
    (UInt8.ofNat ((k * bound k + v) / 256 ^ (size k - 1))).toNat / 64 = k := by
  interval_cases k
  all_goals
    simp only [bound, size] at hv ⊢
    simp only [UInt8.toNat_ofNat']
    omega

theorem decode_bigEndian {k v : Nat} (hk : k < 4) (hv : v < bound k) (rest : List UInt8) :
    decode (bigEndian (size k) (k * bound k + v) ++ rest) = some (v, rest) := by
  obtain ⟨n, hn⟩ : ∃ n, size k = n + 1 := Nat.exists_eq_add_one.mpr (Nat.two_pow_pos k)
  have hlength := length_bigEndian (k * bound k + v) (size k)
  have hvalue : ofBigEndian (bigEndian (size k) (k * bound k + v)) % bound k = v := by
    rw [ofBigEndian_bigEndian]
    interval_cases k
    all_goals
      simp only [bound, size] at hv ⊢
      omega
  have hfirst := first_form hk hv
  rw [hn, Nat.add_sub_cancel] at hfirst
  rw [hn] at hlength hvalue ⊢
  rw [bigEndian, List.cons_append, decode]
  simp only [hfirst, hn]
  rw [← List.cons_append, ← bigEndian, List.take_left' hlength, List.drop_left' hlength, hvalue,
    if_neg (by rw [List.length_append, hlength]; omega)]

theorem decode_encode {v : Nat} (h : v < 2 ^ 62) (rest : List UInt8) :
    decode (encode v ++ rest) = some (v, rest) := by
  obtain ⟨hform, hbound⟩ := form_spec h
  exact decode_bigEndian hform hbound rest

theorem foldl_start (bytes : List UInt8) : ∀ start : Nat,
    bytes.foldl (fun v b => 256 * v + b.toNat) start = 256 ^ bytes.length * start + ofBigEndian bytes := by
  unfold ofBigEndian
  induction bytes with
  | nil => simp
  | cons b bytes ih =>
    intro start
    rw [List.foldl_cons, List.foldl_cons, ih, ih (256 * 0 + b.toNat), List.length_cons, pow_succ]
    ring

theorem ofBigEndian_lt : ∀ bytes : List UInt8, ofBigEndian bytes < 256 ^ bytes.length
  | [] => by decide
  | b :: bytes => by
    have hb : b.toNat < 256 := b.toNat_lt
    have hrest := ofBigEndian_lt bytes
    have hle : 256 ^ bytes.length * (b.toNat + 1) ≤ 256 ^ bytes.length * 256 :=
      Nat.mul_le_mul_left _ hb
    rw [ofBigEndian, List.foldl_cons, foldl_start, List.length_cons, pow_succ, Nat.mul_zero,
      Nat.zero_add]
    rw [Nat.mul_add, Nat.mul_one] at hle
    omega

/-- The two high bits of the first byte are not part of the value. -/
theorem ofBigEndian_mod_bound {k : Nat} {bytes : List UInt8} (h : size k = bytes.length + 1)
    (b : UInt8) : ofBigEndian (b :: bytes) % bound k =
      bytes.foldl (fun v b => 256 * v + b.toNat) (b.toNat % 64) := by
  have hbound : bound k = 256 ^ bytes.length * 64 := by
    rw [bound, h, show 8 * (bytes.length + 1) - 2 = 8 * bytes.length + 6 by omega, pow_add, pow_mul]
    norm_num
  have hrest := ofBigEndian_lt bytes
  rw [ofBigEndian, List.foldl_cons, foldl_start, foldl_start, hbound, Nat.mod_mul,
    Nat.mul_zero, Nat.zero_add, Nat.mul_add_mod, Nat.mod_eq_of_lt hrest,
    Nat.mul_add_div (Nat.pos_of_ne_zero (by positivity)), Nat.div_eq_of_lt hrest, Nat.add_zero,
    Nat.add_comm]

/-- More bytes behind it are left over. -/
theorem decode_append {bytes rest : List UInt8} {v : Nat} (h : decode bytes = some (v, rest))
    (more : List UInt8) : decode (bytes ++ more) = some (v, rest ++ more) := by
  cases bytes with
  | nil => cases h
  | cons b tail =>
    rw [decode] at h
    split_ifs at h with hlt
    have hle : size (b.toNat / 64) ≤ (b :: tail).length := Nat.not_lt.mp hlt
    have hmore : ¬ (b :: (tail ++ more)).length < size (b.toNat / 64) := by
      simp only [List.length_cons, List.length_append] at hle ⊢
      omega
    obtain ⟨rfl, rfl⟩ := Prod.mk.inj (Option.some.inj h)
    rw [List.cons_append, decode]
    simp only [if_neg hmore]
    rw [← List.cons_append, List.take_append_of_le_length hle, List.drop_append_of_le_length hle]

theorem decode_lt {bytes rest : List UInt8} {v : Nat} (h : decode bytes = some (v, rest)) :
    v < 2 ^ 62 := by
  cases bytes with
  | nil => cases h
  | cons b tail =>
    rw [decode] at h
    split_ifs at h
    obtain ⟨rfl, -⟩ := Prod.mk.inj (Option.some.inj h)
    have hform : b.toNat / 64 < 4 := by
      have := b.toNat_lt
      omega
    have hbound : ∀ form < 4, 0 < bound form ∧ bound form ≤ 2 ^ 62 := by decide
    exact (Nat.mod_lt _ (hbound _ hform).1).trans_le (hbound _ hform).2

theorem length_encode (v : Nat) : (encode v).length = size (form v) := length_bigEndian _ _

/-- No shorter form holds the value. -/
theorem form_le {k v : Nat} (h : v < bound k) : form v ≤ k := by
  unfold form
  split_ifs with h₁ h₂ h₃
  · exact Nat.zero_le k
  · rcases k with _ | k
    · exact absurd h h₁
    · omega
  · rcases k with _ | _ | k
    · exact absurd h h₁
    · exact absurd h h₂
    · omega
  · rcases k with _ | _ | _ | k
    · exact absurd h h₁
    · exact absurd h h₂
    · exact absurd h h₃
    · omega

/-- An encoding that is cut short is not read. -/
theorem decode_cut {v : Nat} (h : v < 2 ^ 62) {bytes missing : List UInt8}
    (hcut : bytes ++ missing = encode v) (hmissing : missing ≠ []) : decode bytes = none := by
  by_contra hread
  obtain ⟨⟨w, rest⟩, hw⟩ := Option.ne_none_iff_exists'.mp hread
  have hwhole := decode_append hw missing
  have hexact := decode_encode h []
  rw [List.append_nil, ← hcut, hwhole] at hexact
  obtain ⟨-, hnil⟩ := Prod.mk.inj (Option.some.inj hexact)
  exact hmissing (List.append_eq_nil_iff.mp hnil).2

end Varint
