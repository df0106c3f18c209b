import WebTransportEcho.Backend.Echoes

/-! The streams that the tokio-quiche backend opens. Two parties take ids of one space: the loop counts
    from 15 in steps of 4, and the HTTP/3 layer takes 3, 7 and 11 for itself, and 15 as well when it
    greases, before any response. With GREASE the first echo therefore lands on a stream that is
    already finished. -/

namespace WebTransportEcho.TokioQuiche
open Backend

/-- The streams that the HTTP/3 layer opens. `grease` is `quic_settings.grease`. -/
def h3StreamIds (grease : Bool) : List UInt64 := [3, 7, 11] ++ if grease then [15] else []

/-- The streams that the loop takes for its echoes. -/
def Connection.serverUniStreamIds (c : Connection) : List UInt64 := c.uniEchoes.map Command.streamId

/-- The ids are of the right kind, and nobody else's. -/
structure Separate (grease : Bool) (ids : List UInt64) : Prop where
  server : ∀ id ∈ ids, isServerInitiated id.toNat = true
  unidirectional : ∀ id ∈ ids, isUnidirectional id.toNat = true
  nodup : ids.Nodup
  apart : ∀ id ∈ ids, id ∉ h3StreamIds grease

theorem serverUniStreamIds_serve (events : List Event) : (serve events).serverUniStreamIds =
    (List.range (finished (handled events)).length).map serverStream := by
  rw [Connection.serverUniStreamIds, Connection.uniEchoes, (serve_handled events).echoes.commands]
  exact (handledBy_numbered (handled events)).ids

/-- The count goes round after 2^62 streams. -/
theorem serverStream_mod (j : Nat) : (serverStream j).toNat = (15 + 4 * j) % 2 ^ 64 := UInt64.toNat_ofNat'

theorem serverStream_kind (j : Nat) : isServerInitiated (serverStream j).toNat = true ∧
    isUnidirectional (serverStream j).toNat = true := by
  rw [isServerInitiated, isUnidirectional, decide_eq_true_iff, decide_eq_true_iff, serverStream_mod]
  omega

/-- The streams of the HTTP/3 layer, before the first of the loop and at it. -/
theorem mem_h3StreamIds_iff {grease : Bool} {j : Nat} (hj : j < 2 ^ 62) :
    serverStream j ∈ h3StreamIds grease ↔ 2 ^ 62 - 3 ≤ j ∨ grease = true ∧ j = 0 := by
  have hid (id : UInt64) : serverStream j = id ↔ (15 + 4 * j) % 2 ^ 64 = id.toNat := by
    rw [← UInt64.toNat_inj, serverStream_mod]
  have hbase : serverStream j ∈ [3, 7, 11] ↔ 2 ^ 62 - 3 ≤ j := by
    rw [List.mem_cons, List.mem_cons, List.mem_singleton, hid, hid, hid]
    have h3 : (3 : UInt64).toNat = 3 := rfl
    have h7 : (7 : UInt64).toNat = 7 := rfl
    have h11 : (11 : UInt64).toNat = 11 := rfl
    omega
  have hfirst : serverStream j = 15 ↔ j = 0 := by
    rw [hid, show (15 : UInt64).toNat = 15 from rfl]
    omega
  rw [h3StreamIds, List.mem_append, hbase]
  cases grease <;> simp [hfirst]

/-- The ids are the echoes' alone exactly where no echo is made, or GREASE is off and the count has not
    gone round. -/
theorem separate_iff (grease : Bool) (events : List Event) :
    Separate grease (serve events).serverUniStreamIds ↔ finished (handled events) = [] ∨
      grease = false ∧ (finished (handled events)).length ≤ 2 ^ 62 - 3 := by
  rw [serverUniStreamIds_serve, ← List.length_eq_zero_iff]
  generalize (finished (handled events)).length = n
  refine ⟨fun h => ?_, fun h => ⟨?_, ?_, ?_, ?_⟩⟩
  · rcases Nat.eq_zero_or_pos n with hzero | hpos
    · exact Or.inl hzero
    · have hapart (j : Nat) (hj : j < n) := h.apart _ (List.mem_map_of_mem (List.mem_range.mpr hj))
      refine Or.inr ⟨?_, ?_⟩
      · have hfirst := hapart 0 hpos
        rw [mem_h3StreamIds_iff (by norm_num)] at hfirst
        cases grease with
        | true => exact absurd (Or.inr ⟨rfl, rfl⟩) hfirst
        | false => rfl
      · by_contra hlong
        have hround := hapart (2 ^ 62 - 3) (by omega)
        rw [mem_h3StreamIds_iff (by norm_num)] at hround
        exact hround (Or.inl le_rfl)
  · intro id hid
    obtain ⟨j, -, rfl⟩ := List.mem_map.mp hid
    exact (serverStream_kind j).1
  · intro id hid
    obtain ⟨j, -, rfl⟩ := List.mem_map.mp hid
    exact (serverStream_kind j).2
  · refine List.Nodup.map_on (fun i hi j hj heq => ?_) List.nodup_range
    rw [List.mem_range] at hi hj
    rw [← UInt64.toNat_inj, serverStream_mod, serverStream_mod] at heq
    omega
  · intro id hid hmem
    obtain ⟨j, hj, rfl⟩ := List.mem_map.mp hid
    rw [List.mem_range] at hj
    rw [mem_h3StreamIds_iff (by omega)] at hmem
    rcases h with hzero | ⟨hgrease, hlength⟩
    · omega
    · rcases hmem with hround | ⟨hon, -⟩
      · omega
      · rw [hgrease] at hon
        cases hon

/-- With GREASE on, one echo takes the stream that is already open. -/
theorem grease_not_separate :
    ¬ Separate true (serve [.streamData 0 2 .uni [1] true]).serverUniStreamIds := fun h =>
  h.apart 15 (by decide) (by decide)

end WebTransportEcho.TokioQuiche
