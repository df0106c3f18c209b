import WebTransportEcho.Backend.Quinn
import Mathlib.Order.Bounds.Basic

/-! The integers of a prefix, written and read back. Each backend has its copy of the encoder, and one
    of them has the decoder. What either copy writes is the shortest form, and the decoder reads it
    from the front of any bytes, but not before the last of its bytes is there (`ReadBack`). What the
    decoder returns is below 2^62, where the encoder cuts nothing off: the session that the prefix of
    a stream names is the session that the echo's prefix names. -/

namespace WebTransportEcho.Quinn
open Backend

/-! ### The decoder -/

theorem readVarint_le {bytes : Bytes} {v : UInt64} {len : Nat} (h : readVarint bytes = some (v, len)) :
    len ≤ bytes.length := by
  cases bytes with
  | nil => cases h
  | cons first rest =>
    rw [readVarint] at h
    split_ifs at h with hlt
    obtain ⟨-, rfl⟩ := Prod.mk.inj (Option.some.inj h)
    exact Nat.not_lt.mp hlt

/-- The decoder, with what it leaves of the bytes. -/
theorem readVarint_eq (bytes : Bytes) : readVarint bytes =
    (Varint.decode bytes).map fun found => (UInt64.ofNat found.1, bytes.length - found.2.length) := by
  cases h : Varint.decode bytes with
  | none => exact readVarint_none h
  | some found =>
    obtain ⟨len, hread, hdrop⟩ := readVarint_some h
    have hle := readVarint_le hread
    have hlen : found.2.length = bytes.length - len := by rw [← hdrop, List.length_drop]
    rw [hread, Option.map_some, hlen, Nat.sub_sub_self hle]

/-- Two bits of the first byte are not part of the value. -/
theorem readVarint_lt {bytes : Bytes} {v : UInt64} {len : Nat} (h : readVarint bytes = some (v, len)) :
    v.toNat < 2 ^ 62 := by
  rw [readVarint_eq, Option.map_eq_some_iff] at h
  obtain ⟨found, hfound, heq⟩ := h
  have hlimit := Varint.decode_lt hfound
  obtain ⟨rfl, -⟩ := Prod.mk.inj heq
  rw [toNat_ofNat hlimit]
  exact hlimit

/-! ### The encoders -/

/-- An encoder writes behind what there is. A value below 2^62 takes the least number of bytes that
    can hold it, and the decoder reads it from them, whatever follows, and from no fewer. -/
structure ReadBack (write : UInt64 → Bytes → Bytes) : Prop where
  behind : ∀ v out, write v out = out ++ write v []
  whole : ∀ v rest, v.toNat < 2 ^ 62 →
    readVarint (write v [] ++ rest) = some (v, (write v []).length)
  least : ∀ v, v.toNat < 2 ^ 62 →
    IsLeast {len | len ∈ [1, 2, 4, 8] ∧ v.toNat < 2 ^ (8 * len - 2)} (write v []).length
  cut : ∀ v part, v.toNat < 2 ^ 62 → part <+: write v [] → part ≠ write v [] →
    readVarint part = none

theorem size_mem {form : Nat} (h : form < 4) : Varint.size form ∈ [1, 2, 4, 8] := by
  interval_cases form <;> decide

theorem exists_size : ∀ len ∈ [1, 2, 4, 8], ∃ form < 4, Varint.size form = len := by decide

/-- It is enough to write the encoding. -/
theorem readBack_of_encode {write : UInt64 → Bytes → Bytes}
    (hbehind : ∀ v out, write v out = out ++ write v [])
    (hwrite : ∀ v, v.toNat < 2 ^ 62 → write v [] = Varint.encode v.toNat) : ReadBack write where
  behind := hbehind
  whole v rest h := by
    rw [hwrite v h, readVarint_eq, Varint.decode_encode h, Option.map_some, List.length_append,
      Nat.add_sub_cancel, UInt64.ofNat_toNat]
  least v h := by
    obtain ⟨hform, hbound⟩ := Varint.form_spec h
    rw [hwrite v h, Varint.length_encode]
    refine ⟨⟨size_mem hform, hbound⟩, ?_⟩
    rintro len ⟨hlen, hfits⟩
    obtain ⟨form, -, rfl⟩ := exists_size len hlen
    exact Nat.pow_le_pow_right Nat.zero_lt_two (Varint.form_le hfits)
  cut v part h hprefix hne := by
    obtain ⟨missing, hmissing⟩ := hprefix
    have hcut : part ++ missing = Varint.encode v.toNat := hmissing.trans (hwrite v h)
    rw [readVarint_eq, Varint.decode_cut h hcut, Option.map_none]
    rintro rfl
    exact hne ((List.append_nil part).symm.trans hmissing)

theorem writeVarint_behind (v : UInt64) (out : Bytes) :
    TokioQuiche.writeVarint v out = out ++ TokioQuiche.writeVarint v [] := by
  unfold TokioQuiche.writeVarint
  split_ifs <;> rfl

theorem writeVarint_readBack : ReadBack TokioQuiche.writeVarint :=
  readBack_of_encode writeVarint_behind fun v h => TokioQuiche.writeVarint_eq v [] h

/-! ### The prefix of an echo -/

/-- The prefix of an echo to this session. -/
def echoPreface (sessionId : UInt64) : Bytes := writeVarint sessionId (writeVarint wtUniStreamType [])

/-- The session of the prefix that was read is the one that the echo's prefix names, wherever the bytes
    of the echo are cut. -/
structure KeepsSession (chunks : List Bytes) (streamType sessionId : UInt64) : Prop where
  limit : sessionId.toNat < 2 ^ 62
  written : streamType = wtUniStreamType → ∃ payload, (echoUniStream chunks).acts =
    [.openUni, .writeAll (echoPreface sessionId), .writeAll payload, .finish]
  read : ∀ (echo : List Bytes) (payload : Bytes), echo.flatten = echoPreface sessionId ++ payload →
    ∃ firstPayload later, readPrefix newPrefixReader [] echo =
      some ({ pending := [], values := [wtUniStreamType, sessionId] }, firstPayload, later) ∧
      firstPayload ++ later.flatten = payload

theorem preface_echo {sessionId : Nat} (h : sessionId < 2 ^ 62) (payload : Bytes) :
    preface (echoPreface (UInt64.ofNat sessionId) ++ payload) = some (0x54, sessionId, payload) := by
  rw [echoPreface, writeVarint_preface h, List.append_assoc, preface_eq_some]
  exact ⟨_, Varint.decode_encode (by decide) _, Varint.decode_encode h _⟩

theorem keepsSession {chunks : List Bytes} {payload : Bytes} {streamType sessionId : Nat}
    (h : preface chunks.flatten = some (streamType, sessionId, payload)) :
    KeepsSession chunks (UInt64.ofNat streamType) (UInt64.ofNat sessionId) := by
  obtain ⟨htype, hlimit⟩ := preface_lt h
  refine ⟨by rw [toNat_ofNat hlimit]; exact hlimit, fun hstream => ?_, fun echo sent hecho => ?_⟩
  · have huni : streamType = 0x54 := htype.symm.trans (congrArg UInt64.toNat hstream)
    refine ⟨payload, ?_⟩
    rw [(echoUniStream_of_some h).1 huni, echoPreface, writeVarint_preface hlimit]
  · have hread := readPrefix_new echo
    rw [hecho, preface_echo hlimit] at hread
    exact hread

/-- What either encoder writes below 2^62 is read back by the decoder, which returns nothing else; so
    the session of a stream's prefix is kept by the prefix of its echo. -/
theorem prefaces_readBack : ReadBack writeVarint ∧ ReadBack TokioQuiche.writeVarint ∧
    (∀ bytes v len, readVarint bytes = some (v, len) → v.toNat < 2 ^ 62) ∧
    ∀ chunks reader firstPayload later,
      readPrefix newPrefixReader [] chunks = some (reader, firstPayload, later) →
      ∃ streamType sessionId, reader.values = [streamType, sessionId] ∧
        KeepsSession chunks streamType sessionId := by
  refine ⟨writeVarint_readBack, writeVarint_readBack, fun _ _ _ => readVarint_lt, ?_⟩
  intro chunks reader firstPayload later h
  have hread := readPrefix_new chunks
  cases hpreface : preface chunks.flatten with
  | none =>
    rw [hpreface] at hread
    rw [h] at hread
    cases hread
  | some found =>
    rw [hpreface] at hread
    obtain ⟨_, _, hread, -⟩ := hread
    obtain ⟨rfl, -⟩ := Prod.mk.inj (Option.some.inj (h.symm.trans hread))
    exact ⟨_, _, rfl, keepsSession hpreface⟩

end WebTransportEcho.Quinn
