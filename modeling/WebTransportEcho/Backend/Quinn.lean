import WebTransportEcho.Backend.Echoes

/-! The stream echoes of the Quinn backend. A stream comes in chunks, cut anywhere, and begins with two
    integers: its type and its session. They are read by a `PrefixReader` that keeps the bytes of an
    unfinished integer, and what follows them in the same chunk is the first of the payload; the rest
    of the payload is read by a second loop. What is echoed depends on the joined stream only.

    The chunks of a stream that ends cleanly are a list here, an empty read among them is an empty
    chunk, and every write is completed. -/

namespace WebTransportEcho.Quinn
open Backend

def wtBidiStreamType : UInt64 := 0x41

def wtUniStreamType : UInt64 := 0x54

/-! ### `PrefixReader` -/

/-- The number of bytes that the first byte announces. -/
def varintLen (first : UInt8) : Nat :=
  match (first >>> 6).toNat with
  | 0 => 1
  | 1 => 2
  | 2 => 4
  | _ => 8

def appendByte (value : UInt64) (byte : UInt8) : UInt64 := value <<< 8 ||| byte.toUInt64

/-- The integer at the front and its number of bytes. -/
def readVarint : Bytes → Option (UInt64 × Nat)
  | [] => none
  | first :: rest =>
    let len := varintLen first
    if (first :: rest).length < len then none
    else
      some ((rest.take (len - 1)).foldl appendByte (first &&& 0x3f).toUInt64, len)

/-- The two backends have the same `write_varint`. -/
def writeVarint (value : UInt64) (out : Bytes) : Bytes := TokioQuiche.writeVarint value out

structure PrefixReader where
  pending : Bytes
  values : List UInt64

def newPrefixReader : PrefixReader where
  pending := []
  values := []

/-- The loop of `push`: what is read so far, and the payload behind it. -/
def pushLoop (reader : PrefixReader) (payload : Bytes) : PrefixReader × Bytes :=
  if 2 ≤ reader.values.length then ({ reader with pending := [] }, payload ++ reader.pending)
  else
    match readVarint reader.pending with
    | some (value, len) =>
      pushLoop { pending := reader.pending.drop len, values := reader.values ++ [value] } payload
    | none => (reader, payload)
termination_by 2 - reader.values.length
decreasing_by
  rw [List.length_append, List.length_singleton]
  omega

def PrefixReader.push (reader : PrefixReader) (chunk payload : Bytes) : PrefixReader × Bytes :=
  pushLoop { reader with pending := reader.pending ++ chunk } payload

/-- `while prefix.values.len() < 2`: the reader, the first payload and the chunks not read yet. -/
def readPrefix (reader : PrefixReader) (firstPayload : Bytes) (chunks : List Bytes) :
    Option (PrefixReader × Bytes × List Bytes) :=
  if 2 ≤ reader.values.length then some (reader, firstPayload, chunks)
  else
    match chunks with
    | [] => none
    | chunk :: chunks =>
      let pushed := reader.push chunk firstPayload
      readPrefix pushed.1 pushed.2 chunks

/-! ### Echoes -/

/-- What is done on the sending side. -/
inductive Act where
  | openUni
  | writeAll (bytes : Bytes)
  | finish

/-- What an echo did and how it ended. -/
structure Echo where
  acts : List Act
  result : Except String Unit

def endedEarly (direction : String) : Echo where
  acts := []
  result := .error (direction ++ " stream ended before WT prefix")

def unexpectedType (direction : String) (streamType : UInt64) : Echo where
  acts := []
  result := .error ("unexpected " ++ direction ++ " stream preface type 0x" ++
    String.ofList (Nat.toDigits 16 streamType.toNat))

/-- The read loop of `echo_bidi_stream`. -/
def echoBidiPayload : List Bytes → List Act
  | [] => [.finish]
  | chunk :: chunks =>
    if chunk.isEmpty then echoBidiPayload chunks else .writeAll chunk :: echoBidiPayload chunks

def echoBidiStream (chunks : List Bytes) : Echo :=
  match readPrefix newPrefixReader [] chunks with
  | none => endedEarly "bidi"
  | some (reader, firstPayload, chunks) =>
    let streamType := reader.values.getD 0 0
    if streamType ≠ wtBidiStreamType then unexpectedType "bidi" streamType
    else
      { acts := (if firstPayload.isEmpty then [] else [.writeAll firstPayload]) ++ echoBidiPayload chunks
        result := .ok () }

def echoUniStream (chunks : List Bytes) : Echo :=
  match readPrefix newPrefixReader [] chunks with
  | none => endedEarly "uni"
  | some (reader, firstPayload, chunks) =>
    let streamType := reader.values.getD 0 0
    let sessionId := reader.values.getD 1 0
    if streamType ≠ wtUniStreamType then unexpectedType "uni" streamType
    else
      let payload := chunks.foldl (fun payload chunk => payload ++ chunk) firstPayload
      let preface := writeVarint sessionId (writeVarint wtUniStreamType [])
      { acts := [.openUni, .writeAll preface, .writeAll payload, .finish]
        result := .ok () }

/-! ### Reading an integer -/

theorem varintLen_eq (first : UInt8) : varintLen first = Varint.size (first.toNat / 64) := by
  have hshift : (first >>> 6).toNat = first.toNat / 64 := by
    rw [UInt8.toNat_shiftRight, Nat.shiftRight_eq_div_pow]
    rfl
  have hform : first.toNat / 64 < 4 := by
    have := first.toNat_lt
    omega
  rw [varintLen, hshift]
  interval_cases first.toNat / 64 <;> rfl

theorem toNat_mask (first : UInt8) : (first &&& 0x3f).toUInt64.toNat = first.toNat % 64 := by
  rw [UInt8.toNat_toUInt64, UInt8.toNat_and]
  exact Nat.and_two_pow_sub_one_eq_mod first.toNat 6

/-- A step of the value's loop. -/
theorem toNat_appendByte {value : UInt64} (h : value.toNat < 2 ^ 56) (byte : UInt8) :
    (appendByte value byte).toNat = 256 * value.toNat + byte.toNat := by
  have hshift : (value <<< 8).toNat = value.toNat <<< 8 := by
    rw [UInt64.toNat_shiftLeft, show (8 : UInt64).toNat % 64 = 8 from rfl]
    refine Nat.mod_eq_of_lt ?_
    rw [Nat.shiftLeft_eq]
    omega
  rw [appendByte, UInt64.toNat_or, hshift, UInt8.toNat_toUInt64,
    ← Nat.shiftLeft_add_eq_or_of_lt (i := 8) byte.toNat_lt, Nat.shiftLeft_eq, Nat.mul_comm]

/-- The loop does not overflow while the bytes fit. -/
theorem toNat_foldl_appendByte (bytes : Bytes) : ∀ value : UInt64,
    (value.toNat + 1) * 256 ^ bytes.length ≤ 2 ^ 64 →
    (bytes.foldl appendByte value).toNat =
      bytes.foldl (fun v b => 256 * v + b.toNat) value.toNat := by
  induction bytes with
  | nil => exact fun _ _ => rfl
  | cons byte bytes ih =>
    intro value h
    have hpos : 0 < 256 ^ bytes.length := by positivity
    have hfits : (value.toNat + 1) * 256 * 256 ^ bytes.length ≤ 2 ^ 64 := by
      rw [List.length_cons, pow_succ] at h
      calc (value.toNat + 1) * 256 * 256 ^ bytes.length
          = (value.toNat + 1) * (256 ^ bytes.length * 256) := by ring
        _ ≤ 2 ^ 64 := h
    have hvalue : value.toNat < 2 ^ 56 := by
      have := (Nat.le_mul_of_pos_right _ hpos).trans hfits
      omega
    have hstep := toNat_appendByte hvalue byte
    have hbyte : byte.toNat < 256 := byte.toNat_lt
    rw [List.foldl_cons, List.foldl_cons, ih, hstep]
    rw [hstep]
    refine le_trans (Nat.mul_le_mul_right _ ?_) hfits
    omega

theorem readVarint_none {bytes : Bytes} (h : Varint.decode bytes = none) : readVarint bytes = none := by
  cases bytes with
  | nil => rfl
  | cons first rest =>
    rw [Varint.decode] at h
    split_ifs at h with hlt
    rw [readVarint, varintLen_eq, if_pos hlt]

theorem readVarint_some {bytes rest : Bytes} {v : Nat} (h : Varint.decode bytes = some (v, rest)) :
    ∃ len, readVarint bytes = some (UInt64.ofNat v, len) ∧ bytes.drop len = rest := by
  cases bytes with
  | nil => cases h
  | cons first tail =>
    have hlimit := Varint.decode_lt h
    rw [Varint.decode] at h
    split_ifs at h with hlt
    obtain ⟨hv, hrest⟩ := Prod.mk.inj (Option.some.inj h)
    obtain ⟨n, hn⟩ : ∃ n, Varint.size (first.toNat / 64) = n + 1 :=
      Nat.exists_eq_add_one.mpr (Nat.two_pow_pos _)
    have hform : first.toNat / 64 < 4 := by
      have := first.toNat_lt
      omega
    have hseven : n ≤ 7 := by
      have hsize : ∀ k < 4, Varint.size k ≤ 8 := by decide
      have := hsize _ hform
      omega
    have hlen : (tail.take n).length = n := by
      rw [hn] at hlt
      rw [List.length_take, Nat.min_eq_left (by simpa using hlt)]
    have hvalue : ((tail.take n).foldl appendByte (first &&& 0x3f).toUInt64).toNat = v := by
      rw [hn, List.take_succ_cons, Varint.ofBigEndian_mod_bound (by rw [hlen, hn])] at hv
      rw [toNat_foldl_appendByte, toNat_mask, hv]
      rw [toNat_mask, hlen]
      calc (first.toNat % 64 + 1) * 256 ^ n ≤ 64 * 256 ^ 7 :=
            Nat.mul_le_mul (by omega) (Nat.pow_le_pow_right (by decide) hseven)
        _ ≤ 2 ^ 64 := by decide
    refine ⟨n + 1, ?_, by rw [← hn]; exact hrest⟩
    rw [readVarint, varintLen_eq, if_neg hlt, hn, Nat.add_sub_cancel, ← hvalue, UInt64.ofNat_toNat]

/-! ### What has been read -/

/-- The reader when these bytes have come, and the payload behind the prefix. -/
def readerOf (bytes : Bytes) : PrefixReader × Bytes :=
  match Varint.decode bytes with
  | none => ({ pending := bytes, values := [] }, [])
  | some (streamType, rest) =>
    match Varint.decode rest with
    | none => ({ pending := rest, values := [UInt64.ofNat streamType] }, [])
    | some (sessionId, payload) =>
      ({ pending := [], values := [UInt64.ofNat streamType, UInt64.ofNat sessionId] }, payload)

/-- Both integers of the prefix, and what follows them. -/
def preface (bytes : Bytes) : Option (Nat × Nat × Bytes) := do
  let (streamType, rest) ← Varint.decode bytes
  let (sessionId, payload) ← Varint.decode rest
  return (streamType, sessionId, payload)

theorem preface_eq_some {bytes payload : Bytes} {streamType sessionId : Nat} :
    preface bytes = some (streamType, sessionId, payload) ↔ ∃ rest,
      Varint.decode bytes = some (streamType, rest) ∧
      Varint.decode rest = some (sessionId, payload) := by
  simp [preface, Option.bind_eq_some_iff]

theorem pushLoop_full {reader : PrefixReader} (h : 2 ≤ reader.values.length) (payload : Bytes) :
    pushLoop reader payload = ({ reader with pending := [] }, payload ++ reader.pending) := by
  rw [pushLoop, if_pos h]

/-- The loop stops at an integer that is not whole. -/
theorem pushLoop_none {reader : PrefixReader} (h : reader.values.length < 2)
    (hpending : Varint.decode reader.pending = none) (payload : Bytes) :
    pushLoop reader payload = (reader, payload) := by
  rw [pushLoop, if_neg (Nat.not_le.mpr h), readVarint_none hpending]

theorem pushLoop_some {reader : PrefixReader} (h : reader.values.length < 2) {v : Nat} {rest : Bytes}
    (hpending : Varint.decode reader.pending = some (v, rest)) (payload : Bytes) :
    pushLoop reader payload =
      pushLoop { pending := rest, values := reader.values ++ [UInt64.ofNat v] } payload := by
  obtain ⟨len, hread, hdrop⟩ := readVarint_some hpending
  rw [pushLoop, if_neg (Nat.not_le.mpr h), hread]
  simp only [hdrop]

theorem pushLoop_second (streamType : UInt64) (pending : Bytes) :
    pushLoop { pending, values := [streamType] } [] =
      match Varint.decode pending with
      | none => ({ pending, values := [streamType] }, [])
      | some (sessionId, payload) =>
        ({ pending := [], values := [streamType, UInt64.ofNat sessionId] }, payload) := by
  cases hdecode : Varint.decode pending with
  | none => exact pushLoop_none (by simp) hdecode []
  | some found =>
    rw [pushLoop_some (by simp) hdecode, pushLoop_full (by simp)]
    rfl

theorem pushLoop_first (pending : Bytes) :
    pushLoop { pending, values := [] } [] = readerOf pending := by
  rw [readerOf]
  cases hdecode : Varint.decode pending with
  | none => exact pushLoop_none (by simp) hdecode []
  | some found =>
    rw [pushLoop_some (by simp) hdecode]
    exact pushLoop_second _ _

/-- Where the chunks are cut does not matter to the reader. -/
theorem push_readerOf (bytes chunk : Bytes) :
    (readerOf bytes).1.push chunk (readerOf bytes).2 = readerOf (bytes ++ chunk) := by
  rw [readerOf]
  cases hfirst : Varint.decode bytes with
  | none => exact pushLoop_first _
  | some found =>
    obtain ⟨streamType, rest⟩ := found
    rw [readerOf, Varint.decode_append hfirst]
    cases hsecond : Varint.decode rest with
    | none =>
      simp only [hsecond]
      exact pushLoop_second _ _
    | some found =>
      simp only [hsecond, Varint.decode_append hsecond]
      exact pushLoop_full (by simp) _

theorem readerOf_of_none {bytes : Bytes} (h : preface bytes = none) :
    (readerOf bytes).1.values.length < 2 := by
  rw [readerOf]
  cases hfirst : Varint.decode bytes with
  | none => exact Nat.zero_lt_two
  | some found =>
    cases hsecond : Varint.decode found.2 with
    | none =>
      simp only [hsecond]
      exact Nat.one_lt_two
    | some found' =>
      have hwhole := preface_eq_some.mpr ⟨_, hfirst, hsecond⟩
      rw [h] at hwhole
      cases hwhole

theorem readerOf_of_some {bytes payload : Bytes} {streamType sessionId : Nat}
    (h : preface bytes = some (streamType, sessionId, payload)) : readerOf bytes =
      ({ pending := [], values := [UInt64.ofNat streamType, UInt64.ofNat sessionId] }, payload) := by
  obtain ⟨rest, hfirst, hsecond⟩ := preface_eq_some.mp h
  simp only [readerOf, hfirst, hsecond]

theorem preface_append {bytes payload : Bytes} {streamType sessionId : Nat}
    (h : preface bytes = some (streamType, sessionId, payload)) (more : Bytes) :
    preface (bytes ++ more) = some (streamType, sessionId, payload ++ more) := by
  obtain ⟨rest, hfirst, hsecond⟩ := preface_eq_some.mp h
  exact preface_eq_some.mpr
    ⟨rest ++ more, Varint.decode_append hfirst more, Varint.decode_append hsecond more⟩

/-- What is read of a stream before its echo, by whether its prefix is whole. -/
theorem readPrefix_readerOf : ∀ (chunks : List Bytes) (bytes : Bytes),
    match preface (bytes ++ chunks.flatten) with
    | none => readPrefix (readerOf bytes).1 (readerOf bytes).2 chunks = none
    | some (streamType, sessionId, payload) => ∃ firstPayload later,
      readPrefix (readerOf bytes).1 (readerOf bytes).2 chunks = some
        ({ pending := [], values := [UInt64.ofNat streamType, UInt64.ofNat sessionId] },
          firstPayload, later) ∧
      firstPayload ++ later.flatten = payload
  | chunks, bytes => by
    cases hbytes : preface bytes with
    | some found =>
      obtain ⟨streamType, sessionId, payload⟩ := found
      rw [preface_append hbytes, readerOf_of_some hbytes]
      refine ⟨payload, chunks, ?_, rfl⟩
      rw [readPrefix.eq_def]
      exact if_pos (Nat.le_refl 2)
    | none =>
      have hshort := Nat.not_le.mpr (readerOf_of_none hbytes)
      match chunks with
      | [] =>
        rw [List.flatten_nil, List.append_nil, hbytes]
        rw [readPrefix.eq_def, if_neg hshort]
      | chunk :: chunks =>
        have ih := readPrefix_readerOf chunks (bytes ++ chunk)
        rw [List.append_assoc, ← List.flatten_cons] at ih
        rw [readPrefix.eq_def, if_neg hshort]
        simp only [push_readerOf]
        exact ih

/-! ### What is echoed -/

theorem readPrefix_new (chunks : List Bytes) :
    match preface chunks.flatten with
    | none => readPrefix newPrefixReader [] chunks = none
    | some (streamType, sessionId, payload) => ∃ firstPayload later,
      readPrefix newPrefixReader [] chunks = some
        ({ pending := [], values := [UInt64.ofNat streamType, UInt64.ofNat sessionId] },
          firstPayload, later) ∧
      firstPayload ++ later.flatten = payload :=
  readPrefix_readerOf chunks []

/-- The later reads are written as they come, empty ones left out. -/
theorem echoBidiPayload_eq : ∀ chunks : List Bytes, ∃ writes : List Bytes,
    echoBidiPayload chunks = writes.map Act.writeAll ++ [.finish] ∧ writes.flatten = chunks.flatten
  | [] => ⟨[], rfl, rfl⟩
  | chunk :: chunks => by
    obtain ⟨writes, hacts, hbytes⟩ := echoBidiPayload_eq chunks
    rw [echoBidiPayload]
    cases hempty : chunk.isEmpty with
    | true =>
      rw [List.isEmpty_iff.mp hempty, List.flatten_cons, List.nil_append]
      exact ⟨writes, hacts, hbytes⟩
    | false =>
      refine ⟨chunk :: writes, ?_, ?_⟩
      · rw [if_neg Bool.false_ne_true, hacts, List.map_cons, List.cons_append]
      · rw [List.flatten_cons, hbytes, List.flatten_cons]

theorem foldl_append (chunks : List Bytes) : ∀ payload : Bytes,
    chunks.foldl (fun payload chunk => payload ++ chunk) payload = payload ++ chunks.flatten := by
  induction chunks with
  | nil => simp
  | cons chunk chunks ih =>
    intro payload
    rw [List.foldl_cons, ih, List.flatten_cons, List.append_assoc]

theorem toNat_ofNat {v : Nat} (h : v < 2 ^ 62) : (UInt64.ofNat v).toNat = v := by
  rw [UInt64.toNat_ofNat']
  exact Nat.mod_eq_of_lt (by omega)

theorem writeVarint_preface {sessionId : Nat} (h : sessionId < 2 ^ 62) :
    writeVarint (UInt64.ofNat sessionId) (writeVarint wtUniStreamType []) =
      Varint.encode 0x54 ++ Varint.encode sessionId := by
  have htoNat : (UInt64.ofNat sessionId).toNat = sessionId := toNat_ofNat h
  rw [writeVarint, TokioQuiche.writeVarint_eq _ _ (by rw [htoNat]; exact h), htoNat, writeVarint,
    TokioQuiche.writeVarint_eq _ _ (by decide), List.nil_append]
  rfl

theorem preface_lt {bytes payload : Bytes} {streamType sessionId : Nat}
    (h : preface bytes = some (streamType, sessionId, payload)) :
    (UInt64.ofNat streamType).toNat = streamType ∧ sessionId < 2 ^ 62 := by
  obtain ⟨rest, hfirst, hsecond⟩ := preface_eq_some.mp h
  exact ⟨toNat_ofNat (Varint.decode_lt hfirst), Varint.decode_lt hsecond⟩

theorem echoBidiStream_of_some {chunks : List Bytes} {payload : Bytes} {streamType sessionId : Nat}
    (h : preface chunks.flatten = some (streamType, sessionId, payload)) :
    (streamType = 0x41 → ∃ writes : List Bytes, echoBidiStream chunks =
      { acts := writes.map Act.writeAll ++ [.finish], result := .ok () } ∧ writes.flatten = payload) ∧
    (streamType ≠ 0x41 →
      echoBidiStream chunks = unexpectedType "bidi" (UInt64.ofNat streamType)) := by
  have hread := readPrefix_new chunks
  rw [h] at hread
  obtain ⟨firstPayload, later, hread, hpayload⟩ := hread
  have htype : UInt64.ofNat streamType = wtBidiStreamType ↔ streamType = 0x41 := by
    rw [← UInt64.toNat_inj, (preface_lt h).1]
    rfl
  rw [echoBidiStream, hread]
  refine ⟨fun heq => ?_, fun hne => if_pos (htype.not.mpr hne)⟩
  obtain ⟨writes, hacts, hbytes⟩ := echoBidiPayload_eq later
  simp only [List.getD_cons_zero, htype.mpr heq, ne_eq, not_true, if_false, hacts]
  cases hempty : firstPayload.isEmpty with
  | true =>
    refine ⟨writes, rfl, ?_⟩
    rw [hbytes, ← hpayload, List.isEmpty_iff.mp hempty, List.nil_append]
  | false =>
    refine ⟨firstPayload :: writes, rfl, ?_⟩
    rw [List.flatten_cons, hbytes, hpayload]

theorem echoUniStream_of_some {chunks : List Bytes} {payload : Bytes} {streamType sessionId : Nat}
    (h : preface chunks.flatten = some (streamType, sessionId, payload)) :
    (streamType = 0x54 → echoUniStream chunks =
      { acts := [.openUni, .writeAll (Varint.encode 0x54 ++ Varint.encode sessionId),
          .writeAll payload, .finish]
        result := .ok () }) ∧
    (streamType ≠ 0x54 →
      echoUniStream chunks = unexpectedType "uni" (UInt64.ofNat streamType)) := by
  have hread := readPrefix_new chunks
  rw [h] at hread
  obtain ⟨firstPayload, later, hread, hpayload⟩ := hread
  obtain ⟨htoNat, hlimit⟩ := preface_lt h
  have htype : UInt64.ofNat streamType = wtUniStreamType ↔ streamType = 0x54 := by
    rw [← UInt64.toNat_inj, htoNat]
    rfl
  rw [echoUniStream, hread]
  refine ⟨fun heq => ?_, fun hne => if_pos (htype.not.mpr hne)⟩
  simp only [List.getD_cons_zero, List.getD_cons_succ, htype.mpr heq, ne_eq, not_true, if_false,
    foldl_append, hpayload, writeVarint_preface hlimit]

/-- However a stream is cut, what is read and echoed of it depends on its bytes only. -/
theorem echo_of_chunks (chunks : List Bytes) :
    match preface chunks.flatten with
    | none => readPrefix newPrefixReader [] chunks = none ∧
      echoBidiStream chunks = endedEarly "bidi" ∧ echoUniStream chunks = endedEarly "uni"
    | some (streamType, sessionId, payload) =>
      (∃ reader firstPayload later,
        readPrefix newPrefixReader [] chunks = some (reader, firstPayload, later) ∧
        reader.values.map UInt64.toNat = [streamType, sessionId] ∧ reader.pending = [] ∧
        firstPayload ++ later.flatten = payload) ∧
      (streamType = 0x41 → ∃ writes : List Bytes, echoBidiStream chunks =
        { acts := writes.map Act.writeAll ++ [.finish], result := .ok () } ∧
        writes.flatten = payload) ∧
      (streamType ≠ 0x41 →
        echoBidiStream chunks = unexpectedType "bidi" (UInt64.ofNat streamType)) ∧
      (streamType = 0x54 → echoUniStream chunks =
        { acts := [.openUni, .writeAll (Varint.encode 0x54 ++ Varint.encode sessionId),
            .writeAll payload, .finish]
          result := .ok () }) ∧
      (streamType ≠ 0x54 →
        echoUniStream chunks = unexpectedType "uni" (UInt64.ofNat streamType)) := by
  have hread := readPrefix_new chunks
  cases h : preface chunks.flatten with
  | none =>
    rw [h] at hread
    exact ⟨hread, by rw [echoBidiStream, hread], by rw [echoUniStream, hread]⟩
  | some found =>
    obtain ⟨streamType, sessionId, payload⟩ := found
    rw [h] at hread
    obtain ⟨firstPayload, later, hread, hpayload⟩ := hread
    obtain ⟨htoNat, hlimit⟩ := preface_lt h
    have hid : (UInt64.ofNat sessionId).toNat = sessionId := toNat_ofNat hlimit
    refine ⟨⟨_, firstPayload, later, hread, ?_, rfl, hpayload⟩, ?_, ?_, ?_, ?_⟩
    · rw [List.map_cons, List.map_singleton, htoNat, hid]
    · exact (echoBidiStream_of_some h).1
    · exact (echoBidiStream_of_some h).2
    · exact (echoUniStream_of_some h).1
    · exact (echoUniStream_of_some h).2

end WebTransportEcho.Quinn
