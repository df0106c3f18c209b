import WebTransportEcho.Utf8

/-! What the backends share: bytes and the texts in them, header lists, and stream ids. The two low
    bits of an id say who opened the stream and whether it has one direction or two. -/

namespace WebTransportEcho.Backend

abbrev Bytes := List UInt8

/-- A name and a value. -/
abbrev Header := Bytes × Bytes

/-- A literal of the source. -/
def literal (s : String) : Bytes := Utf8.encode s.toList

/-- `bytes.decode("utf8", "replace")` and `String::from_utf8_lossy(bytes)`. -/
def text (bytes : Bytes) : String := String.ofList (Utf8.decode bytes)

/-- `s.starts_with(start)`. -/
def startsWith (start s : String) : Bool := decide (start.toList <+: s.toList)

def isUnidirectional (streamId : Nat) : Bool := decide (streamId % 4 / 2 = 1)

def isServerInitiated (streamId : Nat) : Bool := decide (streamId % 2 = 1)

/-! ### Texts and their bytes -/

theorem text_literal (s : String) : text (literal s) = s := by
  rw [text, literal, Utf8.decode_encode, String.ofList_toList]

/-- Only its own bytes read as a literal without a replacement character. -/
theorem text_eq_iff {bytes : Bytes} {s : String} (h : Utf8.replacement ∉ s.toList) :
    text bytes = s ↔ bytes = literal s := by
  rw [text, literal, ← Utf8.decode_eq_iff h]
  refine ⟨fun htext => ?_, fun hdecode => ?_⟩
  · rw [← htext, String.toList_ofList]
  · rw [hdecode, String.ofList_toList]

theorem literal_text_iff {bytes : Bytes} : literal (text bytes) = bytes ↔ Utf8.Valid bytes := by
  rw [literal, text, String.toList_ofList, Utf8.valid_iff]

end WebTransportEcho.Backend
