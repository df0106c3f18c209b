import WebTransportEcho.Backend.Aioquic
import WebTransportEcho.Backend.TokioQuiche
import WebTransportEcho.Split

/-! Whether a `wt-available-protocols` value offers `quicast-wt-v0`, as the two backends test it on
    `/wt/auto`. The aioquic backend looks for a member of the list with that name; the tokio-quiche
    backend looks for the name anywhere in the value. They agree exactly where the name does not occur
    or stands alone somewhere: a value with a longer name, or with the name among the parameters of
    another, is answered with a protocol that it does not offer. -/

namespace WebTransportEcho.Backend
open Split

def quicastName : List Char := "quicast-wt-v0".toList

theorem quicastName_eq :
    quicastName = ['q', 'u', 'i', 'c', 'a', 's', 't', '-', 'w', 't', '-', 'v', '0'] := by
  decide

/-! ### What is offered -/

/-- A comma-separated member of the value. -/
def Member (value item : List Char) : Prop :=
  ',' ∉ item ∧ ∃ before after, value = before ++ item ++ after ∧ Opens ',' before ∧ Closes ',' after

/-- The member is this name, up to its parameters, the white space around it and then its quotes. -/
def Names (item name : List Char) : Prop :=
  ∃ lead leadQuotes trailQuotes trail parameters,
    item = lead ++ leadQuotes ++ name ++ trailQuotes ++ trail ++ parameters ∧
    (∀ c ∈ lead ++ trail, Aioquic.isSpace c = true) ∧ (∀ c ∈ leadQuotes ++ trailQuotes, c = '"') ∧
    Closes ';' parameters

def Offered (value : Bytes) : Prop := ∃ item, Member (Utf8.decode value) item ∧ Names item quicastName

/-- Before this the value may be cut, with nothing but white space and then quotes between. -/
def EndsSeparator (before : List Char) : Prop :=
  ∃ front spaces quotes, before = front ++ spaces ++ quotes ∧ Opens ',' front ∧
    (∀ c ∈ spaces, Aioquic.isSpace c = true) ∧ ∀ c ∈ quotes, c = '"'

/-- After quotes and then white space the value ends, or there is a comma or a semicolon. -/
def StartsSeparator (after : List Char) : Prop :=
  ∃ quotes spaces back, after = quotes ++ spaces ++ back ∧ (∀ c ∈ quotes, c = '"') ∧
    (∀ c ∈ spaces, Aioquic.isSpace c = true) ∧ (Closes ',' back ∨ Closes ';' back)

/-- The name occurs somewhere with separators on both sides. -/
def StandsAlone (value : List Char) : Prop :=
  ∃ before after, value = before ++ quicastName ++ after ∧ EndsSeparator before ∧ StartsSeparator after

/-! ### `available_protocols_contains` -/

theorem strip_eq (drop : Char → Bool) (item : List Char) : Aioquic.strip drop item = trim drop item := rfl

theorem trimmed_quotes : Trimmed (fun c => decide (c = '"')) quicastName := by
  rw [quicastName_eq]
  refine ⟨by simp, by simp, by simp⟩

/-- Quotes around the name, with no white space at the ends. -/
theorem trimmed_quoted {leadQuotes trailQuotes : List Char} (hlead : ∀ c ∈ leadQuotes, c = '"')
    (htrail : ∀ c ∈ trailQuotes, c = '"') :
    Trimmed Aioquic.isSpace (leadQuotes ++ quicastName ++ trailQuotes) := by
  have hquote : Aioquic.isSpace '"' = false := by decide
  rw [quicastName_eq]
  refine ⟨by simp, fun c hc => ?_, fun c hc => ?_⟩
  · cases leadQuotes with
    | nil =>
      have hhead : c = 'q' := by simpa using hc.symm
      rw [hhead]
      decide
    | cons q leadQuotes =>
      have hhead : q = c := by simpa using hc
      rw [← hhead, hlead q List.mem_cons_self, hquote]
  · rcases trailQuotes.eq_nil_or_concat' with rfl | ⟨quotes, q, rfl⟩
    · rw [List.append_nil, List.getLast?_append] at hc
      have hlast : c = '0' := by simpa using hc.symm
      rw [hlast]
      decide
    · rw [← List.append_assoc, List.getLast?_concat] at hc
      have hlast : q = c := Option.some.inj hc
      rw [← hlast, htrail q (by simp), hquote]

theorem strip_eq_iff {token : List Char} :
    Aioquic.strip (fun c => c = '"') (Aioquic.strip Aioquic.isSpace token) = quicastName ↔
      ∃ lead leadQuotes trailQuotes trail,
        token = lead ++ leadQuotes ++ quicastName ++ trailQuotes ++ trail ∧
        (∀ c ∈ lead ++ trail, Aioquic.isSpace c = true) ∧
        ∀ c ∈ leadQuotes ++ trailQuotes, c = '"' := by
  rw [strip_eq, trim_eq_iff trimmed_quotes]
  constructor
  · rintro ⟨leadQuotes, trailQuotes, heq, hlead, htrail⟩
    obtain ⟨lead, trail, htoken, hspaces, hspaces'⟩ := exists_trim Aioquic.isSpace token
    rw [strip_eq] at heq
    refine ⟨lead, leadQuotes, trailQuotes, trail, ?_, ?_, ?_⟩
    · rw [heq] at htoken
      simpa using htoken
    · exact List.forall_mem_append.mpr ⟨hspaces, hspaces'⟩
    · exact List.forall_mem_append.mpr
        ⟨fun c hc => of_decide_eq_true (hlead c hc), fun c hc => of_decide_eq_true (htrail c hc)⟩
  · rintro ⟨lead, leadQuotes, trailQuotes, trail, rfl, hspaces, hquotes⟩
    obtain ⟨hlead, htrail⟩ := List.forall_mem_append.mp hspaces
    obtain ⟨hleadQuotes, htrailQuotes⟩ := List.forall_mem_append.mp hquotes
    refine ⟨leadQuotes, trailQuotes, ?_, fun c hc => decide_eq_true (hleadQuotes c hc),
      fun c hc => decide_eq_true (htrailQuotes c hc)⟩
    rw [strip_eq, trim_eq_iff (trimmed_quoted hleadQuotes htrailQuotes)]
    exact ⟨lead, trail, by simp, hlead, htrail⟩

/-- A separator is none of what is dropped around the name. -/
theorem not_mem_token {c : Char} (hspace : Aioquic.isSpace c = false) (hquote : c ≠ '"')
    (hname : c ∉ quicastName) {lead leadQuotes trailQuotes trail : List Char}
    (hspaces : ∀ c ∈ lead ++ trail, Aioquic.isSpace c = true)
    (hquotes : ∀ c ∈ leadQuotes ++ trailQuotes, c = '"') :
    c ∉ lead ++ leadQuotes ++ quicastName ++ trailQuotes ++ trail := by
  intro hc
  simp only [List.mem_append] at hc hspaces hquotes
  rcases hc with (((hlead | hlead) | hin) | htrail) | htrail
  · exact absurd (hspaces c (Or.inl hlead)) (by simp [hspace])
  · exact hquote (hquotes c (Or.inl hlead))
  · exact hname hin
  · exact hquote (hquotes c (Or.inr htrail))
  · exact absurd (hspaces c (Or.inr htrail)) (by simp [hspace])

theorem separators_free : (',' ∉ quicastName ∧ Aioquic.isSpace ',' = false ∧ ',' ≠ '"') ∧
    ';' ∉ quicastName ∧ Aioquic.isSpace ';' = false ∧ ';' ≠ '"' := by
  rw [quicastName_eq]
  decide

theorem availableProtocolsContains_iff (value : Bytes) :
    Aioquic.availableProtocolsContains value Aioquic.quicastProtocol = true ↔ Offered value := by
  have hencode (token : List Char) :
      Utf8.encode token = Aioquic.quicastProtocol ↔ token = quicastName := by
    refine ⟨fun h => ?_, fun h => h ▸ rfl⟩
    rw [← Utf8.decode_encode token, h, Aioquic.quicastProtocol, literal, Utf8.decode_encode]
    rfl
  rw [Aioquic.availableProtocolsContains, List.any_eq_true]
  refine exists_congr fun item => and_congr mem_splitOn_iff ?_
  rw [decide_eq_true_eq, hencode, strip_eq_iff]
  constructor
  · rintro ⟨lead, leadQuotes, trailQuotes, trail, htoken, hspaces, hquotes⟩
    obtain ⟨-, parameters, hitem, hcloses⟩ := takeWhile_ne_eq_iff.mp htoken
    exact ⟨lead, leadQuotes, trailQuotes, trail, parameters, hitem, hspaces, hquotes, hcloses⟩
  · rintro ⟨lead, leadQuotes, trailQuotes, trail, parameters, hitem, hspaces, hquotes, hcloses⟩
    obtain ⟨-, hname, hspace, hquote⟩ := separators_free
    exact ⟨lead, leadQuotes, trailQuotes, trail, takeWhile_ne_eq_iff.mpr
      ⟨not_mem_token hspace hquote hname hspaces hquotes, parameters, hitem, hcloses⟩, hspaces, hquotes⟩

/-! ### Where the name stands -/

theorem offered_iff_standsAlone (value : Bytes) : Offered value ↔ StandsAlone (Utf8.decode value) := by
  constructor
  · rintro ⟨item, ⟨-, before, after, hvalue, hopens, hcloses⟩, lead, leadQuotes, trailQuotes, trail,
      parameters, rfl, hspaces, hquotes, hparameters⟩
    obtain ⟨hlead, htrail⟩ := List.forall_mem_append.mp hspaces
    obtain ⟨hleadQuotes, htrailQuotes⟩ := List.forall_mem_append.mp hquotes
    refine ⟨before ++ lead ++ leadQuotes, trailQuotes ++ trail ++ (parameters ++ after), ?_,
      ⟨before, lead, leadQuotes, rfl, hopens, hlead, hleadQuotes⟩,
      ⟨trailQuotes, trail, parameters ++ after, rfl, htrailQuotes, htrail, ?_⟩⟩
    · rw [hvalue]
      simp only [List.append_assoc]
    · rcases hparameters with rfl | ⟨back, rfl⟩
      · exact Or.inl hcloses
      · exact Or.inr (Or.inr ⟨back ++ after, rfl⟩)
  · rintro ⟨before, after, hvalue, ⟨front, lead, leadQuotes, rfl, hopens, hlead, hleadQuotes⟩,
      trailQuotes, trail, back, rfl, htrailQuotes, htrail, hback⟩
    have hspaces := List.forall_mem_append.mpr ⟨hlead, htrail⟩
    have hquotes := List.forall_mem_append.mpr ⟨hleadQuotes, htrailQuotes⟩
    obtain ⟨⟨hname, hspace, hquote⟩, -⟩ := separators_free
    have htoken := not_mem_token hspace hquote hname hspaces hquotes
    -- up to the next comma there is at most a list of parameters
    obtain ⟨parameters, rest, rfl, hcomma, hparameters, hcloses⟩ : ∃ parameters rest,
        back = parameters ++ rest ∧ ',' ∉ parameters ∧ Closes ';' parameters ∧ Closes ',' rest := by
      rcases hback with hcomma | rfl | ⟨back, rfl⟩
      · exact ⟨[], back, rfl, List.not_mem_nil, Or.inl rfl, hcomma⟩
      · exact ⟨[], [], rfl, List.not_mem_nil, Or.inl rfl, Or.inl rfl⟩
      · obtain ⟨hnot, rest, hrest, hcloses⟩ :=
          takeWhile_ne_eq_iff.mp (rfl : back.takeWhile (fun x => decide (x ≠ ',')) = _)
        refine ⟨';' :: _, rest, congrArg (';' :: ·) hrest, ?_, Or.inr ⟨_, rfl⟩, hcloses⟩
        exact List.not_mem_cons_of_ne_of_not_mem (by decide) hnot
    refine ⟨lead ++ leadQuotes ++ quicastName ++ trailQuotes ++ trail ++ parameters,
      ⟨?_, front, rest, ?_, hopens, hcloses⟩, lead, leadQuotes, trailQuotes, trail, parameters, rfl,
      hspaces, hquotes, hparameters⟩
    · rw [List.mem_append, not_or]
      exact ⟨htoken, hcomma⟩
    · rw [hvalue]
      simp only [List.append_assoc]

theorem toList_text (value : Bytes) : (text value).toList = Utf8.decode value := String.toList_ofList

theorem negotiates_iff (value : Bytes) :
    TokioQuiche.negotiates (text value) = true ↔ quicastName <:+: Utf8.decode value := by
  unfold TokioQuiche.negotiates quicastName
  rw [toList_text, decide_eq_true_iff]

/-! ### Answers on `/wt/auto` -/

def negotiated : Header := (literal "wt-protocol", literal "\"quicast-wt-v0\"")

theorem negotiated_notMem (value : Bytes) : negotiated ∉ [(literal ":status", value)] := by
  intro h
  have hname : literal "wt-protocol" = literal ":status" :=
    congrArg Prod.fst (List.mem_singleton.mp h)
  exact absurd hname (by decide)

theorem tokioQuiche_auto (request : TokioQuiche.RequestHeaders) :
    negotiated ∈ TokioQuiche.responseHeaders "/wt/auto" request 200 ↔
      request.wtAvailableProtocols.any TokioQuiche.negotiates = true := by
  cases hoffer : request.wtAvailableProtocols.any TokioQuiche.negotiates with
  | true =>
    have hin : negotiated ∈ TokioQuiche.protocolCapsuleInit := List.mem_cons_self
    simp [TokioQuiche.responseHeaders, hoffer, hin]
  | false =>
    simpa [TokioQuiche.responseHeaders, hoffer] using negotiated_notMem _

theorem aioquic_auto (headers : List Header) :
    negotiated ∈ Aioquic.responseHeaders "/wt/auto" headers ↔
      Aioquic.availableProtocolsContains
        ((Aioquic.headerMap headers (literal "wt-available-protocols")).getD [])
        Aioquic.quicastProtocol = true := by
  cases hoffer : Aioquic.availableProtocolsContains
      ((Aioquic.headerMap headers (literal "wt-available-protocols")).getD [])
      Aioquic.quicastProtocol with
  | true => simp [Aioquic.responseHeaders, hoffer, negotiated]
  | false => simpa [Aioquic.responseHeaders, hoffer] using negotiated_notMem _

/-- The backends take the value for the same, which is what it offers, and neither answers a
    request on `/wt/auto` with the protocol unless it is offered. -/
structure Negotiates (value : Bytes) : Prop where
  same : TokioQuiche.negotiates (text value) =
    Aioquic.availableProtocolsContains value Aioquic.quicastProtocol
  offered : TokioQuiche.negotiates (text value) = true ↔ Offered value
  tokioQuiche : ∀ request : TokioQuiche.RequestHeaders,
    request.wtAvailableProtocols = some (text value) →
    (negotiated ∈ TokioQuiche.responseHeaders "/wt/auto" request 200 ↔ Offered value)
  aioquic : ∀ headers : List Header,
    Aioquic.headerMap headers (literal "wt-available-protocols") = some value →
    (negotiated ∈ Aioquic.responseHeaders "/wt/auto" headers ↔ Offered value)

theorem negotiates_iff_standsAlone (value : Bytes) : Negotiates value ↔
    (quicastName <:+: Utf8.decode value → StandsAlone (Utf8.decode value)) := by
  have hwhole : StandsAlone (Utf8.decode value) → quicastName <:+: Utf8.decode value := by
    rintro ⟨before, after, hvalue, -⟩
    exact ⟨before, after, hvalue.symm⟩
  constructor
  · intro h hin
    exact (offered_iff_standsAlone value).mp (h.offered.mp ((negotiates_iff value).mpr hin))
  · intro h
    have hoffered : TokioQuiche.negotiates (text value) = true ↔ Offered value := by
      rw [negotiates_iff, offered_iff_standsAlone]
      exact ⟨h, hwhole⟩
    refine ⟨?_, hoffered, fun request hrequest => ?_, fun headers hheaders => ?_⟩
    · rw [Bool.eq_iff_iff, hoffered, availableProtocolsContains_iff]
    · rw [tokioQuiche_auto, hrequest, Option.any_some, hoffered]
    · rw [aioquic_auto, hheaders, Option.getD_some, availableProtocolsContains_iff]

/-- A longer name is taken for the protocol, by one backend. -/
theorem longerName_negotiated : ¬ Negotiates (literal "quicast-wt-v01") := by
  intro h
  have hsame := h.same
  have htokio : TokioQuiche.negotiates (text (literal "quicast-wt-v01")) = true := by decide
  have haioquic : Aioquic.availableProtocolsContains (literal "quicast-wt-v01")
      Aioquic.quicastProtocol = false := by decide
  rw [htokio, haioquic] at hsame
  cases hsame

end WebTransportEcho.Backend
