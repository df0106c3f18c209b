import Mathlib.Data.List.Induction
import WebTransportEcho.Backend.Quic
import WebTransportEcho.Base64
import WebTransportEcho.Split

/-! The certificate and key files of the Quinn backend. A file is read line by line: a BEGIN line opens
    a section, the lines after it are its base64 text, and an END line closes it. An END line that does
    not fit is an error; a BEGIN line that is never closed is not, and its section is left out.

    The base64 decoder is that of the `base64` crate and not given here. -/

namespace WebTransportEcho.Quinn
open Backend Split

abbrev Text := List Char

/-! ### Lines -/

/-- `line.strip_suffix('\r').unwrap_or(line)`. -/
def stripReturn (line : Text) : Text := if line.getLast? = some '\r' then line.dropLast else line

/-- `text.lines()`: the last line need not be ended, and then keeps its carriage return. -/
def lines (text : Text) : List Text :=
  let pieces := text.splitOn '\n'
  let last := pieces.getLastD []
  pieces.dropLast.map stripReturn ++ (if last = [] then [] else [last])

def stripPrefix (start line : Text) : Option Text :=
  if start <+: line then some (line.drop start.length) else none

def stripSuffix (ending line : Text) : Option Text :=
  if ending <:+ line then some (line.take (line.length - ending.length)) else none

def dashes : Text := "-----".toList

def beginMark : Text := "-----BEGIN ".toList

def endMark : Text := "-----END ".toList

/-- The label of a BEGIN line. -/
def beginLabel (line : Text) : Option Text := (stripPrefix beginMark line).bind (stripSuffix dashes)

/-- The label of an END line. -/
def endLabel (line : Text) : Option Text := (stripPrefix endMark line).bind (stripSuffix dashes)

/-- What `str::trim` takes for white space. -/
def isWhitespace (c : Char) : Bool :=
  let n := c.toNat
  (9 ≤ n && n ≤ 13) || n = 0x20 || n = 0x85 || n = 0xA0 || n = 0x1680 || (0x2000 ≤ n && n ≤ 0x200A) ||
    n = 0x2028 || n = 0x2029 || n = 0x202F || n = 0x205F || n = 0x3000

/-! ### `pem_sections` -/

/-- A label and the bytes of its section. -/
abbrev Section := Text × Bytes

structure PemReader where
  sections : List Section
  currentLabel : Option Text
  currentBody : Text

def newPemReader : PemReader where
  sections := []
  currentLabel := none
  currentBody := []

section Sections

variable (decode : Text → Option Bytes) (path : String)

/-- An END line. -/
def PemReader.close (reader : PemReader) (label : Text) : Except String PemReader :=
  match reader.currentLabel with
  | none => .error ("END " ++ String.ofList label ++ " without matching BEGIN in " ++ path)
  | some start =>
    if start ≠ label then
      .error ("PEM section mismatch in " ++ path ++ ": BEGIN " ++ String.ofList start ++ ", END " ++
        String.ofList label)
    else
      match decode reader.currentBody with
      | none => .error ("base64 decoding " ++ String.ofList label ++ " in " ++ path)
      | some der =>
        .ok { sections := reader.sections ++ [(label, der)], currentLabel := none, currentBody := [] }

def PemReader.line (reader : PemReader) (line : Text) : Except String PemReader :=
  match beginLabel line with
  | some label => .ok { reader with currentLabel := some label, currentBody := [] }
  | none =>
    match endLabel line with
    | some label => reader.close decode path label
    | none =>
      if reader.currentLabel.isSome then
        .ok { reader with currentBody := reader.currentBody ++ trim isWhitespace line }
      else .ok reader

def readLines (reader : PemReader) (lines : List Text) : Except String PemReader :=
  lines.foldlM (PemReader.line decode path) reader

def pemSections (text : Text) : Except String (List Section) := do
  let reader ← readLines decode path newPemReader (lines text)
  return reader.sections

def isCertificate (s : Section) : Bool := decide (s.1 = "CERTIFICATE".toList)

def loadCerts (text : Text) : Except String (List Bytes) := do
  let sections ← pemSections decode path text
  let certs := (sections.filter isCertificate).map Prod.snd
  if certs.isEmpty then throw ("no CERTIFICATE sections found in " ++ path)
  return certs

def isPrivateKey (s : Section) : Bool :=
  decide (s.1 ∈ ["PRIVATE KEY".toList, "RSA PRIVATE KEY".toList, "EC PRIVATE KEY".toList])

/-- The bytes of the first key go to `PrivateKeyDer::try_from`. -/
def loadPrivateKey {κ : Type} (tryFrom : Bytes → Option κ) (text : Text) : Except String κ := do
  let sections ← pemSections decode path text
  match sections.find? isPrivateKey with
  | none => throw ("no private key section found in " ++ path)
  | some (_, der) =>
    match tryFrom der with
    | none => throw ("parsing private key from " ++ path)
    | some key => return key

end Sections

/-! ### Marker lines -/

theorem stripPrefix_eq_some {start line rest : Text} :
    stripPrefix start line = some rest ↔ line = start ++ rest := by
  unfold stripPrefix
  split_ifs with h
  · obtain ⟨back, rfl⟩ := h
    rw [List.drop_left, Option.some.injEq, List.append_cancel_left_eq]
  · refine ⟨fun heq => absurd heq (by simp), fun heq => absurd ⟨rest, heq.symm⟩ h⟩

theorem stripSuffix_eq_some {ending line rest : Text} :
    stripSuffix ending line = some rest ↔ line = rest ++ ending := by
  unfold stripSuffix
  split_ifs with h
  · obtain ⟨front, rfl⟩ := h
    rw [List.length_append, Nat.add_sub_cancel, List.take_left, Option.some.injEq,
      List.append_cancel_right_eq]
  · refine ⟨fun heq => absurd heq (by simp), fun heq => absurd ⟨rest, heq.symm⟩ h⟩

theorem beginLabel_eq_some {line label : Text} :
    beginLabel line = some label ↔ line = beginMark ++ (label ++ dashes) := by
  simp only [beginLabel, Option.bind_eq_some_iff, stripPrefix_eq_some, stripSuffix_eq_some,
    exists_eq_right]

theorem endLabel_eq_some {line label : Text} :
    endLabel line = some label ↔ line = endMark ++ (label ++ dashes) := by
  simp only [endLabel, Option.bind_eq_some_iff, stripPrefix_eq_some, stripSuffix_eq_some,
    exists_eq_right]

theorem beginLabel_of_endLabel {line label : Text} (h : endLabel line = some label) :
    beginLabel line = none := by
  rw [Option.eq_none_iff_forall_ne_some]
  intro label' h'
  rw [beginLabel_eq_some] at h'
  rw [endLabel_eq_some, h'] at h
  have hletter := congrArg (fun text => text[5]?) h
  rw [List.getElem?_append_left (by decide), List.getElem?_append_left (by decide)] at hletter
  exact absurd hletter (by decide)

/-- No marker line. -/
def Neutral (line : Text) : Prop := beginLabel line = none ∧ endLabel line = none

section Balance

variable {decode : Text → Option Bytes} {path : String}

/-- What a line that is no error does. -/
theorem line_cases {reader reader' : PemReader} {line : Text}
    (h : reader.line decode path line = .ok reader') :
    (∃ label, beginLabel line = some label ∧
      reader' = { reader with currentLabel := some label, currentBody := [] }) ∨
    (∃ label der, endLabel line = some label ∧ reader.currentLabel = some label ∧
      decode reader.currentBody = some der ∧
      reader' = { sections := reader.sections ++ [(label, der)], currentLabel := none, currentBody := [] }) ∨
    (Neutral line ∧ reader.currentLabel = none ∧ reader' = reader) ∨
    Neutral line ∧ reader.currentLabel.isSome = true ∧
      reader' = { reader with currentBody := reader.currentBody ++ trim isWhitespace line } := by
  unfold PemReader.line at h
  cases hbegin : beginLabel line with
  | some label =>
    rw [hbegin] at h
    exact Or.inl ⟨label, rfl, (Except.ok.inj h).symm⟩
  | none =>
    rw [hbegin] at h
    cases hend : endLabel line with
    | some label =>
      simp only [hend, PemReader.close] at h
      cases hlabel : reader.currentLabel with
      | none =>
        rw [hlabel] at h
        cases h
      | some start =>
        simp only [hlabel] at h
        split_ifs at h with hsame
        cases hdecode : decode reader.currentBody with
        | none =>
          rw [hdecode] at h
          cases h
        | some der =>
          rw [hdecode] at h
          have hstart : start = label := not_not.mp hsame
          exact Or.inr (Or.inl ⟨label, der, rfl, by rw [hstart], rfl, (Except.ok.inj h).symm⟩)
    | none =>
      simp only [hend] at h
      split_ifs at h with hopen
      · exact Or.inr (Or.inr (Or.inr ⟨⟨hbegin, hend⟩, hopen, (Except.ok.inj h).symm⟩))
      · exact Or.inr (Or.inr (Or.inl ⟨⟨hbegin, hend⟩, by simpa using hopen, (Except.ok.inj h).symm⟩))

theorem line_ok_iff {reader : PemReader} {line : Text} :
    (∃ reader', reader.line decode path line = .ok reader') ↔ ∀ label, endLabel line = some label →
      reader.currentLabel = some label ∧ (decode reader.currentBody).isSome = true := by
  constructor
  · rintro ⟨reader', h⟩ label hend
    rcases line_cases h with ⟨_, hbegin, -⟩ | ⟨label', der, hend', hlabel, hdecode, -⟩ |
      ⟨⟨-, hnone⟩, -⟩ | ⟨⟨-, hnone⟩, -⟩
    · rw [beginLabel_of_endLabel hend] at hbegin
      cases hbegin
    · rw [hend'] at hend
      obtain rfl := Option.some.inj hend
      exact ⟨hlabel, by rw [hdecode]; rfl⟩
    · rw [hnone] at hend
      cases hend
    · rw [hnone] at hend
      cases hend
  · intro h
    unfold PemReader.line
    cases beginLabel line with
    | some label => exact ⟨_, rfl⟩
    | none =>
      cases hend : endLabel line with
      | some label =>
        obtain ⟨hlabel, hdecode⟩ := h label hend
        obtain ⟨der, hder⟩ := Option.isSome_iff_exists.mp hdecode
        simp only [PemReader.close, hlabel, ne_eq, not_true, if_false, hder]
        exact ⟨_, rfl⟩
      | none =>
        simp only
        split_ifs
        · exact ⟨_, rfl⟩
        · exact ⟨_, rfl⟩

/-! ### Open sections -/

/-- The last marker line opens a section of this label, and this is its text so far. -/
def Open (ls : List Text) (label body : Text) : Prop :=
  ∃ front start after, ls = front ++ start :: after ∧ beginLabel start = some label ∧
    (∀ line ∈ after, Neutral line) ∧ body = after.flatMap (trim isWhitespace)

theorem open_snoc {ls : List Text} {line label body : Text} : Open (ls ++ [line]) label body ↔
    (beginLabel line = some label ∧ body = []) ∨
    (Neutral line ∧ ∃ before, Open ls label before ∧ body = before ++ trim isWhitespace line) := by
  constructor
  · rintro ⟨front, start, after, heq, hstart, hneutral, rfl⟩
    rcases after.eq_nil_or_concat' with rfl | ⟨after, last, rfl⟩
    · obtain ⟨-, hline⟩ := List.append_inj' heq rfl
      rw [List.singleton_inj.mp hline]
      exact Or.inl ⟨hstart, rfl⟩
    · rw [← List.cons_append, ← List.append_assoc] at heq
      obtain ⟨hls, hline⟩ := List.append_inj' heq rfl
      rw [List.singleton_inj.mp hline]
      refine Or.inr ⟨hneutral last (by simp), after.flatMap (trim isWhitespace),
        ⟨front, start, after, hls, hstart, fun l hl => hneutral l (by simp [hl]), rfl⟩, ?_⟩
      rw [List.flatMap_append, List.flatMap_singleton]
  · rintro (⟨hbegin, rfl⟩ | ⟨hneutral, before, ⟨front, start, after, rfl, hstart, hall, rfl⟩, rfl⟩)
    · exact ⟨ls, line, [], rfl, hbegin, by simp, rfl⟩
    · refine ⟨front, start, after ++ [line], by simp, hstart, ?_, ?_⟩
      · exact List.forall_mem_append.mpr ⟨hall, by simpa using hneutral⟩
      · rw [List.flatMap_append, List.flatMap_singleton]

theorem not_open_nil {label body : Text} : ¬ Open [] label body := by
  rintro ⟨front, start, after, heq, -⟩
  exact absurd heq (by simp)

/-- There is one at most. -/
theorem open_unique {ls : List Text} : ∀ {label body label' body' : Text}, Open ls label body →
    Open ls label' body' → body' = body ∧ label = label' := by
  induction ls using List.reverseRecOn with
  | nil => exact fun h => absurd h not_open_nil
  | append_singleton ls line ih =>
    intro label body label' body' h h'
    rw [open_snoc] at h h'
    rcases h with ⟨hbegin, rfl⟩ | ⟨hneutral, before, hopen, rfl⟩
    · rcases h' with ⟨hbegin', rfl⟩ | ⟨hneutral', -⟩
      · rw [hbegin, Option.some.injEq] at hbegin'
        exact ⟨rfl, hbegin'⟩
      · rw [hneutral'.1] at hbegin
        cases hbegin
    · rcases h' with ⟨hbegin', -⟩ | ⟨-, before', hopen', rfl⟩
      · rw [hneutral.1] at hbegin'
        cases hbegin'
      · obtain ⟨rfl, rfl⟩ := ih hopen hopen'
        exact ⟨rfl, rfl⟩

theorem readLines_snoc (reader : PemReader) (ls : List Text) (line : Text) :
    readLines decode path reader (ls ++ [line]) =
      (readLines decode path reader ls).bind fun reader => reader.line decode path line := by
  simp only [readLines, List.foldlM_append, List.foldlM_cons, List.foldlM_nil, bind_pure]
  rfl

/-- A reader that has come so far has the open section, if there is one. -/
theorem readLines_open {ls : List Text} : ∀ {reader : PemReader},
    readLines decode path newPemReader ls = .ok reader → ∀ {label body : Text},
    Open ls label body ↔ reader.currentLabel = some label ∧ reader.currentBody = body := by
  induction ls using List.reverseRecOn with
  | nil =>
    intro reader h label body
    rw [← Except.ok.inj h]
    simp [not_open_nil, newPemReader]
  | append_singleton ls line ih =>
    intro reader h label body
    rw [readLines_snoc] at h
    cases hbefore : readLines decode path newPemReader ls with
    | error e =>
      rw [hbefore] at h
      cases h
    | ok before =>
      rw [hbefore] at h
      rw [open_snoc]
      rcases line_cases h with ⟨label', hbegin, rfl⟩ | ⟨label', der, hend, -, -, rfl⟩ |
        ⟨hneutral, hnone, rfl⟩ | ⟨hneutral, hsome, rfl⟩
      · simp [hbegin, Neutral, eq_comm]
      · simp [beginLabel_of_endLabel hend, hend, Neutral]
      · simp [hneutral.1, ih hbefore, hnone]
      · simp only [hneutral.1, hneutral, true_and, ih hbefore]
        grind

/-- An END line that closes the section before it. -/
def Completes (decode : Text → Option Bytes) (before : List Text) (label : Text) : Prop :=
  ∃ body, Open before label body ∧ (decode body).isSome = true

/-- Some END line is not preceded by the BEGIN line of its label with base64 between. -/
def Unfit (decode : Text → Option Bytes) (ls : List Text) : Prop :=
  ∃ before line after label, ls = before ++ line :: after ∧ endLabel line = some label ∧
    ¬ Completes decode before label

theorem unfit_snoc {ls : List Text} {line : Text} : Unfit decode (ls ++ [line]) ↔
    Unfit decode ls ∨ ∃ label, endLabel line = some label ∧ ¬ Completes decode ls label := by
  constructor
  · rintro ⟨before, line', after, label, heq, hend, hnot⟩
    rcases after.eq_nil_or_concat' with rfl | ⟨after, last, rfl⟩
    · obtain ⟨rfl, hline⟩ := List.append_inj' heq rfl
      rw [List.singleton_inj.mp hline]
      exact Or.inr ⟨label, hend, hnot⟩
    · rw [← List.cons_append, ← List.append_assoc] at heq
      obtain ⟨rfl, -⟩ := List.append_inj' heq rfl
      exact Or.inl ⟨before, line', after, label, rfl, hend, hnot⟩
  · rintro (⟨before, line', after, label, rfl, hend, hnot⟩ | ⟨label, hend, hnot⟩)
    · exact ⟨before, line', after ++ [line], label, by simp, hend, hnot⟩
    · exact ⟨ls, line, [], label, rfl, hend, hnot⟩

theorem not_unfit_nil : ¬ Unfit decode [] := by
  rintro ⟨before, line, after, label, heq, -⟩
  exact absurd heq (by simp)

/-- Only END lines are refused, and exactly the unfit ones. -/
theorem readLines_ok_iff (path : String) (ls : List Text) :
    (∃ reader, readLines decode path newPemReader ls = .ok reader) ↔ ¬ Unfit decode ls := by
  induction ls using List.reverseRecOn with
  | nil => exact ⟨fun _ => not_unfit_nil, fun _ => ⟨_, rfl⟩⟩
  | append_singleton ls line ih =>
    rw [unfit_snoc, not_or, ← ih, readLines_snoc]
    constructor
    · rintro ⟨reader, h⟩
      cases hbefore : readLines decode path newPemReader ls with
      | error e =>
        rw [hbefore] at h
        cases h
      | ok before =>
        rw [hbefore] at h
        refine ⟨⟨before, rfl⟩, ?_⟩
        rintro ⟨label, hend, hnot⟩
        obtain ⟨hlabel, hdecode⟩ := line_ok_iff.mp ⟨reader, h⟩ label hend
        exact hnot ⟨_, (readLines_open hbefore).mpr ⟨hlabel, rfl⟩, hdecode⟩
    · rintro ⟨⟨before, hbefore⟩, hfit⟩
      rw [hbefore]
      refine line_ok_iff.mpr fun label hend => ?_
      by_contra hnot
      refine hfit ⟨label, hend, ?_⟩
      rintro ⟨body, hopen, hdecode⟩
      obtain ⟨hlabel, rfl⟩ := (readLines_open hbefore).mp hopen
      exact hnot ⟨hlabel, hdecode⟩

/-! ### Balance -/

/-- Every BEGIN line is followed by an END line of its label, before any other BEGIN line. -/
def Balanced (ls : List Text) : Prop :=
  ∀ before start after label, ls = before ++ start :: after → beginLabel start = some label →
    ∃ body line rest, after = body ++ line :: rest ∧ (∀ l ∈ body, beginLabel l = none) ∧
      endLabel line = some label

/-- After some BEGIN line the next marker line is another one, or there is none. -/
def Abandoned (ls : List Text) : Prop :=
  ∃ before start body rest, ls = before ++ start :: (body ++ rest) ∧
    (beginLabel start).isSome = true ∧ (∀ line ∈ body, Neutral line) ∧
    (rest = [] ∨ ∃ next more, rest = next :: more ∧ (beginLabel next).isSome = true)

instance : DecidablePred Neutral := fun line =>
  decidable_of_iff (beginLabel line = none ∧ endLabel line = none) Iff.rfl

/-- The lines up to the next marker line, and the rest. -/
theorem split_neutral (ls : List Text) : ∃ body rest, ls = body ++ rest ∧
    (∀ line ∈ body, Neutral line) ∧ (rest = [] ∨ ∃ next more, rest = next :: more ∧ ¬ Neutral next) := by
  induction ls with
  | nil => exact ⟨[], [], rfl, by simp, Or.inl rfl⟩
  | cons line ls ih =>
    by_cases h : Neutral line
    · obtain ⟨body, rest, rfl, hbody, hrest⟩ := ih
      exact ⟨line :: body, rest, rfl, List.forall_mem_cons.mpr ⟨h, hbody⟩, hrest⟩
    · exact ⟨[], line :: ls, rfl, by simp, Or.inr ⟨line, ls, rfl, h⟩⟩

/-- Where all END lines fit, a balanced text is one in which no section is abandoned. -/
theorem balanced_iff {ls : List Text} (h : ¬ Unfit decode ls) : Balanced ls ↔ ¬ Abandoned ls := by
  constructor
  · rintro hbalanced ⟨before, start, body, rest, rfl, hstart, hbody, hrest⟩
    obtain ⟨label, hlabel⟩ := Option.isSome_iff_exists.mp hstart
    obtain ⟨body', line, rest', heq, hbody', hend⟩ := hbalanced _ _ _ _ rfl hlabel
    have hmarker : line ∉ body := by
      intro hin
      rw [(hbody line hin).2] at hend
      cases hend
    rcases List.append_eq_append_iff.mp heq with ⟨more, rfl, htail⟩ | ⟨more, rfl, htail⟩
    · rcases hrest with rfl | ⟨next, others, rfl, hnext⟩
      · simp at htail
      · cases more with
        | nil =>
          obtain ⟨rfl, -⟩ := List.cons.inj htail
          rw [beginLabel_of_endLabel hend] at hnext
          cases hnext
        | cons first more =>
          obtain ⟨rfl, -⟩ := List.cons.inj htail
          rw [hbody' next (by simp)] at hnext
          cases hnext
    · cases more with
      | nil =>
        rcases hrest with rfl | ⟨next, others, rfl, hnext⟩
        · simp at htail
        · obtain ⟨rfl, -⟩ := List.cons.inj htail
          rw [beginLabel_of_endLabel hend] at hnext
          cases hnext
      | cons first more =>
        obtain ⟨rfl, -⟩ := List.cons.inj htail
        exact hmarker (by simp)
  · rintro hkept before start after label rfl hlabel
    obtain ⟨body, rest, rfl, hbody, hrest⟩ := split_neutral after
    have hstart : (beginLabel start).isSome = true := by rw [hlabel]; rfl
    rcases hrest with rfl | ⟨next, more, rfl, hnext⟩
    · exact absurd ⟨before, start, body, [], rfl, hstart, hbody, Or.inl rfl⟩ hkept
    · cases hbegin : beginLabel next with
      | some label' =>
        refine absurd ⟨before, start, body, next :: more, rfl, hstart, hbody,
          Or.inr ⟨next, more, rfl, ?_⟩⟩ hkept
        rw [hbegin]
        rfl
      | none =>
        obtain ⟨label', hend⟩ : ∃ label', endLabel next = some label' := by
          rw [← Option.ne_none_iff_exists']
          exact fun hnone => hnext ⟨hbegin, hnone⟩
        refine ⟨body, next, more, rfl, fun l hl => (hbody l hl).1, ?_⟩
        have hcompletes : Completes decode (before ++ start :: body) label' := by
          by_contra hnot
          exact h ⟨before ++ start :: body, next, more, label', by simp, hend, hnot⟩
        obtain ⟨text, hopen, -⟩ := hcompletes
        obtain ⟨-, rfl⟩ := open_unique hopen ⟨before, start, body, rfl, hlabel, hbody, rfl⟩
        exact hend

theorem pemSections_ok_iff {text : Text} :
    (∃ sections, pemSections decode path text = .ok sections) ↔ ¬ Unfit decode (lines text) := by
  rw [← readLines_ok_iff path]
  constructor
  · rintro ⟨sections, h⟩
    cases hread : readLines decode path newPemReader (lines text) with
    | error e =>
      rw [pemSections, hread] at h
      cases h
    | ok reader => exact ⟨reader, rfl⟩
  · rintro ⟨reader, h⟩
    exact ⟨reader.sections, by rw [pemSections, h]; rfl⟩

end Balance

/-- What is accepted is balanced exactly where no section is abandoned, unless the text is refused
    anyway. -/
theorem pemSections_balanced_iff (decode : Text → Option Bytes) (path : String) (text : Text) :
    ((∃ sections, pemSections decode path text = .ok sections) → Balanced (lines text)) ↔
      ¬ Abandoned (lines text) ∨ Unfit decode (lines text) := by
  rw [pemSections_ok_iff]
  by_cases h : Unfit decode (lines text)
  · exact ⟨fun _ => Or.inr h, fun _ hfit => absurd h hfit⟩
  · rw [← balanced_iff h]
    exact ⟨fun hbalanced => Or.inl (hbalanced h), fun hor _ => hor.resolve_right h⟩

/-- A chain that is cut off inside its second certificate. -/
def truncatedChain : Text :=
  ("-----BEGIN CERTIFICATE-----\nAA==\n-----END CERTIFICATE-----\n" ++
    "-----BEGIN CERTIFICATE-----\nAQ==\n").toList

/-- It is loaded, without that certificate. -/
theorem truncatedChain_loaded : loadCerts Base64.decode "fullchain.pem" truncatedChain = .ok [[0]] ∧
    ¬ ((∃ sections, pemSections Base64.decode "fullchain.pem" truncatedChain = .ok sections) →
      Balanced (lines truncatedChain)) := by
  have hsections : pemSections Base64.decode "fullchain.pem" truncatedChain =
    .ok [("CERTIFICATE".toList, [0])] := by rfl
  refine ⟨by rw [loadCerts, hsections]; rfl, fun h => ?_⟩
  have hfit := pemSections_ok_iff.mp ⟨_, hsections⟩
  refine (balanced_iff hfit).mp (h ⟨_, hsections⟩) ?_
  have hlines : lines truncatedChain = ["-----BEGIN CERTIFICATE-----".toList, "AA==".toList,
      "-----END CERTIFICATE-----".toList] ++
    "-----BEGIN CERTIFICATE-----".toList :: (["AQ==".toList] ++ []) := by decide
  exact ⟨_, _, _, _, hlines, by decide, by decide, Or.inl rfl⟩

end WebTransportEcho.Quinn
