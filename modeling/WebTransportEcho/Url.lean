import WebTransportEcho.Split
import Mathlib.Tactic.MkIffOfInductiveProp

/-! URL texts with a special scheme and an authority, as the basic URL parser of the URL standard reads
    them when there is no base URL: `http`, `https`, `ws`, `wss` and `ftp`. The host parser, with its
    IDNA tables, is a parameter. Then what becomes of a text when a path is put at its end: it goes
    to the path, the query or the fragment, whichever the text had last. -/

namespace Url
open Split

/-! ### Code points -/

def isC0OrSpace (c : Char) : Bool := decide (c.toNat ≤ 0x20)

def isTabOrNewline (c : Char) : Bool := c = '\t' || c = '\n' || c = '\r'

/-- A backslash is a slash in a special URL. -/
def isSlash (c : Char) : Bool := c = '/' || c = '\\'

def c0Set (c : Char) : Bool := decide (c.toNat ≤ 0x1F) || decide (0x7E < c.toNat)

def fragmentSet (c : Char) : Bool := c0Set c || [' ', '"', '<', '>', '\x60'].contains c

def querySet (c : Char) : Bool := c0Set c || [' ', '"', '#', '<', '>'].contains c

def specialQuerySet (c : Char) : Bool := querySet c || c = '\''

def pathSet (c : Char) : Bool := querySet c || ['?', '^', '\x60', '\x7b', '\x7d'].contains c

def userinfoSet (c : Char) : Bool :=
  pathSet c || ['/', ':', ';', '=', '@', '[', '\\', ']', '|'].contains c

def hexDigit (n : Nat) : Char := Char.ofNat (if n < 10 then 0x30 + n else 0x41 + (n - 10))

/-- UTF-8 percent-encode of one code point. -/
def percentEncodeChar (set : Char → Bool) (c : Char) : List Char :=
  if set c then
    (String.utf8EncodeChar c).flatMap fun b => ['%', hexDigit (b.toNat / 16), hexDigit (b.toNat % 16)]
  else [c]

def percentEncode (set : Char → Bool) (text : List Char) : List Char :=
  text.flatMap (percentEncodeChar set)

/-! ### Scheme -/

inductive Scheme where
  | http | https | ws | wss | ftp
  deriving DecidableEq

def Scheme.name : Scheme → List Char
  | .http => ['h', 't', 't', 'p']
  | .https => ['h', 't', 't', 'p', 's']
  | .ws => ['w', 's']
  | .wss => ['w', 's', 's']
  | .ftp => ['f', 't', 'p']

def Scheme.defaultPort : Scheme → Nat
  | .http => 80
  | .https => 443
  | .ws => 80
  | .wss => 443
  | .ftp => 21

def Scheme.ofName (name : List Char) : Option Scheme :=
  [Scheme.http, .https, .ws, .wss, .ftp].find? fun scheme =>
    decide (scheme.name = name.map Char.toLower)

/-- What comes before the first separator, and what comes after it when there is one. -/
def cutAt (sep : Char) : List Char → List Char × Option (List Char)
  | [] => ([], none)
  | c :: cs => if c = sep then ([], some cs) else (c :: (cutAt sep cs).1, (cutAt sep cs).2)

def isSchemeChar (c : Char) : Bool := c.isAlphanum || c = '+' || c = '-' || c = '.'

/-- The scheme's name and what follows its colon. -/
def cutScheme (text : List Char) : Option (List Char × List Char) :=
  match cutAt ':' text with
  | (name, some rest) =>
    if (name.head?.any Char.isAlpha && name.all isSchemeChar) = true then some (name, rest) else none
  | (_, none) => none

/-! ### Authority -/

abbrev HostParser := List Char → Option (List Char)

structure Authority where
  username : List Char
  password : List Char
  host : List Char
  port : Option Nat
  deriving DecidableEq

/-- The host goes up to a colon that is not in brackets; `inside` tells whether one is open. -/
def cutHost : Bool → List Char → List Char × Option (List Char)
  | _, [] => ([], none)
  | inside, c :: cs =>
    if c = ':' ∧ inside = false then ([], some cs)
    else
      let inside := if c = '[' then true else if c = ']' then false else inside
      (c :: (cutHost inside cs).1, (cutHost inside cs).2)

/-- An empty port is none, and so is the default port. -/
def readPort (scheme : Scheme) (digits : List Char) : Option (Option Nat) :=
  if (digits.all Char.isDigit) = false then none
  else if digits = [] then some none
  else
    let port := digits.foldl (fun n d => 10 * n + (d.toNat - '0'.toNat)) 0
    if 65535 < port then none
    else some (if port = scheme.defaultPort then none else some port)

/-- The credentials end at the last `@`. -/
def readAuthority (host : HostParser) (scheme : Scheme) (text : List Char) : Option Authority := do
  let hostPort := (text.reverse.takeWhile fun c => decide (c ≠ '@')).reverse
  let credentials := text.take (text.length - hostPort.length - 1)
  let (username, password) := cutAt ':' credentials
  let (hostText, digits) := cutHost false hostPort
  if hostText = [] then none
  else
    let parsed ← host hostText
    let port ← readPort scheme (digits.getD [])
    some {
      username := percentEncode userinfoSet username
      password := percentEncode userinfoSet (password.getD [])
      host := parsed
      port }

/-! ### Path -/

def dots : List (List Char) := [['.'], ['%', '2', 'e'], ['%', '2', 'E']]

def isSingleDot (segment : List Char) : Bool := dots.contains segment

def isDoubleDot (segment : List Char) : Bool :=
  (dots.flatMap fun first => dots.map fun second => first ++ second).contains segment

/-- A segment that ends at a slash. -/
def closeSegment (path : List (List Char)) (segment : List Char) : List (List Char) :=
  if isDoubleDot segment then path.dropLast
  else if isSingleDot segment then path
  else path ++ [segment]

/-- A segment that ends with the path. -/
def endSegment (path : List (List Char)) (segment : List Char) : List (List Char) :=
  if isDoubleDot segment then path.dropLast ++ [[]]
  else if isSingleDot segment then path ++ [[]]
  else path ++ [segment]

/-- The path state, with what it has of the path and of the current segment. -/
def pathState (path : List (List Char)) (buffer : List Char) : List Char → List (List Char)
  | [] => endSegment path buffer
  | c :: cs =>
    if isSlash c then pathState (closeSegment path buffer) [] cs
    else pathState path (buffer ++ percentEncodeChar pathSet c) cs

/-- The slash before the first segment is skipped. -/
def readPath (text : List Char) : List (List Char) := pathState [] [] (text.drop 1)

/-! ### The parser -/

/-- A URL record. -/
structure Record where
  scheme : Scheme
  authority : Authority
  path : List (List Char)
  query : Option (List Char)
  fragment : Option (List Char)
  deriving DecidableEq

/-- What follows the slashes after the scheme, cut where the parts begin. -/
structure Parts where
  authority : List Char
  path : List Char
  query : Option (List Char)
  fragment : Option (List Char)

def cutParts (rest : List Char) : Parts :=
  let main := cutAt '#' rest
  let front := cutAt '?' main.1
  { authority := front.1.takeWhile fun c => !isSlash c
    path := front.1.dropWhile fun c => !isSlash c
    query := front.2
    fragment := main.2 }

/-- The text without white space and controls around it, and without tabs and newlines in it. -/
def input (text : List Char) : List Char :=
  (trim isC0OrSpace text).filter fun c => !isTabOrNewline c

/-- The special scheme and the parts; nothing after the slashes is no host. -/
def front (text : List Char) : Option (Scheme × Parts) := do
  let (name, rest) ← cutScheme text
  let scheme ← Scheme.ofName name
  let rest := rest.dropWhile isSlash
  if rest = [] then none else some (scheme, cutParts rest)

def build (host : HostParser) (scheme : Scheme) (parts : Parts) : Option Record :=
  (readAuthority host scheme parts.authority).map fun authority =>
    { scheme, authority
      path := readPath parts.path
      query := parts.query.map (percentEncode specialQuerySet)
      fragment := parts.fragment.map (percentEncode fragmentSet) }

def parse (host : HostParser) (text : List Char) : Option Record :=
  (front (input text)).bind fun f => build host f.1 f.2

/-- The text has a special scheme. -/
def isSpecial (text : List Char) : Bool :=
  ((cutScheme (input text)).bind fun cut => Scheme.ofName cut.1).isSome

/-- The serialized origin. -/
def Record.origin (url : Record) : List Char :=
  url.scheme.name ++ [':', '/', '/'] ++ url.authority.host ++
    url.authority.port.elim [] fun port => ':' :: Nat.toDigits 10 port

/-! ### A path at the end -/

/-- A path keeps it as it is, it ends nothing but a segment, and no dot segment has it. -/
def isPlain (c : Char) : Bool :=
  !pathSet c && !isC0OrSpace c && !List.contains [':', '\\', '.', '%'] c

theorem isPlain_iff {c : Char} : isPlain c = true ↔
    (pathSet c = false ∧ isC0OrSpace c = false) ∧ [':', '\\', '.', '%'].contains c = false := by
  simp only [isPlain, Bool.and_eq_true, Bool.not_eq_true']

theorem ne_of_isPlain {c d : Char} (hc : isPlain c = true) (hd : isPlain d = false) : c ≠ d := by
  rintro rfl
  rw [hc] at hd
  cases hd

/-! #### The path -/

/-- The path that is had at the slash that follows a text. -/
def closedState (path : List (List Char)) (buffer : List Char) : List Char → List (List Char)
  | [] => closeSegment path buffer
  | c :: cs =>
    if isSlash c then closedState (closeSegment path buffer) [] cs
    else closedState path (buffer ++ percentEncodeChar pathSet c) cs

def closedPath : List Char → List (List Char)
  | [] => []
  | _ :: cs => closedState [] [] cs

theorem pathState_append (text added : List Char) : ∀ path buffer,
    pathState path buffer (text ++ '/' :: added) =
      pathState (closedState path buffer text) [] added := by
  induction text with
  | nil => exact fun _ _ => rfl
  | cons c cs ih =>
    intro path buffer
    rw [List.cons_append, pathState, closedState]
    cases isSlash c with
    | true => exact ih _ _
    | false => exact ih _ _

theorem readPath_append (text added : List Char) :
    readPath (text ++ '/' :: added) = pathState (closedPath text) [] added := by
  cases text with
  | nil => rfl
  | cons c cs => exact pathState_append cs added [] []

theorem plain_not_dots {segment : List Char} (h : ∀ c ∈ segment, isPlain c = true) :
    isSingleDot segment = false ∧ isDoubleDot segment = false := by
  have hdot : '.' ∉ segment := fun hc => absurd (h _ hc) (by decide)
  have hpercent : '%' ∉ segment := fun hc => absurd (h _ hc) (by decide)
  constructor
  · rw [isSingleDot, List.contains_eq_mem, decide_eq_false_iff_not]
    intro hin
    simp only [dots, List.mem_cons, List.not_mem_nil, or_false] at hin
    rcases hin with rfl | rfl | rfl
    · exact hdot List.mem_cons_self
    · exact hpercent List.mem_cons_self
    · exact hpercent List.mem_cons_self
  · rw [isDoubleDot, List.contains_eq_mem, decide_eq_false_iff_not]
    intro hin
    obtain ⟨first, hfirst, second, -, rfl⟩ := by simpa using hin
    simp only [dots, List.mem_cons, List.not_mem_nil, or_false] at hfirst
    rcases hfirst with rfl | rfl | rfl
    · exact hdot List.mem_cons_self
    · exact hpercent List.mem_cons_self
    · exact hpercent List.mem_cons_self

/-- A plain path is put behind what is there. -/
theorem pathState_plain (text : List Char) (htext : ∀ c ∈ text, isPlain c = true) :
    ∀ path buffer, (∀ c ∈ buffer, isPlain c = true) →
      pathState path buffer text = path ++ pathState [] buffer text := by
  induction text with
  | nil =>
    intro path buffer hbuffer
    obtain ⟨hsingle, hdouble⟩ := plain_not_dots hbuffer
    simp [pathState, endSegment, hsingle, hdouble]
  | cons c cs ih =>
    intro path buffer hbuffer
    obtain ⟨hc, hcs⟩ := List.forall_mem_cons.mp htext
    obtain ⟨hsingle, hdouble⟩ := plain_not_dots hbuffer
    rw [pathState, pathState]
    cases isSlash c with
    | true =>
      have hclose (path : List (List Char)) : closeSegment path buffer = path ++ [buffer] := by
        simp [closeSegment, hsingle, hdouble]
      simp only [if_true, hclose, List.nil_append]
      rw [ih hcs (path ++ [buffer]) [] (by simp), ih hcs [buffer] [] (by simp), List.append_assoc]
    | false =>
      rw [percentEncodeChar, (isPlain_iff.mp hc).1.1, if_neg Bool.false_ne_true]
      refine ih hcs path (buffer ++ [c]) ?_
      rw [List.forall_mem_append]
      exact ⟨hbuffer, by simpa using hc⟩

/-- Two texts have the same path with a plain one behind exactly when they have the same path at its
    first slash. -/
theorem readPath_append_inj {text text' added : List Char} (hadded : ∀ c ∈ added, isPlain c = true) :
    readPath (text ++ '/' :: added) = readPath (text' ++ '/' :: added) ↔
      closedPath text = closedPath text' := by
  rw [readPath_append, readPath_append, pathState_plain added hadded _ [] (by simp),
    pathState_plain added hadded (closedPath text') [] (by simp), List.append_left_inj]

/-! #### The parts -/

theorem cutAt_of_notMem {sep : Char} : ∀ {text : List Char}, sep ∉ text → cutAt sep text = (text, none)
  | [], _ => rfl
  | c :: cs, h => by
    rw [cutAt, if_neg (List.ne_of_not_mem_cons h).symm,
      cutAt_of_notMem (List.not_mem_of_not_mem_cons h)]

theorem cutAt_append {sep : Char} {added : List Char} (h : sep ∉ added) : ∀ text : List Char,
    cutAt sep (text ++ added) =
      ((cutAt sep text).2.elim ((cutAt sep text).1 ++ added) fun _ => (cutAt sep text).1,
        (cutAt sep text).2.map fun rest => rest ++ added)
  | [] => cutAt_of_notMem h
  | c :: cs => by
    rw [List.cons_append, cutAt, cutAt, cutAt_append h cs]
    by_cases hc : c = sep
    · simp [hc]
    · rw [if_neg hc, if_neg hc]
      cases (cutAt sep cs).2 <;> rfl

/-- A path put at the end goes to the last part that there is. -/
def Parts.add (parts : Parts) (path : List Char) : Parts :=
  match parts.fragment, parts.query with
  | some fragment, _ => { parts with fragment := some (fragment ++ path) }
  | none, some query => { parts with query := some (query ++ path) }
  | none, none => { parts with path := parts.path ++ path }

theorem cutParts_append {path : List Char} (hslash : path.head?.any isSlash = true) (hhash : '#' ∉ path)
    (hquestion : '?' ∉ path) (rest : List Char) :
    cutParts (rest ++ path) = (cutParts rest).add path := by
  obtain ⟨slash, tail, rfl⟩ : ∃ slash tail, path = slash :: tail := by
    cases path with
    | nil => cases hslash
    | cons slash tail => exact ⟨slash, tail, rfl⟩
  have hstop : (!isSlash slash) = false := by simpa using hslash
  have htake (front : List Char) : (front ++ slash :: tail).takeWhile (fun c => !isSlash c) =
      front.takeWhile fun c => !isSlash c := takeWhile_append_stop (by simpa using hstop) front
  have hdrop (front : List Char) : (front ++ slash :: tail).dropWhile (fun c => !isSlash c) =
      front.dropWhile (fun c => !isSlash c) ++ slash :: tail :=
    dropWhile_append_stop (by simpa using hstop) front
  rw [cutParts, cutAt_append hhash, cutParts]
  cases hmain : (cutAt '#' rest).2 with
  | some fragment => simp [Parts.add]
  | none =>
    simp only [Option.elim_none, Option.map_none, cutAt_append hquestion]
    cases hquery : (cutAt '?' (cutAt '#' rest).1).2 with
    | some query => simp [Parts.add]
    | none => simp [Parts.add, htake, hdrop]

/-! #### The whole text -/

/-- The text up to what is put at its end: only what is before it is trimmed. -/
def lead (text : List Char) : List Char :=
  (text.dropWhile isC0OrSpace).filter fun c => !isTabOrNewline c

theorem not_tab_of_isPlain {c : Char} (h : isPlain c = true) : isTabOrNewline c = false := by
  simp [isTabOrNewline, ne_of_isPlain h (show isPlain '\t' = false by decide),
    ne_of_isPlain h (show isPlain '\n' = false by decide),
    ne_of_isPlain h (show isPlain '\r' = false by decide)]

theorem input_append {path : List Char} (hne : path ≠ []) (hplain : ∀ c ∈ path, isPlain c = true)
    (text : List Char) : input (text ++ path) = lead text ++ path := by
  have hblank : ∀ c ∈ path, isC0OrSpace c = false := fun c hc => (isPlain_iff.mp (hplain c hc)).1.2
  have hkept : path.filter (fun c => !isTabOrNewline c) = path := by
    refine List.filter_eq_self.mpr fun c hc => ?_
    rw [not_tab_of_isPlain (hplain c hc)]
    rfl
  have hdrop : (text ++ path).dropWhile isC0OrSpace = text.dropWhile isC0OrSpace ++ path :=
    dropWhile_append_stop (fun c hc => hblank c (List.mem_of_mem_head? hc)) text
  have hend : (text.dropWhile isC0OrSpace ++ path).reverse.dropWhile isC0OrSpace =
      (text.dropWhile isC0OrSpace ++ path).reverse := by
    obtain ⟨c, cs, hcs⟩ := List.exists_cons_of_ne_nil (List.reverse_ne_nil_iff.mpr hne)
    have hc : c ∈ path := List.mem_reverse.mp (hcs ▸ List.mem_cons_self)
    rw [List.reverse_append, hcs, List.cons_append, List.dropWhile_cons_of_neg]
    simp [hblank c hc]
  rw [input, trim, hdrop, hend, List.reverse_reverse, List.filter_append, hkept, lead]

theorem lead_eq (text : List Char) : ∃ blanks, lead text = input text ++ blanks ∧
    ∀ c ∈ blanks, isC0OrSpace c = true := by
  let rest := (text.dropWhile isC0OrSpace).reverse
  have hrest : text.dropWhile isC0OrSpace =
      trim isC0OrSpace text ++ (rest.takeWhile isC0OrSpace).reverse := by
    rw [trim, ← List.reverse_append, List.takeWhile_append_dropWhile, List.reverse_reverse]
  refine ⟨(rest.takeWhile isC0OrSpace).reverse.filter fun c => !isTabOrNewline c, ?_, fun c hc => ?_⟩
  · rw [lead, hrest, List.filter_append, input]
  · exact List.mem_takeWhile_imp (List.mem_reverse.mp (List.mem_of_mem_filter hc))

theorem input_append_slash (text : List Char) : input (text ++ ['/']) = lead text ++ ['/'] :=
  input_append (List.cons_ne_nil _ _) (List.forall_mem_singleton.mpr (by decide)) text

/-- Nothing but slashes follows a special scheme. -/
def Bare (text : List Char) : Prop :=
  ∃ name rest, cutScheme text = some (name, rest) ∧ (Scheme.ofName name).isSome = true ∧
    ∀ c ∈ rest, isSlash c = true

theorem cutScheme_append {added : List Char} (h : ':' ∉ added) (text : List Char) :
    cutScheme (text ++ added) = (cutScheme text).map (Prod.map id fun rest => rest ++ added) := by
  rw [cutScheme, cutAt_append h, cutScheme]
  cases hcut : cutAt ':' text with
  | mk name rest =>
    cases rest with
    | none => rfl
    | some rest =>
      simp only [Option.elim_some, Option.map_some]
      split <;> rfl

theorem bare_append {added : List Char} (h : ':' ∉ added) (text : List Char) :
    Bare (text ++ added) ↔ Bare text ∧ ∀ c ∈ added, isSlash c = true := by
  rw [Bare, Bare, cutScheme_append h]
  constructor
  · rintro ⟨name, rest, hcut, hspecial, hslashes⟩
    obtain ⟨⟨name', rest'⟩, hcut', heq⟩ := Option.map_eq_some_iff.mp hcut
    obtain ⟨rfl, rfl⟩ := Prod.mk.inj heq
    rw [List.forall_mem_append] at hslashes
    exact ⟨⟨_, _, hcut', hspecial, hslashes.1⟩, hslashes.2⟩
  · rintro ⟨⟨name, rest, hcut, hspecial, hslashes⟩, hadded⟩
    rw [hcut]
    exact ⟨name, rest ++ added, rfl, hspecial, List.forall_mem_append.mpr ⟨hslashes, hadded⟩⟩

theorem not_bare_lead {text : List Char} (h : ¬ Bare (input text)) : ¬ Bare (lead text) := by
  obtain ⟨blanks, hlead, hblanks⟩ := lead_eq text
  have hcolon : ':' ∉ blanks := fun hc => absurd (hblanks _ hc) (by decide)
  rw [hlead, bare_append hcolon]
  exact fun hbare => h hbare.1

theorem not_bare_lead_of_slash {text : List Char} (h : ¬ Bare (input (text ++ ['/']))) :
    ¬ Bare (lead text) := by
  rw [input_append_slash, bare_append (by simp)] at h
  exact fun hbare => h ⟨hbare, by simp [isSlash]⟩

theorem front_eq {text name rest : List Char} {scheme : Scheme}
    (hcut : cutScheme text = some (name, rest)) (hscheme : Scheme.ofName name = some scheme) :
    front text = if rest.dropWhile isSlash = [] then none
      else some (scheme, cutParts (rest.dropWhile isSlash)) := by
  rw [front, hcut]
  change (Scheme.ofName name).bind _ = _
  rw [hscheme]
  rfl

theorem not_bare_of_parse {host : HostParser} {text : List Char} {url : Record}
    (h : parse host text = some url) : ¬ Bare (input text) := by
  rintro ⟨name, rest, hcut, hspecial, hslashes⟩
  obtain ⟨scheme, hscheme⟩ := Option.isSome_iff_exists.mp hspecial
  obtain ⟨f, hfront, -⟩ := Option.bind_eq_some_iff.mp h
  rw [front_eq hcut hscheme, if_pos (List.dropWhile_eq_nil_iff.mpr hslashes)] at hfront
  cases hfront

theorem front_append {path : List Char} (hslash : path.head?.any isSlash = true) (hhash : '#' ∉ path)
    (hquestion : '?' ∉ path) (hcolon : ':' ∉ path) {text : List Char} (h : ¬ Bare text) :
    front (text ++ path) = (front text).map (Prod.map id fun parts => parts.add path) := by
  have hcut' := cutScheme_append hcolon text
  cases hcut : cutScheme text with
  | none =>
    rw [hcut] at hcut'
    rw [front, hcut', front, hcut]
    rfl
  | some cut =>
    obtain ⟨name, rest⟩ := cut
    rw [hcut] at hcut'
    cases hscheme : Scheme.ofName name with
    | none =>
      rw [front, hcut', front, hcut]
      change (Scheme.ofName name).bind _ = ((Scheme.ofName name).bind _).map _
      rw [hscheme]
      rfl
    | some scheme =>
      have hrest : rest.dropWhile isSlash ≠ [] := fun hnil =>
        h ⟨name, rest, hcut, by rw [hscheme]; rfl, List.dropWhile_eq_nil_iff.mp hnil⟩
      have hdrop : (rest ++ path).dropWhile isSlash = rest.dropWhile isSlash ++ path := by
        rw [List.dropWhile_append, if_neg (by simpa using hrest)]
      rw [front_eq hcut hscheme, front_eq hcut' hscheme, hdrop, if_neg hrest,
        if_neg (by simp [hrest]), cutParts_append hslash hhash hquestion]
      rfl

/-! #### Two texts with the same path at the end -/

/-- The same path, query and fragment. A path that goes on is compared at the slash that follows. -/
@[mk_iff]
structure Parts.Agree (parts parts' : Parts) : Prop where
  path : if parts.query = none ∧ parts.fragment = none then
      closedPath parts.path = closedPath parts'.path
    else readPath parts.path = readPath parts'.path
  query : parts.query.map (percentEncode specialQuerySet) =
    parts'.query.map (percentEncode specialQuerySet)
  fragment : parts.fragment.map (percentEncode fragmentSet) =
    parts'.fragment.map (percentEncode fragmentSet)

/-- Both texts have the same scheme, credentials, host and port, and the same of the rest. -/
def SameFront (host : HostParser) (text text' : List Char) : Prop :=
  ∃ scheme parts parts' authority, front text = some (scheme, parts) ∧
    front text' = some (scheme, parts') ∧ readAuthority host scheme parts.authority = some authority ∧
    readAuthority host scheme parts'.authority = some authority ∧ parts.Agree parts'

theorem add_authority (parts : Parts) (path : List Char) :
    (parts.add path).authority = parts.authority := by
  unfold Parts.add
  split <;> rfl

theorem percentEncode_append_inj {set : Char → Bool} {text text' added : List Char} :
    percentEncode set (text ++ added) = percentEncode set (text' ++ added) ↔
      percentEncode set text = percentEncode set text' := by
  rw [percentEncode, percentEncode, List.flatMap_append, List.flatMap_append, List.append_left_inj,
    percentEncode, percentEncode]

theorem add_agree_iff {added : List Char} (hadded : ∀ c ∈ added, isPlain c = true)
    (parts parts' : Parts) :
    readPath (parts.add ('/' :: added)).path = readPath (parts'.add ('/' :: added)).path ∧
    (parts.add ('/' :: added)).query.map (percentEncode specialQuerySet) =
      (parts'.add ('/' :: added)).query.map (percentEncode specialQuerySet) ∧
    (parts.add ('/' :: added)).fragment.map (percentEncode fragmentSet) =
      (parts'.add ('/' :: added)).fragment.map (percentEncode fragmentSet) ↔ parts.Agree parts' := by
  rw [Parts.agree_iff]
  obtain ⟨authority, path, query, fragment⟩ := parts
  obtain ⟨authority', path', query', fragment'⟩ := parts'
  cases fragment with
  | some fragment =>
    cases fragment' with
    | some fragment' => simp [Parts.add, percentEncode_append_inj]
    | none => cases query' <;> simp [Parts.add]
  | none =>
    cases fragment' with
    | some fragment' => cases query <;> simp [Parts.add]
    | none =>
      cases query with
      | some query => cases query' <;> simp [Parts.add, percentEncode_append_inj]
      | none => cases query' <;> simp [Parts.add, readPath_append_inj hadded]

section Append

variable {host : HostParser} {added : List Char} (hadded : ∀ c ∈ added, isPlain c = true)

include hadded

theorem parse_append {text : List Char} (h : ¬ Bare (lead text)) :
    parse host (text ++ '/' :: added) =
      (front (lead text)).bind fun f => build host f.1 (f.2.add ('/' :: added)) := by
  have hplain : ∀ c ∈ '/' :: added, isPlain c = true :=
    List.forall_mem_cons.mpr ⟨by decide, hadded⟩
  have hout {c : Char} (hc : isPlain c = false) : c ∉ '/' :: added := fun hin => by
    rw [hplain c hin] at hc
    cases hc
  rw [parse, input_append (List.cons_ne_nil _ _) hplain, front_append rfl (hout (by decide))
    (hout (by decide)) (hout (by decide)) h]
  cases front (lead text) <;> rfl

/-- Two texts with the same plain path at their ends are one URL exactly when they agree in front. -/
theorem parse_append_agree {text text' : List Char} (h : ¬ Bare (lead text)) (h' : ¬ Bare (lead text')) :
    (∃ url, parse host (text ++ '/' :: added) = some url ∧
      parse host (text' ++ '/' :: added) = some url) ↔ SameFront host (lead text) (lead text') := by
  rw [parse_append hadded h, parse_append hadded h']
  constructor
  · rintro ⟨url, hurl, hurl'⟩
    obtain ⟨⟨scheme, parts⟩, hfront, hbuild⟩ := Option.bind_eq_some_iff.mp hurl
    obtain ⟨⟨scheme', parts'⟩, hfront', hbuild'⟩ := Option.bind_eq_some_iff.mp hurl'
    obtain ⟨authority, hauthority, rfl⟩ := Option.map_eq_some_iff.mp hbuild
    obtain ⟨authority', hauthority', heq⟩ := Option.map_eq_some_iff.mp hbuild'
    rw [Record.mk.injEq] at heq
    obtain ⟨rfl, rfl, hpath, hquery, hfragment⟩ := heq
    rw [add_authority] at hauthority hauthority'
    exact ⟨scheme', parts, parts', authority', hfront, hfront', hauthority, hauthority',
      (add_agree_iff hadded parts parts').mp ⟨hpath.symm, hquery.symm, hfragment.symm⟩⟩
  · rintro ⟨scheme, parts, parts', authority, hfront, hfront', hauthority, hauthority', hagree⟩
    obtain ⟨hpath, hquery, hfragment⟩ := (add_agree_iff hadded parts parts').mpr hagree
    rw [hfront, hfront', Option.bind_some, Option.bind_some, build, build, add_authority, add_authority,
      hauthority, hauthority', hpath, hquery, hfragment]
    exact ⟨_, rfl, rfl⟩

end Append

/-! #### A text without a host -/

/-- A plain text has a segment more than it has slashes. -/
theorem length_pathState (text : List Char) (htext : ∀ c ∈ text, isPlain c = true) :
    ∀ path buffer, (∀ c ∈ buffer, isPlain c = true) →
      (pathState path buffer text).length = path.length + 1 + text.countP isSlash := by
  induction text with
  | nil =>
    intro path buffer hbuffer
    obtain ⟨hsingle, hdouble⟩ := plain_not_dots hbuffer
    simp [pathState, endSegment, hsingle, hdouble]
  | cons c cs ih =>
    intro path buffer hbuffer
    obtain ⟨hc, hcs⟩ := List.forall_mem_cons.mp htext
    obtain ⟨hsingle, hdouble⟩ := plain_not_dots hbuffer
    rw [pathState, List.countP_cons]
    cases isSlash c with
    | true =>
      have hclose : closeSegment path buffer = path ++ [buffer] := by
        simp [closeSegment, hsingle, hdouble]
      rw [if_pos rfl, if_pos rfl, hclose, ih hcs _ [] (by simp), List.length_append,
        List.length_singleton]
      omega
    | false =>
      rw [if_neg Bool.false_ne_true, if_neg Bool.false_ne_true, percentEncodeChar,
        (isPlain_iff.mp hc).1.1, if_neg Bool.false_ne_true, Nat.add_zero]
      refine ih hcs path (buffer ++ [c]) ?_
      rw [List.forall_mem_append]
      exact ⟨hbuffer, by simpa using hc⟩

/-- Without a slash it is one segment. -/
theorem pathState_segment (text : List Char) (htext : ∀ c ∈ text, isPlain c = true)
    (hslash : text.countP isSlash = 0) : ∀ path buffer, (∀ c ∈ buffer, isPlain c = true) →
      pathState path buffer text = path ++ [buffer ++ text] := by
  induction text with
  | nil =>
    intro path buffer hbuffer
    obtain ⟨hsingle, hdouble⟩ := plain_not_dots hbuffer
    simp [pathState, endSegment, hsingle, hdouble]
  | cons c cs ih =>
    intro path buffer hbuffer
    obtain ⟨hc, hcs⟩ := List.forall_mem_cons.mp htext
    have hnone : isSlash c = false := by
      simpa using List.countP_eq_zero.mp hslash c List.mem_cons_self
    rw [List.countP_cons, hnone, if_neg Bool.false_ne_true, Nat.add_zero] at hslash
    rw [pathState, hnone, if_neg Bool.false_ne_true, percentEncodeChar, (isPlain_iff.mp hc).1.1,
      if_neg Bool.false_ne_true, ih hcs hslash path (buffer ++ [c])]
    · rw [List.append_assoc, List.singleton_append]
    · rw [List.forall_mem_append]
      exact ⟨hbuffer, by simpa using hc⟩

/-- Behind a scheme alone a plain path gives its first segment to the host. -/
theorem front_bare {text added : List Char} (hadded : ∀ c ∈ added, isPlain c = true)
    (h : Bare (lead text)) : ∀ f, front (input (text ++ '/' :: added)) = some f →
      ∃ host rest, added.dropWhile isSlash = host ++ rest ∧ host ≠ [] ∧
        (∀ c ∈ host, isSlash c = false) ∧ (∀ c ∈ rest.head?, isSlash c = true) ∧
        f.2 = { authority := host, path := rest, query := none, fragment := none } := by
  intro f hf
  obtain ⟨name, slashes, hcut, hspecial, hslashes⟩ := h
  obtain ⟨scheme, hscheme⟩ := Option.isSome_iff_exists.mp hspecial
  have hplain : ∀ c ∈ '/' :: added, isPlain c = true :=
    List.forall_mem_cons.mpr ⟨by decide, hadded⟩
  have hcolon : ':' ∉ '/' :: added := fun hin => absurd (hplain _ hin) (by decide)
  have hcut' := cutScheme_append hcolon (lead text)
  rw [hcut] at hcut'
  have hdrop : (slashes ++ '/' :: added).dropWhile isSlash = added.dropWhile isSlash := by
    rw [List.dropWhile_append, if_pos (by simpa using hslashes), List.dropWhile_cons_of_pos (by decide)]
  rw [input_append (List.cons_ne_nil _ _) hplain, front_eq hcut' hscheme, hdrop] at hf
  split_ifs at hf with hnil
  cases hf
  obtain ⟨c, cs, hcs⟩ := List.exists_cons_of_ne_nil hnil
  have hkept : ∀ d ∈ added.dropWhile isSlash, isPlain d = true :=
    fun d hd => hadded d ((List.dropWhile_suffix _).subset hd)
  have hout {d : Char} (hd : isPlain d = false) : d ∉ added.dropWhile isSlash := fun hin => by
    rw [hkept d hin] at hd
    cases hd
  have hfirst : isSlash c = false := by
    have hhead := List.head?_dropWhile_not isSlash added
    simpa [hcs] using hhead
  refine ⟨(added.dropWhile isSlash).takeWhile fun c => !isSlash c,
    (added.dropWhile isSlash).dropWhile fun c => !isSlash c, List.takeWhile_append_dropWhile.symm, ?_,
    fun d hd => ?_, fun d hd => ?_, ?_⟩
  · rw [hcs, List.takeWhile_cons_of_pos (by simpa using hfirst)]
    exact List.cons_ne_nil _ _
  · simpa using List.mem_takeWhile_imp hd
  · have hhead := List.head?_dropWhile_not (fun c => !isSlash c) (added.dropWhile isSlash)
    rw [Option.mem_def.mp hd] at hhead
    simpa using hhead
  · rw [cutParts, cutAt_of_notMem (hout (by decide)), cutAt_of_notMem (hout (by decide))]

/-- A scheme alone opens no path where a text with a host does. -/
theorem not_parse_bare {host : HostParser} {text text' added : List Char}
    (hadded : ∀ c ∈ added, isPlain c = true) (h : Bare (lead text)) (h' : ¬ Bare (lead text')) :
    ¬ ∃ url, parse host (text ++ '/' :: added) = some url ∧
      parse host (text' ++ '/' :: added) = some url := by
  rintro ⟨url, hurl, hurl'⟩
  obtain ⟨f, hfront, hbuild⟩ := Option.bind_eq_some_iff.mp hurl
  obtain ⟨name, rest, hrest, hname, hnoslash, hhead, hparts⟩ := front_bare hadded h f hfront
  obtain ⟨authority, -, rfl⟩ := Option.map_eq_some_iff.mp hbuild
  rw [parse_append hadded h'] at hurl'
  obtain ⟨⟨scheme', parts'⟩, -, hbuild'⟩ := Option.bind_eq_some_iff.mp hurl'
  obtain ⟨authority', -, heq⟩ := Option.map_eq_some_iff.mp hbuild'
  rw [Record.mk.injEq, hparts] at heq
  obtain ⟨-, -, hpath, hquery, hfragment⟩ := heq
  -- the configured text has neither a query nor a fragment, so the path went to its path
  have hpath : readPath (parts'.path ++ '/' :: added) = readPath rest := by
    obtain ⟨authority'', path', query', fragment'⟩ := parts'
    cases fragment' with
    | some fragment' => simp [Parts.add] at hfragment
    | none =>
      cases query' with
      | some query' => simp [Parts.add] at hquery
      | none => exact hpath
  rw [readPath_append, pathState_plain added hadded _ [] (by simp)] at hpath
  have hlength := congrArg List.length hpath
  rw [List.length_append, length_pathState added hadded [] [] (by simp), List.length_nil] at hlength
  have hsplit : (added.dropWhile isSlash).countP isSlash = rest.countP isSlash := by
    rw [hrest, List.countP_append, List.countP_eq_zero.mpr (by simpa using hnoslash), Nat.zero_add]
  have hfewer : rest.countP isSlash ≤ added.countP isSlash :=
    hsplit ▸ (List.dropWhile_suffix _).sublist.countP_le
  cases rest with
  | nil =>
    rw [readPath, List.drop_nil, pathState, show endSegment [] [] = [[]] from rfl,
      List.length_singleton] at hlength
    have hnone : added.countP isSlash = 0 := by omega
    rw [pathState_segment added hadded hnone [] [] (by simp)] at hpath
    have hnil : closedPath parts'.path = [] := List.length_eq_zero_iff.mp (by omega)
    rw [hnil, readPath, List.drop_nil, pathState, show endSegment [] [] = [[]] from rfl] at hpath
    have hempty : added = [] := by simpa using hpath
    rw [hempty, List.append_nil] at hrest
    exact hname hrest.symm
  | cons c cs =>
    have hplain : ∀ d ∈ cs, isPlain d = true := fun d hd =>
      hadded d ((List.dropWhile_suffix isSlash).subset (by simp [hrest, hd]))
    have hslash : isSlash c = true := hhead c rfl
    rw [readPath, List.drop_one, List.tail_cons, length_pathState cs hplain [] [] (by simp),
      List.length_nil] at hlength
    rw [List.countP_cons, hslash, if_pos rfl] at hfewer
    omega

theorem not_sameFront_bare {host : HostParser} {text text' : List Char} (h : Bare text) :
    ¬ SameFront host text text' := by
  rintro ⟨scheme, parts, -, -, hfront, -⟩
  obtain ⟨name, rest, hcut, hspecial, hslashes⟩ := h
  obtain ⟨scheme', hscheme⟩ := Option.isSome_iff_exists.mp hspecial
  rw [front_eq hcut hscheme, if_pos (List.dropWhile_eq_nil_iff.mpr hslashes)] at hfront
  cases hfront

/-- The first text may be anything. -/
theorem parse_append_iff {host : HostParser} {text text' added : List Char}
    (hadded : ∀ c ∈ added, isPlain c = true) (h' : ¬ Bare (lead text')) :
    (∃ url, parse host (text ++ '/' :: added) = some url ∧
      parse host (text' ++ '/' :: added) = some url) ↔ SameFront host (lead text) (lead text') := by
  by_cases h : Bare (lead text)
  · exact iff_of_false (not_parse_bare hadded h h') (not_sameFront_bare h)
  · exact parse_append_agree hadded h h'

/-! ### A host and a port -/

theorem cutAt_front {sep : Char} (text : List Char) : ∀ {front : List Char}, sep ∉ front →
    cutAt sep (front ++ text) = (front ++ (cutAt sep text).1, (cutAt sep text).2)
  | [], _ => rfl
  | c :: cs, h => by
    rw [List.cons_append, cutAt, if_neg (List.ne_of_not_mem_cons h).symm,
      cutAt_front text (List.not_mem_of_not_mem_cons h)]
    rfl

/-- A character of a host's name or of a port. -/
def isNameChar (c : Char) : Bool := c.isAlphanum || c = '.' || c = '-'

theorem isNameChar_bounds {c : Char} (h : isNameChar c = true) : 0x2D ≤ c.toNat ∧ c.toNat ≤ 0x7A := by
  simp only [isNameChar, Bool.or_eq_true, decide_eq_true_eq] at h
  rcases h with (h | rfl) | rfl
  · have hranges : ((decide (c.val ≥ 'A'.val ∧ c.val ≤ 'Z'.val) ||
        decide (c.val ≥ 'a'.val) && decide (c.val ≤ 'z'.val)) || c.isDigit) = true := h
    simp only [Bool.or_eq_true, Bool.and_eq_true, decide_eq_true_eq, ge_iff_le,
      UInt32.le_iff_toNat_le, Char.isDigit_iff_toNat] at hranges
    rw [Char.toNat]
    rcases hranges with (⟨hle, hge⟩ | ⟨hle, hge⟩) | ⟨hle, hge⟩
    · exact ⟨le_trans (by decide) hle, le_trans hge (by decide)⟩
    · exact ⟨le_trans (by decide) hle, le_trans hge (by decide)⟩
    · exact ⟨le_trans (by decide) hle, le_trans hge (by decide)⟩
  · decide
  · decide

theorem not_blank_of_isNameChar {c : Char} (h : isNameChar c = true) : isC0OrSpace c = false := by
  have := isNameChar_bounds h
  rw [isC0OrSpace, decide_eq_false_iff_not]
  omega

/-- What is kept of a text behind a front that is kept. -/
def behind (text : List Char) : List Char :=
  (text.reverse.dropWhile isC0OrSpace).reverse.filter fun c => !isTabOrNewline c

theorem input_front {front : List Char} (hblank : ∀ c ∈ front, isC0OrSpace c = false) (hne : front ≠ [])
    (text : List Char) : input (front ++ '/' :: text) = front ++ '/' :: behind text := by
  have htab : ∀ c ∈ front, (!isTabOrNewline c) = true := by
    intro c hc
    have hc := hblank c hc
    simp only [isC0OrSpace, decide_eq_false_iff_not] at hc
    simp only [isTabOrNewline, Bool.not_eq_true', Bool.or_eq_false_iff, decide_eq_false_iff_not]
    refine ⟨⟨?_, ?_⟩, ?_⟩ <;> · rintro rfl; exact hc (by decide)
  obtain ⟨c, cs, rfl⟩ := List.exists_cons_of_ne_nil hne
  have hdrop : (c :: cs ++ '/' :: text).dropWhile isC0OrSpace = c :: cs ++ '/' :: text := by
    rw [List.cons_append, List.dropWhile_cons_of_neg]
    simp [hblank c List.mem_cons_self]
  have hend : ((c :: cs ++ '/' :: text).reverse.dropWhile isC0OrSpace).reverse =
      c :: cs ++ '/' :: (text.reverse.dropWhile isC0OrSpace).reverse := by
    rw [List.reverse_append, List.reverse_cons, List.append_assoc, List.singleton_append,
      dropWhile_append_stop (by rintro d ⟨⟩; decide), List.reverse_append, List.reverse_cons,
      List.reverse_reverse, List.append_assoc, List.singleton_append]
  rw [input, trim, hdrop, hend, List.filter_append, List.filter_eq_self.mpr htab, List.filter_cons,
    if_pos (by decide), behind]

theorem cutHost_name (digits : List Char) : ∀ {name : List Char}, (∀ c ∈ name, isNameChar c = true) →
    cutHost false (name ++ ':' :: digits) = (name, some digits)
  | [], _ => rfl
  | c :: cs, h => by
    have hc := h c List.mem_cons_self
    have hne {d : Char} (hd : isNameChar d = false) : c ≠ d := by
      rintro rfl
      rw [hc] at hd
      cases hd
    have ih : cutHost false (cs ++ ':' :: digits) = (cs, some digits) :=
      cutHost_name digits fun d hd => h d (List.mem_cons_of_mem _ hd)
    rw [List.cons_append, cutHost, if_neg fun h => hne (by decide) h.1, if_neg (hne (by decide)),
      if_neg (hne (by decide))]
    simp only [ih]

def https : List Char := Scheme.https.name ++ [':', '/', '/']

/-- The path, the query and the fragment are read of what stands behind the port. -/
theorem parse_hostPort (text : List Char) : ∃ path query fragment, ∀ (host : HostParser)
    {name digits parsed : List Char} {port : Option Nat}, name ≠ [] →
    (∀ c ∈ name, isNameChar c = true) → (∀ c ∈ digits, isNameChar c = true) →
    host name = some parsed → readPort .https digits = some port →
    parse host (https ++ (name ++ ':' :: digits) ++ '/' :: text) =
      some { scheme := .https, authority := { username := [], password := [], host := parsed, port },
             path, query, fragment } := by
  let main := cutAt '#' ('/' :: behind text)
  refine ⟨readPath (cutAt '?' main.1).1, (cutAt '?' main.1).2.map (percentEncode specialQuerySet),
    main.2.map (percentEncode fragmentSet), ?_⟩
  intro host name digits parsed port hne hname hdigits hparsed hport
  let authority := name ++ ':' :: digits
  have hchar {d : Char} (hd : isNameChar d = false) (hcolon : d ≠ ':') : d ∉ authority := by
    intro hmem
    rcases List.mem_append.mp hmem with hmem | hmem
    · rw [hname d hmem] at hd
      cases hd
    · rcases List.mem_cons.mp hmem with heq | hmem
      · exact hcolon heq
      · rw [hdigits d hmem] at hd
        cases hd
  have hslash : ∀ c ∈ authority, (!isSlash c) = true := by
    intro c hc
    simp only [isSlash, Bool.not_eq_true', Bool.or_eq_false_iff, decide_eq_false_iff_not]
    refine ⟨?_, ?_⟩ <;> · rintro rfl; exact hchar (by decide) (by decide) hc
  have hblank : ∀ c ∈ https ++ authority, isC0OrSpace c = false := by
    intro c hc
    rcases List.mem_append.mp hc with hc | hc
    · have hscheme : ∀ c ∈ https, isC0OrSpace c = false := by
        simp [https, Scheme.name, isC0OrSpace]
      exact hscheme c hc
    · rcases List.mem_append.mp hc with hc | hc
      · exact not_blank_of_isNameChar (hname c hc)
      · rcases List.mem_cons.mp hc with rfl | hc
        · decide
        · exact not_blank_of_isNameChar (hdigits c hc)
  have hparts : cutParts (authority ++ '/' :: behind text) =
      { authority, path := (cutAt '?' main.1).1, query := (cutAt '?' main.1).2, fragment := main.2 } := by
    have hmain : main.1 = '/' :: (cutAt '#' (behind text)).1 := rfl
    have hfront : (cutAt '?' main.1).1 = '/' :: (cutAt '?' (cutAt '#' (behind text)).1).1 := rfl
    have hstop : ∀ c ∈ (cutAt '?' main.1).1.head?, (!isSlash c) = false := by
      rw [hfront]
      rintro c ⟨⟩
      decide
    rw [cutParts, cutAt_front _ (hchar (by decide) (by decide))]
    simp only
    rw [cutAt_front _ (hchar (by decide) (by decide))]
    simp only
    rw [takeWhile_append_stop hstop, List.takeWhile_eq_self_iff.mpr hslash, dropWhile_append_stop hstop,
      List.dropWhile_eq_nil_iff.mpr hslash, List.nil_append]
  have hauthority : readAuthority host .https authority =
      some { username := [], password := [], host := parsed, port } := by
    have hhostPort : (authority.reverse.takeWhile fun c => decide (c ≠ '@')).reverse = authority := by
      rw [List.takeWhile_eq_self_iff.mpr, List.reverse_reverse]
      intro c hc
      refine decide_eq_true ?_
      rintro rfl
      exact hchar (by decide) (by decide) (List.mem_reverse.mp hc)
    rw [readAuthority, hhostPort, Nat.sub_self, Nat.zero_sub, List.take_zero, cutHost_name digits hname]
    simp [hne, hparsed, hport, cutAt, percentEncode]
  have hrest : (['/', '/'] ++ (authority ++ '/' :: behind text)).dropWhile isSlash =
      authority ++ '/' :: behind text := by
    obtain ⟨c, cs, hcs⟩ := List.exists_cons_of_ne_nil hne
    have hc : isSlash c = false := by
      have hc := hslash c (by simp [authority, hcs])
      simpa using hc
    simp [authority, hcs, isSlash, List.dropWhile_cons] at hc ⊢
    simp [hc]
  have hcut : cutScheme (https ++ authority ++ '/' :: behind text) =
      some (Scheme.https.name, ['/', '/'] ++ (authority ++ '/' :: behind text)) := by
    rfl
  rw [parse, input_front hblank (by simp [https]), front_eq hcut rfl, hrest, if_neg (by simp [authority]),
    Option.bind_some, build, hparts, hauthority]
  rfl

end Url
