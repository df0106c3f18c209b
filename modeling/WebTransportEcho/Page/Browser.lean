import WebTransportEcho.Page.Publish

/-! `detectBrowserProfile`. The page takes the name and the version of the browser it runs in from the
    user agent, by a few words that are looked for in turn. Only Brave is asked for by a call, since
    its user agent is that of Chrome; a call that fails counts as a no. -/

namespace WebTransportEcho.Page
open Js Store

/-! ### The expressions -/

/-- `[\d.]`. -/
def isVersionChar (c : Char) : Bool := c.isDigit || c = '.'

/-- What `.` does not match. -/
def isLineTerminator (c : Char) : Bool :=
  c.toNat = 0x0a || c.toNat = 0x0d || c.toNat = 0x2028 || c.toNat = 0x2029

/-- `/word/.test(text)`, where the word stands for itself. -/
def mentions (word text : String) : Bool := decide (word.toList <:+: text.toList)

/-- The characters `[\d.]+` matches behind the word at the front of the text. -/
def versionAt (word rest : List Char) : List Char :=
  if word <+: rest then (rest.drop word.length).takeWhile isVersionChar else []

/-- `text.match(/word([\d.]+)/)?.[1] ?? null`: the match that begins first. -/
def versionAfter (word text : String) : Option String :=
  ((text.toList.tails.map (versionAt word.toList)).find? fun version => !version.isEmpty).map
    String.ofList

/-- `/Version\/[\d.]+.*Safari\//.test(text)`. One character is enough for `[\d.]+`, since `.*` takes
    the others of it too. -/
def isSafari (text : String) : Bool :=
  text.toList.tails.any fun rest =>
    decide ("Version/".toList <+: rest) &&
      match rest.drop "Version/".length with
      | [] => false
      | c :: rest => isVersionChar c &&
        decide ("Safari/".toList <:+: rest.takeWhile fun c => !isLineTerminator c)

/-! ### The profile -/

/-- The name and the version. -/
def detectBrowserProfile (isBrave : Bool) (userAgent : String) : String × Option String :=
  if isBrave then ("Brave", versionAfter "Chrome/" userAgent)
  else if mentions "Edg/" userAgent then ("Microsoft Edge", versionAfter "Edg/" userAgent)
  else if mentions "Firefox/" userAgent then ("Firefox", versionAfter "Firefox/" userAgent)
  else if isSafari userAgent && !mentions "Chrome/" userAgent then
    ("Safari", versionAfter "Version/" userAgent)
  else if mentions "Chrome/" userAgent then ("Chrome", versionAfter "Chrome/" userAgent)
  else ("Unknown browser", none)

/-- The profile of a page in this environment. -/
def Environment.detected (env : Environment) (isBrave : Bool) (userAgent : String) : Profile :=
  env.profile (detectBrowserProfile isBrave userAgent).1 (detectBrowserProfile isBrave userAgent).2

/-! ### What is found -/

theorem detectBrowserProfile_name (isBrave : Bool) (userAgent : String) :
    (detectBrowserProfile isBrave userAgent).1 ∈
      ["Brave", "Microsoft Edge", "Firefox", "Safari", "Chrome", "Unknown browser"] := by
  unfold detectBrowserProfile
  split_ifs <;> simp

/-- A version stands in the text behind its word, and is as long as it can be. -/
theorem versionAfter_eq_some {word text version : String} (h : versionAfter word text = some version) :
    version ≠ "" ∧ (∀ c ∈ version.toList, isVersionChar c = true) ∧
      ∃ before after, text.toList = before ++ word.toList ++ version.toList ++ after ∧
        ∀ c ∈ after.head?, isVersionChar c = false := by
  obtain ⟨found, hfound, rfl⟩ := Option.map_eq_some_iff.mp h
  have hne := List.find?_some hfound
  obtain ⟨rest, hrest, hat⟩ := List.mem_map.mp (List.mem_of_find?_eq_some hfound)
  obtain ⟨before, hbefore⟩ := (List.mem_tails _ _).mp hrest
  rw [versionAt] at hat
  split_ifs at hat with hword
  · obtain ⟨behind, rfl⟩ := hword
    rw [List.drop_left' rfl] at hat
    rw [String.toList_ofList, ← hat]
    refine ⟨?_, fun c hc => List.mem_takeWhile_imp hc, before, behind.dropWhile isVersionChar, ?_, ?_⟩
    · intro hempty
      have hnil := congrArg String.toList hempty
      rw [String.toList_ofList] at hnil
      rw [← hat, hnil] at hne
      cases hne
    · rw [List.append_assoc, List.takeWhile_append_dropWhile, List.append_assoc, hbefore]
    · intro c hc
      have hstop := List.head?_dropWhile_not isVersionChar behind
      rw [Option.mem_def.mp hc] at hstop
      exact hstop
  · rw [← hat] at hne
    cases hne

/-- The version that is found, if one is, is made of digits and dots. -/
theorem detectBrowserProfile_version {isBrave : Bool} {userAgent version : String}
    (h : (detectBrowserProfile isBrave userAgent).2 = some version) :
    ∀ c ∈ version.toList, isVersionChar c = true := by
  unfold detectBrowserProfile at h
  split_ifs at h
  all_goals exact (versionAfter_eq_some h).2.1

/-- The store knows the browser under the name that the page has found, and by the first four digits
    of its version. -/
theorem detected_stored (env : Environment) (isBrave : Bool) (userAgent : String) :
    (storedBrowser (env.detected isBrave userAgent)).family.name =
      (if (env.detected isBrave userAgent).name = "Unknown browser" then "Other"
      else (env.detected isBrave userAgent).name) ∧
    (storedBrowser (env.detected isBrave userAgent)).version =
      (majorVersion (env.detected isBrave userAgent).version).bind fun major =>
        if major = "" then none else some (String.ofList (major.toList.take 4)) := by
  have hnames : ∀ name ∈ ["Brave", "Microsoft Edge", "Firefox", "Safari", "Chrome", "Unknown browser"],
      ((browserFamilies.lookup (toLowerCase name)).getD .other).name =
        if name = "Unknown browser" then "Other" else name := by decide
  refine ⟨hnames _ (detectBrowserProfile_name isBrave userAgent),
    Option.bind_congr fun major hmajor => ?_⟩
  obtain ⟨version, hversion, rfl⟩ := Option.map_eq_some_iff.mp hmajor
  have hdigits : ∀ c ∈ version.toList.takeWhile fun c => c ≠ '.', c.isDigit = true := by
    intro c hc
    have hchar := detectBrowserProfile_version hversion c (List.takeWhile_subset _ hc)
    have hdot := List.mem_takeWhile_imp hc
    simp only [isVersionChar, Bool.or_eq_true, decide_eq_true_eq] at hchar hdot
    exact hchar.resolve_right hdot
  rw [leadingDigits, String.toList_ofList, List.takeWhile_eq_self_iff.mpr hdigits]
  cases version.toList.takeWhile fun c => c ≠ '.' with
  | nil => rfl
  | cons c cs => simp

end WebTransportEcho.Page
