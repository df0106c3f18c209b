import WebTransportEcho.Server.Startup
import WebTransportEcho.Server.BodyLimit

/-! What every response carries. The headers of security are put together once, when the server starts,
    of the page as it is then; each route adds headers of its own, and none of these takes the place
    of one of those. The policy for content names the scripts and the styles that stand in the page,
    each by its hash, and a browser that cuts the policy at its semicolons and blanks reads just these
    and `'self'` (`responses_guarded`). -/

namespace WebTransportEcho.Server
open Js Store Backend Quinn

/-! ### The elements of a page -/

/-- A piece of a page: an inline element, or what stands between two. -/
inductive Piece where
  | text (t : Text)
  | element (opening attributes body closing : Text)

def Piece.write : Piece → Text
  | .text t => t
  | .element opening attributes body closing => opening ++ (attributes ++ '>' :: (body ++ closing))

def written (pieces : List Piece) : Text := pieces.flatMap Piece.write

def Piece.body : Piece → Option Text
  | .text _ => none
  | .element _ _ body _ => some body

/-- Written alike, but for capital letters. -/
def Alike (mark text : Text) : Prop := mark.map Char.toLower = text.map Char.toLower

/-- A page that was cut at all elements of a tag: none begins in the pieces of text, and the bodies end
    where the tag is closed first. -/
def Cut (tag : Text) : List Piece → Prop
  | [] => True
  | .text t :: rest =>
    (∀ front back, t = front ++ back → back ≠ [] →
      (openTag tag (back ++ written rest)).bind (closeTag tag) = none) ∧ Cut tag rest
  | .element opening attributes body closing :: rest =>
    Alike ('<' :: tag) opening ∧ (∀ c ∈ attributes.head?, isBlank c = true) ∧ '>' ∉ attributes ∧
    (∀ front back, body = front ++ back → back ≠ [] →
      stripTag ('<' :: '/' :: (tag ++ ['>'])) (back ++ (closing ++ written rest)) = none) ∧
    Alike ('<' :: '/' :: (tag ++ ['>'])) closing ∧ Cut tag rest

theorem stripTag_alike {mark text : Text} (h : Alike mark text) (rest : Text) :
    stripTag mark (text ++ rest) = some rest := by
  induction mark generalizing text with
  | nil =>
    obtain rfl : text = [] := by simpa [Alike] using h.symm
    rfl
  | cons m mark ih =>
    cases text with
    | nil => simp [Alike] at h
    | cons c text =>
      rw [Alike, List.map_cons, List.map_cons, List.cons.injEq] at h
      rw [List.cons_append, stripTag, if_pos h.1]
      exact ih h.2

theorem openTag_element {tag opening attributes : Text} (h : Alike ('<' :: tag) opening)
    (hspace : ∀ c ∈ attributes.head?, isBlank c = true) (hclosed : '>' ∉ attributes) (rest : Text) :
    openTag tag (opening ++ (attributes ++ '>' :: rest)) = some rest := by
  rw [openTag, stripTag_alike h]
  cases attributes with
  | nil => rfl
  | cons c attributes =>
    have hc : c ≠ '>' := fun heq => hclosed (heq ▸ List.mem_cons_self)
    have hrest : ∀ x ∈ attributes, decide (x ≠ '>') = true := by
      intro x hx
      exact decide_eq_true fun heq => hclosed (heq ▸ List.mem_cons_of_mem _ hx)
    simp only [List.cons_append, hspace c rfl, if_true]
    rw [List.dropWhile_append_of_pos hrest]
    simp

theorem closeTag_body {tag closing : Text} (h : Alike ('<' :: '/' :: (tag ++ ['>'])) closing)
    (rest : Text) {body : Text} (hbody : ∀ front back, body = front ++ back → back ≠ [] →
      stripTag ('<' :: '/' :: (tag ++ ['>'])) (back ++ (closing ++ rest)) = none) :
    closeTag tag (body ++ (closing ++ rest)) = some (body, rest) := by
  induction body with
  | nil =>
    have hstrip := stripTag_alike h rest
    cases closing with
    | nil => simp [Alike] at h
    | cons c closing =>
      rw [List.nil_append, List.cons_append, closeTag]
      rw [List.cons_append] at hstrip
      simp only [hstrip]
  | cons c body ih =>
    have hnone := hbody [] (c :: body) rfl (List.cons_ne_nil _ _)
    have hrest := ih fun front back heq hne => hbody (c :: front) back (congrArg (c :: ·) heq) hne
    rw [List.cons_append] at hnone ⊢
    rw [closeTag]
    simp only [hnone, hrest, Option.map_some]

theorem alike_of_stripTag {mark text rest : Text} (h : stripTag mark text = some rest) :
    ∃ front, text = front ++ rest ∧ Alike mark front := by
  induction mark generalizing text with
  | nil => exact ⟨[], Option.some.inj h, rfl⟩
  | cons m mark ih =>
    cases text with
    | nil => cases h
    | cons c text =>
      rw [stripTag, Option.ite_none_right_eq_some] at h
      obtain ⟨front, rfl, halike⟩ := ih h.2
      refine ⟨c :: front, rfl, ?_⟩
      rw [Alike, List.map_cons, List.map_cons, h.1, halike]

theorem element_of_openTag {tag text rest : Text} (h : openTag tag text = some rest) :
    ∃ opening attributes, text = opening ++ (attributes ++ '>' :: rest) ∧ Alike ('<' :: tag) opening ∧
      (∀ c ∈ attributes.head?, isBlank c = true) ∧ '>' ∉ attributes := by
  unfold openTag at h
  split at h
  · next hstrip =>
    cases h
    obtain ⟨opening, rfl, halike⟩ := alike_of_stripTag hstrip
    exact ⟨opening, [], rfl, halike, by simp, by simp⟩
  · next c text' hclosed hstrip =>
    obtain ⟨opening, rfl, halike⟩ := alike_of_stripTag hstrip
    obtain ⟨hblank, htail⟩ := Option.ite_none_right_eq_some.mp h
    have hsplit := List.takeWhile_append_dropWhile (p := fun c => decide (c ≠ '>')) (l := text')
    cases hdrop : text'.dropWhile (fun c => decide (c ≠ '>')) with
    | nil =>
      rw [hdrop] at htail
      cases htail
    | cons x back =>
      obtain rfl : x = '>' := by
        have hhead := List.head?_dropWhile_not (fun c => decide (c ≠ '>')) text'
        rw [hdrop] at hhead
        simpa using hhead
      rw [hdrop] at htail hsplit
      obtain rfl : back = rest := Option.some.inj htail
      refine ⟨opening, c :: text'.takeWhile (fun c => decide (c ≠ '>')), ?_, halike, fun d hd => ?_, ?_⟩
      · rw [List.cons_append, hsplit]
      · rwa [← Option.some.inj hd]
      · rw [List.mem_cons, not_or]
        exact ⟨fun heq => hclosed heq.symm, fun hmem => by simpa using List.mem_takeWhile_imp hmem⟩
  · cases h

theorem body_of_closeTag {tag text body rest : Text} (h : closeTag tag text = some (body, rest)) :
    ∃ closing, text = body ++ (closing ++ rest) ∧
      (∀ front back, body = front ++ back → back ≠ [] →
        stripTag ('<' :: '/' :: (tag ++ ['>'])) (back ++ (closing ++ rest)) = none) ∧
      Alike ('<' :: '/' :: (tag ++ ['>'])) closing := by
  induction text generalizing body with
  | nil => cases h
  | cons c text ih =>
    rw [closeTag] at h
    cases hstrip : stripTag ('<' :: '/' :: (tag ++ ['>'])) (c :: text) with
    | some rest' =>
      rw [hstrip] at h
      cases h
      obtain ⟨closing, htext, halike⟩ := alike_of_stripTag hstrip
      refine ⟨closing, htext, fun front back heq hne => ?_, halike⟩
      exact absurd (List.append_eq_nil_iff.mp heq.symm).2 hne
    | none =>
      rw [hstrip] at h
      obtain ⟨⟨body', rest'⟩, hclose, heq⟩ := Option.map_eq_some_iff.mp h
      cases heq
      obtain ⟨closing, rfl, hnone, halike⟩ := ih hclose
      refine ⟨closing, rfl, fun front back heq hne => ?_, halike⟩
      cases front with
      | nil => rwa [← (show c :: body' = back from heq)]
      | cons x front => exact hnone front back (List.cons.inj heq).2 hne

/-- Every page can be cut. -/
theorem exists_cut (tag text : Text) : ∃ pieces, text = written pieces ∧ Cut tag pieces := by
  induction hn : text.length using Nat.strong_induction_on generalizing text with
  | _ n ih =>
  cases text with
  | nil => exact ⟨[], rfl, trivial⟩
  | cons c text =>
    cases hmatch : (openTag tag (c :: text)).bind (closeTag tag) with
    | none =>
      obtain ⟨pieces, rfl, hcut⟩ := ih text.length (hn ▸ Nat.lt_succ_self _) text rfl
      refine ⟨.text [c] :: pieces, rfl, fun front back heq hne => ?_, hcut⟩
      obtain ⟨rfl, rfl⟩ | ⟨-, rfl⟩ := List.append_eq_singleton_iff.mp heq.symm
      · exact hmatch
      · exact absurd rfl hne
    | some found =>
      obtain ⟨body, rest⟩ := found
      obtain ⟨inner, hopen, hclose⟩ := Option.bind_eq_some_iff.mp hmatch
      obtain ⟨opening, attributes, htext, halike, hspace, hclosed⟩ := element_of_openTag hopen
      obtain ⟨closing, rfl, hnone, hclosing⟩ := body_of_closeTag hclose
      have hshorter : rest.length < n := by
        have hlength := congrArg List.length htext
        simp only [List.length_append, List.length_cons] at hlength hn
        omega
      obtain ⟨pieces, rfl, hcut⟩ := ih rest.length hshorter rest rfl
      refine ⟨.element opening attributes body closing :: pieces, ?_, halike, hspace, hclosed, hnone,
        hclosing, hcut⟩
      rw [htext]
      simp [written, Piece.write]

/-- Past a piece of text. -/
theorem inlineBodies_text {tag rest : Text} : ∀ {t : Text} {fuel : Nat},
    (∀ front back, t = front ++ back → back ≠ [] → (openTag tag (back ++ rest)).bind (closeTag tag) = none) →
    t.length ≤ fuel → inlineBodies tag fuel (t ++ rest) = inlineBodies tag (fuel - t.length) rest
  | [], fuel, _, _ => rfl
  | c :: t, fuel, h, hfuel => by
    obtain ⟨fuel, rfl⟩ : ∃ n, fuel = n + 1 := Nat.exists_eq_succ_of_ne_zero (by simp at hfuel; omega)
    have hnone := h [] (c :: t) rfl (List.cons_ne_nil _ _)
    rw [List.length_cons, Nat.add_le_add_iff_right] at hfuel
    rw [List.cons_append] at hnone ⊢
    rw [inlineBodies]
    simp only [hnone]
    rw [inlineBodies_text (fun front back heq hne => h (c :: front) back (congrArg (c :: ·) heq) hne) hfuel,
      List.length_cons, Nat.add_sub_add_right]

/-- All elements are found, and nothing else. -/
theorem inlineBodies_written {tag : Text} : ∀ {pieces : List Piece} {fuel : Nat}, Cut tag pieces →
    (written pieces).length ≤ fuel → inlineBodies tag fuel (written pieces) = pieces.filterMap Piece.body
  | [], fuel, _, _ => by cases fuel <;> rfl
  | .text t :: pieces, fuel, h, hfuel => by
    obtain ⟨hnone, hrest⟩ := h
    rw [written, List.flatMap_cons, ← written, Piece.write] at hfuel ⊢
    rw [List.length_append] at hfuel
    rw [inlineBodies_text hnone (by omega), inlineBodies_written hrest (by omega)]
    rfl
  | .element opening attributes body closing :: pieces, fuel, h, hfuel => by
    obtain ⟨hopening, hspace, hclosed, hbody, hclosing, hrest⟩ := h
    rw [written, List.flatMap_cons, ← written, Piece.write] at hfuel ⊢
    obtain ⟨c, opening, rfl⟩ : ∃ c cs, opening = c :: cs := by
      cases opening with
      | nil => simp [Alike] at hopening
      | cons c opening => exact ⟨c, opening, rfl⟩
    have hopen := openTag_element hopening hspace hclosed (body ++ (closing ++ written pieces))
    have hclose := closeTag_body hclosing (written pieces) hbody
    simp only [List.append_assoc, List.cons_append, List.length_cons, List.length_append] at hfuel hopen ⊢
    obtain ⟨fuel, rfl⟩ : ∃ n, fuel = n + 1 := Nat.exists_eq_succ_of_ne_zero (by omega)
    rw [inlineBodies]
    simp only [hopen, Option.bind_some, hclose]
    rw [inlineBodies_written hrest (by omega)]
    rfl

/-! ### The policy, as a browser reads it -/

/-- The words of a text. -/
def words (text : Text) : List Text := (text.splitOn ' ').filter fun word => !word.isEmpty

/-- A directive: its name, and its sources. -/
def directive (text : Text) : Option (Text × List Text) :=
  match words text with
  | [] => none
  | name :: sources => some (name, sources)

def directives (policy : Text) : List (Text × List Text) := (policy.splitOn ';').filterMap directive

theorem directive_blank (text : Text) : directive (' ' :: text) = directive text := by
  have hwords : words (' ' :: text) = words text := by
    rw [words, show ' ' :: text = [] ++ ' ' :: text from rfl, List.splitOn_append_cons_self]
    rfl
  rw [directive, directive, hwords]

/-- What is joined with semicolons and blanks is read one by one. -/
theorem directives_join (d : String) (ds : List String) (h : ∀ e ∈ d :: ds, ';' ∉ e.toList) :
    directives (String.intercalate "; " (d :: ds)).toList =
      (d :: ds).filterMap fun e => directive e.toList := by
  induction ds generalizing d with
  | nil =>
    rw [String.intercalate_singleton, directives, List.splitOn_eq_singleton (h d List.mem_cons_self)]
    rfl
  | cons e ds ih =>
    have hfirst := h d List.mem_cons_self
    have hrest := ih e fun x hx => h x (List.mem_cons_of_mem _ hx)
    have hcut : (String.intercalate "; " (d :: e :: ds)).toList =
        d.toList ++ ';' :: ' ' :: (String.intercalate "; " (e :: ds)).toList := by
      rw [String.intercalate_cons_cons]
      simp
    have hblank (text : Text) : directives (' ' :: text) = directives text := by
      obtain ⟨piece, pieces, hcons⟩ := List.exists_cons_of_ne_nil (List.splitOn_ne_nil ';' text)
      have hsplit : (' ' :: text).splitOn ';' = (' ' :: piece) :: pieces := by
        rw [List.splitOn_cons_eq_if_modifyHead, hcons]
        rfl
      rw [directives, directives, hsplit, hcons, List.filterMap_cons, List.filterMap_cons, directive_blank]
    rw [hcut, directives, List.splitOn_append_cons_self_of_not_mem hfirst, List.filterMap_cons,
      ← directives, hblank, hrest]
    rfl

/-- A word of a policy. -/
def IsWord (word : Text) : Prop := word ≠ [] ∧ ' ' ∉ word

theorem words_join {sources : List String} (h : ∀ s ∈ sources, IsWord s.toList) :
    words (String.intercalate " " sources).toList = sources.map String.toList := by
  cases sources with
  | nil => rfl
  | cons source sources =>
    have hall : ∀ piece ∈ (source :: sources).map String.toList, IsWord piece := by
      intro piece hpiece
      obtain ⟨s, hs, rfl⟩ := List.mem_map.mp hpiece
      exact h s hs
    have hblank : (" " : String).toList = [' '] := rfl
    rw [words, String.toList_intercalate, hblank,
      List.splitOn_intercalate ' ' (fun piece hpiece => (hall piece hpiece).2) (List.cons_ne_nil _ _)]
    refine List.filter_eq_self.mpr fun piece hpiece => ?_
    simpa using (hall piece hpiece).1

theorem words_cons {word : Text} (h : IsWord word) (rest : Text) :
    words (word ++ ' ' :: rest) = word :: words rest := by
  rw [words, List.splitOn_append_cons_self_of_not_mem h.2, List.filter_cons, if_pos (by simpa using h.1)]
  rfl

theorem not_mem_join {sources : List String} (h : ∀ s ∈ sources, ';' ∉ s.toList) :
    ';' ∉ (String.intercalate " " sources).toList := by
  induction sources with
  | nil => simp
  | cons source sources ih =>
    have hfirst := h source List.mem_cons_self
    have hrest := ih fun s hs => h s (List.mem_cons_of_mem _ hs)
    cases sources with
    | nil => rwa [String.intercalate_singleton]
    | cons next sources =>
      rw [String.intercalate_cons_cons]
      simp only [String.toList_append, List.mem_append, not_or]
      exact ⟨⟨hfirst, by decide⟩, hrest⟩

/-- The sources that a directive of the server lists. -/
def sourcesOf (sha256Base64 : String → String) (html tag : String) : List String :=
  "'self'" :: inlineHashes sha256Base64 html tag

/-- The digits of base64. -/
def Base64 (sha256Base64 : String → String) : Prop :=
  ∀ text, ∀ c ∈ (sha256Base64 text).toList, c ≠ ' ' ∧ c ≠ ';'

section Policy

variable {sha256Base64 : String → String} (hbase64 : Base64 sha256Base64) (html tag : String)

include hbase64

theorem hash_word : ∀ s ∈ inlineHashes sha256Base64 html tag, IsWord s.toList ∧ ';' ∉ s.toList := by
  intro s hs
  obtain ⟨body, -, rfl⟩ := List.mem_map.mp hs
  have hdigits := hbase64 (String.ofList body)
  refine ⟨⟨by simp, ?_⟩, ?_⟩
  · simp only [String.toList_append, List.mem_append, not_or]
    exact ⟨⟨by decide, fun h => (hdigits _ h).1 rfl⟩, by decide⟩
  · simp only [String.toList_append, List.mem_append, not_or]
    exact ⟨⟨by decide, fun h => (hdigits _ h).2 rfl⟩, by decide⟩

theorem directive_sources (name : String) (hname : IsWord name.toList) :
    directive (name ++ " 'self' " ++ String.intercalate " " (inlineHashes sha256Base64 html tag)).toList =
      some (name.toList, (sourcesOf sha256Base64 html tag).map String.toList) := by
  have hself : IsWord "'self'".toList := by simp [IsWord]
  have hcut : (name ++ " 'self' " ++ String.intercalate " " (inlineHashes sha256Base64 html tag)).toList =
      name.toList ++ ' ' :: ("'self'".toList ++
        ' ' :: (String.intercalate " " (inlineHashes sha256Base64 html tag)).toList) := by
    simp
  rw [directive, hcut, words_cons hname, words_cons hself,
    words_join fun s hs => (hash_word hbase64 html tag s hs).1]
  rfl

theorem semicolon_not_mem (name : String) (hname : ';' ∉ name.toList) :
    ';' ∉ (name ++ String.intercalate " " (inlineHashes sha256Base64 html tag)).toList := by
  rw [String.toList_append, List.mem_append, not_or]
  exact ⟨hname, not_mem_join fun s hs => (hash_word hbase64 html tag s hs).2⟩

/-- The directives before those of the page's own elements. -/
def fixedDirectives : List String :=
  ["default-src 'none'", "base-uri 'none'", "connect-src 'self' https:", "form-action 'none'",
    "frame-ancestors 'none'", "img-src 'self' data:"]

/-- The policy for content is read as it was meant. -/
theorem policy_read : ∃ csp, ("content-security-policy", csp) ∈ buildSecurityHeaders sha256Base64 html ∧
    (directives csp.toList).lookup "script-src".toList =
      some ((sourcesOf sha256Base64 html "script").map String.toList) ∧
    (directives csp.toList).lookup "style-src".toList =
      some ((sourcesOf sha256Base64 html "style").map String.toList) := by
  have hscript := directive_sources hbase64 html "script" "script-src" (by simp [IsWord])
  have hstyle := directive_sources hbase64 html "style" "style-src" (by simp [IsWord])
  rw [show "script-src" ++ " 'self' " = "script-src 'self' " by decide] at hscript
  rw [show "style-src" ++ " 'self' " = "style-src 'self' " by decide] at hstyle
  refine ⟨_, List.mem_cons_self, ?_⟩
  rw [directives_join]
  · have hnone : (fixedDirectives.filterMap fun e => directive e.toList).lookup "script-src".toList = none ∧
        (fixedDirectives.filterMap fun e => directive e.toList).lookup "style-src".toList = none := by
      decide
    have hlookup (name : Text) (d e : String) : ((fixedDirectives ++ [d, e]).filterMap fun e =>
        directive e.toList).lookup name =
        ((fixedDirectives.filterMap fun e => directive e.toList).lookup name).or
          (([d, e].filterMap fun e => directive e.toList).lookup name) := by
      rw [List.filterMap_append, List.lookup_append]
    refine ⟨(hlookup _ _ _).trans ?_, (hlookup _ _ _).trans ?_⟩
    · rw [hnone.1, Option.none_or, List.filterMap_cons, hscript]
      exact List.lookup_cons_self
    · rw [hnone.2, Option.none_or, List.filterMap_cons, hscript, List.filterMap_cons, hstyle]
      simp [List.lookup_cons]
  · intro e he
    simp only [List.mem_cons, List.not_mem_nil, or_false] at he
    rcases he with rfl | rfl | rfl | rfl | rfl | rfl | rfl | rfl
    · decide
    · decide
    · decide
    · decide
    · decide
    · decide
    · exact semicolon_not_mem hbase64 html "script" "script-src 'self' " (by decide)
    · exact semicolon_not_mem hbase64 html "style" "style-src 'self' " (by decide)

end Policy

/-! ### The headers of a response -/

/-- The headers that the routes add. -/
def ownNames : List String := ["content-type", "cache-control", "retry-after", "allow"]

def Own (headers : Headers) : Prop := ∀ h ∈ headers, h.1 ∈ ownNames

theorem mem_setHeader_self (header : String × String) : ∀ headers : Headers,
    header ∈ setHeader headers header
  | [] => List.mem_singleton_self _
  | h :: rest => by
    rw [setHeader]
    split_ifs
    · exact List.mem_cons_self
    · exact List.mem_cons_of_mem _ (mem_setHeader_self header rest)

theorem mem_setHeader {header h : String × String} (hne : h.1 ≠ header.1) : ∀ {headers : Headers},
    h ∈ headers → h ∈ setHeader headers header
  | first :: rest, hmem => by
    rw [setHeader]
    rcases List.mem_cons.mp hmem with rfl | hrest
    · rw [if_neg hne]
      exact List.mem_cons_self
    · split_ifs
      · exact List.mem_cons_of_mem _ hrest
      · exact List.mem_cons_of_mem _ (mem_setHeader hne hrest)

theorem names_setHeader (header : String × String) : ∀ headers : Headers, ∀ name,
    name ∈ (setHeader headers header).map Prod.fst ↔ name = header.1 ∨ name ∈ headers.map Prod.fst
  | [], name => by simp [setHeader]
  | h :: rest, name => by
    rw [setHeader]
    split_ifs with heq
    · simp only [List.map_cons, List.mem_cons, heq]
      tauto
    · simp only [List.map_cons, List.mem_cons, names_setHeader header rest name]
      tauto

theorem setHeader_nodup (header : String × String) : ∀ {headers : Headers},
    (headers.map Prod.fst).Nodup → ((setHeader headers header).map Prod.fst).Nodup
  | [], _ => by simp [setHeader]
  | h :: rest, hnodup => by
    rw [List.map_cons, List.nodup_cons] at hnodup
    rw [setHeader]
    split_ifs with heq
    · rw [List.map_cons, List.nodup_cons, ← heq]
      exact hnodup
    · rw [List.map_cons, List.nodup_cons, names_setHeader, not_or]
      exact ⟨⟨heq, hnodup.1⟩, setHeader_nodup header hnodup.2⟩

/-- What is spread over headers takes the place of none that it does not name. -/
theorem mem_spread {headers more : Headers} {h : String × String} (hmem : h ∈ headers)
    (hne : h.1 ∉ more.map Prod.fst) : h ∈ spread headers more := by
  induction more generalizing headers with
  | nil => exact hmem
  | cons header more ih =>
    rw [List.map_cons, List.mem_cons, not_or] at hne
    exact ih (mem_setHeader hne.1 hmem) hne.2

theorem spread_nodup {headers : Headers} (more : Headers) (h : (headers.map Prod.fst).Nodup) :
    ((spread headers more).map Prod.fst).Nodup := by
  induction more generalizing headers with
  | nil => exact h
  | cons header more ih => exact ih (setHeader_nodup header h)

theorem own_spread {headers more : Headers} (h : Own headers) (hmore : Own more) :
    Own (spread headers more) := by
  induction more generalizing headers with
  | nil => exact h
  | cons header more ih =>
    refine ih (fun x hx => ?_) fun x hx => hmore x (List.mem_cons_of_mem _ hx)
    have hname := (names_setHeader header headers x.1).mp (List.mem_map_of_mem hx)
    rcases hname with heq | hold
    · rw [heq]
      exact hmore header List.mem_cons_self
    · obtain ⟨y, hy, heq⟩ := List.mem_map.mp hold
      rw [← heq]
      exact h y hy

/-! ### Every route -/

/-- One head, with the headers of security and those of a route. -/
def Wrote (server : PageServer) (writes : List Write) : Prop :=
  ∃ status headers content, Own headers ∧
    writes = [.head status (spread server.securityHeaders headers), .finish content]

/-- It responds so, or throws before it has written. -/
def Guards (server : PageServer) (m : Handler Unit) : Prop :=
  ∀ x, x.writes = [] → (∃ y, m.run.run x = (.ok (), y) ∧ Wrote server y.writes) ∨
    ∃ e y, m.run.run x = (.error e, y) ∧ y.writes = []

/-- It writes nothing. -/
def Silent {α : Type} (m : Handler α) : Prop :=
  ∀ x, ∃ r y, m.run.run x = (r, y) ∧ y.writes = x.writes

section Routes

variable {server : PageServer}

theorem guards_respond {headers : Headers} (h : Own headers) (status : Nat) (content : Content) :
    Guards server (respond server status headers content) := by
  intro x hx
  obtain ⟨writes, submission⟩ := x
  cases hx
  exact .inl ⟨_, rfl, status, headers, content, h, rfl⟩

theorem guards_sendJson {headers : Headers} (h : Own headers) (status : Nat) (body : Json) :
    Guards server (sendJson server status body headers) :=
  guards_respond (own_spread (by simp [Own, ownNames]) h) status _

theorem guards_tryCatch {m : Handler Unit} {handle : Thrown → Handler Unit} (hm : Guards server m)
    (hhandle : ∀ e, Guards server (handle e)) : Guards server (tryCatch m handle) := by
  intro x hx
  rcases hm x hx with ⟨y, hy, hwrote⟩ | ⟨e, y, hy, hnone⟩
  · exact .inl ⟨y, tryCatch_run_ok hy, hwrote⟩
  · rw [tryCatch_run_error hy]
    exact hhandle e y hnone

theorem guards_bind {α : Type} {m : Handler α} {f : α → Handler Unit} (hm : Silent m)
    (hf : ∀ a, Guards server (f a)) : Guards server (m >>= f) := by
  intro x hx
  obtain ⟨r, y, hy, hwrites⟩ := hm x
  cases r with
  | ok a =>
    rw [bind_run_ok hy]
    exact hf a y (hwrites.trans hx)
  | error e => exact .inr ⟨e, y, bind_run_error hy, hwrites.trans hx⟩

theorem silent_attempt {α : Type} (r : Except Error α) : Silent (attempt r) := by
  intro x
  cases r with
  | ok a => exact ⟨_, x, rfl, rfl⟩
  | error e => exact ⟨_, x, rfl, rfl⟩

theorem silent_readJsonBody (body : Body) (maxBytes : Nat) : Silent (readJsonBody body maxBytes) :=
  fun x => ⟨_, x, readJsonBody_run body maxBytes x, rfl⟩

theorem guards_acceptSubmission (a : Answers) (body : Body) :
    Guards server (acceptSubmission server a body) := by
  refine guards_bind (silent_readJsonBody body _) fun input => ?_
  refine guards_bind (silent_attempt _) fun key => ?_
  split_ifs
  · exact guards_sendJson (by simp [Own, ownNames]) 429 _
  · refine guards_bind (silent_attempt _) fun recorded => ?_
    refine guards_bind (fun x => ⟨_, _, rfl, rfl⟩) fun _ => ?_
    exact guards_sendJson (by simp [Own]) 202 _

theorem guards_answerError (e : Thrown) : Guards server (answerError server e) := by
  have hnone : Own [] := by simp [Own]
  cases e with
  | requestBody status message => exact guards_sendJson hnone status _
  | js e => cases e <;> exact guards_sendJson hnone _ _

theorem guards_handleBrowserResults (a : Answers) (req : Request) :
    Guards server (handleBrowserResults server a req) := by
  have hnone : Own [] := by simp [Own]
  unfold handleBrowserResults
  split_ifs
  · exact guards_sendJson hnone 503 _
  · exact guards_bind (silent_attempt _) fun snapshot => guards_sendJson hnone 200 _
  · exact guards_sendJson (by simp [Own, ownNames]) 405 _
  · exact guards_sendJson hnone 403 _
  · exact guards_sendJson hnone 415 _
  · exact guards_tryCatch (guards_acceptSubmission a req.body) guards_answerError

theorem guards_serveFile (a : Answers) (pathname : String) : Guards server (serveFile server a pathname) := by
  unfold serveFile
  simp only
  split_ifs
  · exact guards_respond (by simp [Own, ownNames, plainText]) 403 _
  · refine guards_tryCatch (guards_bind (silent_attempt _) fun body => ?_) fun e => ?_
    · exact guards_respond (by simp [Own, ownNames, noStore]) 200 _
    · exact guards_respond (by simp [Own, ownNames, plainText]) 404 _

theorem guards_requestHandler (server : PageServer) (newUrl : String → String → Option String)
    (a : Answers) (req : Request) :
    Guards server (requestHandler newUrl server a req) := by
  have hjson : Own [applicationJson, noStore] := by simp [Own, ownNames, applicationJson, noStore]
  unfold requestHandler
  split
  · exact fun x hx => .inr ⟨_, x, rfl, hx⟩
  · split_ifs
    · exact guards_handleBrowserResults a req
    · exact guards_respond hjson 200 _
    · exact guards_respond hjson 200 _
    · exact guards_respond (by simp [Own, ownNames, plainText, noStore]) 200 _
    · exact guards_serveFile a _
    · exact guards_serveFile a _

end Routes

/-- The headers of security as the server has put them together, of its page. -/
theorem started_page {lib : Libraries} {world : Surroundings} {s : StartedServer}
    (h : start lib world = .ok s) : ∃ indexHtml,
      world.readFile (join [resolve (join [world.root, "public"]), "index.html"]) = .ok indexHtml ∧
      s.server.securityHeaders = buildSecurityHeaders lib.sha256Base64 indexHtml := by
  obtain ⟨indexHtml, hread, h⟩ := bind_eq_ok.mp h
  obtain ⟨grease, -, h⟩ := bind_eq_ok.mp h
  obtain ⟨maxChanges, -, h⟩ := bind_eq_ok.mp h
  obtain ⟨-, -, h⟩ := bind_eq_ok.mp h
  obtain ⟨state, -, h⟩ := bind_eq_ok.mp h
  cases h
  exact ⟨indexHtml, hread, rfl⟩

theorem security_nodup (sha256Base64 : String → String) (html : String) :
    ((buildSecurityHeaders sha256Base64 html).map Prod.fst).Nodup := by
  simp [buildSecurityHeaders]

theorem security_not_own (sha256Base64 : String → String) (html : String) :
    ∀ h ∈ buildSecurityHeaders sha256Base64 html, h.1 ∉ ownNames := by
  simp [buildSecurityHeaders, ownNames]

/-- The hashes of the inline elements of a page, in the order they stand. -/
def hashesOf (sha256Base64 : String → String) (pieces : List Piece) : List String :=
  (pieces.filterMap Piece.body).map fun body => "'sha256-" ++ sha256Base64 (String.ofList body) ++ "'"

theorem inlineHashes_written (sha256Base64 : String → String) {html tag : String} {pieces : List Piece}
    (hhtml : html.toList = written pieces) (hcut : Cut tag.toList pieces) :
    inlineHashes sha256Base64 html tag = hashesOf sha256Base64 pieces := by
  have hlength : (written pieces).length ≤ html.length := by rw [← hhtml, String.length_toList]
  rw [inlineHashes, hhtml, inlineBodies_written hcut hlength]
  rfl

/-- A policy that lets a page run the scripts and use the styles that are its own, or stand in it. -/
structure Admits (sha256Base64 : String → String) (html csp : String) : Prop where
  scripts : ∀ pieces, html.toList = written pieces → Cut "script".toList pieces →
    (directives csp.toList).lookup "script-src".toList =
      some (("'self'" :: hashesOf sha256Base64 pieces).map String.toList)
  styles : ∀ pieces, html.toList = written pieces → Cut "style".toList pieces →
    (directives csp.toList).lookup "style-src".toList =
      some (("'self'" :: hashesOf sha256Base64 pieces).map String.toList)

/-- Whatever is asked of a server, its response carries all the headers of security, each once, and with
    them a policy that admits what stands in the page that the server has started with; the page can
    be cut at its elements, whatever it is. -/
theorem responses_guarded (lib : Libraries) (hbase64 : Base64 lib.sha256Base64) (world : Surroundings)
    {s : StartedServer} (h : start lib world = .ok s) : ∃ indexHtml,
      world.readFile (join [resolve (join [world.root, "public"]), "index.html"]) = .ok indexHtml ∧
      (∀ tag, ∃ pieces, indexHtml.toList = written pieces ∧ Cut tag pieces) ∧
      ∀ (newUrl : String → String → Option String) (a : Answers) (req : Request) (status : Nat)
        (headers : Headers),
        .head status headers ∈ ((requestHandler newUrl s.server a req).run.run fresh).2.writes →
        (headers.map Prod.fst).Nodup ∧
        (∀ header ∈ buildSecurityHeaders lib.sha256Base64 indexHtml, header ∈ headers) ∧
        ∃ csp, ("content-security-policy", csp) ∈ headers ∧ Admits lib.sha256Base64 indexHtml csp := by
  obtain ⟨indexHtml, hread, hsecurity⟩ := started_page h
  refine ⟨indexHtml, hread, fun tag => exists_cut tag indexHtml.toList,
    fun newUrl a req status headers hmem => ?_⟩
  have hwrote : Wrote s.server ((requestHandler newUrl s.server a req).run.run fresh).2.writes := by
    rcases guards_requestHandler s.server newUrl a req fresh rfl with
      ⟨y, hy, hwrote⟩ | ⟨e, y, hy, hnone⟩
    · rwa [hy]
    · rw [hy, hnone] at hmem
      cases hmem
  obtain ⟨status', own, content, hown, hwrites⟩ := hwrote
  rw [hwrites] at hmem
  have hheaders : status = status' ∧ headers = spread s.server.securityHeaders own := by simpa using hmem
  obtain ⟨-, rfl⟩ := hheaders
  have hall : ∀ header ∈ buildSecurityHeaders lib.sha256Base64 indexHtml,
      header ∈ spread s.server.securityHeaders own := by
    intro header hheader
    rw [hsecurity]
    refine mem_spread hheader fun hname => ?_
    obtain ⟨x, hx, heq⟩ := List.mem_map.mp hname
    exact security_not_own _ _ header hheader (heq ▸ hown x hx)
  refine ⟨?_, hall, ?_⟩
  · rw [hsecurity]
    exact spread_nodup own (security_nodup _ _)
  · obtain ⟨csp, hcsp, hscripts, hstyles⟩ := policy_read hbase64 indexHtml
    refine ⟨csp, hall _ hcsp, fun pieces hhtml hcut => ?_, fun pieces hhtml hcut => ?_⟩
    · rw [hscripts, sourcesOf, inlineHashes_written _ hhtml hcut]
    · rw [hstyles, sourcesOf, inlineHashes_written _ hhtml hcut]

/-! ### A page with one script -/

def oneScript : Libraries where
  sha256Base64 text := if text = "start()" then "DIm7WJS6ZKDYe5qFLPy+h4JFI9Bol5QmYC57mt3Fb00=" else
    "47DEQpj8HBSa+/TImW+5JCeuQeRkm5NMpJWZG3hSuFU="
  sha256Hex _ := ""
  decodeBase64 _ := []
  certificateMetadata _ := .error (.error "no certificate")

def onePage : Surroundings where
  env name := [("PAGE_TLS", "0")].lookup name
  root := "/srv/app"
  readFile file := if file = "/srv/app/public/index.html" then
      .ok "<!doctype html><script>start()</script>"
    else .error (.error "ENOENT: no such file or directory")
  results := .ok none

def nothing : Answers where
  now := 0
  lastSubmissionAt _ := none
  recorded := .error (.error "nothing is recorded")
  snapshot := .error (.error "no snapshot is taken")
  readFile _ := .error (.error "ENOENT: no such file or directory")

def onePieces : List Piece :=
  [.text "<!doctype html>".toList, .element "<script".toList [] "start()".toList "</script>".toList]

theorem onePieces_cut : Cut "script".toList onePieces := by
  have htext : ∀ back ∈ "<!doctype html>".toList.tails, back ≠ [] →
      (openTag "script".toList (back ++ written (onePieces.drop 1))).bind (closeTag "script".toList) = none := by
    decide
  have hbody : ∀ back ∈ "start()".toList.tails, back ≠ [] →
      stripTag ('<' :: '/' :: ("script".toList ++ ['>'])) (back ++ ("</script>".toList ++ [])) = none := by
    decide
  refine ⟨fun front back heq hne => htext back ?_ hne, rfl, by simp, by simp,
    fun front back heq hne => hbody back ?_ hne, rfl, trivial⟩
  · exact (List.mem_tails _ _).mpr ⟨front, heq.symm⟩
  · exact (List.mem_tails _ _).mpr ⟨front, heq.symm⟩

/-- The page's script is let run, whatever the response. -/
theorem onePage_guarded : ∃ s, start oneScript onePage = .ok s ∧
    ∀ (status : Nat) (headers : Headers), .head status headers ∈
      ((requestHandler plainUrl s.server nothing (getRequest "/healthz")).run.run fresh).2.writes →
      ∃ csp, ("content-security-policy", csp) ∈ headers ∧
        (directives csp.toList).lookup "script-src".toList = some (["'self'",
          "'sha256-DIm7WJS6ZKDYe5qFLPy+h4JFI9Bol5QmYC57mt3Fb00='"].map String.toList) := by
  have hbase64 : Base64 oneScript.sha256Base64 := by
    intro text c hc
    have hrun : "DIm7WJS6ZKDYe5qFLPy+h4JFI9Bol5QmYC57mt3Fb00=".toList.all
        (fun c => c != ' ' && c != ';') = true := by decide +kernel
    have hempty : "47DEQpj8HBSa+/TImW+5JCeuQeRkm5NMpJWZG3hSuFU=".toList.all
        (fun c => c != ' ' && c != ';') = true := by decide +kernel
    simp only [oneScript] at hc
    split_ifs at hc
    · simpa using List.all_eq_true.mp hrun c hc
    · simpa using List.all_eq_true.mp hempty c hc
  have hstarts : (start oneScript onePage).toOption.isSome = true := by decide +kernel
  cases hs : start oneScript onePage with
  | error e =>
    rw [hs] at hstarts
    cases hstarts
  | ok s =>
    obtain ⟨indexHtml, hread, -, hguarded⟩ := responses_guarded oneScript hbase64 onePage hs
    have hpage : onePage.readFile (join [resolve (join [onePage.root, "public"]), "index.html"]) =
        .ok "<!doctype html><script>start()</script>" := by decide
    rw [hpage] at hread
    cases hread
    refine ⟨s, rfl, fun status headers hmem => ?_⟩
    obtain ⟨-, -, csp, hcsp, hadmits⟩ := hguarded _ _ _ status headers hmem
    exact ⟨csp, hcsp, hadmits.scripts onePieces (by decide) onePieces_cut⟩

end WebTransportEcho.Server
