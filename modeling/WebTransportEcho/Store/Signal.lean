import WebTransportEcho.Store.Coverage
import WebTransportEcho.Factorial

/-! The option signal of a path. It is derived from the effects a client submits, while the evidence
    for it is the option matrix. The text of a signal determines which options it names on which
    side (`signalText_inj`), so what it says can be compared with what the matrix shows; the two
    agree exactly when the submitted effects do and leave out no option the matrix separates. -/

namespace WebTransportEcho.Store
open Js Factorial

/-! ### What a signal says -/

/-- `intro` followed by the labels of the options; nothing when there are none. -/
def namePart (intro : String) (ks : List OptionKey) : List String :=
  if ks.isEmpty then [] else [intro ++ String.intercalate ", " (ks.map OptionKey.label)]

/-- The text that names these options as needed and those as in the way. -/
def signalText (only without : List OptionKey) : String :=
  let parts := namePart "ready only with " only ++ namePart "ready only without " without
  if parts.isEmpty then "Mixed or interacting option effects" else String.intercalate "; " parts

theorem signalPart_eq (intro : String) (es : List Effect) :
    signalPart intro es = namePart intro (es.map Effect.key) := by
  simp only [signalPart, namePart, List.isEmpty_map, List.map_map, Function.comp_def]

theorem effectSignal_eq (es : List Effect) :
    effectSignal es = signalText ((onlyWith es).map Effect.key) ((onlyWithout es).map Effect.key) := by
  simp only [effectSignal, signalText, signalPart_eq]

/-- The signal says that the path was ready only with the option (`present`), or only without. -/
def SaysOnly (present : Bool) (signal : String) (k : OptionKey) : Prop :=
  ∃ named : Bool → List OptionKey,
    signal = signalText (named true) (named false) ∧ k ∈ named present

/-- The labels after the first, each behind its comma. -/
def labelTail (ks : List OptionKey) : List Char :=
  ks.flatMap fun k => ',' :: ' ' :: k.label.toList

theorem toList_labels : ∀ (k : OptionKey) (ks : List OptionKey),
    (String.intercalate ", " ((k :: ks).map OptionKey.label)).toList = k.label.toList ++ labelTail ks
  | k, [] => by simp [labelTail]
  | k, k' :: ks => by
    rw [List.map_cons, List.map_cons, String.intercalate_cons_cons, ← List.map_cons,
      String.toList_append, String.toList_append, toList_labels k' ks]
    simp [labelTail]

/-- The labels differ in their first letters. -/
theorem label_inj {k k' : OptionKey} {r r' : List Char}
    (h : k.label.toList ++ r = k'.label.toList ++ r') : k = k' ∧ r = r' := by
  have hhead : k.label.toList.head? = k'.label.toList.head? := by
    have hne (k : OptionKey) : k.label.toList ≠ [] := by cases k <;> decide
    have := congrArg List.head? h
    rwa [List.head?_append_of_ne_nil _ (hne k), List.head?_append_of_ne_nil _ (hne k')] at this
  have hk : k = k' := by revert hhead; cases k <;> cases k' <;> decide
  subst hk
  exact ⟨rfl, List.append_cancel_left h⟩

/-- What may follow a list of labels. -/
def EndsLabels (r : List Char) : Prop := r.head? ≠ some ','

theorem labelTail_inj {r r' : List Char} (hr : EndsLabels r) (hr' : EndsLabels r') :
    ∀ {ks ks' : List OptionKey}, labelTail ks ++ r = labelTail ks' ++ r' → ks = ks' ∧ r = r'
  | [], [], h => ⟨rfl, h⟩
  | [], k' :: ks', h => by
    refine absurd ?_ hr
    have : r = labelTail (k' :: ks') ++ r' := h
    rw [this]
    rfl
  | k :: ks, [], h => by
    refine absurd ?_ hr'
    have : r' = labelTail (k :: ks) ++ r := h.symm
    rw [this]
    rfl
  | k :: ks, k' :: ks', h => by
    simp only [labelTail, List.flatMap_cons, List.cons_append, List.append_assoc,
      List.cons.injEq, true_and] at h
    obtain ⟨rfl, htail⟩ := label_inj h
    have hrest : labelTail ks ++ r = labelTail ks' ++ r' := htail
    obtain ⟨rfl, rfl⟩ := labelTail_inj hr hr' hrest
    exact ⟨rfl, rfl⟩

/-- The second half of a signal that also has a first one. -/
def withoutTail : List OptionKey → List Char
  | [] => []
  | k :: ks => "; ".toList ++ ("ready only without ".toList ++ (k.label.toList ++ labelTail ks))

theorem signalText_cons (k : OptionKey) (ks without : List OptionKey) :
    (signalText (k :: ks) without).toList =
      "ready only with ".toList ++ (k.label.toList ++ (labelTail ks ++ withoutTail without)) := by
  cases without with
  | nil =>
    simp only [signalText, namePart, List.isEmpty_cons, List.isEmpty_nil, Bool.false_eq_true,
      if_false, if_true, List.append_nil, String.intercalate_singleton, String.toList_append,
      toList_labels, withoutTail]
  | cons k' ks' =>
    simp only [signalText, namePart, List.isEmpty_cons, Bool.false_eq_true, if_false,
      List.cons_append, List.nil_append, String.intercalate_cons_cons,
      String.intercalate_singleton, String.toList_append, toList_labels, withoutTail,
      List.append_assoc]

theorem signalText_nil_cons (k : OptionKey) (ks : List OptionKey) :
    (signalText [] (k :: ks)).toList =
      "ready only without ".toList ++ (k.label.toList ++ labelTail ks) := by
  simp only [signalText, namePart, List.isEmpty_cons, List.isEmpty_nil, Bool.false_eq_true,
    if_false, if_true, List.nil_append, String.intercalate_singleton, String.toList_append,
    toList_labels]

theorem endsLabels_withoutTail (ks : List OptionKey) : EndsLabels (withoutTail ks) := by
  cases ks with
  | nil => intro h; cases h
  | cons k ks =>
    have hne : "; ".toList ≠ [] := by decide
    have hhead : "; ".toList.head? ≠ some ',' := by decide
    rwa [EndsLabels, withoutTail, List.head?_append_of_ne_nil _ hne]

theorem withoutTail_inj : ∀ {ks ks' : List OptionKey}, withoutTail ks = withoutTail ks' → ks = ks'
  | [], [], _ => rfl
  | [], k' :: ks', h => by simp [withoutTail] at h
  | k :: ks, [], h => by simp [withoutTail] at h
  | k :: ks, k' :: ks', h => by
    obtain ⟨rfl, htail⟩ := label_inj (List.append_cancel_left (List.append_cancel_left h))
    have hends : EndsLabels [] := by intro h; cases h
    have hrest : labelTail ks ++ [] = labelTail ks' ++ [] := by simpa using htail
    obtain ⟨rfl, -⟩ := labelTail_inj hends hends hrest
    rfl

/-- How the three kinds of signal begin. -/
def signalStart : List OptionKey → List OptionKey → List Char
  | _ :: _, _ => "ready only with ".toList
  | [], _ :: _ => "ready only witho".toList
  | [], [] => "Mixed or interac".toList

theorem signalText_take (only without : List OptionKey) :
    (signalText only without).toList.take 16 = signalStart only without := by
  have hle : 16 ≤ "ready only with ".toList.length ∧
      16 ≤ "ready only without ".toList.length := by decide
  have hwith : "ready only with ".toList.take 16 = "ready only with ".toList := by decide
  have hwithout : "ready only without ".toList.take 16 = "ready only witho".toList := by
    decide
  match only, without with
  | k :: ks, without =>
    have h := congrArg (List.take 16) (signalText_cons k ks without)
    exact h.trans ((List.take_append_of_le_length hle.1).trans hwith)
  | [], k :: ks =>
    have h := congrArg (List.take 16) (signalText_nil_cons k ks)
    exact h.trans ((List.take_append_of_le_length hle.2).trans hwithout)
  | [], [] => decide

theorem signalStart_ne :
    "ready only with ".toList ≠ "ready only witho".toList ∧
      "ready only with ".toList ≠ "Mixed or interac".toList ∧
      "ready only witho".toList ≠ "Mixed or interac".toList := by
  refine ⟨?_, ?_, ?_⟩ <;> decide

/-- A signal names its options unambiguously. -/
theorem signalText_inj {only without only' without' : List OptionKey}
    (h : signalText only without = signalText only' without') :
    only = only' ∧ without = without' := by
  obtain ⟨hne₁, hne₂, hne₃⟩ := signalStart_ne
  have hlist := congrArg String.toList h
  have hstart : signalStart only without = signalStart only' without' := by
    rw [← signalText_take, ← signalText_take, h]
  match only, only', without, without' with
  | k :: ks, k' :: ks', _, _ =>
    rw [signalText_cons, signalText_cons] at hlist
    obtain ⟨rfl, htail⟩ := label_inj (List.append_cancel_left hlist)
    obtain ⟨rfl, hrest⟩ := labelTail_inj (endsLabels_withoutTail _) (endsLabels_withoutTail _) htail
    exact ⟨rfl, withoutTail_inj hrest⟩
  | [], [], k :: ks, k' :: ks' =>
    rw [signalText_nil_cons, signalText_nil_cons] at hlist
    exact ⟨rfl, withoutTail_inj (congrArg ("; ".toList ++ ·) hlist)⟩
  | [], [], [], [] => exact ⟨rfl, rfl⟩
  | k :: ks, [], _, k' :: ks' => exact absurd hstart hne₁
  | k :: ks, [], _, [] => exact absurd hstart hne₂
  | [], k' :: ks', k :: ks, _ => exact absurd hstart.symm hne₁
  | [], k' :: ks', [], _ => exact absurd hstart.symm hne₂
  | [], [], k :: ks, [] => exact absurd hstart hne₃
  | [], [], [], k' :: ks' => exact absurd hstart.symm hne₃

theorem saysOnly_signalText {present : Bool} {only without : List OptionKey} {k : OptionKey} :
    SaysOnly present (signalText only without) k ↔ k ∈ if present then only else without := by
  constructor
  · rintro ⟨named, h, hk⟩
    obtain ⟨rfl, rfl⟩ := signalText_inj h
    cases present <;> exact hk
  · intro h
    refine ⟨fun side => if side then only else without, rfl, ?_⟩
    cases present <;> exact h

/-! ### What the matrix shows -/

/-- A combination as a trial of its options that passes when it gets ready. -/
def Combination.trial (c : Combination) : Trial OptionKey where
  has k := decide (k ∈ c.options)
  passed := decide (c.outcome .ready = .pass)

def PathResult.trials (p : PathResult) : List (Trial OptionKey) := p.combinations.map Combination.trial

/-- The two sides of an effect. -/
def Effect.side (e : Effect) : Bool → Ratio
  | true => e.withOption
  | false => e.withoutOption

def sideKey : Bool → String
  | true => "withOption"
  | false => "withoutOption"

/-- The effects are those of the matrix, and for an option that varies in it the signal says on
    which side of the option all ready combinations are. -/
structure PathResult.EvidenceMatches (p : PathResult) : Prop where
  effects : ∀ e ∈ p.effects, ∀ present,
    e.side present = ⟨passes p.trials present e.key, tried p.trials present e.key⟩
  signal : ∀ k present, Varies p.trials k →
    (SaysOnly present p.signal k ↔ Requires p.trials present k)

/-- A submitted combination as a trial. -/
def submittedTrial (c : Json) : Trial OptionKey where
  has k :=
    match c.get "options" with
    | .json (.arr os) => os.any fun o => (Value.json o).isStr k.text
    | _ => false
  passed := (c.get "ready").isStr "pass"

/-- The effects submitted for a path. -/
def submittedEffects (item : Json) : List Json :=
  match item.get "effects" with
  | .json (.arr es) => es
  | _ => []

/-- Wherever some combinations get ready and some do not, each submitted effect has the counts of
    the submitted matrix, and no option that varies and separates the ready ones is left out. -/
def EffectsAgree (input : Json) : Prop :=
  ∀ path item total ready, submittedPath input path = some item →
    asCount (item.get "total") = some total → asCount (item.get "ready") = some ready →
    0 < ready → ready < total →
    let trials := (submittedCombinations input path).map submittedTrial
    let names (e : Json) (k : OptionKey) := (Value.json e).optional "key" = .json (.str k.text)
    (∀ e ∈ submittedEffects item, ∀ k, names e k → ∀ present,
      asCount ((e.get (sideKey present)).optional "ready") = some (passes trials present k) ∧
      asCount ((e.get (sideKey present)).optional "total") = some (tried trials present k)) ∧
    ∀ k, Varies trials k → (∃ present, Requires trials present k) →
      ∃ e ∈ submittedEffects item, names e k

theorem CombinationOf.trial {total : Nat} {item : Json} {c : Combination}
    (h : CombinationOf total item c) : submittedTrial item = c.trial := by
  obtain ⟨os, hos, hmatch⟩ := h.supplied
  rw [optionsMatch_iff] at hmatch
  have hready : (item.get "ready").isStr "pass" = decide (c.outcome .ready = .pass) := by
    rw [show "ready" = Stage.ready.key from rfl, h.outcome]
    exact isStr_text _ .pass
  have hhas (k : OptionKey) :
      (os.any fun o => (Value.json o).isStr k.text) = decide (k ∈ c.options) := by
    rw [Bool.eq_iff_iff, List.any_eq_true, decide_eq_true_eq, hmatch]
    constructor
    · rintro ⟨o, ho, hk⟩
      obtain ⟨k', hk', rfl⟩ := List.mem_map.mp ho
      rw [Value.isStr_iff, Value.json.injEq, Json.str.injEq] at hk
      rwa [← OptionKey.text_injective hk]
    · intro hk
      exact ⟨_, List.mem_map_of_mem hk, (Value.isStr_iff _ _).mpr rfl⟩
  simp only [submittedTrial, Combination.trial, hos, hhas, hready]

theorem map_of_forall₂ {α β γ : Type} {R : α → β → Prop} {f : α → γ} {g : β → γ} {xs : List α}
    {ys : List β} (h : List.Forall₂ R xs ys) (hfg : ∀ x y, R x y → f x = g y) :
    xs.map f = ys.map g := by
  induction h with
  | nil => rfl
  | cons hxy _ ih => rw [List.map_cons, List.map_cons, hfg _ _ hxy, ih]

/-- The stored matrix is the submitted one, sorted. -/
theorem PathOf.trials {input : Json} {capabilities : Capabilities} {item : Json} {p : PathResult}
    (hitem : submittedPath input p.path = some item) (h : PathOf capabilities item p) :
    ((submittedCombinations input p.path).map submittedTrial).Perm p.trials := by
  obtain ⟨items, hin, hlen, ⟨h0, hnil⟩ | ⟨-, supplied, hall, -, hsorted⟩⟩ :=
    sanitizeCombinations_eq_ok.mp h.combinations
  · rw [submittedCombinations, hitem, Option.map_some, hin, PathResult.trials, hnil]
    rw [h0] at hlen
    simp only [List.eq_nil_of_length_eq_zero hlen, List.map_nil, List.Perm.refl]
  · rw [submittedCombinations, hitem, Option.map_some, hin, PathResult.trials, hsorted]
    simp only [map_of_forall₂ hall fun _ _ hc => hc.trial]
    exact ((sortByMask_perm supplied).map _).symm

theorem PathOf.effects_of {capabilities : Capabilities} {item : Json} {p : PathResult}
    (h : PathOf capabilities item p) : List.Forall₂ EffectOf (submittedEffects item) p.effects := by
  rcases sanitizeEffects_eq_ok.mp h.effects with ⟨hin, hnil⟩ | ⟨items, hin, -, hall, -⟩
  · rw [submittedEffects, hin, hnil]
    exact .nil
  · rw [submittedEffects, hin]
    exact hall

theorem EffectOf.side {item : Json} {e : Effect} (h : EffectOf item e) (present : Bool) :
    asCount ((item.get (sideKey present)).optional "ready") = some (e.side present).ready ∧
      asCount ((item.get (sideKey present)).optional "total") = some (e.side present).total := by
  cases present with
  | true => exact ⟨h.withReady, h.withTotal⟩
  | false => exact ⟨h.withoutReady, h.withoutTotal⟩

/-- The effects whose passes are all on one side. -/
def onlySide (present : Bool) (es : List Effect) : List Effect :=
  if present then onlyWith es else onlyWithout es

theorem mem_onlySide {present : Bool} {es : List Effect} {e : Effect} : e ∈ onlySide present es ↔
    e ∈ es ∧ 0 < (e.side present).ready ∧ (e.side !present).ready = 0 := by
  cases present <;> simp [onlySide, onlyWith, onlyWithout, Effect.side]

/-- Given right effects, the signal names the listed options that the matrix separates. -/
theorem PathOf.saysOnly_iff {capabilities : Capabilities} {item : Json} {p : PathResult}
    (h : PathOf capabilities item p) (hpos : 0 < p.count (.stage .ready))
    (hlt : p.count (.stage .ready) < p.total)
    (heffects : ∀ e ∈ p.effects, ∀ present,
      e.side present = ⟨passes p.trials present e.key, tried p.trials present e.key⟩)
    (k : OptionKey) (present : Bool) : SaysOnly present p.signal k ↔
      (∃ e ∈ p.effects, e.key = k) ∧ Requires p.trials present k := by
  have hpass : ∃ t ∈ p.trials, t.passed = true := by
    rw [← h.passed, outcomeCount, List.length_pos_iff_exists_mem] at hpos
    obtain ⟨c, hc⟩ := hpos
    exact ⟨c.trial, List.mem_map_of_mem (List.mem_of_mem_filter hc), (List.mem_filter.mp hc).2⟩
  have hsignal : p.signal =
      signalText ((onlyWith p.effects).map Effect.key) ((onlyWithout p.effects).map Effect.key) := by
    rw [h.signal, optionSignal, if_neg (by omega), if_neg (by omega), if_neg (by omega),
      effectSignal_eq]
  have hnamed : SaysOnly present p.signal k ↔ k ∈ (onlySide present p.effects).map Effect.key := by
    rw [hsignal, saysOnly_signalText]
    cases present <;> rfl
  rw [hnamed, ← separates_iff hpass, List.mem_map]
  constructor
  · rintro ⟨e, he, rfl⟩
    obtain ⟨he, htest⟩ := mem_onlySide.mp he
    rw [heffects e he, heffects e he] at htest
    exact ⟨⟨e, he, rfl⟩, htest⟩
  · rintro ⟨⟨e, he, rfl⟩, htest⟩
    refine ⟨e, mem_onlySide.mpr ⟨he, ?_⟩, rfl⟩
    rw [heffects e he, heffects e he]
    exact htest

/-- For one path: its stored evidence agrees with itself when the submitted effects do. -/
theorem PathOf.evidenceMatches_iff {capabilities : Capabilities} {item : Json} {p : PathResult}
    {trials : List (Trial OptionKey)} (h : PathOf capabilities item p) (hperm : trials.Perm p.trials)
    (hpos : 0 < p.count (.stage .ready)) (hlt : p.count (.stage .ready) < p.total) :
    p.EvidenceMatches ↔
      (∀ e ∈ submittedEffects item, ∀ k : OptionKey,
        (Value.json e).optional "key" = .json (.str k.text) → ∀ present,
        asCount ((e.get (sideKey present)).optional "ready") = some (passes trials present k) ∧
        asCount ((e.get (sideKey present)).optional "total") = some (tried trials present k)) ∧
      ∀ k, Varies trials k → (∃ present, Requires trials present k) →
        ∃ e ∈ submittedEffects item, (Value.json e).optional "key" = .json (.str k.text) := by
  simp only [passes_perm hperm, tried_perm hperm, varies_perm hperm, requires_perm hperm]
  have hall := h.effects_of
  constructor
  · intro hp
    constructor
    · intro item' hitem' k hk present
      obtain ⟨e, he, hof⟩ := exists_of_forall₂_right hall.flip hitem'
      rw [hof.key, Value.json.injEq, Json.str.injEq] at hk
      obtain rfl := OptionKey.text_injective hk
      rw [(hof.side present).1, (hof.side present).2, hp.effects e he present]
      exact ⟨rfl, rfl⟩
    · rintro k hvaries ⟨present, hrequires⟩
      have hsays := (hp.signal k present hvaries).mpr hrequires
      obtain ⟨⟨e, he, rfl⟩, -⟩ := (h.saysOnly_iff hpos hlt hp.effects k present).mp hsays
      obtain ⟨item', hitem', hof⟩ := exists_of_forall₂_right hall he
      exact ⟨item', hitem', hof.key⟩
  · rintro ⟨hratios, hlisted⟩
    have heffects : ∀ e ∈ p.effects, ∀ present,
        e.side present = ⟨passes p.trials present e.key, tried p.trials present e.key⟩ := by
      intro e he present
      obtain ⟨item', hitem', hof⟩ := exists_of_forall₂_right hall he
      obtain ⟨hready, htotal⟩ := hratios item' hitem' e.key hof.key present
      rw [(hof.side present).1, Option.some.injEq] at hready
      rw [(hof.side present).2, Option.some.injEq] at htotal
      rw [← hready, ← htotal]
    refine ⟨heffects, fun k present hvaries => ?_⟩
    rw [h.saysOnly_iff hpos hlt heffects]
    refine ⟨fun hboth => hboth.2, fun hrequires => ⟨?_, hrequires⟩⟩
    obtain ⟨item', hitem', hkey⟩ := hlisted k hvaries ⟨present, hrequires⟩
    obtain ⟨e, he, hof⟩ := exists_of_forall₂_right hall.flip hitem'
    rw [hof.key, Value.json.injEq, Json.str.injEq] at hkey
    exact ⟨e, he, OptionKey.text_injective hkey⟩

/-- The stored effects and signals are those of the stored matrices exactly when the submitted
    effects agree with the submitted matrices. -/
theorem sanitizeSubmission_evidenceMatches_iff (input : Json) (receivedAt : String)
    (requireGrease : Bool) (s : Snapshot)
    (h : sanitizeSubmission input receivedAt requireGrease = .ok s) :
    (∀ p ∈ s.paths, 0 < p.count (.stage .ready) → p.count (.stage .ready) < p.total →
      p.EvidenceMatches) ↔ EffectsAgree input := by
  have hof := (sanitizeSubmission_eq_ok.mp h).2
  constructor
  · intro hmatches path item total ready hitem htotal hready hpos hlt
    obtain ⟨p, hp, rfl, hpath⟩ := hof.of_submittedPath hitem
    rw [hpath.total, Option.some.injEq] at htotal
    have hcount := (hpath.count (.stage .ready)).1
    rw [show PathMetric.key (.stage .ready) = "ready" from rfl, hready, Option.some.injEq] at hcount
    subst htotal hcount
    exact (hpath.evidenceMatches_iff (hpath.trials hitem) hpos hlt).mp (hmatches p hp hpos hlt)
  · intro hagree p hp hpos hlt
    obtain ⟨item, hitem, hpath⟩ := hof.path_of hp
    refine (hpath.evidenceMatches_iff (hpath.trials hitem) hpos hlt).mpr ?_
    exact hagree p.path item _ _ hitem hpath.total (hpath.count (.stage .ready)).1 hpos hlt

set_option maxRecDepth 100000 in
/-- A run whose effects are left out is stored with a signal that names no option. -/
theorem poolingRun_contradicts : ∃ s, sanitizeSubmission poolingRun "2026-07-16T12:00:00.000Z" false =
    .ok s ∧ ∃ p ∈ s.paths, 0 < p.count (.stage .ready) ∧ p.count (.stage .ready) < p.total ∧
      ¬ p.EvidenceMatches := by
  have hrun : (sanitizeSubmission poolingRun "2026-07-16T12:00:00.000Z" false).toOption.any (fun s =>
      s.paths.any fun p => decide (0 < p.count (.stage .ready)) &&
        decide (p.count (.stage .ready) < p.total) && decide (p.signal = signalText [] []) &&
        p.trials.any (fun t => t.has .allowPooling) && p.trials.any (fun t => !t.has .allowPooling) &&
        p.trials.all fun t => !t.passed || t.has .allowPooling) = true := by decide
  obtain ⟨s, hs, h⟩ := exists_of_any hrun
  obtain ⟨p, hp, h⟩ := List.any_eq_true.mp h
  simp only [Bool.and_eq_true, decide_eq_true_eq, List.any_eq_true, List.all_eq_true,
    Bool.not_eq_true', Bool.or_eq_true] at h
  obtain ⟨⟨⟨⟨⟨hpos, hlt⟩, hsignal⟩, t, ht, hhas⟩, t', ht', hlacks⟩, hall⟩ := h
  refine ⟨s, hs, p, hp, hpos, hlt, fun hmatches => ?_⟩
  have hvaries : Varies p.trials .allowPooling
    | true => ⟨t, ht, hhas⟩
    | false => ⟨t', ht', hlacks⟩
  have hsays := (hmatches.signal .allowPooling true hvaries).mpr fun t ht hpassed => by
    rcases hall t ht with h | h
    · rw [hpassed] at h; cases h
    · exact h
  rw [hsignal, saysOnly_signalText] at hsays
  cases hsays

/-- The effect that the matrix shows. -/
def poolingEffect : Effect where
  key := .allowPooling
  withOption := ⟨8, 8⟩
  withoutOption := ⟨0, 8⟩

set_option maxRecDepth 100000 in
theorem pooledRun_accepted : (sanitizeSubmission (pooledRun [poolingEffect]) "2026-07-16T12:00:00.000Z"
    false).toOption.any (fun s =>
      (s.paths.any fun p => decide (0 < p.count (.stage .ready)) &&
        decide (p.count (.stage .ready) < p.total)) &&
      s.paths.all fun p => decide (p.signal = signalText [.allowPooling] []) &&
        (p.effects.all fun e => [true, false].all fun present =>
          decide (e.side present = ⟨passes p.trials present e.key, tried p.trials present e.key⟩)) &&
        optionKeys.all fun k => [true, false].all fun present => (tried p.trials true k == 0) ||
          decide (passes p.trials (!present) k = 0) ==
            decide (k ∈ if present then [OptionKey.allowPooling] else [])) = true := by decide

/-- With it, the evidence agrees, though half of the combinations get ready. -/
theorem pooledRun_evidenceMatches_iff : ∃ s, sanitizeSubmission (pooledRun [poolingEffect])
    "2026-07-16T12:00:00.000Z" false = .ok s ∧
      (∃ p ∈ s.paths, 0 < p.count (.stage .ready) ∧ p.count (.stage .ready) < p.total) ∧
      EffectsAgree (pooledRun [poolingEffect]) := by
  obtain ⟨s, hs, h⟩ := exists_of_any pooledRun_accepted
  rw [Bool.and_eq_true] at h
  obtain ⟨hsome, hall⟩ := h
  refine ⟨s, hs, ?_, (sanitizeSubmission_evidenceMatches_iff _ _ _ s hs).mp fun p hp _ _ => ?_⟩
  · obtain ⟨p, hp, hready⟩ := List.any_eq_true.mp hsome
    rw [Bool.and_eq_true, decide_eq_true_eq, decide_eq_true_eq] at hready
    exact ⟨p, hp, hready⟩
  · have hpath := List.all_eq_true.mp hall p hp
    simp only [Bool.and_eq_true, decide_eq_true_eq, List.all_eq_true] at hpath
    obtain ⟨⟨hsignal, heffects⟩, hkeys⟩ := hpath
    have hsides (present : Bool) : present ∈ [true, false] := by cases present <;> decide
    refine ⟨fun e he present => heffects e he present (hsides present), fun k present hvaries => ?_⟩
    have hkey := hkeys k (by cases k <;> decide) present (hsides present)
    -- both sides of the option were tried
    have htried : tried p.trials true k ≠ 0 := by
      obtain ⟨t, ht, hhas⟩ := hvaries true
      rw [tried, ne_eq, List.countP_eq_zero]
      exact fun hnone => hnone t ht (by rw [hhas]; rfl)
    rw [Bool.or_eq_true, beq_iff_eq, beq_iff_eq, decide_eq_decide] at hkey
    rw [hsignal, saysOnly_signalText, ← passes_eq_zero_iff]
    exact (hkey.resolve_left htried).symm

end WebTransportEcho.Store
