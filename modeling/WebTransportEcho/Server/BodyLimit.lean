import WebTransportEcho.Server.Answered

/-! The limit on a body. The chunks are counted as they come, and `413` is answered to a body that is
    longer than the limit and to no other: not to one that breaks off before, not to one that cannot
    be parsed, and not to what the store makes of it. -/

namespace WebTransportEcho.Server
open Js Store

/-! ### Reading a body -/

/-- What is counted chunk by chunk is the length of the whole. -/
theorem readChunks_eq (maxBytes : Nat) (failure : Option Error) : ∀ (chunks : List (List UInt8))
    (read : List UInt8), read.length ≤ maxBytes → readChunks maxBytes failure read chunks =
      if maxBytes < (read ++ chunks.flatten).length then
        .error (.requestBody 413 "request body too large")
      else match failure with
        | none => .ok (read ++ chunks.flatten)
        | some e => .error (.js e)
  | [], read, h => by
    rw [List.flatten_nil, List.append_nil, if_neg (Nat.not_lt.mpr h)]
    rfl
  | chunk :: chunks, read, h => by
    rw [readChunks, List.flatten_cons, ← List.append_assoc]
    by_cases hlong : maxBytes < (read ++ chunk).length
    · have hwhole : maxBytes < (read ++ chunk ++ chunks.flatten).length := by
        rw [List.length_append]
        omega
      rw [if_pos hlong, if_pos hwhole]
    · rw [if_neg hlong, readChunks_eq maxBytes failure chunks _ (Nat.not_lt.mp hlong)]

/-- What `readJsonBody` returns or throws. -/
def bodyResult (body : Body) (maxBytes : Nat) : Except Thrown Json :=
  if maxBytes < body.chunks.flatten.length then .error (.requestBody 413 "request body too large")
  else match body.failure with
    | some e => .error (.js e)
    | none =>
      if body.chunks.flatten = [] then .error (.requestBody 400 "request body required")
      else match parse (String.ofList (Utf8.decode body.chunks.flatten)) with
        | .ok j => .ok j
        | .error e => .error (.js e)

theorem readJsonBody_run (body : Body) (maxBytes : Nat) (x : Exchange) :
    (readJsonBody body maxBytes).run.run x = (bodyResult body maxBytes, x) := by
  have hchunks := readChunks_eq maxBytes body.failure body.chunks [] (Nat.zero_le _)
  rw [List.nil_append] at hchunks
  rw [readJsonBody, bodyResult, hchunks]
  by_cases hlong : maxBytes < body.chunks.flatten.length
  · rw [if_pos hlong, if_pos hlong]
    rfl
  · rw [if_neg hlong, if_neg hlong]
    cases body.failure with
    | some e => rfl
    | none =>
      cases hbytes : body.chunks.flatten with
      | nil => rfl
      | cons b bytes =>
        rw [if_neg (List.cons_ne_nil _ _)]
        cases hparse : parse (String.ofList (Utf8.decode (b :: bytes))) with
        | ok j => simp only [attempt, hparse]; rfl
        | error e => simp only [attempt, hparse]; rfl

/-- Only a body that is too long is refused for its length. -/
theorem bodyResult_tooLarge {body : Body} {maxBytes : Nat} {message : String}
    (h : bodyResult body maxBytes = .error (.requestBody 413 message)) :
    maxBytes < body.chunks.flatten.length := by
  by_contra hfits
  rw [bodyResult, if_neg hfits] at h
  split at h
  · cases h
  · split at h
    · cases h
    · split at h <;> cases h

/-! ### The answer -/

/-- `413` was answered. -/
def TooLarge (writes : List Write) : Prop := ∃ headers, .head 413 headers ∈ writes

theorem sendJson_run (server : PageServer) (status : Nat) (body : Json) (headers : Headers)
    {x : Exchange} (h : x.writes = []) : ∃ sent content,
      (sendJson server status body headers).run.run x =
        (.ok (), { x with writes := [.head status sent, .finish content] }) := by
  obtain ⟨writes, submission⟩ := x
  cases h
  exact ⟨_, _, rfl⟩

theorem not_tooLarge {status : Nat} {sent : Headers} {content : Content} (h : status ≠ 413) :
    ¬ TooLarge [.head status sent, .finish content] := by
  rintro ⟨headers, hmem⟩
  rcases List.mem_cons.mp hmem with heq | hmem
  · cases heq
    exact h rfl
  · cases List.mem_singleton.mp hmem

theorem sendJson_fits (server : PageServer) {status : Nat} (h : status ≠ 413) (body : Json)
    (headers : Headers) : ¬ TooLarge ((sendJson server status body headers).run.run fresh).2.writes := by
  obtain ⟨sent, content, hsent⟩ := sendJson_run server status body headers (x := fresh) rfl
  rw [hsent]
  exact not_tooLarge h

/-- A computation that returned goes on from the state that it left. -/
theorem bind_run_ok {α β : Type} {m : Handler α} {f : α → Handler β} {x y : Exchange} {value : α}
    (h : m.run.run x = (.ok value, y)) : (m >>= f).run.run x = (f value).run.run y := by
  rw [ExceptT.run_bind, StateT.run_bind, h]
  rfl

theorem bind_run_error {α β : Type} {m : Handler α} {f : α → Handler β} {x y : Exchange} {e : Thrown}
    (h : m.run.run x = (.error e, y)) : (m >>= f).run.run x = (.error e, y) := by
  rw [ExceptT.run_bind, StateT.run_bind, h]
  rfl

theorem tryCatch_run_ok {α : Type} {m : Handler α} {handle : Thrown → Handler α} {x y : Exchange}
    {value : α} (h : m.run.run x = (.ok value, y)) :
    (tryCatch m handle : Handler α).run.run x = (.ok value, y) := by
  rw [ExceptT.run_tryCatch, StateT.run_bind, h]
  rfl

theorem tryCatch_run_error {α : Type} {m : Handler α} {handle : Thrown → Handler α} {x y : Exchange}
    {e : Thrown} (h : m.run.run x = (.error e, y)) :
    (tryCatch m handle : Handler α).run.run x = (handle e).run.run y := by
  rw [ExceptT.run_tryCatch, StateT.run_bind, h]
  rfl

/-- The store throws no `RequestBodyError`. -/
theorem attempt_run {α : Type} (r : Except Error α) (x : Exchange) :
    (∃ value, r = .ok value ∧ (attempt r).run.run x = (.ok value, x)) ∨
      ∃ e, r = .error e ∧ (attempt r).run.run x = (.error (.js e), x) := by
  cases r with
  | ok value => exact .inl ⟨value, rfl, rfl⟩
  | error e => exact .inr ⟨e, rfl, rfl⟩

/-- A submission that fits is answered without a complaint about its length, or throws something else
    before anything is written. -/
theorem acceptSubmission_fits (server : PageServer) (a : Answers) {body : Body}
    (h : body.chunks.flatten.length ≤ 64 * 1024) :
    (∃ x, (acceptSubmission server a body).run.run fresh = (.ok (), x) ∧ ¬ TooLarge x.writes) ∨
      ∃ e, (acceptSubmission server a body).run.run fresh = (.error e, fresh) ∧
        ∀ message, e ≠ .requestBody 413 message := by
  have hread := readJsonBody_run body (64 * 1024) fresh
  cases hresult : bodyResult body (64 * 1024) with
  | error e =>
    rw [hresult] at hread
    refine .inr ⟨e, bind_run_error hread, fun message heq => ?_⟩
    rw [heq] at hresult
    exact Nat.not_lt.mpr h (bodyResult_tooLarge hresult)
  | ok input =>
    rw [hresult] at hread
    rw [acceptSubmission, bind_run_ok hread]
    obtain ⟨key, -, hkey⟩ | ⟨e, -, hkey⟩ := attempt_run (browserKeyForSubmission input) fresh
    · rw [bind_run_ok hkey]
      split
      · obtain ⟨sent, content, hsent⟩ := sendJson_run server 429
          (errorBody "submission rate limited") [("retry-after", "2")] (x := fresh) rfl
        exact .inl ⟨_, hsent, not_tooLarge (by decide)⟩
      · obtain ⟨recorded, -, hrecorded⟩ | ⟨e, -, hrecorded⟩ := attempt_run a.recorded fresh
        · rw [bind_run_ok hrecorded]
          obtain ⟨sent, content, hsent⟩ := sendJson_run server 202 (recordedBody recorded) []
            (x := { fresh with submission := some (recorded.browserKey, a.now) }) rfl
          exact .inl ⟨_, hsent, not_tooLarge (by decide)⟩
        · exact .inr ⟨.js e, bind_run_error hrecorded, fun _ heq => by cases heq⟩
    · exact .inr ⟨.js e, bind_run_error hkey, fun _ heq => by cases heq⟩

theorem answerError_fits (server : PageServer) {e : Thrown}
    (h : ∀ message, e ≠ .requestBody 413 message) :
    ¬ TooLarge ((answerError server e).run.run fresh).2.writes := by
  cases e with
  | requestBody status message =>
    refine sendJson_fits server (fun hstatus => ?_) _ _
    rw [hstatus] at h
    exact h message rfl
  | js e =>
    cases e with
    | typeError message => exact sendJson_fits server (by decide) _ _
    | syntaxError message => exact sendJson_fits server (by decide) _ _
    | error message => exact sendJson_fits server (by decide) _ _

/-- `413` is answered only to a body that is longer than the limit. -/
theorem handleBrowserResults_tooLarge {server : PageServer} {a : Answers} {req : Request}
    (h : TooLarge ((handleBrowserResults server a req).run.run fresh).2.writes) :
    64 * 1024 < req.body.chunks.flatten.length := by
  by_contra hfits
  revert h
  unfold handleBrowserResults
  split
  · exact sendJson_fits server (by decide) _ _
  · split
    · obtain ⟨snapshot, -, hsnapshot⟩ | ⟨e, -, hsnapshot⟩ := attempt_run a.snapshot fresh
      · rw [bind_run_ok hsnapshot]
        exact sendJson_fits server (by decide) _ _
      · rw [bind_run_error hsnapshot]
        rintro ⟨headers, hmem⟩
        cases hmem
    · split
      · exact sendJson_fits server (by decide) _ _
      · split
        · exact sendJson_fits server (by decide) _ _
        · split
          · exact sendJson_fits server (by decide) _ _
          · obtain ⟨x, hx, hshort⟩ | ⟨e, he, hother⟩ :=
              acceptSubmission_fits server a (Nat.not_lt.mp hfits)
            · rw [tryCatch_run_ok hx]
              exact hshort
            · rw [tryCatch_run_error he]
              exact answerError_fits server hother

/-- However much of the bytes has come, they are not refused for their length: `readJsonBody` does not
    throw a `413`, and none is answered. -/
def NeverTooLarge (bytes : List UInt8) : Prop :=
  ∀ (server : PageServer) (a : Answers) (req : Request), req.body.chunks.flatten <+: bytes →
    (∀ x message, ((readJsonBody req.body (64 * 1024)).run.run x).1 ≠
      .error (.requestBody 413 message)) ∧
    ¬ TooLarge ((handleBrowserResults server a req).run.run fresh).2.writes

theorem neverTooLarge_of_le {bytes : List UInt8} (h : bytes.length ≤ 64 * 1024) :
    NeverTooLarge bytes := by
  intro server a req hcome
  have hfits : ¬ 64 * 1024 < req.body.chunks.flatten.length :=
    Nat.not_lt.mpr (hcome.length_le.trans h)
  refine ⟨fun x message hthrown => ?_, fun hanswered => hfits (handleBrowserResults_tooLarge hanswered)⟩
  rw [readJsonBody_run] at hthrown
  exact hfits (bodyResult_tooLarge hthrown)

end WebTransportEcho.Server
