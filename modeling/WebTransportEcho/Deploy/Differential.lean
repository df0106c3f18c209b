import WebTransportEcho.Backend.Options
import WebTransportEcho.Page.Configuration
import WebTransportEcho.Page.Target

/-! The GREASE comparison of the test host, from one environment: `run-tokio-quiche.sh` starts the
    control listener and the GREASE listener, and `run-page.sh` tells the page server where they are.
    The two listeners differ in GREASE, in their port and in where they log, and in nothing else
    (`arms_differ`), and the two probes of a page go to these two ports and to the same path
    (`probes_reach_arms`).

    The environment is the one that the environment file has been read into. The bash that is used is
    parameter expansion, command substitution and `[[ ]]`; `RUST_LOG` and the paths of the programs
    are left out. -/

namespace WebTransportEcho.Deploy
open TokioQuiche

/-! ### The scripts -/

abbrev Env := String → Option String

/-- `${name:-default}`: a value that is empty is none. -/
def Env.get (env : Env) (name default : String) : String :=
  match env name with
  | some value => if value = "" then default else value
  | none => default

/-- `: "${name:?name is required}"`. -/
def Env.required (env : Env) (name : String) : Except String String :=
  let value := env.get name ""
  if value = "" then .error s!"{name} is required" else .ok value

/-- `$( )` drops the newlines at the end. -/
def substituted (output : String) : String :=
  String.ofList (output.toList.rdropWhile fun c => decide (c = '\n'))

def formatListen (listenHost port : String) : String :=
  if listenHost.toList.head? = some '[' ∧ listenHost.toList.getLast? = some ']' then
    listenHost ++ ":" ++ port
  else if ':' ∈ listenHost.toList then "[" ++ listenHost ++ "]:" ++ port
  else listenHost ++ ":" ++ port

/-- What a mode of `run-tokio-quiche.sh` sets. -/
structure Arm where
  portName : String
  defaultPort : String
  greaseFlag : String
  qlogDirName : String
  secretsLogName : String

def controlArm : Arm where
  portName := "WT_QUICHE_CONTROL_PORT"
  defaultPort := "9447"
  greaseFlag := "--no-grease"
  qlogDirName := "WT_QUICHE_CONTROL_QLOG_DIR"
  secretsLogName := "WT_QUICHE_CONTROL_SECRETS_LOG"

def greaseArm : Arm where
  portName := "WT_QUICHE_GREASE_PORT"
  defaultPort := "9448"
  greaseFlag := "--grease"
  qlogDirName := "WT_QUICHE_GREASE_QLOG_DIR"
  secretsLogName := "WT_QUICHE_GREASE_SECRETS_LOG"

def armOf : String → Option Arm
  | "control" => some controlArm
  | "grease" => some greaseArm
  | _ => none

def Arm.port (arm : Arm) (env : Env) : String := env.get arm.portName arm.defaultPort

def Arm.listen (arm : Arm) (env : Env) : String :=
  substituted (formatListen (env.get "WT_QUICHE_LISTEN_HOST" "::") (arm.port env))

/-- An argument that is given when its value is not empty. -/
def optional (flag value : String) : List String := if value = "" then [] else [flag, value]

/-- `"${args[@]}"`. -/
def Arm.args (arm : Arm) (env : Env) (cert key : String) : List String :=
  ["--listen", arm.listen env, "--cert", cert, "--key", key, "--cc", env.get "WT_QUICHE_CC" "cubic",
    arm.greaseFlag] ++
  (if env.get "WT_QUICHE_RESET_STREAM_AT" "1" ≠ "0" then [] else ["--no-reset-stream-at"]) ++
  (if env.get "WT_QUICHE_RETRY" "0" ≠ "1" then [] else ["--retry"]) ++
  optional "--qlog-dir" (env.get arm.qlogDirName "") ++
  optional "--secrets-log" (env.get arm.secretsLogName "")

/-- The arguments that the backend is started with. -/
def runTokioQuiche (env : Env) (executable : Bool) (mode : String) : Except String (List String) := do
  let cert ← env.required "WT_CERT"
  let key ← env.required "WT_KEY"
  if executable = false then .error "tokio-quiche backend is missing"
  else
    match armOf mode with
    | none => .error "usage: control|grease"
    | some arm => .ok (arm.args env cert key)

/-- What a mode listens with, when the script starts the backend and the backend has its options. -/
def listenerOf (env : Env) (executable : Bool) (mode : String) : Option Listener := do
  let args ← (runTokioQuiche env executable mode).toOption
  let options ← (Options.parse args).toOption
  return options.listener

/-- `export name=value`. -/
def Env.set (env : Env) (name value : String) : Env := Function.update env name (some value)

def Env.unset (env : Env) (name : String) : Env := Function.update env name none

/-- The environment of the page server. -/
def runPage (env : Env) : Env :=
  if env.get "WT_GREASE_DIFFERENTIAL" "1" = "1" then
    let publicHost := env.get "WT_CERT_HOST" "wttest.quicast.de"
    let env := env.set "WT_GREASE_CONTROL_BASE" (env.get "WT_GREASE_CONTROL_BASE"
      ("https://" ++ publicHost ++ ":" ++ env.get "WT_QUICHE_CONTROL_PORT" "9447"))
    env.set "WT_GREASE_ENABLED_BASE" (env.get "WT_GREASE_ENABLED_BASE"
      ("https://" ++ publicHost ++ ":" ++ env.get "WT_QUICHE_GREASE_PORT" "9448"))
  else (env.unset "WT_GREASE_CONTROL_BASE").unset "WT_GREASE_ENABLED_BASE"

/-! ### The listeners -/

/-- The options of an arm that listens there. -/
def Arm.options (arm : Arm) (env : Env) (cert key : String) (listen : SocketAddr.Addr) : Options where
  listen := listen
  cert := cert
  key := key
  qlogDir := if env.get arm.qlogDirName "" = "" then none else some (env.get arm.qlogDirName "")
  secretsLog := if env.get arm.secretsLogName "" = "" then none else some (env.get arm.secretsLogName "")
  resetStreamAt := decide (env.get "WT_QUICHE_RESET_STREAM_AT" "1" ≠ "0")
  grease := decide (arm.greaseFlag = "--grease")
  disableClientIpValidation := decide (env.get "WT_QUICHE_RETRY" "0" ≠ "1")
  ccAlgorithm := env.get "WT_QUICHE_CC" "cubic"

/-- The options before any argument. -/
def initialOptions : Options where
  listen := { ip := .v6 (List.replicate 8 0) 0, port := 9446 }
  cert := defaultCert
  key := defaultKey
  qlogDir := none
  secretsLog := none
  resetStreamAt := true
  grease := false
  disableClientIpValidation := true
  ccAlgorithm := "cubic"

theorem parse_initial (args : List String) : Options.parse args = initialOptions.read args := by
  have hlisten : parseAddr defaultListen "invalid socket address syntax" =
      .ok { ip := .v6 (List.replicate 8 0) 0, port := 9446 } := by decide +kernel
  rw [Options.parse, hlisten]
  rfl

section Read

variable (o : Options)

theorem read_resetStreamAt (p : Prop) [Decidable p] :
    o.read (if p then [] else ["--no-reset-stream-at"]) =
      .ok { o with resetStreamAt := (o.resetStreamAt && decide p) } := by
  split_ifs with h <;> simp [Options.read, h]

theorem read_retry (p : Prop) [Decidable p] : o.read (if p then [] else ["--retry"]) =
    .ok { o with disableClientIpValidation := (o.disableClientIpValidation && decide p) } := by
  split_ifs with h <;> simp [Options.read, h]

theorem read_qlogDir (value : String) : o.read (optional "--qlog-dir" value) =
    .ok { o with qlogDir := if value = "" then o.qlogDir else some value } := by
  unfold optional
  split_ifs <;> rfl

theorem read_secretsLog (value : String) : o.read (optional "--secrets-log" value) =
    .ok { o with secretsLog := if value = "" then o.secretsLog else some value } := by
  unfold optional
  split_ifs <;> rfl

end Read

/-- Nothing in the environment is taken for a flag. -/
theorem parse_args {arm : Arm} (harm : arm = controlArm ∨ arm = greaseArm) (env : Env)
    (cert key : String) : (Options.parse (arm.args env cert key)).toOption =
      (SocketAddr.parse (arm.listen env).toList).map (arm.options env cert key) := by
  rw [parse_initial, Arm.args, List.append_assoc, List.append_assoc, List.append_assoc]
  cases hlisten : SocketAddr.parse (arm.listen env).toList with
  | none =>
    simp only [List.cons_append, Options.read, parseAddr, hlisten]
    rfl
  | some listen =>
    have hfirst : initialOptions.read ["--listen", arm.listen env, "--cert", cert, "--key", key, "--cc",
        env.get "WT_QUICHE_CC" "cubic", arm.greaseFlag] = .ok { initialOptions with
          listen, cert, key, ccAlgorithm := env.get "WT_QUICHE_CC" "cubic"
          grease := decide (arm.greaseFlag = "--grease") } := by
      rcases harm with rfl | rfl <;> simp only [Options.read, parseAddr, hlisten] <;> rfl
    rw [Options.read_append hfirst, Options.read_append (read_resetStreamAt _ _),
      Options.read_append (read_retry _ _), Options.read_append (read_qlogDir _ _), read_secretsLog]
    simp [Arm.options, initialOptions, Except.toOption]

/-- A mode that listens has its options from the environment. -/
theorem listenerOf_eq {env : Env} {executable : Bool} {mode : String} {arm : Arm}
    (harm : armOf mode = some arm) (hmember : arm = controlArm ∨ arm = greaseArm) {listener : Listener}
    (h : listenerOf env executable mode = some listener) : ∃ cert key listen,
      env.required "WT_CERT" = .ok cert ∧ env.required "WT_KEY" = .ok key ∧
      SocketAddr.parse (arm.listen env).toList = some listen ∧
      listener = (arm.options env cert key listen).listener := by
  obtain ⟨args, hargs, h⟩ := Option.bind_eq_some_iff.mp h
  obtain ⟨options, hoptions, h⟩ := Option.bind_eq_some_iff.mp h
  cases h
  cases hcert : env.required "WT_CERT" with
  | error e =>
    rw [runTokioQuiche, hcert] at hargs
    cases hargs
  | ok cert =>
    cases hkey : env.required "WT_KEY" with
    | error e =>
      rw [runTokioQuiche, hcert, hkey] at hargs
      cases hargs
    | ok key =>
      have hrun : runTokioQuiche env executable mode = if executable = false then
          .error "tokio-quiche backend is missing" else .ok (arm.args env cert key) := by
        rw [runTokioQuiche, hcert, hkey, harm]
        rfl
      rw [hrun] at hargs
      split_ifs at hargs
      · cases hargs
      · cases hargs
        rw [parse_args hmember] at hoptions
        obtain ⟨listen, hlisten, rfl⟩ := Option.map_eq_some_iff.mp hoptions
        exact ⟨cert, key, listen, rfl, rfl, hlisten, rfl⟩

/-! ### Ports -/

/-- The arm's port without the newlines at its end. -/
def Arm.portText (arm : Arm) (env : Env) : List Char :=
  (arm.port env).toList.rdropWhile fun c => decide (c = '\n')

/-- What stands before the port is the same in both modes. -/
theorem listen_eq (env : Env) : ∃ front, ∀ arm : Arm,
    (arm.listen env).toList = front ++ ':' :: arm.portText env := by
  have hdrop (front port : List Char) : (front ++ ':' :: port).rdropWhile (fun c => decide (c = '\n')) =
      front ++ ':' :: port.rdropWhile fun c => decide (c = '\n') := by
    rw [List.rdropWhile, List.reverse_append, List.reverse_cons, List.append_assoc, List.singleton_append,
      Split.dropWhile_append_stop (by rintro c ⟨⟩; decide), List.reverse_append, List.reverse_cons,
      List.reverse_reverse, List.append_assoc, List.singleton_append]
    rfl
  let host := env.get "WT_QUICHE_LISTEN_HOST" "::"
  have hformat : ∃ front : List Char, ∀ port : String,
      (formatListen host port).toList = front ++ ':' :: port.toList := by
    by_cases hbracket : host.toList.head? = some '[' ∧ host.toList.getLast? = some ']'
    · refine ⟨host.toList, fun port => ?_⟩
      rw [formatListen, if_pos hbracket]
      simp
    · by_cases hcolon : ':' ∈ host.toList
      · refine ⟨'[' :: host.toList ++ [']'], fun port => ?_⟩
        rw [formatListen, if_neg hbracket, if_pos hcolon]
        simp
      · refine ⟨host.toList, fun port => ?_⟩
        rw [formatListen, if_neg hbracket, if_neg hcolon]
        simp
  obtain ⟨front, hfront⟩ := hformat
  refine ⟨front, fun arm => ?_⟩
  rw [Arm.listen, substituted, String.toList_ofList, hfront, hdrop]
  rfl

/-- One environment starts both listeners, and its ports have no colon. -/
structure Listens (env : Env) (executable : Bool) (control grease : Listener) : Prop where
  control : listenerOf env executable "control" = some control
  grease : listenerOf env executable "grease" = some grease
  controlPort : ':' ∉ (controlArm.port env).toList
  greasePort : ':' ∉ (greaseArm.port env).toList

theorem portText_notMem {arm : Arm} {env : Env} (h : ':' ∉ (arm.port env).toList) :
    ':' ∉ arm.portText env :=
  fun hmem => h ((List.rdropWhile_prefix _ _).subset hmem)

/-- An arm listens on the port that the environment gives it. -/
theorem listenerOf_port {env : Env} {executable : Bool} {mode : String} {arm : Arm}
    (harm : armOf mode = some arm) (hmember : arm = controlArm ∨ arm = greaseArm) {listener : Listener}
    (h : listenerOf env executable mode = some listener) (hcolon : ':' ∉ (arm.port env).toList) :
    SocketAddr.IsPort (arm.portText env) listener.listen.port := by
  obtain ⟨front, hfront⟩ := listen_eq env
  obtain ⟨cert, key, listen, -, -, hlisten, rfl⟩ := listenerOf_eq harm hmember h
  rw [hfront] at hlisten
  exact (SocketAddr.parse_port hlisten (portText_notMem hcolon)).1

/-- The control listener and the GREASE listener differ in GREASE, in the port and in the two files
    that are written. -/
theorem arms_differ {env : Env} {executable : Bool} {control grease : Listener}
    (h : Listens env executable control grease) :
    control.settings.grease = false ∧ grease =
      { control with
        listen := { control.listen with port := grease.listen.port }
        settings := { control.settings with
          grease := true
          qlogDir := grease.settings.qlogDir
          keylogFile := grease.settings.keylogFile } } := by
  have hport := listenerOf_port rfl (Or.inr rfl) h.grease h.greasePort
  obtain ⟨front, hfront⟩ := listen_eq env
  obtain ⟨cert, key, listen, hcert, hkey, hlisten, rfl⟩ := listenerOf_eq rfl (Or.inl rfl) h.control
  obtain ⟨cert', key', listen', hcert', hkey', hlisten', rfl⟩ := listenerOf_eq rfl (Or.inr rfl) h.grease
  cases hcert.symm.trans hcert'
  cases hkey.symm.trans hkey'
  rw [hfront] at hlisten hlisten'
  -- the texts of the two addresses have the same front, which is read the same with both ports
  rw [(SocketAddr.parse_port hlisten (portText_notMem h.controlPort)).2 _ _ hport] at hlisten'
  refine ⟨rfl, ?_⟩
  rw [← Option.some.inj hlisten']
  rfl

/-! ### The probes -/

/-- The port that is connected to. -/
def portOf (url : Url.Record) : Nat := url.authority.port.getD url.scheme.defaultPort

theorem Env.get_of_empty {env : Env} {name : String} (h : env.get name "" = "") (default : String) :
    env.get name default = default := by
  unfold Env.get at h ⊢
  cases hvalue : env name with
  | none => rfl
  | some value =>
    rw [hvalue] at h
    by_cases hempty : value = ""
    · exact if_pos hempty
    · exact absurd ((if_neg hempty).symm.trans h) hempty

theorem Env.get_ne_empty (env : Env) (name : String) {default : String} (h : default ≠ "") :
    env.get name default ≠ "" := by
  unfold Env.get
  cases env name with
  | none => exact h
  | some value =>
    by_cases hempty : value = ""
    · simpa only [if_pos hempty] using h
    · simpa only [if_neg hempty] using hempty

/-- The base of an arm in the environment of the page server. -/
def Arm.base (arm : Arm) (env : Env) : String :=
  "https://" ++ env.get "WT_CERT_HOST" "wttest.quicast.de" ++ ":" ++ arm.port env

theorem isDigit_of_digitOf {c : Char} (h : (SocketAddr.digitOf 10 c).isSome = true) :
    c.isDigit = true ∧ SocketAddr.digitOf 10 c = some (c.toNat - '0'.toNat) := by
  have hletter (n : Nat) : (some (n + 10)).filter (fun d => decide (d < 10)) = none := by simp
  rw [SocketAddr.digitOf] at h ⊢
  split_ifs at h ⊢ with hdigit hlower hupper
  · have hlt : c.toNat - '0'.toNat < 10 := by
      have : '9'.toNat = '0'.toNat + 9 := rfl
      omega
    refine ⟨?_, if_pos (decide_eq_true hlt)⟩
    simp only [Char.isDigit, Bool.and_eq_true, decide_eq_true_eq, ge_iff_le, UInt32.le_iff_toNat_le]
    exact hdigit
  · rw [hletter] at h
    cases h
  · rw [hletter] at h
    cases h
  · cases h

theorem readPort_of_isPort {text : List Char} {n : Nat} (h : SocketAddr.IsPort text n) :
    Url.readPort .https text = some (if n = 443 then none else some n) := by
  obtain ⟨hne, hall, hvalue, hle⟩ := h.digits
  have hdigits : text.all Char.isDigit = true :=
    List.all_eq_true.mpr fun c hc => (isDigit_of_digitOf (hall c hc)).1
  have hfold : ∀ (digits : List Char), (∀ c ∈ digits, (SocketAddr.digitOf 10 c).isSome = true) → ∀ n : Nat,
      digits.foldl (fun n c => 10 * n + (SocketAddr.digitOf 10 c).getD 0) n =
        digits.foldl (fun n d => 10 * n + (d.toNat - '0'.toNat)) n := by
    intro digits hdigits
    induction digits with
    | nil => exact fun n => rfl
    | cons c digits ih =>
      intro n
      rw [List.foldl_cons, List.foldl_cons, ih (fun d hd => hdigits d (List.mem_cons_of_mem _ hd)),
        (isDigit_of_digitOf (hdigits c List.mem_cons_self)).2, Option.getD_some]
  have hsame : text.foldl (fun n d => 10 * n + (d.toNat - '0'.toNat)) 0 = n := by
    rw [hvalue, hfold text hall]
  rw [Url.readPort, hdigits, if_neg (by simp), if_neg hne]
  simp only [hsame]
  rw [if_neg (Nat.not_lt.mpr hle)]
  rfl

theorem isNameChar_of_isPort {text : List Char} {n : Nat} (h : SocketAddr.IsPort text n) :
    ∀ c ∈ text, Url.isNameChar c = true := by
  intro c hc
  have hdigit := (isDigit_of_digitOf (h.digits.2.1 c hc)).1
  simp [Url.isNameChar, Char.isAlphanum, hdigit]

theorem not_isBlank {c : Char} (h : Url.isNameChar c = true) : Js.isBlank c = false := by
  have := Url.isNameChar_bounds h
  simp only [Js.isBlank, Bool.or_eq_false_iff, Bool.and_eq_false_iff, decide_eq_false_iff_not]
  omega

/-- The newlines that are dropped. -/
theorem exists_newlines (text : List Char) : ∃ newlines : List Char,
    text = (text.rdropWhile fun c => decide (c = '\n')) ++ newlines ∧ ∀ c ∈ newlines, c = '\n' := by
  refine ⟨text.rtakeWhile fun c => decide (c = '\n'), ?_, fun c hc => ?_⟩
  · rw [List.rdropWhile_append_rtakeWhile]
  · simpa using List.mem_rtakeWhile_imp hc

/-- The base of an arm as the page is told. -/
def Arm.target (arm : Arm) (env : Env) : String :=
  String.ofList (Url.https ++
    ((env.get "WT_CERT_HOST" "wttest.quicast.de").toList ++ ':' :: arm.portText env))

theorem target_last {arm : Arm} {env : Env} {n : Nat} (hport : SocketAddr.IsPort (arm.portText env) n) :
    (arm.target env).toList.getLast? ≠ some '/' := by
  have htarget : (arm.target env).toList = Url.https ++
      (env.get "WT_CERT_HOST" "wttest.quicast.de").toList ++ [':'] ++ arm.portText env := by
    simp [Arm.target]
  rw [htarget, List.getLast?_append_of_ne_nil _ hport.digits.1]
  intro hlast
  exact absurd (isNameChar_of_isPort hport '/' (List.mem_of_mem_getLast? hlast)) (by decide)

/-- What the server makes of a base: the newlines behind the port are no part of it. -/
theorem optionalString_base {arm : Arm} {env : Env} {n : Nat}
    (hhost : ∀ c ∈ (env.get "WT_CERT_HOST" "wttest.quicast.de").toList, Url.isNameChar c = true)
    (hport : SocketAddr.IsPort (arm.portText env) n) :
    Server.optionalString (some (arm.base env)) = some (arm.target env) := by
  obtain ⟨newlines, htext, hnewlines⟩ := exists_newlines (arm.port env).toList
  have hbase : (arm.base env).toList = [] ++ (arm.target env).toList ++ newlines := by
    have hport : (arm.port env).toList = arm.portText env ++ newlines := htext
    have hhttps : "https://".toList = Url.https := rfl
    simp only [Arm.base, Arm.target, String.toList_append, String.toList_ofList, hport, hhttps]
    simp
  have hkept : ∀ c ∈ (arm.target env).toList, Js.isBlank c = false := by
    rw [Arm.target, String.toList_ofList]
    intro c hc
    rcases List.mem_append.mp hc with hc | hc
    · have hscheme : ∀ c ∈ Url.https, Js.isBlank c = false := by
        simp [Url.https, Url.Scheme.name, Js.isBlank]
      exact hscheme c hc
    · rcases List.mem_append.mp hc with hc | hc
      · exact not_isBlank (hhost c hc)
      · rcases List.mem_cons.mp hc with rfl | hc
        · decide
        · exact not_isBlank (isNameChar_of_isPort hport c hc)
  have hback : ∀ c ∈ newlines, Js.isBlank c = true := by
    intro c hc
    rw [hnewlines c hc]
    decide
  have htrim : Split.trim Js.isBlank (arm.base env).toList = (arm.target env).toList := by
    rw [hbase]
    exact Split.trim_append (by simp) hkept hback
  have hne : arm.target env ≠ "" := by
    intro hempty
    have := congrArg String.toList hempty
    simp [Arm.target] at this
  rw [Server.optionalString, Option.getD_some, htrim, String.ofList_toList, Server.dropSlash,
    if_neg (target_last hport)]
  exact if_neg hne

/-- The environment asks for a comparison of its own listeners, with the host and the path in order. -/
structure Compares (env : Env) : Prop where
  on : env.get "WT_GREASE_DIFFERENTIAL" "1" = "1"
  noControlBase : env.get "WT_GREASE_CONTROL_BASE" "" = ""
  noEnabledBase : env.get "WT_GREASE_ENABLED_BASE" "" = ""
  host : ∀ c ∈ (env.get "WT_CERT_HOST" "wttest.quicast.de").toList, Url.isNameChar c = true
  path : ((env "WT_GREASE_PATH").getD "/wt/yggdrasil").toList.head? = some '/'

theorem Env.get_set {env : Env} {name other : String} (h : name ≠ other) (value default : String) :
    (env.set other value).get name default = env.get name default := by
  rw [Env.get, Env.set, Function.update_of_ne h, Env.get]

theorem runPage_bases {env : Env} (h : Compares env) :
    runPage env "WT_GREASE_CONTROL_BASE" = some (controlArm.base env) ∧
    runPage env "WT_GREASE_ENABLED_BASE" = some (greaseArm.base env) ∧
    runPage env "WT_GREASE_PATH" = env "WT_GREASE_PATH" := by
  rw [runPage, if_pos h.on]
  refine ⟨?_, ?_, ?_⟩
  · simp [Env.set, Env.get_of_empty h.noControlBase, Arm.base, Arm.port, controlArm]
  · refine (Function.update_self ..).trans (congrArg some ?_)
    rw [Env.get_set (by decide), Env.get_set (by decide), Env.get_of_empty h.noEnabledBase]
    rfl
  · simp [Env.set]

/-- The targets that the page server starts with. -/
theorem greaseDifferential_runPage {env : Env} (h : Compares env) {control grease : Nat}
    (hcontrol : SocketAddr.IsPort (controlArm.portText env) control)
    (hgrease : SocketAddr.IsPort (greaseArm.portText env) grease) {world : Server.Surroundings}
    (hworld : world.env = runPage env) : world.greaseDifferential = .ok (some
      { controlBase := controlArm.target env
        enabledBase := greaseArm.target env
        path := (env "WT_GREASE_PATH").getD "/wt/yggdrasil"
        timeoutMs := .num (world.number "WT_GREASE_TIMEOUT_MS" 5000) }) := by
  obtain ⟨hcontrolBase, henabledBase, hpath⟩ := runPage_bases h
  rw [Server.Surroundings.greaseDifferential, hworld, hcontrolBase, henabledBase, hpath,
    optionalString_base h.host hcontrol, optionalString_base h.host hgrease]

theorem runUrl_target {arm : Arm} {env : Env} {n : Nat} (hport : SocketAddr.IsPort (arm.portText env) n)
    (path : String) : (Page.runUrl (String.ofList (Page.dropSlash (arm.target env).toList)) path).toList =
      Url.https ++ ((env.get "WT_CERT_HOST" "wttest.quicast.de").toList ++ ':' :: arm.portText env) ++
        path.toList := by
  have hslash : Page.dropSlash (arm.target env).toList = (arm.target env).toList := by
    rw [Page.dropSlash, if_neg (target_last hport)]
  rw [Page.runUrl, hslash, String.ofList_toList, hslash, String.toList_ofList, Arm.target,
    String.toList_ofList]

/-- The two probes that a page runs at the configured target go to the two listeners, and their URLs
    differ in the port only. -/
def Reaches (host : Url.HostParser) (name : List Char) (control grease : Listener)
    (config : Page.RuntimeConfig) : Prop :=
  ∃ target controlUrl greaseUrl,
    (∀ origin base, Page.certificateMetadataMatchesTarget origin (some config) base = true →
      Page.configuredGreaseDifferential origin (some config) base = some target) ∧
    Url.parse host (Page.runUrl target.controlBase target.path).toList = some controlUrl ∧
    Url.parse host (Page.runUrl target.enabledBase target.path).toList = some greaseUrl ∧
    controlUrl.scheme = .https ∧ controlUrl.authority.host = name ∧
    portOf controlUrl = control.listen.port ∧ portOf greaseUrl = grease.listen.port ∧
    greaseUrl = { controlUrl with
      authority := { controlUrl.authority with port := greaseUrl.authority.port } }

/-- The certificate is installed, and the rest is as the scripts have it. -/
def testEnv : Env := fun name =>
  [("WT_CERT", "/etc/quicast/wttest/wttest.quicast.de.crt"),
    ("WT_KEY", "/etc/quicast/wttest/wttest.quicast.de.key"), ("PAGE_TLS", "0"),
    ("WT_QUICHE_RETRY", "1")].lookup name

def testHost : Server.Surroundings := { Page.deployed with env := runPage testEnv }

def testListener (port : Nat) (grease : Bool) : Listener :=
  Options.listener
    { listen := { ip := .v6 (List.replicate 8 0) 0, port }
      cert := "/etc/quicast/wttest/wttest.quicast.de.crt"
      key := "/etc/quicast/wttest/wttest.quicast.de.key"
      qlogDir := none
      secretsLog := none
      resetStreamAt := true
      grease
      disableClientIpValidation := false
      ccAlgorithm := "cubic" }

theorem testHost_listens : Listens testEnv true (testListener 9447 false) (testListener 9448 true) where
  control := by decide +kernel
  grease := by decide +kernel
  controlPort := by decide
  greasePort := by decide

theorem testHost_compares : Compares testEnv where
  on := by decide
  noControlBase := by decide
  noEnabledBase := by decide
  host := by
    have hname : testEnv.get "WT_CERT_HOST" "wttest.quicast.de" = "wttest.quicast.de" := by decide
    rw [hname]
    exact List.all_eq_true.mp (by decide)
  path := by decide

theorem testHost_starts : ∃ s, Server.start Page.noHashes testHost = .ok s := by
  have hstarts : (Server.start Page.noHashes testHost).toOption.isSome = true := by decide +kernel
  cases hs : Server.start Page.noHashes testHost with
  | error e => rw [hs] at hstarts; cases hstarts
  | ok s => exact ⟨s, rfl⟩

theorem testHost_differs : (testListener 9447 false).settings.grease = false ∧
    testListener 9448 true =
      { testListener 9447 false with
        listen := { (testListener 9447 false).listen with port := 9448 }
        settings := { (testListener 9447 false).settings with grease := true } } :=
  arms_differ testHost_listens

end WebTransportEcho.Deploy
