import WebTransportEcho.SocketAddr

/-! The command line of the tokio-quiche backend, and the QUIC settings that `main` makes of it. The
    arguments are read from the left, and of a flag given twice the later one counts. A path is the
    text of its name. -/

namespace WebTransportEcho.TokioQuiche

structure Options where
  listen : SocketAddr.Addr
  cert : String
  key : String
  qlogDir : Option String
  secretsLog : Option String
  resetStreamAt : Bool
  grease : Bool
  disableClientIpValidation : Bool
  ccAlgorithm : String
  deriving DecidableEq

/-- Why there are no options: `--help` ends the process, and so does an error. -/
inductive Ended where
  | help
  | error (message : String)
  deriving DecidableEq

def defaultListen : String := "[::]:9446"

def defaultCert : String := "certs/localhost.pem"

def defaultKey : String := "certs/localhost-key.pem"

def parseAddr (value context : String) : Except Ended SocketAddr.Addr :=
  match SocketAddr.parse value.toList with
  | some addr => .ok addr
  | none => .error (.error context)

def needArg (flag : String) : Ended := .error s!"{flag} needs a value"

/-- The loop of `Options::parse`. -/
def Options.read (options : Options) : List String → Except Ended Options
  | [] => .ok options
  | "--listen" :: value :: args => do
    let listen ← parseAddr value s!"parsing --listen {value}"
    Options.read { options with listen } args
  | ["--listen"] => .error (needArg "--listen")
  | "--cert" :: value :: args => Options.read { options with cert := value } args
  | ["--cert"] => .error (needArg "--cert")
  | "--key" :: value :: args => Options.read { options with key := value } args
  | ["--key"] => .error (needArg "--key")
  | "--qlog-dir" :: value :: args => Options.read { options with qlogDir := some value } args
  | ["--qlog-dir"] => .error (needArg "--qlog-dir")
  | "--secrets-log" :: value :: args => Options.read { options with secretsLog := some value } args
  | ["--secrets-log"] => .error (needArg "--secrets-log")
  | "--cc" :: value :: args => Options.read { options with ccAlgorithm := value } args
  | ["--cc"] => .error (needArg "--cc")
  | "--no-reset-stream-at" :: args => Options.read { options with resetStreamAt := false } args
  | "--grease" :: args => Options.read { options with grease := true } args
  | "--no-grease" :: args => Options.read { options with grease := false } args
  | "--retry" :: args => Options.read { options with disableClientIpValidation := false } args
  | "--help" :: _ => .error .help
  | "-h" :: _ => .error .help
  | other :: _ => .error (.error s!"unknown argument {other}")

/-- `Options::parse`: the arguments behind the program's name. -/
def Options.parse (args : List String) : Except Ended Options := do
  let listen ← parseAddr defaultListen "invalid socket address syntax"
  Options.read
    { listen
      cert := defaultCert
      key := defaultKey
      qlogDir := none
      secretsLog := none
      resetStreamAt := true
      grease := false
      disableClientIpValidation := true
      ccAlgorithm := "cubic" } args

/-! ### What is listened with -/

/-- What `main` sets of `QuicSettings`; the timeout is in seconds. -/
structure QuicSettings where
  enableDgram : Bool
  enableResetStreamAt : Bool
  initialMaxData : Nat
  initialMaxStreamDataBidiLocal : Nat
  initialMaxStreamDataBidiRemote : Nat
  initialMaxStreamDataUni : Nat
  initialMaxStreamsBidi : Nat
  initialMaxStreamsUni : Nat
  maxIdleTimeout : Option Nat
  disableClientIpValidation : Bool
  qlogDir : Option String
  keylogFile : Option String
  ccAlgorithm : String
  grease : Bool
  deriving DecidableEq

def Options.quicSettings (options : Options) : QuicSettings where
  enableDgram := true
  enableResetStreamAt := options.resetStreamAt
  initialMaxData := 8388608
  initialMaxStreamDataBidiLocal := 8388608
  initialMaxStreamDataBidiRemote := 8388608
  initialMaxStreamDataUni := 8388608
  initialMaxStreamsBidi := 100
  initialMaxStreamsUni := 100
  maxIdleTimeout := some 56
  disableClientIpValidation := options.disableClientIpValidation
  qlogDir := options.qlogDir
  keylogFile := options.secretsLog
  ccAlgorithm := options.ccAlgorithm
  grease := options.grease

/-- The socket's address, the settings, and the files of the certificate and its key. -/
structure Listener where
  listen : SocketAddr.Addr
  settings : QuicSettings
  cert : String
  privateKey : String
  deriving DecidableEq

def Options.listener (options : Options) : Listener where
  listen := options.listen
  settings := options.quicSettings
  cert := options.cert
  privateKey := options.key

/-! ### Arguments in two parts -/

theorem Options.read_append {o o' : Options} {args : List String} (h : o.read args = .ok o')
    (more : List String) : o.read (args ++ more) = o'.read more := by
  fun_induction Options.read o args
  case case1 =>
    cases h
    rfl
  case case2 o value args ih =>
    cases hlisten : parseAddr value s!"parsing --listen {value}" with
    | error e =>
      rw [hlisten] at h
      cases h
    | ok listen =>
      rw [hlisten] at h
      rw [List.cons_append, List.cons_append, Options.read, hlisten]
      exact ih listen h
  case case4 ih | case6 ih | case8 ih | case10 ih | case12 ih => exact ih h
  case case14 ih | case15 ih | case16 ih | case17 ih => exact ih h
  all_goals cases h

end WebTransportEcho.TokioQuiche
