import Mathlib.Data.List.Basic
import Mathlib.Logic.Function.Basic
import Mathlib.Tactic.IntervalCases

/-! The certificate renewal of the test host, `sync-certificate.sh`, over many runs. A run compares the
    installed files with the source and does nothing when they are the same; else it copies both and
    restarts the services. It may be killed between any two commands, or end with a restart that
    fails.

    The source is a pair that passes all checks. Whether a service is enabled does not change, and
    nothing else restarts one. What has no effect on files or services, as a check or a log line, is
    no command here: to be killed after it is to be killed before it. -/

namespace WebTransportEcho.Deploy

abbrev File := List UInt8

structure Pair where
  cert : File
  key : File
  deriving DecidableEq

inductive Service where
  | h3 | quicheControl | quicheGrease | page
  deriving DecidableEq

def h3Services : List Service := [.h3, .quicheControl, .quicheGrease]

/-- The installed files, and for each service the pair that it has loaded, when it runs. -/
structure Host where
  cert : Option File
  key : Option File
  running : Service → Option Pair

/-! ### One run -/

inductive Command where
  | installDirectories
  | makeCertTemp | makeKeyTemp
  | installCertTemp | installKeyTemp
  | moveCert | moveKey
  | restart (service : Service)
  deriving DecidableEq

def copying : List Command :=
  [.installDirectories, .makeCertTemp, .makeKeyTemp, .installCertTemp, .installKeyTemp, .moveCert,
    .moveKey]

def restarts (services : List Service) : List Command := services.map Command.restart

/-- What is done when the files are not the same. -/
def commands : List Command := copying ++ restarts (h3Services ++ [.page])

/-- A run on its way, with the contents of its temporary files. -/
structure Work where
  host : Host
  certTemp : Option File
  keyTemp : Option File

/-- How a run is cut short. A service whose restart fails goes on as it was or is stopped. -/
inductive Fault where
  | none
  | killed (after : Nat)
  | restartFails (service : Service) (stopped : Bool)

/-- The host after a run, and whether the run exits with 0. -/
structure Outcome where
  host : Host
  exitZero : Bool

section Run

variable (enabled : Service → Bool) (source : Pair)

/-- `systemctl is-enabled`, and for the page `systemctl is-active`. -/
def Host.restarted (host : Host) : Service → Bool
  | .page => (host.running .page).isSome
  | service => enabled service

/-- A service loads the installed files when it starts. -/
def Host.installed (host : Host) : Option Pair :=
  match host.cert, host.key with
  | some cert, some key => some { cert, key }
  | _, _ => none

def Work.exec (work : Work) : Command → Work
  | .installDirectories => work
  | .makeCertTemp => { work with certTemp := some [] }
  | .makeKeyTemp => { work with keyTemp := some [] }
  | .installCertTemp => { work with certTemp := some source.cert }
  | .installKeyTemp => { work with keyTemp := some source.key }
  | .moveCert => { work with host := { work.host with cert := work.certTemp }, certTemp := none }
  | .moveKey => { work with host := { work.host with key := work.keyTemp }, keyTemp := none }
  | .restart service =>
    if work.host.restarted enabled service then
      { work with host := { work.host with
          running := Function.update work.host.running service work.host.installed } }
    else work

def Work.execAll (work : Work) (commands : List Command) : Work :=
  commands.foldl (Work.exec enabled source) work

def Host.begin (host : Host) : Work where
  host := host
  certTemp := none
  keyTemp := none

/-- `cmp` finds both files the same. -/
def Host.upToDate (host : Host) : Bool :=
  decide (host.cert = some source.cert) && decide (host.key = some source.key)

def Fault.isKilled : Fault → Bool
  | .killed _ => true
  | _ => false

def sync (host : Host) (fault : Fault) : Outcome :=
  if host.upToDate source then { host, exitZero := !fault.isKilled }
  else
    match fault with
    | .none => { host := (host.begin.execAll enabled source commands).host, exitZero := true }
    | .killed after =>
      { host := (host.begin.execAll enabled source (commands.take after)).host, exitZero := false }
    | .restartFails service stopped =>
      let reached := (host.begin.execAll enabled source
        (commands.takeWhile fun command => decide (command ≠ .restart service))).host
      if reached.restarted enabled service then
        { host := if stopped then { reached with running := Function.update reached.running service none }
            else reached
          exitZero := false }
      else { host := (host.begin.execAll enabled source commands).host, exitZero := true }

/-- The host after runs with these faults. -/
def runs (host : Host) (faults : List Fault) : Host :=
  faults.foldl (fun host fault => (sync enabled source host fault).host) host

/-! ### What is claimed of the runs -/

/-- Every enabled H3 service runs with the installed files. -/
def Current (host : Host) : Prop :=
  ∀ service ∈ h3Services, enabled service = true → ∃ pair, host.installed = some pair ∧
    host.running service = some pair

/-- A pair is installed, and every enabled H3 service runs with it. -/
def Started (host : Host) : Prop := (∃ pair, host.installed = some pair) ∧ Current enabled host

/-- After every run that exits with 0 the services are current. -/
def Completed (host : Host) (faults : List Fault) : Prop :=
  ∀ before fault after, faults = before ++ fault :: after →
    (sync enabled source (runs enabled source host before) fault).exitZero = true →
    Current enabled (sync enabled source (runs enabled source host before) fault).host

/-- The run is stopped when the files are the same already and some enabled H3 service has not been
    restarted. -/
def CutShort (host : Host) : Fault → Prop
  | .none => False
  | .killed after =>
    (host.cert = some source.cert ∨ .moveCert ∈ commands.take after) ∧
    (host.key = some source.key ∨ .moveKey ∈ commands.take after) ∧
    ∃ service ∈ h3Services, enabled service = true ∧ .restart service ∉ commands.take after
  | .restartFails service _ => service ∈ h3Services ∧ enabled service = true

end Run

/-! ### What a run has done -/

section Steps

variable {enabled : Service → Bool} {source : Pair}

theorem upToDate_iff {host : Host} :
    host.upToDate source = true ↔ host.cert = some source.cert ∧ host.key = some source.key := by
  simp [Host.upToDate]

theorem installed_of_upToDate {host : Host} (h : host.upToDate source = true) :
    host.installed = some source := by
  obtain ⟨hcert, hkey⟩ := upToDate_iff.mp h
  rw [Host.installed, hcert, hkey]

theorem restarted_h3 {service : Service} (h : service ∈ h3Services) (host : Host) :
    host.restarted enabled service = enabled service := by
  cases service with
  | page => exact absurd h (by decide)
  | h3 => rfl
  | quicheControl => rfl
  | quicheGrease => rfl

/-- A restart that is done. -/
theorem exec_restart (enabled : Service → Bool) (source : Pair) (work : Work) (service : Service) :
    (work.exec enabled source (.restart service)).host.cert = work.host.cert ∧
    (work.exec enabled source (.restart service)).host.key = work.host.key ∧
    ∀ s ∈ h3Services, (work.exec enabled source (.restart service)).host.running s =
      if s = service ∧ enabled s = true then work.host.installed else work.host.running s := by
  rw [Work.exec]
  cases hrestarted : work.host.restarted enabled service with
  | false =>
    refine ⟨rfl, rfl, fun s hs => ?_⟩
    rw [if_neg Bool.false_ne_true, if_neg]
    rintro ⟨rfl, henabled⟩
    rw [restarted_h3 hs, henabled] at hrestarted
    cases hrestarted
  | true =>
    refine ⟨rfl, rfl, fun s hs => ?_⟩
    simp only [if_true]
    by_cases hsame : s = service
    · subst hsame
      rw [restarted_h3 hs] at hrestarted
      rw [Function.update_self, if_pos ⟨rfl, hrestarted⟩]
    · rw [Function.update_of_ne hsame, if_neg fun h => hsame h.1]

theorem execAll_restarts (enabled : Service → Bool) (source : Pair) (services : List Service) :
    ∀ work : Work,
    (work.execAll enabled source (restarts services)).host.cert = work.host.cert ∧
    (work.execAll enabled source (restarts services)).host.key = work.host.key ∧
    ∀ s ∈ h3Services, (work.execAll enabled source (restarts services)).host.running s =
      if s ∈ services ∧ enabled s = true then work.host.installed else work.host.running s := by
  induction services with
  | nil => exact fun work => ⟨rfl, rfl, fun s _ => by simp [restarts, Work.execAll]⟩
  | cons service services ih =>
    intro work
    obtain ⟨hcert, hkey, hrunning⟩ := exec_restart enabled source work service
    obtain ⟨hcert', hkey', hrunning'⟩ := ih (work.exec enabled source (.restart service))
    have hinstalled : (work.exec enabled source (.restart service)).host.installed =
        work.host.installed := by rw [Host.installed, hcert, hkey, Host.installed]
    refine ⟨hcert'.trans hcert, hkey'.trans hkey, fun s hs => (hrunning' s hs).trans ?_⟩
    rw [hinstalled, hrunning s hs]
    simp only [List.mem_cons]
    by_cases henabled : enabled s = true
    · by_cases hin : s ∈ services <;> simp [hin, henabled]
    · simp [henabled]

/-- The files are copied and some services restarted. -/
structure Renewed (enabled : Service → Bool) (source : Pair) (services : List Service)
    (host host' : Host) : Prop where
  upToDate : host'.upToDate source = true
  running : ∀ s ∈ h3Services, host'.running s =
    if s ∈ services ∧ enabled s = true then some source else host.running s

/-- Both files are in place. -/
def Host.copied (source : Pair) (host : Host) : Work where
  host := { host with cert := some source.cert, key := some source.key }
  certTemp := none
  keyTemp := none

theorem execAll_append (work : Work) (first rest : List Command) :
    work.execAll enabled source (first ++ rest) =
      (work.execAll enabled source first).execAll enabled source rest :=
  List.foldl_append

theorem renewed (host : Host) (services : List Service) : Renewed enabled source services host
    (host.begin.execAll enabled source (copying ++ restarts services)).host := by
  have hcopied : host.begin.execAll enabled source copying = host.copied source := rfl
  rw [execAll_append, hcopied]
  obtain ⟨hcert, hkey, hrunning⟩ := execAll_restarts enabled source services
    (host.copied source)
  exact ⟨upToDate_iff.mpr ⟨hcert, hkey⟩, hrunning⟩

theorem mem_restarts {service : Service} {services : List Service} :
    Command.restart service ∈ copying ++ restarts services ↔ service ∈ services := by
  have hcopying : Command.restart service ∉ copying := by
    cases service <;> decide
  simp [hcopying, restarts]

/-- The commands that were done before a kill. -/
theorem take_commands (n : Nat) : n < 6 ∨ n = 6 ∨
    commands.take n = copying ++ restarts ((h3Services ++ [Service.page]).take (n - 7)) := by
  rcases Nat.lt_trichotomy n 6 with h | h | h
  · exact Or.inl h
  · exact Or.inr (Or.inl h)
  · refine Or.inr (Or.inr ?_)
    have hlength : copying.length = 7 := rfl
    rw [commands, List.take_append, List.take_of_length_le (by omega), hlength, restarts, restarts,
      List.map_take]

/-- The commands that were done before a restart that fails. -/
theorem takeWhile_commands (service : Service) : ∃ services,
    (commands.takeWhile fun command => decide (command ≠ .restart service)) =
      copying ++ restarts services ∧ service ∉ services ∧
    (service ∉ h3Services → ∀ s ∈ h3Services, s ∈ services) := by
  cases service with
  | h3 => exact ⟨[], by decide, by decide, by decide⟩
  | quicheControl => exact ⟨[.h3], by decide, by decide, by decide⟩
  | quicheGrease => exact ⟨[.h3, .quicheControl], by decide, by decide, by decide⟩
  | page => exact ⟨h3Services, by decide, by decide, by decide⟩

/-! ### From run to run -/

/-- A host is good when its services are current if the files are, and none has the source's pair
    otherwise. -/
structure Good (enabled : Service → Bool) (source : Pair) (host : Host) : Prop where
  current : host.upToDate source = true → Current enabled host
  stale : host.upToDate source = false →
    ∀ service ∈ h3Services, enabled service = true → host.running service ≠ some source

/-- The files are the source's, but some enabled service has not loaded them. -/
def Stranded (enabled : Service → Bool) (source : Pair) (host : Host) : Prop :=
  host.upToDate source = true ∧ ¬ Current enabled host

theorem current_iff {host : Host} (h : host.upToDate source = true) : Current enabled host ↔
    ∀ service ∈ h3Services, enabled service = true → host.running service = some source := by
  rw [Current, installed_of_upToDate h]
  refine forall_congr' fun service => imp_congr_right fun _ => imp_congr_right fun _ => ?_
  simp

theorem Started.good {host : Host} (h : Started enabled host) : Good enabled source host := by
  obtain ⟨⟨pair, hpair⟩, hcurrent⟩ := h
  refine ⟨fun _ => hcurrent, fun hstale service hservice henabled hrunning => ?_⟩
  obtain ⟨pair, hinstalled, hloaded⟩ := hcurrent service hservice henabled
  rw [hrunning, Option.some.injEq] at hloaded
  subst hloaded
  have hfiles : host.upToDate source = true := by
    rw [upToDate_iff]
    unfold Host.installed at hinstalled
    cases hcert : host.cert with
    | none =>
      rw [hcert] at hinstalled
      cases hinstalled
    | some cert =>
      cases hkey : host.key with
      | none =>
        rw [hcert, hkey] at hinstalled
        cases hinstalled
      | some key =>
        rw [hcert, hkey] at hinstalled
        rw [← Option.some.inj hinstalled]
        exact ⟨rfl, rfl⟩
  rw [hfiles] at hstale
  cases hstale

theorem sync_of_upToDate {host : Host} (h : host.upToDate source = true) (fault : Fault) :
    sync enabled source host fault = { host, exitZero := !fault.isKilled } := by
  rw [sync.eq_def, if_pos h]

/-- A renewal is over when every enabled service is among those restarted. -/
theorem Renewed.current_iff {services : List Service} {host host' : Host}
    (h : Renewed enabled source services host host') (hgood : Good enabled source host)
    (hstale : host.upToDate source = false) : Current enabled host' ↔
      ∀ service ∈ h3Services, enabled service = true → service ∈ services := by
  rw [Deploy.current_iff h.upToDate]
  refine forall_congr' fun service => forall_congr' fun hservice => forall_congr' fun henabled => ?_
  rw [h.running service hservice]
  by_cases hin : service ∈ services
  · simp [hin, henabled]
  · simpa [hin] using hgood.stale hstale service hservice henabled

theorem Good.of_current {host : Host} (h : host.upToDate source = true)
    (hcurrent : Current enabled host) : Good enabled source host where
  current := fun _ => hcurrent
  stale := fun hstale => by
    rw [h] at hstale
    cases hstale

/-- What a run leaves when it is cut short, and when it is not. -/
structure Ends (enabled : Service → Bool) (source : Pair) (host : Host) (fault : Fault) : Prop where
  stranded : CutShort enabled source host fault →
    Stranded enabled source (sync enabled source host fault).host ∧
    (sync enabled source host fault).exitZero = false
  good : ¬ CutShort enabled source host fault →
    Good enabled source (sync enabled source host fault).host
  current : ¬ CutShort enabled source host fault → (sync enabled source host fault).exitZero = true →
    Current enabled (sync enabled source host fault).host

section Stale

variable {host : Host} (hgood : Good enabled source host) (hstale : host.upToDate source = false)

include hgood hstale

/-- A kill before the certificate is moved changes nothing. -/
theorem killed_early (n : Nat) (hn : n < 6) : Ends enabled source host (.killed n) := by
  have hhost : (host.begin.execAll enabled source (commands.take n)).host = host := by
    interval_cases n <;> rfl
  have hcert : Command.moveCert ∉ commands.take n := by
    interval_cases n <;> decide
  have hkey : Command.moveKey ∉ commands.take n := by
    interval_cases n <;> decide
  have hsync : sync enabled source host (.killed n) = { host, exitZero := false } := by
    rw [sync, if_neg (ne_true_of_eq_false hstale), hhost]
  have hnot : ¬ CutShort enabled source host (.killed n) := by
    rintro ⟨hc, hk, -⟩
    have hfiles := upToDate_iff.mpr ⟨hc.resolve_right hcert, hk.resolve_right hkey⟩
    rw [hstale] at hfiles
    cases hfiles
  exact ⟨fun h => absurd h hnot, fun _ => by rw [hsync]; exact hgood, fun _ h => by
    rw [hsync] at h
    cases h⟩

/-- A kill between the two moves leaves the new certificate beside the old key. -/
theorem killed_between : Ends enabled source host (.killed 6) := by
  let moved : Host := { host with cert := some source.cert }
  have hsync : sync enabled source host (.killed 6) = { host := moved, exitZero := false } := by
    rw [sync, if_neg (ne_true_of_eq_false hstale)]
    rfl
  have hfresh : ∀ service ∈ h3Services, enabled service = true → moved.running service ≠ some source :=
    hgood.stale hstale
  have hcut : CutShort enabled source host (.killed 6) ↔ host.key = some source.key ∧
      ∃ service ∈ h3Services, enabled service = true := by
    have hcert : Command.moveCert ∈ commands.take 6 := by decide
    have hkey : Command.moveKey ∉ commands.take 6 := by decide
    have hnone : ∀ service, Command.restart service ∉ commands.take 6 := by
      intro service
      cases service <;> decide
    simp [CutShort, hcert, hkey, hnone]
  have hfiles : moved.upToDate source = true ↔ host.key = some source.key := by
    rw [upToDate_iff]
    exact and_iff_right rfl
  refine ⟨fun h => ?_, fun h => ?_, fun _ h => ?_⟩
  · obtain ⟨hkey, service, hservice, henabled⟩ := hcut.mp h
    rw [hsync]
    refine ⟨⟨hfiles.mpr hkey, fun hcurrent => ?_⟩, rfl⟩
    exact hfresh service hservice henabled
      ((current_iff (hfiles.mpr hkey)).mp hcurrent service hservice henabled)
  · rw [hsync]
    refine ⟨fun hup service hservice henabled => ?_, fun _ => hfresh⟩
    exact absurd (hcut.mpr ⟨hfiles.mp hup, service, hservice, henabled⟩) h
  · rw [hsync] at h
    cases h

/-- A run that has copied both files ends as its restarts say. -/
theorem Renewed.ends {services : List Service} {fault : Fault}
    (hrenewed : Renewed enabled source services host (sync enabled source host fault).host)
    (hcut : CutShort enabled source host fault ↔
      ∃ service ∈ h3Services, enabled service = true ∧ service ∉ services)
    (hexit : CutShort enabled source host fault → (sync enabled source host fault).exitZero = false) :
    Ends enabled source host fault := by
  have hcurrent : ¬ CutShort enabled source host fault →
      Current enabled (sync enabled source host fault).host := by
    intro h
    refine (hrenewed.current_iff hgood hstale).mpr fun service hservice henabled => ?_
    by_contra hout
    exact h (hcut.mpr ⟨service, hservice, henabled, hout⟩)
  refine ⟨fun h => ⟨⟨hrenewed.upToDate, fun hall => ?_⟩, hexit h⟩,
    fun h => Good.of_current hrenewed.upToDate (hcurrent h), fun h _ => hcurrent h⟩
  obtain ⟨service, hservice, henabled, hout⟩ := hcut.mp h
  exact hout ((hrenewed.current_iff hgood hstale).mp hall service hservice henabled)

theorem killed_ends (n : Nat) : Ends enabled source host (.killed n) := by
  rcases take_commands n with hn | rfl | htake
  · exact killed_early hgood hstale n hn
  · exact killed_between hgood hstale
  · have hsync : sync enabled source host (.killed n) =
        { host := (host.begin.execAll enabled source (commands.take n)).host, exitZero := false } := by
      rw [sync, if_neg (ne_true_of_eq_false hstale)]
    rw [htake] at hsync
    refine Renewed.ends hgood hstale (by rw [hsync]; exact renewed host _) ?_ fun _ => by rw [hsync]
    have hcert : Command.moveCert ∈ commands.take n := by
      rw [htake]
      exact List.mem_append_left _ (by decide)
    have hkey : Command.moveKey ∈ commands.take n := by
      rw [htake]
      exact List.mem_append_left _ (by decide)
    rw [CutShort, and_iff_right (Or.inr hcert), and_iff_right (Or.inr hkey), htake]
    simp only [mem_restarts]

theorem unstopped_ends {fault : Fault} (hcut : ¬ CutShort enabled source host fault)
    (hsync : sync enabled source host fault =
      { host := (host.begin.execAll enabled source commands).host, exitZero := true }) :
    Ends enabled source host fault := by
  have hrenewed : Renewed enabled source (h3Services ++ [.page]) host
      (sync enabled source host fault).host := by
    rw [hsync]
    exact renewed host _
  refine hrenewed.ends hgood hstale ⟨fun h => absurd h hcut, ?_⟩ fun h => absurd h hcut
  rintro ⟨service, hservice, -, hout⟩
  exact absurd (List.mem_append_left _ hservice) hout

/-- A service whose restart failed and left it stopped. -/
def down (host : Host) (service : Service) : Host :=
  { host with running := Function.update host.running service none }

theorem restartFails_ends (service : Service) (stopped : Bool) :
    Ends enabled source host (.restartFails service stopped) := by
  obtain ⟨services, htake, hout, hpage⟩ := takeWhile_commands service
  let reached := (host.begin.execAll enabled source (copying ++ restarts services)).host
  cases hwanted : reached.restarted enabled service with
  | false =>
    refine unstopped_ends hgood hstale ?_ ?_
    · rintro ⟨hservice, henabled⟩
      rw [restarted_h3 hservice, henabled] at hwanted
      cases hwanted
    · rw [sync, if_neg (ne_true_of_eq_false hstale), htake]
      exact if_neg (by rw [hwanted]; exact Bool.false_ne_true)
  | true =>
    have hsync : sync enabled source host (.restartFails service stopped) = {
        host := if stopped then down reached service else reached
        exitZero := false } := by
      rw [sync, if_neg (ne_true_of_eq_false hstale), htake]
      exact if_pos hwanted
    have hreached : Renewed enabled source services host reached := renewed host services
    have hdown : (down reached service).upToDate source = true := hreached.upToDate
    by_cases hservice : service ∈ h3Services
    · have henabled : enabled service = true := (restarted_h3 hservice reached).symm.trans hwanted
      have hcut : CutShort enabled source host (.restartFails service stopped) := ⟨hservice, henabled⟩
      have hold : reached.running service ≠ some source := by
        rw [hreached.running service hservice, if_neg fun h => hout h.1]
        exact hgood.stale hstale service hservice henabled
      refine ⟨fun _ => ?_, fun h => absurd hcut h, fun h => absurd hcut h⟩
      rw [hsync]
      cases stopped with
      | false =>
        refine ⟨⟨hreached.upToDate, fun hall => hold ?_⟩, rfl⟩
        exact (current_iff hreached.upToDate).mp hall service hservice henabled
      | true =>
        refine ⟨⟨hdown, fun hall => ?_⟩, rfl⟩
        have hloaded := (current_iff hdown).mp hall service hservice henabled
        have hnone : (down reached service).running service = none := Function.update_self ..
        rw [hnone] at hloaded
        cases hloaded
    · have hfinal : Renewed enabled source services host
          (sync enabled source host (.restartFails service stopped)).host := by
        rw [hsync]
        cases stopped with
        | false => exact hreached
        | true =>
          refine ⟨hdown, fun s hs => ?_⟩
          have hother : s ≠ service := by
            rintro rfl
            exact hservice hs
          exact (Function.update_of_ne hother _ _).trans (hreached.running s hs)
      refine hfinal.ends hgood hstale ⟨fun h => absurd h.1 hservice, ?_⟩ fun h => absurd h.1 hservice
      rintro ⟨s, hs, -, hmissing⟩
      exact absurd (hpage hservice s hs) hmissing

/-- One run on a host whose files are not the source's. -/
theorem ends_of_stale (fault : Fault) : Ends enabled source host fault := by
  cases fault with
  | none =>
    exact unstopped_ends hgood hstale id (by rw [sync, if_neg (ne_true_of_eq_false hstale)])
  | killed n => exact killed_ends hgood hstale n
  | restartFails service stopped => exact restartFails_ends hgood hstale service stopped

end Stale

/-- Nothing gets a stranded host on: its files are the source's, so every run ends at once. -/
theorem Stranded.runs {host : Host} (h : Stranded enabled source host) (faults : List Fault) :
    runs enabled source host faults = host := by
  induction faults with
  | nil => rfl
  | cons fault faults ih => rw [Deploy.runs, List.foldl_cons, sync_of_upToDate h.1, ← Deploy.runs, ih]

theorem Stranded.completed_iff {host : Host} (h : Stranded enabled source host) (faults : List Fault) :
    Completed enabled source host faults ↔ ∀ fault ∈ faults, fault.isKilled = true := by
  constructor
  · intro hcompleted fault hfault
    obtain ⟨before, after, rfl⟩ := List.append_of_mem hfault
    by_contra hkilled
    have hcurrent := hcompleted before fault after rfl
    rw [h.runs, sync_of_upToDate h.1] at hcurrent
    exact h.2 (hcurrent (by simpa using hkilled))
  · rintro hkilled before fault after rfl hexit
    rw [h.runs, sync_of_upToDate h.1, hkilled fault (by simp)] at hexit
    cases hexit

/-- What holds at every run holds at the first and at every later one. -/
theorem forall_runs_cons (Q : Host → Fault → List Fault → Prop) (host : Host) (first : Fault)
    (faults : List Fault) :
    (∀ before fault after, first :: faults = before ++ fault :: after →
      Q (runs enabled source host before) fault after) ↔
    Q host first faults ∧ ∀ before fault after, faults = before ++ fault :: after →
      Q (runs enabled source (sync enabled source host first).host before) fault after := by
  constructor
  · intro h
    exact ⟨h [] first faults rfl, fun before fault after hsplit =>
      h (first :: before) fault after (by rw [hsplit, List.cons_append])⟩
  · rintro ⟨hfirst, hlater⟩ before fault after hsplit
    cases before with
    | nil =>
      obtain ⟨rfl, rfl⟩ := List.cons.inj hsplit
      exact hfirst
    | cons head before =>
      obtain ⟨rfl, hrest⟩ := List.cons.inj hsplit
      exact hlater before fault after hrest

/-- From a good host, the services are current after every run that exits with 0 exactly when no
    run that is let finish follows one that was cut short. -/
theorem Good.completed_iff (faults : List Fault) : ∀ {host : Host}, Good enabled source host →
    (Completed enabled source host faults ↔ ∀ before fault after, faults = before ++ fault :: after →
      (runs enabled source host before).upToDate source = false →
      CutShort enabled source (runs enabled source host before) fault →
      ∀ later ∈ after, later.isKilled = true) := by
  induction faults with
  | nil =>
    intro host hgood
    constructor
    · rintro - before fault after hsplit
      simp at hsplit
    · rintro - before fault after hsplit
      simp at hsplit
  | cons fault₀ faults ih =>
    intro host hgood
    rw [Completed, forall_runs_cons (fun host fault _ =>
        (sync enabled source host fault).exitZero = true →
          Current enabled (sync enabled source host fault).host),
      forall_runs_cons (fun host fault after => host.upToDate source = false →
        CutShort enabled source host fault → ∀ later ∈ after, later.isKilled = true),
      ← Completed]
    cases hfiles : host.upToDate source with
    | true =>
      rw [sync_of_upToDate hfiles]
      rw [ih hgood]
      exact and_congr_left fun _ => ⟨fun _ => nofun, fun _ _ => hgood.current hfiles⟩
    | false =>
      have hends := ends_of_stale hgood hfiles fault₀
      by_cases hcut : CutShort enabled source host fault₀
      · obtain ⟨hstranded, hexit⟩ := hends.stranded hcut
        -- a stranded host is up to date before every later run
        have hlater : ∀ before fault after, faults = before ++ fault :: after →
            (runs enabled source (sync enabled source host fault₀).host before).upToDate source = false →
            CutShort enabled source
              (runs enabled source (sync enabled source host fault₀).host before) fault →
            ∀ later ∈ after, later.isKilled = true := by
          intro before fault after _ hstale
          rw [hstranded.runs, hstranded.1] at hstale
          cases hstale
        rw [hstranded.completed_iff, and_iff_left hlater, hexit]
        constructor
        · rintro ⟨-, hkilled⟩ - -
          exact hkilled
        · intro h
          exact ⟨nofun, h rfl hcut⟩
      · rw [ih (hends.good hcut)]
        exact and_congr_left fun _ => ⟨fun _ _ h => absurd h hcut, fun _ => hends.current hcut⟩

/-- A renewal that is interrupted is completed by a later run, unless it was interrupted after the
    second file was in place: then the next run finds nothing to do. -/
theorem renewals_completed_iff (start : Host) (h : Started enabled start) (faults : List Fault) :
    Completed enabled source start faults ↔ ∀ before fault after, faults = before ++ fault :: after →
      (runs enabled source start before).upToDate source = false →
      CutShort enabled source (runs enabled source start before) fault →
      ∀ later ∈ after, later.isKilled = true :=
  h.good.completed_iff faults

end Steps

/-! ### A renewal -/

def oldPair : Pair where
  cert := [1]
  key := [2]

def newPair : Pair where
  cert := [3]
  key := [4]

def beforeRenewal : Host where
  cert := some oldPair.cert
  key := some oldPair.key
  running := fun _ => some oldPair

theorem beforeRenewal_started : Started (fun _ => true) beforeRenewal :=
  ⟨⟨oldPair, rfl⟩, fun _ _ _ => ⟨oldPair, rfl, rfl⟩⟩

/-- Killed between the two moves, the renewal is completed by the next run. -/
theorem killedBetweenMoves_completed :
    Completed (fun _ => true) newPair beforeRenewal [.killed 6, .none] := by
  refine (renewals_completed_iff beforeRenewal beforeRenewal_started _).mpr ?_
  rintro (_ | ⟨first, before⟩) fault after hsplit - hcut
  · obtain ⟨rfl, rfl⟩ := List.cons.inj hsplit
    obtain ⟨-, hkey, -⟩ := hcut
    exact absurd hkey (by decide)
  · obtain ⟨-, hrest⟩ := List.cons.inj hsplit
    have hfault : fault = .none := by
      have hin : fault ∈ [Fault.none] := by
        rw [hrest]
        exact List.mem_append_right _ List.mem_cons_self
      simpa using hin
    subst hfault
    exact hcut.elim

/-- Killed after the two moves, it is not: the next run exits with 0 and has restarted nothing. -/
theorem killedAfterMoves_notCompleted : Started (fun _ => true) beforeRenewal ∧
    ¬ Completed (fun _ => true) newPair beforeRenewal [.killed 7, .none] := by
  refine ⟨beforeRenewal_started, fun h => ?_⟩
  have hcurrent := h [.killed 7] .none [] rfl rfl
  obtain ⟨pair, hinstalled, hrunning⟩ := hcurrent .h3 (by decide) rfl
  have hnew : some newPair = some pair := hinstalled
  have hold : some oldPair = some pair := hrunning
  exact absurd (hold.trans hnew.symm) (by decide)

end WebTransportEcho.Deploy
