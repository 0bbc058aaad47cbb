import Wftpd.Daemon.Convergence
import Wftpd.Daemon.Services

/-! The lives of the daemon: it is started, serves control requests one after the other, and
ends, by a signal or otherwise.

What it knows survives in `config.toml` only. The flags there say which services are to run,
and the next life starts these.
-/

set_option autoImplicit false

namespace Wftpd.Daemon.Lives
open Wftpd.Posix Wftpd.Common Wftpd.Library Wftpd.Daemon.Services Wftpd.Daemon.Convergence

/-- What a start meets: whether it is seen that the file exists, the calls of a save and the default
that is saved when it is not, what keeps it from logging and from listening for requests, and why a service
does not start. -/
structure BootEnv where
  seen : Bool
  calls : SaveCalls
  default : Config
  usersError : Option Text
  tracingError : Option Text
  socketError : Option Text
  startError : Service → Option Text

/-- What a request to the services meets: the calls of a save by the flag it is about, and why a service does
not start. -/
structure ServiceEnv where
  calls : Service → SaveCalls
  startError : Service → Option Text

structure OpReply where
  success : Bool
  message : Text
  deriving DecidableEq, Repr

inductive Request where
  | startService (which : Which) (env : ServiceEnv)
  | stopService (which : Which) (env : ServiceEnv)
  | restartService (which : Which) (env : ServiceEnv)
  | saveConfig (content : Text) (env : ConfigEnv) (startError : Service → Option Text)
  | saveLogConfig (req : LogConfigRequest) (env : ConfigEnv)

inductive Answer where
  | none
  | booted (result : Except Text Unit)
  | op (reply : OpReply)
  | config (result : Except Status ConfigReply)

inductive Event where
  | boot (env : BootEnv)
  | request (request : Request)
  /-- The listener of a server ends, and its task says so. -/
  | exits (service : Service) (server : Nat)
  | ends

structure Running where
  copies : ConfigCopies
  servers : Service → Servers

/-- While no daemon runs there is only the file. -/
inductive Machine where
  | off (configToml : RawFile)
  | on (running : Running)

def Running.backend (running : Running) : BackendState := ⟨running.copies.config.enabled, running.servers⟩

def Machine.configToml : Machine → RawFile
  | .off configToml => configToml
  | .on running => running.copies.configToml

def works (startError : Service → Option Text) (service : Service) : Bool := (startError service).isNone

section Model
variable (toml : Toml)

/-- `Config::load`. A file that is not seen is replaced by a default, and it is only warned about a failure
to save it. -/
def load (env : BootEnv) : Action RawFile Text Config := do
  let file ← Action.read id
  if env.seen && file ≠ .absent then
    let content ← Action.lift ((file.readToString []).mapError fun _ => "Failed to read config file".toList)
    Action.lift ((toml.parse content).mapError fun _ => "Failed to parse config file".toList)
  else
    let _ ← (Action.outcome (env.default.save toml env.calls) : Action RawFile Text (Except Text Unit))
    return env.default

/-- `run`, up to its first request. -/
def boot (env : BootEnv) : Action RawFile Text (Config × BackendState) := do
  let config ← load toml env
  match env.usersError.or env.tracingError with
  | some why => Action.fail why
  | none =>
      let backend := (BackendState.initial config.enabled).applyEnabledFlags (works env.startError)
      match env.socketError with
      | some why => Action.fail why
      | none => return (config, backend)

/-- `set_ftp_enabled` and `set_sftp_enabled`: a flag that changes is written out, and a failure is only logged. -/
def setEnabled (calls : SaveCalls) (service : Service) (enabled : Bool) (copies : ConfigCopies) : ConfigCopies :=
  if copies.config.enabled service = enabled then copies
  else
    let config := copies.config.setEnabled service enabled
    ⟨(config.save toml calls copies.configToml).2, config⟩

def setFlags (calls : Service → SaveCalls) (enabled : Bool) (services : List Service) (copies : ConfigCopies) :
    ConfigCopies :=
  services.foldl (fun copies service => setEnabled toml (calls service) service enabled copies) copies

def startService (startError : Service → Option Text) (service : Service) : Action BackendState Text Unit :=
  fun backend =>
    let (started, after) := backend.start service (works startError service)
    (if started then .ok () else .error ((startError service).getD []), after)

def restartService (startError : Service → Option Text) (service : Service) : Action BackendState Text Unit := do
  Action.modify fun backend => backend.stop service
  startService startError service

/-- Each service has its turn, and the first failure is what is answered. -/
def each (action : Service → Action BackendState Text Unit) : List Service → Action BackendState Text Unit
  | [] => pure ()
  | service :: rest => do
      let first ← (action service).outcome
      let others ← (each action rest).outcome
      Action.lift first
      Action.lift others

def reply (result : Except Text Unit) (done failed : String) : Answer :=
  match result with
  | .ok () => .op ⟨true, done.toList⟩
  | .error why => .op ⟨false, failed.toList ++ why⟩

/-- The handlers of `ControlService` that change the configuration or the services, where one request is served
before the next begins. -/
def handle (running : Running) : Request → Answer × Running
  | .startService which env =>
      let copies := setFlags toml env.calls true which.services running.copies
      let (result, backend) := each (startService env.startError) which.services ⟨copies.config.enabled, running.servers⟩
      (reply result "服务已启动" "启动失败: ", ⟨copies, backend.servers⟩)
  | .stopService which env =>
      let copies := setFlags toml env.calls false which.services running.copies
      let backend := which.services.foldl BackendState.stop ⟨copies.config.enabled, running.servers⟩
      (.op ⟨true, "服务已停止".toList⟩, ⟨copies, backend.servers⟩)
  | .restartService which env =>
      let (result, backend) := each (restartService env.startError) which.services running.backend
      (reply result "服务已重启" "重启失败: ", { running with servers := backend.servers })
  | .saveConfig content env startError =>
      match saveConfig toml env content running.copies with
      | (.error why, copies) => (.config (.error why), { running with copies := copies })
      | (.ok saved, copies) =>
          let backend : BackendState := ⟨copies.config.enabled, running.servers⟩
          (.config (.ok saved), ⟨copies, (backend.applyEnabledFlags (works startError)).servers⟩)
  | .saveLogConfig req env =>
      let (result, copies) := saveLogConfig toml env req running.copies
      (.config result, { running with copies := copies })

def step : Machine → Event → Answer × Machine
  | .off file, .boot env =>
      match boot toml env file with
      | (.ok (config, backend), file) => (.booted (.ok ()), .on ⟨⟨file, config⟩, backend.servers⟩)
      | (.error why, file) => (.booted (.error why), .off file)
  | .off file, _ => (.none, .off file)
  | .on running, .boot _ => (.none, .on running)
  | .on running, .request request =>
      let (answer, after) := handle toml running request
      (answer, .on after)
  | .on running, .exits service server =>
      let servers := running.servers service
      (.none, .on { running with servers := Function.update running.servers service { servers with
        listening := Function.update servers.listening server false
        running := Function.update servers.running server false } })
  | .on running, .ends => (.none, .off running.copies.configToml)

/-! What a request asks the configuration to be. -/

def flagged (enabled : Bool) (services : List Service) (config : Config) : Config :=
  services.foldl (fun config service => config.setEnabled service enabled) config

/-- The configuration wished for once an event has been answered. A service that does not start is wished
for all the same, and a configuration that is refused is not. -/
def wish (config : Config) : Event × Answer → Config
  | (.request (.startService which _), .op _) => flagged true which.services config
  | (.request (.stopService which _), .op _) => flagged false which.services config
  | (.request (.saveConfig content _ _), .config (.ok _)) =>
      match toml.parse content with
      | .ok new => new
      | .error _ => config
  | (.request (.saveLogConfig req _), .config _) => req.applyTo config
  | _ => config

def wishes (config : Config) (exchanges : List (Event × Answer)) : Config := exchanges.foldl (wish toml) config

def FlagsWritten (calls : Service → SaveCalls) (enabled : Bool) : List Service → Config → Prop
  | [], _ => True
  | service :: rest, config =>
      (config.enabled service ≠ enabled → ((config.setEnabled service enabled).saved toml (calls service)).isSome = true) ∧
        FlagsWritten calls enabled rest (config.setEnabled service enabled)

/-- What an event changes in the configuration reaches the file as well, and a start sees the file. -/
def Kept : Machine → Event → Prop
  | .off _, .boot env => env.seen = true
  | .on running, .request (.startService which env) =>
      FlagsWritten toml env.calls true which.services running.copies.config
  | .on running, .request (.stopService which env) =>
      FlagsWritten toml env.calls false which.services running.copies.config
  | .on _, .request (.saveConfig content env _) =>
      ∀ config, checkedConfig toml env.host content = .ok config → (config.saved toml env.calls).isSome = true →
        env.readError = none
  | .on running, .request (.saveLogConfig req env) =>
      ((req.applyTo running.copies.config).saved toml env.calls).isSome = true
  | _, _ => True

/-- The file reads as this configuration, whoever has written it. -/
def ReadsAs (configToml : RawFile) (config : Config) : Prop :=
  ∃ text, configToml = .text text ∧ toml.parse text = .ok config

def Keeps (config : Config) : Machine → Prop
  | .off configToml => ReadsAs toml configToml config
  | .on running => ReadsAs toml running.copies.configToml config ∧ running.copies.config = config

end Model

section Flags

@[simp] theorem enabled_setEnabled_self (config : Config) (service : Service) (enabled : Bool) :
    (config.setEnabled service enabled).enabled service = enabled := by
  cases service <;> rfl

theorem enabled_setEnabled_of_ne (config : Config) {service other : Service} (enabled : Bool) (apart : other ≠ service) :
    (config.setEnabled service enabled).enabled other = config.enabled other := by
  cases service <;> cases other <;> first | rfl | exact absurd rfl apart

theorem setEnabled_same {config : Config} {service : Service} {enabled : Bool} (same : config.enabled service = enabled) :
    config.setEnabled service enabled = config := by
  subst same
  cases service <;> rfl

theorem enabled_flagged (enabled : Bool) (services : List Service) (config : Config) (service : Service) :
    (flagged enabled services config).enabled service = if service ∈ services then enabled else config.enabled service := by
  induction services generalizing config with
  | nil => simp [flagged]
  | cons first rest ih =>
      have step := ih (config.setEnabled first enabled)
      rw [flagged, List.foldl_cons, ← flagged, step]
      -- a service may be named twice, so the first is compared only where it is not named later
      by_cases later : service ∈ rest
      · simp [later]
      · by_cases now : service = first
        · simp [now]
        · simp [later, now, enabled_setEnabled_of_ne config enabled now]

variable {toml : Toml}

theorem setEnabled_config (calls : SaveCalls) (service : Service) (enabled : Bool) (copies : ConfigCopies) :
    (setEnabled toml calls service enabled copies).config = copies.config.setEnabled service enabled := by
  unfold setEnabled
  split
  · next same => exact (setEnabled_same same).symm
  · rfl

theorem setFlags_config (calls : Service → SaveCalls) (enabled : Bool) (services : List Service) (copies : ConfigCopies) :
    (setFlags toml calls enabled services copies).config = flagged enabled services copies.config := by
  induction services generalizing copies with
  | nil => rfl
  | cons first rest ih =>
      rw [setFlags, List.foldl_cons, ← setFlags, ih, setEnabled_config]
      rfl

theorem serialise_of_saved {calls : SaveCalls} {config : Config} {text : Text}
    (saved : config.saved toml calls = some text) : toml.serialise config = some text := by
  unfold Config.saved at saved
  split at saved
  · exact saved
  · cases saved

variable (lossless : ∀ config text, toml.serialise config = some text → toml.parse text = .ok config)
include lossless

theorem readsAs_saved {calls : SaveCalls} {config : Config} {file : RawFile}
    (saves : (config.saved toml calls).isSome = true) : ReadsAs toml (config.save toml calls file).2 config := by
  obtain ⟨text, saved⟩ := Option.isSome_iff_exists.mp saves
  exact ⟨text, by rw [Config.save_some saved], lossless config text (serialise_of_saved saved)⟩

theorem setFlags_readsAs {calls : Service → SaveCalls} {enabled : Bool} {services : List Service} {copies : ConfigCopies}
    (reads : ReadsAs toml copies.configToml copies.config)
    (written : FlagsWritten toml calls enabled services copies.config) :
    ReadsAs toml (setFlags toml calls enabled services copies).configToml
      (setFlags toml calls enabled services copies).config := by
  induction services generalizing copies with
  | nil => exact reads
  | cons first rest ih =>
      rw [setFlags, List.foldl_cons, ← setFlags]
      refine ih ?_ ?_
      · unfold setEnabled
        split
        · exact reads
        · next changes => exact readsAs_saved lossless (written.1 changes)
      · rw [setEnabled_config]
        exact written.2

end Flags

section Boot
variable {toml : Toml}

theorem load_run {env : BootEnv} (seen : env.seen = true) {file : RawFile} {config : Config}
    (reads : ReadsAs toml file config) : load toml env file = (.ok config, file) := by
  obtain ⟨text, rfl, parsed⟩ := reads
  simp [load, seen, Action.bind_run, Action.lift, RawFile.readToString, Except.mapError, parsed]

theorem boot_run {env : BootEnv} (seen : env.seen = true) {file : RawFile} {config : Config}
    (reads : ReadsAs toml file config) :
    boot toml env file =
      (match env.usersError.or env.tracingError, env.socketError with
        | some why, _ | none, some why => .error why
        | none, none => .ok (config, (BackendState.initial config.enabled).applyEnabledFlags (works env.startError)),
        file) := by
  unfold boot
  rw [Action.bind_run_ok (load_run seen reads)]
  cases env.usersError.or env.tracingError with
  | some why => rfl
  | none => cases env.socketError <;> rfl

/-- A start that goes through has applied the flags of what it has loaded. -/
theorem boot_ok {env : BootEnv} {file after : RawFile} {config : Config} {backend : BackendState}
    (ran : boot toml env file = (.ok (config, backend), after)) :
    backend = (BackendState.initial config.enabled).applyEnabledFlags (works env.startError) := by
  obtain ⟨loaded, between, -, ran⟩ := Action.bind_ok ran
  cases state : env.usersError.or env.tracingError with
  | some why =>
      rw [state] at ran
      cases ran
  | none =>
      cases socket : env.socketError with
      | some why =>
          rw [state, socket] at ran
          cases ran
      | none =>
          rw [state, socket] at ran
          cases ran
          rfl

end Boot

section Steps
variable {toml : Toml}

theorem parse_of_checkedConfig {host : Host} {content : Text} {config : Config}
    (checked : checkedConfig toml host content = .ok config) : toml.parse content = .ok config := by
  unfold checkedConfig at checked
  split at checked
  · cases checked
  · next parsed =>
      split at checked
      · cases checked
      · cases checked
        exact parsed

theorem wish_startService (config : Config) (which : Which) (env : ServiceEnv) (result : Except Text Unit)
    (done failed : String) : wish toml config (.request (.startService which env), reply result done failed) =
      flagged true which.services config := by
  cases result <;> rfl

theorem wish_restartService (config : Config) (which : Which) (env : ServiceEnv) (result : Except Text Unit)
    (done failed : String) :
    wish toml config (.request (.restartService which env), reply result done failed) = config := by
  cases result <;> rfl

section Keeping
variable (lossless : ∀ config text, toml.serialise config = some text → toml.parse text = .ok config)
include lossless

theorem keeps_saveConfig {running : Running} {config : Config} (keeps : Keeps toml config (.on running)) (content : Text)
    (env : ConfigEnv) (startError : Service → Option Text)
    (kept : Kept toml (.on running) (.request (.saveConfig content env startError))) :
    Keeps toml (wish toml config (.request (.saveConfig content env startError),
      (step toml (.on running) (.request (.saveConfig content env startError))).1))
      (step toml (.on running) (.request (.saveConfig content env startError))).2 := by
  obtain ⟨synced, memory⟩ := keeps
  rcases saveConfig_cases toml env content running.copies with ⟨why, ran, -⟩ | ⟨new, text, checked, saved, ran⟩
  · simp only [step, handle, ran, wish]
    exact ⟨synced, memory⟩
  · -- what was saved is also read back, or the memory would be behind the file
    have readable := kept new checked (by rw [saved]; rfl)
    rw [readable] at ran
    simp only [step, handle, ran, wish, parse_of_checkedConfig checked]
    exact ⟨⟨text, rfl, lossless _ text (serialise_of_saved saved)⟩, rfl⟩

theorem keeps_saveLogConfig {running : Running} {config : Config} (keeps : Keeps toml config (.on running))
    (req : LogConfigRequest) (env : ConfigEnv) (kept : Kept toml (.on running) (.request (.saveLogConfig req env))) :
    Keeps toml (wish toml config (.request (.saveLogConfig req env),
      (step toml (.on running) (.request (.saveLogConfig req env))).1))
      (step toml (.on running) (.request (.saveLogConfig req env))).2 := by
  obtain ⟨-, rfl⟩ := keeps
  simp only [step, handle, wish, Keeps]
  rcases saveLogConfig_cases toml env req running.copies with ⟨why, ran, unsaved⟩ | ⟨text, saved, ran⟩
  · rw [Kept, unsaved] at kept
    cases kept
  · -- a log level that cannot be set is reported after both copies have changed
    have ends : (saveLogConfig toml env req running.copies).2 = ⟨.text text, req.applyTo running.copies.config⟩ := by
      split at ran
      · obtain ⟨reply, ran⟩ := ran
        rw [ran]
      · obtain ⟨why, ran⟩ := ran
        rw [ran]
    rw [ends]
    exact ⟨⟨text, rfl, lossless _ text (serialise_of_saved saved)⟩, rfl⟩

theorem keeps_step {config : Config} {machine : Machine} {event : Event} (keeps : Keeps toml config machine)
    (kept : Kept toml machine event) :
    Keeps toml (wish toml config (event, (step toml machine event).1)) (step toml machine event).2 := by
  cases machine with
  | off file =>
      cases event with
      | boot env =>
          simp only [step, boot_run kept keeps]
          -- a start that fails later on has not touched the file
          cases env.usersError.or env.tracingError with
          | some why => exact keeps
          | none =>
              cases env.socketError with
              | some why => exact keeps
              | none => exact ⟨keeps, rfl⟩
      | request request => cases request <;> exact keeps
      | exits service server => exact keeps
      | ends => exact keeps
  | on running =>
      cases event with
      | boot env => exact keeps
      | exits service server => exact keeps
      | ends => exact keeps.1
      | request request =>
          cases request with
          | startService which env =>
              obtain ⟨reads, rfl⟩ := keeps
              simp only [step, handle, wish_startService]
              exact ⟨setFlags_config .. ▸ setFlags_readsAs lossless reads kept, setFlags_config ..⟩
          | stopService which env =>
              obtain ⟨reads, rfl⟩ := keeps
              simp only [step, handle, wish]
              exact ⟨setFlags_config .. ▸ setFlags_readsAs lossless reads kept, setFlags_config ..⟩
          | restartService which env =>
              simp only [step, handle, wish_restartService]
              exact keeps
          | saveConfig content env startError => exact keeps_saveConfig lossless keeps content env startError kept
          | saveLogConfig req env => exact keeps_saveLogConfig lossless keeps req env kept

theorem keeps_run {config : Config} {machine : Machine} {events : List Event} (keeps : Keeps toml config machine)
    (kept : Along (step toml) (Kept toml) machine events) :
    Keeps toml (wishes toml config (events.zip (run (step toml) machine events).1)) (run (step toml) machine events).2 := by
  induction events generalizing config machine with
  | nil => exact keeps
  | cons event rest ih => exact ih (keeps_step lossless keeps kept.1) kept.2

end Keeping

end Steps

section Started
variable {service : Service}

theorem not_running_stop (state : BackendState) : ((state.stop service).servers service).isRunning = false := by
  unfold BackendState.stop
  split
  · simp [Servers.isRunning, Servers.tell]
  · next empty => simp [Servers.isRunning, empty]

theorem enabled_of_apply {state : BackendState} {enabled works : Bool}
    (runs : ((state.apply service enabled works).servers service).isRunning = true) : enabled = true := by
  cases enabled with
  | true => rfl
  | false =>
      unfold BackendState.apply at runs
      by_cases running : (state.servers service).isRunning = true
      · simp [running, not_running_stop] at runs
      · simp [running] at runs

theorem isRunning_initial (flags works : Service → Bool) :
    (((BackendState.initial flags).applyEnabledFlags works).servers service).isRunning =
      (flags service && works service) := by
  rw [servers_applyEnabledFlags]
  have empty : ((BackendState.initial flags).servers service).slot = none := rfl
  have idle : ((BackendState.initial flags).servers service).isRunning = false := rfl
  have flag : (BackendState.initial flags).enabled service = flags service := rfl
  cases enabled : flags service with
  | false => simp [BackendState.apply, flag, enabled, idle]
  | true =>
      cases works service with
      | false => simp [BackendState.apply, BackendState.start, flag, enabled, idle, empty]
      | true =>
          simp [BackendState.apply, BackendState.start, flag, enabled, empty, Servers.isRunning, Servers.store,
            Servers.launch]

theorem isRunning_exited {servers : Servers} {server : Nat}
    (runs : Servers.isRunning { servers with
      listening := Function.update servers.listening server false
      running := Function.update servers.running server false } = true) : servers.isRunning = true := by
  simp only [Servers.isRunning] at runs ⊢
  cases slot : servers.slot with
  | none => simp [slot] at runs
  | some current =>
      by_cases this : current = server
      · simp [slot, this] at runs
      · simpa [slot, this] using runs

theorem servers_each {action : Service → Action BackendState Text Unit} {services : List Service}
    (others : ∀ first ≠ service, ∀ state, (action first state).2.servers service = state.servers service)
    (apart : service ∉ services) (state : BackendState) :
    (each action services state).2.servers service = state.servers service := by
  induction services generalizing state with
  | nil => rfl
  | cons first rest ih =>
      have after : (each action (first :: rest) state).2 = (each action rest (action first state).2).2 := by
        simp only [each, Action.bind_run, Action.outcome_run, Action.lift]
        cases (action first state).1 <;> rfl
      rw [after, ih fun later => apart (List.mem_cons_of_mem _ later)]
      exact others first (fun same => apart (same ▸ List.mem_cons_self)) state

theorem servers_startService {startError : Service → Option Text} (first : Service) (apart : first ≠ service)
    (state : BackendState) : (startService startError first state).2.servers service = state.servers service :=
  servers_start_of_ne _ apart.symm

theorem servers_restartService {startError : Service → Option Text} (first : Service) (apart : first ≠ service)
    (state : BackendState) : (restartService startError first state).2.servers service = state.servers service := by
  have stopped : (state.stop first).servers service = state.servers service := servers_stop_of_ne apart.symm
  rw [← stopped]
  exact servers_startService first apart (state.stop first)

theorem servers_stopAll {services : List Service} (state : BackendState) :
    (service ∉ services → (services.foldl BackendState.stop state).servers service = state.servers service) ∧
      (service ∈ services → ((services.foldl BackendState.stop state).servers service).isRunning = false) := by
  induction services generalizing state with
  | nil => simp
  | cons first rest ih =>
      rw [List.foldl_cons]
      by_cases later : service ∈ rest
      · exact ⟨fun apart => absurd (List.mem_cons_of_mem _ later) apart, fun _ => (ih (state.stop first)).2 later⟩
      · have same := (ih (state.stop first)).1 later
        by_cases now : service = first
        · subst now
          exact ⟨fun apart => absurd List.mem_cons_self apart, fun _ => by rw [same, not_running_stop]⟩
        · refine ⟨fun _ => by rw [same, servers_stop_of_ne now], fun member => ?_⟩
          rcases List.mem_cons.mp member with here | there
          · exact absurd here now
          · exact absurd there later

end Started

section Enabled
variable {toml : Toml}

/-- Every service that runs is one the configuration in memory enables. -/
def Wanted : Machine → Prop
  | .off _ => True
  | .on running => ∀ service, (running.servers service).isRunning = true → running.copies.config.enabled service = true

def RestartsEnabled : Machine → Event → Prop
  | .on running, .request (.restartService which _) =>
      ∀ service ∈ which.services, running.copies.config.enabled service = true
  | _, _ => True

theorem wanted_applyEnabledFlags (copies : ConfigCopies) (servers : Service → Servers) (works : Service → Bool) :
    Wanted (.on ⟨copies, ((⟨copies.config.enabled, servers⟩ : BackendState).applyEnabledFlags works).servers⟩) := by
  intro service runs
  simp only [servers_applyEnabledFlags] at runs
  exact enabled_of_apply runs

theorem wanted_handle {running : Running} (wanted : Wanted (.on running)) (request : Request)
    (careful : RestartsEnabled (.on running) (.request request)) : Wanted (.on (handle toml running request).2) := by
  cases request with
  | startService which env =>
      intro service runs
      simp only [handle, setFlags_config, enabled_flagged] at runs ⊢
      by_cases member : service ∈ which.services
      · rw [if_pos member]
      · rw [servers_each servers_startService member] at runs
        rw [if_neg member]
        exact wanted service runs
  | stopService which env =>
      intro service runs
      simp only [handle, setFlags_config, enabled_flagged] at runs ⊢
      by_cases member : service ∈ which.services
      · rw [(servers_stopAll _).2 member] at runs
        cases runs
      · rw [(servers_stopAll _).1 member] at runs
        rw [if_neg member]
        exact wanted service runs
  | restartService which env =>
      intro service runs
      by_cases member : service ∈ which.services
      · exact careful service member
      · simp only [handle, servers_each servers_restartService member] at runs
        exact wanted service runs
  | saveConfig content env startError =>
      rcases saveConfig_cases toml env content running.copies with ⟨why, ran, -⟩ | ⟨config, text, -, -, ran⟩
      · simp only [handle, ran]
        exact wanted
      · cases unread : env.readError with
        | some why =>
            rw [unread] at ran
            simp only [handle, ran]
            exact wanted
        | none =>
            rw [unread] at ran
            simp only [handle, ran]
            exact wanted_applyEnabledFlags _ _ _
  | saveLogConfig req env =>
      have flags : (saveLogConfig toml env req running.copies).2.config.enabled = running.copies.config.enabled := by
        rcases saveLogConfig_cases toml env req running.copies with ⟨why, ran, -⟩ | ⟨text, -, ran⟩
        · rw [ran]
          funext service
          cases service <;> rfl
        · split at ran <;>
          · obtain ⟨_, ran⟩ := ran
            rw [ran]
            funext service
            cases service <;> rfl
      intro service runs
      simp only [handle, flags]
      exact wanted service runs

theorem wanted_step (machine : Machine) (event : Event) (wanted : Wanted machine)
    (careful : RestartsEnabled machine event) : Wanted (step toml machine event).2 := by
  cases machine with
  | off file =>
      cases event with
      | boot env =>
          simp only [step]
          split
          · next config backend after ran =>
              cases boot_ok ran
              exact wanted_applyEnabledFlags ⟨_, _⟩ _ _
          · trivial
      | request request => trivial
      | exits service server => trivial
      | ends => trivial
  | on running =>
      cases event with
      | boot env => exact wanted
      | request request => exact wanted_handle wanted request careful
      | ends => trivial
      | exits ended server =>
          intro service runs
          by_cases same : service = ended
          · subst same
            simp only [Function.update_self] at runs
            exact wanted service (isRunning_exited runs)
          · simp only [Function.update_of_ne same] at runs
            exact wanted service runs

/-- Through any lives, whatever fails, only services that the configuration enables are running, as long as
none is restarted that it does not. -/
theorem running_enabled (toml : Toml) (file : RawFile) (events : List Event)
    (careful : Along (step toml) RestartsEnabled (.off file) events) (running : Running)
    (reached : (run (step toml) (.off file) events).2 = .on running) (service : Service)
    (runs : (running.servers service).isRunning = true) : running.copies.config.enabled service = true := by
  have wanted : Wanted (run (step toml) (.off file) events).2 := run_invariant wanted_step trivial careful
  rw [reached] at wanted
  exact wanted service runs

end Enabled

/-- After any lives in which the changes reach the file, the next one has the configuration that was last wished
for, and of the services that start it runs those that are enabled there. -/
theorem boot_restores (toml : Toml)
    (lossless : ∀ config text, toml.serialise config = some text → toml.parse text = .ok config) (file : RawFile)
    (config : Config) (reads : ReadsAs toml file config) (events : List Event)
    (kept : Along (step toml) (Kept toml) (.off file) events) (env : BootEnv) (seen : env.seen = true)
    (users : env.usersError = none) (logs : env.tracingError = none) (listens : env.socketError = none) :
    ∃ running, (run (step toml) (.off file) (events ++ [.ends, .boot env])).2 = .on running ∧
      running.copies.config = wishes toml config (events.zip (run (step toml) (.off file) events).1) ∧
      ReadsAs toml running.copies.configToml running.copies.config ∧
      ∀ service, (running.servers service).isRunning =
        (running.copies.config.enabled service && works env.startError service) := by
  have keeps : Keeps toml config (.off file) := reads
  have after := keeps_run lossless keeps kept
  -- whether or not a daemon is running then, its end leaves the file
  obtain ⟨left, ends, keeps⟩ : ∃ left, (step toml (run (step toml) (.off file) events).2 .ends).2 = .off left ∧
      ReadsAs toml left (wishes toml config (events.zip (run (step toml) (.off file) events).1)) := by
    cases reached : (run (step toml) (.off file) events).2 with
    | off left => exact ⟨left, rfl, by rwa [reached] at after⟩
    | on running =>
        rw [reached] at after
        exact ⟨running.copies.configToml, rfl, after.1⟩
  have boots := boot_run seen keeps
  rw [users, logs, listens] at boots
  let wished := wishes toml config (events.zip (run (step toml) (.off file) events).1)
  let backend := (BackendState.initial wished.enabled).applyEnabledFlags (works env.startError)
  refine ⟨⟨⟨left, wished⟩, backend.servers⟩, ?_, rfl, keeps,
    fun service => isRunning_initial wished.enabled (works env.startError)⟩
  rw [run_append, run_cons, run_cons, ends, step, boots]
  rfl

section Sample

theorem sampleToml_lossless (config : Config) (text : Text) (printed : sampleToml.serialise config = some text) :
    sampleToml.parse text = .ok config := Toml.knowing_lossless sampleToml_apart config text printed

theorem sample_reads : ReadsAs sampleToml (.text Config.sample.pretty) .sample :=
  ⟨Config.sample.pretty, rfl, sampleToml_parse .sample (by simp [sampleConfigs])⟩

def goodBoot : BootEnv := ⟨true, ⟨true, true, true⟩, .sample, none, none, none, fun _ => none⟩

def goodService : ServiceEnv := ⟨fun _ => ⟨true, true, true⟩, fun _ => none⟩

def firstLife : Running :=
  ⟨⟨.text Config.sample.pretty, .sample⟩,
    ((BackendState.initial Config.sample.enabled).applyEnabledFlags (works fun _ => none)).servers⟩

theorem step_goodBoot : step sampleToml (.off (.text Config.sample.pretty)) (.boot goodBoot) =
    (.booted (.ok ()), .on firstLife) := by
  rw [step, boot_run rfl sample_reads]
  rfl

theorem boot_restores_stopped : ∃ running, (run (step sampleToml) (.off (.text Config.sample.pretty))
    ([.boot goodBoot, .request (.stopService .ftp goodService)] ++ [.ends, .boot goodBoot])).2 = .on running ∧
      running.copies.config = stopped ∧ (running.servers .ftp).isRunning = false ∧
      (running.servers .sftp).isRunning = true := by
  have printed : (stopped.saved sampleToml ⟨true, true, true⟩).isSome = true := by
    rw [show stopped.saved sampleToml ⟨true, true, true⟩ = sampleToml.serialise stopped from rfl,
      sampleToml_serialise stopped (by simp [sampleConfigs])]
    rfl
  have kept : Along (step sampleToml) (Kept sampleToml) (.off (.text Config.sample.pretty))
      [.boot goodBoot, .request (.stopService .ftp goodService)] := by
    refine ⟨rfl, ?_, trivial⟩
    rw [step_goodBoot]
    exact ⟨fun _ => printed, trivial⟩
  obtain ⟨running, reached, wished, -, runs⟩ := boot_restores sampleToml sampleToml_lossless _ .sample sample_reads _ kept
    goodBoot rfl rfl rfl rfl
  have isStopped : running.copies.config = stopped := by
    rw [wished, run_cons, step_goodBoot]
    rfl
  refine ⟨running, reached, isStopped, ?_, ?_⟩
  · rw [runs, isStopped]
    rfl
  · rw [runs, isStopped]
    rfl

theorem running_enabled_restarted : ∃ running, (run (step sampleToml) (.off (.text Config.sample.pretty))
    [.boot goodBoot, .request (.restartService .sftp goodService)]).2 = .on running ∧
      (running.servers .sftp).isRunning = true ∧ running.copies.config.enabled .sftp = true := by
  have careful : Along (step sampleToml) RestartsEnabled (.off (.text Config.sample.pretty))
      [.boot goodBoot, .request (.restartService .sftp goodService)] := by
    refine ⟨trivial, ?_, trivial⟩
    rw [step_goodBoot]
    intro service member
    cases member with
    | head => rfl
    | tail _ later => cases later
  obtain ⟨running, reached⟩ : ∃ running, (run (step sampleToml) (.off (.text Config.sample.pretty))
      [.boot goodBoot, .request (.restartService .sftp goodService)]).2 = .on running := by
    rw [run_cons, step_goodBoot]
    exact ⟨_, rfl⟩
  have runs : (running.servers .sftp).isRunning = true := by
    rw [run_cons, step_goodBoot] at reached
    cases reached
    rfl
  exact ⟨running, reached, runs, running_enabled sampleToml _ _ careful running reached .sftp runs⟩

end Sample

end Wftpd.Daemon.Lives
