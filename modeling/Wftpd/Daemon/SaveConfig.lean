import Wftpd.Common.ConfigFile

/-! The control requests that change the configuration, each on its own.

`SaveConfig` writes `config.toml` and then swaps the copy in memory; `SaveLogConfig`
changes the copy in memory and then writes it out.
-/

set_option autoImplicit false

namespace Wftpd.Daemon
open Wftpd.Posix Wftpd.Common Wftpd.Library

/-- The configuration as the daemon holds it: `config.toml` and the copy in memory. -/
structure ConfigCopies where
  configToml : RawFile
  config : Config
  deriving DecidableEq

inductive Code where
  | invalidArgument
  | internal
  deriving DecidableEq, Repr

structure Status where
  code : Code
  message : Text
  deriving DecidableEq, Repr

def internal (message : Text) : Status := ⟨.internal, message⟩

structure LogConfigRequest where
  logDir : Text
  logLevel : Text
  maxLogSize : UInt64
  maxLogFiles : UInt32
  enableGuiLogging : Bool
  deriving DecidableEq, Repr

inductive ConfigRequest where
  | saveConfig (content : Text)
  | saveLogConfig (req : LogConfigRequest)
  deriving DecidableEq, Repr

inductive ConfigReply where
  | config (content : Text)
  | op (message : Text)
  deriving DecidableEq, Repr

structure Host where
  os : Os
  fs : FileSystem

/-- The host during a request: its files, which calls of the save go through, why
`config.toml` cannot be read back, and why the log level cannot be changed. -/
structure ConfigEnv where
  host : Host
  calls : SaveCalls
  readError : Option Text
  reloadError : Option Text

def LogConfigRequest.applyTo (req : LogConfigRequest) (config : Config) : Config :=
  { config with
    logging := { config.logging with
      logDir := req.logDir
      logLevel := req.logLevel
      maxLogSize := req.maxLogSize
      maxLogFiles := req.maxLogFiles.toUInt64
      enableGuiLogging := req.enableGuiLogging } }

/-- The configuration of a request, when it is accepted. -/
def checkedConfig (toml : Toml) (host : Host) (content : Text) : Except Status Config :=
  match toml.parse content with
  | .error why => .error ⟨.invalidArgument, "配置解析失败: ".toList ++ why⟩
  | .ok config =>
      match config.validate host.os host.fs with
      | .error why => .error ⟨.invalidArgument, "配置校验失败: ".toList ++ why⟩
      | .ok () => .ok config

section Handlers
variable (toml : Toml) (env : ConfigEnv)

/-- `Config::save` on `config.toml`, as the control service reports it. -/
def saveFile (config : Config) : Action ConfigCopies Status Unit :=
  (config.save toml env.calls).zoom ConfigCopies.configToml (fun copies file => { copies with configToml := file })
    internal

def readFile : Action ConfigCopies Status Text :=
  Action.query fun copies =>
    match env.readError with
    | some why => .error (internal why)
    | none => (copies.configToml.readToString []).mapError internal

/-- `ControlService::save_config`, up to the services it then starts or stops. -/
def saveConfig (content : Text) : Action ConfigCopies Status ConfigReply := do
  let newConfig ← Action.lift (checkedConfig toml env.host content)
  saveFile toml env newConfig
  let content ← readFile env
  Action.modify fun copies => { copies with config := newConfig }
  return .config content

def setLogLevel : Except Status Unit :=
  match env.reloadError with
  | some why => .error (internal why)
  | none => .ok ()

def savedMessage (logDirChanged : Bool) : Text :=
  "日志配置已保存".toList ++ if logDirChanged then "（日志目录变更将在服务重启后生效）".toList else []

def saveLogConfig (req : LogConfigRequest) : Action ConfigCopies Status ConfigReply := do
  let old ← Action.read fun copies => copies.config.logging
  Action.modify fun copies => { copies with config := req.applyTo copies.config }
  saveFile toml env (← Action.read ConfigCopies.config)
  if old.logLevel ≠ req.logLevel then Action.lift (setLogLevel env)
  return .op (savedMessage (old.logDir ≠ req.logDir))

def ConfigRequest.handle : ConfigRequest → Action ConfigCopies Status ConfigReply
  | .saveConfig content => Wftpd.Daemon.saveConfig toml env content
  | .saveLogConfig req => Wftpd.Daemon.saveLogConfig toml env req

def FailsUnchanged (request : ConfigRequest) (copies : ConfigCopies) : Prop :=
  ∀ why after, request.handle toml env copies = (.error why, after) → after = copies

/-- The file is left as it was or can be read back; the memory is left as it was, or
the whole change goes through. -/
def FailsCleanly (copies : ConfigCopies) : ConfigRequest → Prop
  | .saveConfig content =>
      ∀ config text, checkedConfig toml env.host content = .ok config → config.saved toml env.calls = some text →
        env.readError = none ∨ copies.configToml = .text text
  | .saveLogConfig req =>
      req.applyTo copies.config = copies.config ∨
        ((req.applyTo copies.config).saved toml env.calls).isSome = true ∧
          (copies.config.logging.logLevel = req.logLevel ∨ env.reloadError = none)

variable {toml env}

theorem saveFile_some {config : Config} {content : Text} (saves : config.saved toml env.calls = some content)
    (copies : ConfigCopies) :
    saveFile toml env config copies = (.ok (), { copies with configToml := .text content }) := by
  simp only [saveFile, Action.zoom, Config.save_some saves]
  rfl

theorem saveFile_none {config : Config} (fails : config.saved toml env.calls = none) (copies : ConfigCopies) :
    ∃ why, saveFile toml env config copies = (.error why, copies) := by
  obtain ⟨why, failed⟩ := Config.save_none fails copies.configToml
  exact ⟨internal why, by simp only [saveFile, Action.zoom, failed]; rfl⟩

/-- What `SaveConfig` answers and leaves behind, by how far it comes. -/
theorem saveConfig_cases (toml : Toml) (env : ConfigEnv) (content : Text) (copies : ConfigCopies) :
    (∃ why, saveConfig toml env content copies = (.error why, copies) ∧
        ∀ config, checkedConfig toml env.host content = .ok config → config.saved toml env.calls = none) ∨
      ∃ config text, checkedConfig toml env.host content = .ok config ∧ config.saved toml env.calls = some text ∧
        saveConfig toml env content copies =
          match env.readError with
          | some why => (.error (internal why), { copies with configToml := .text text })
          | none => (.ok (.config text), ⟨.text text, config⟩) := by
  unfold saveConfig
  cases checked : checkedConfig toml env.host content with
  | error why =>
      rw [Action.bind_run_error (show Action.lift (.error why) copies = (.error why, copies) from rfl)]
      exact .inl ⟨why, rfl, by simp⟩
  | ok config =>
      rw [Action.bind_run_ok (show Action.lift (.ok config) copies = (.ok config, copies) from rfl)]
      cases saved : config.saved toml env.calls with
      | none =>
          obtain ⟨why, failed⟩ := saveFile_none saved copies
          rw [Action.bind_run_error failed]
          refine .inl ⟨why, rfl, ?_⟩
          rintro other ⟨⟩
          exact saved
      | some text =>
          rw [Action.bind_run_ok (saveFile_some saved copies)]
          refine .inr ⟨config, text, rfl, saved, ?_⟩
          cases readback : env.readError with
          | none => simp [readFile, readback, Action.bind_run, RawFile.readToString, Except.mapError]
          | some why => simp [readFile, readback, Action.bind_run]

/-- `SaveLogConfig` has changed the memory whatever it answers; it then fails to change the
file, or fails after that on the level it is to set. -/
theorem saveLogConfig_cases (toml : Toml) (env : ConfigEnv) (req : LogConfigRequest) (copies : ConfigCopies) :
    (∃ why, saveLogConfig toml env req copies = (.error why, { copies with config := req.applyTo copies.config }) ∧
        (req.applyTo copies.config).saved toml env.calls = none) ∨
      ∃ text, (req.applyTo copies.config).saved toml env.calls = some text ∧
        if copies.config.logging.logLevel = req.logLevel ∨ env.reloadError = none then
          ∃ reply, saveLogConfig toml env req copies = (.ok reply, ⟨.text text, req.applyTo copies.config⟩)
        else ∃ why, saveLogConfig toml env req copies = (.error why, ⟨.text text, req.applyTo copies.config⟩) := by
  unfold saveLogConfig
  simp only [Action.bind_run, Action.read_run, Action.modify_run]
  cases saved : (req.applyTo copies.config).saved toml env.calls with
  | none =>
      obtain ⟨why, failed⟩ := saveFile_none saved { copies with config := req.applyTo copies.config }
      rw [failed]
      exact .inl ⟨why, rfl, rfl⟩
  | some text =>
      rw [saveFile_some saved]
      refine .inr ⟨text, rfl, ?_⟩
      by_cases changed : copies.config.logging.logLevel = req.logLevel
      · simp [changed]
      · cases reload : env.reloadError with
        | none => simp [changed, setLogLevel, reload, Action.bind_run, Action.lift]
        | some why => simp [changed, setLogLevel, reload, Action.bind_run, Action.lift]

/-- A request that fails leaves both copies alone exactly when it fails cleanly. -/
theorem handle_failsUnchanged_iff (toml : Toml) (env : ConfigEnv) (request : ConfigRequest) (copies : ConfigCopies) :
    FailsUnchanged toml env request copies ↔ FailsCleanly toml env copies request := by
  cases request with
  | saveConfig content =>
      rcases saveConfig_cases toml env content copies with
        ⟨why, ran, fails⟩ | ⟨config, text, checked, saved, ran⟩
      · -- nothing was written
        refine ⟨fun _ config text checked saved => ?_, fun _ why' after failed => ?_⟩
        · rw [fails config checked] at saved
          cases saved
        · rw [ConfigRequest.handle, ran] at failed
          cases failed
          rfl
      · have only : FailsCleanly toml env copies (.saveConfig content) ↔
            env.readError = none ∨ copies.configToml = .text text := by
          simp only [FailsCleanly, checked, Except.ok.injEq]
          refine ⟨fun clean => clean config text rfl saved, ?_⟩
          rintro clean _ _ rfl saved'
          cases saved.symm.trans saved'
          exact clean
        rw [only, FailsUnchanged, ConfigRequest.handle, ran]
        cases env.readError with
        | none => simp
        | some why =>
            obtain ⟨configToml, memory⟩ := copies
            simp [eq_comm]
  | saveLogConfig req =>
      have level : req.applyTo copies.config = copies.config → copies.config.logging.logLevel = req.logLevel :=
        fun same => (congrArg (fun config => config.logging.logLevel) same).symm
      obtain ⟨configToml, memory⟩ := copies
      rcases saveLogConfig_cases toml env req ⟨configToml, memory⟩ with
        ⟨why, ran, fails⟩ | ⟨text, saved, ran⟩
      · simp [FailsUnchanged, FailsCleanly, ConfigRequest.handle, ran, fails]
      · simp only [FailsUnchanged, FailsCleanly, ConfigRequest.handle, saved, Option.isSome_some, true_and]
        split at ran
        · next through =>
            obtain ⟨reply, ran⟩ := ran
            simp [ran, through]
        · next stuck =>
            obtain ⟨why, ran⟩ := ran
            -- the level is another one, so the memory has changed
            have changed : req.applyTo memory ≠ memory := fun same => stuck (.inl (level same))
            simp [ran, stuck, changed]

end Handlers

section Sample

def workingEnv : ConfigEnv := ⟨⟨.permissive, .empty⟩, ⟨true, true, true⟩, none, none⟩

def largerLogs : LogConfigRequest :=
  ⟨Config.sample.logging.logDir, "info".toList, 2 * Config.sample.logging.maxLogSize, 10, true⟩

def sampleCopies : ConfigCopies := ⟨.text Config.sample.pretty, .sample⟩

/-- The temporary file cannot be renamed: the reply is an error, and the memory keeps the new size. -/
theorem saveLogConfig_fails_changed : ¬ ∀ (toml : Toml) (env : ConfigEnv) (request : ConfigRequest)
    (copies : ConfigCopies), FailsUnchanged toml env request copies := by
  intro unchanged
  let env : ConfigEnv := { workingEnv with calls := ⟨true, true, false⟩ }
  rcases saveLogConfig_cases (.knowing [.sample]) env largerLogs sampleCopies with ⟨why, ran, -⟩ | ⟨text, saved, -⟩
  · have same := unchanged (.knowing [.sample]) env (.saveLogConfig largerLogs) sampleCopies why _ ran
    exact absurd (congrArg (fun copies => copies.config.logging.maxLogSize) same) (by decide +kernel)
  · cases saved

end Sample

end Wftpd.Daemon
