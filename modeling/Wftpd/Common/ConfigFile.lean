import Wftpd.Common.Config
import Wftpd.Common.Users
import Wftpd.Library.Action
import Wftpd.Posix.FileSystem

/-! The configuration as a file: how it is checked and how it is saved.

The TOML library is a parameter.
-/

set_option autoImplicit false

namespace Wftpd.Common
open Wftpd.Posix Wftpd.Library

structure Toml where
  parse : Text → Except Text Config
  serialise : Config → Option Text

def RawFile.readToString (unreadable : Text) : RawFile → Except Text Text
  | .absent => .error "No such file or directory (os error 2)".toList
  | .unreadable => .error unreadable
  | .text content => .ok content

/-- The calls of a save that may fail. -/
structure SaveCalls where
  directory : Bool
  written : Bool
  renamed : Bool
  deriving DecidableEq, Repr

namespace Config

section Validate
variable (os : Os) (fs : FileSystem)

/-- `Config::validate`. A missing host key is only warned about. -/
def validate (config : Config) : Except Text Unit :=
  if config.ftp.enabled && config.ftp.allowAnonymous then
    match config.ftp.anonymousHome.filter fun home => trim home ≠ [] with
    | some home =>
        if !fs.pathExists os (components home) then
          .error ("FTP匿名访问已启用，但匿名用户主目录不存在: ".toList ++ home)
        else if !fs.pathIsDir os (components home) then
          .error ("FTP匿名访问已启用，但匿名用户主目录路径不是目录: ".toList ++ home)
        else .ok ()
    | none => .error "FTP匿名访问已启用，但未配置匿名用户主目录(anonymous_home)".toList
  else .ok ()

theorem validate_ok_iff {config : Config} :
    config.validate os fs = .ok () ↔
      (config.ftp.enabled = true → config.ftp.allowAnonymous = true →
        ∃ home, config.ftp.anonymousHome = some home ∧ trim home ≠ [] ∧
          fs.pathIsDir os (components home) = true) := by
  unfold validate
  split
  · next anonymous =>
      simp only [Bool.and_eq_true] at anonymous
      simp only [anonymous, forall_true_left]
      split
      · next home named =>
          simp only [Option.filter_eq_some_iff, decide_eq_true_eq] at named
          have isDir_exists : fs.pathIsDir os (components home) = true →
              fs.pathExists os (components home) = true := by
            unfold FileSystem.pathIsDir FileSystem.pathExists
            cases fs.metadata os (components home) <;> simp [Except.isOk, Except.toBool]
          cases isDir : fs.pathIsDir os (components home) with
          | true => simp [isDir_exists isDir, isDir, named.1, named.2]
          | false => cases fs.pathExists os (components home) <;> simp [isDir, named.1]
      · next unnamed =>
          simp only [Option.filter_eq_none_iff, decide_eq_true_eq] at unnamed
          simp only [reduceCtorEq, false_iff, not_exists, not_and]
          intro home configured nonblank
          exact absurd nonblank (unnamed home configured)
  · next closed =>
      simp only [Bool.and_eq_true, not_and] at closed
      exact ⟨fun _ enabled anonymous => absurd anonymous (closed enabled), fun _ => rfl⟩

theorem validate_default (hostKeyPath logDir : Text) :
    (Config.default hostKeyPath logDir).validate os fs = .ok () := rfl

end Validate

section Save
variable (toml : Toml) (calls : SaveCalls)

/-- `Config::save`: the text goes to a temporary file that is renamed over the old one. -/
def save (config : Config) : Action RawFile Text Unit := do
  Action.check calls.directory "Failed to create config directory".toList
  match toml.serialise config with
  | none => Action.fail "Failed to serialize config".toList
  | some content => do
      Action.check calls.written "Failed to write temp config file".toList
      Action.check calls.renamed "Failed to rename temp config file".toList
      Action.modify fun _ => .text content

/-- The text a save of the configuration leaves in the file, when it goes through. -/
def saved (config : Config) : Option Text :=
  if calls.directory && calls.written && calls.renamed then toml.serialise config else none

variable {toml calls}

theorem save_some {config : Config} {content : Text} (saves : config.saved toml calls = some content)
    (file : RawFile) : config.save toml calls file = (.ok (), .text content) := by
  unfold saved at saves
  split at saves
  · next through =>
      simp only [Bool.and_eq_true] at through
      simp [save, saves, through, Action.check, Action.bind_run]
  · cases saves

theorem save_none {config : Config} (fails : config.saved toml calls = none) (file : RawFile) :
    ∃ why, config.save toml calls file = (.error why, file) := by
  unfold save
  rw [Action.bind_run, Action.check_run]
  cases directory : calls.directory with
  | false => exact ⟨_, rfl⟩
  | true =>
      cases serialised : toml.serialise config with
      | none => exact ⟨_, rfl⟩
      | some content =>
          cases written : calls.written with
          | false => exact ⟨_, rfl⟩
          | true =>
              cases renamed : calls.renamed with
              | false => exact ⟨_, rfl⟩
              | true => simp [saved, directory, written, renamed, serialised] at fails

end Save

end Config

/-! A printer for configurations whose texts need no escapes. -/
section Pretty

def tomlInteger (value : Nat) : Text := Nat.toDigits 10 value

def tomlBool (value : Bool) : Text := if value then "true".toList else "false".toList

def tomlString (value : Text) : Text := "\"".toList ++ value ++ "\"".toList

/-- Two entries and more stand on lines of their own. -/
def tomlArray : List Text → Text
  | [] => "[]".toList
  | [entry] => "[".toList ++ entry ++ "]".toList
  | entries => "[\n".toList ++ (entries.flatMap fun entry => "    ".toList ++ entry ++ ",\n".toList) ++ "]".toList

def tomlLine (key : String) (value : Text) : Text := key.toList ++ " = ".toList ++ value ++ "\n".toList

def tomlOptional (key : String) (value : Option Text) : Text :=
  (value.map fun value => tomlLine key (tomlString value)).getD []

def FtpConfig.pretty (ftp : FtpConfig) : Text :=
  "[ftp]\n".toList ++ tomlLine "enabled" (tomlBool ftp.enabled) ++ tomlLine "bind_ip" (tomlString ftp.bindIp) ++
    tomlLine "port" (tomlInteger ftp.port.toNat) ++
    tomlLine "passive_ports" (tomlArray [tomlInteger ftp.passivePorts.1.toNat, tomlInteger ftp.passivePorts.2.toNat]) ++
    tomlLine "welcome_message" (tomlString ftp.welcomeMessage) ++
    tomlLine "allow_anonymous" (tomlBool ftp.allowAnonymous) ++ tomlOptional "anonymous_home" ftp.anonymousHome ++
    tomlLine "max_speed_kbps" (tomlInteger ftp.maxSpeedKbps.toNat) ++ tomlLine "encoding" (tomlString ftp.encoding) ++
    tomlLine "data_timeout" (tomlInteger ftp.dataTimeout.toNat) ++ tomlOptional "masquerade_ip" ftp.masqueradeIp

def SftpConfig.pretty (sftp : SftpConfig) : Text :=
  "\n[sftp]\n".toList ++ tomlLine "enabled" (tomlBool sftp.enabled) ++ tomlLine "bind_ip" (tomlString sftp.bindIp) ++
    tomlLine "port" (tomlInteger sftp.port.toNat) ++ tomlLine "host_key_path" (tomlString sftp.hostKeyPath) ++
    tomlLine "max_auth_attempts" (tomlInteger sftp.maxAuthAttempts.toNat) ++
    tomlLine "auth_timeout" (tomlInteger sftp.authTimeout.toNat) ++ tomlLine "log_level" (tomlString sftp.logLevel)

def SecurityConfig.pretty (security : SecurityConfig) : Text :=
  "\n[security]\n".toList ++ tomlLine "allowed_ips" (tomlArray (security.allowedIps.map tomlString)) ++
    tomlLine "denied_ips" (tomlArray (security.deniedIps.map tomlString)) ++
    tomlLine "max_login_attempts" (tomlInteger security.maxLoginAttempts.toNat) ++
    tomlLine "ban_duration" (tomlInteger security.banDuration.toNat) ++
    tomlLine "require_ssl" (tomlBool security.requireSsl) ++
    tomlOptional "cert_path" security.certPath ++ tomlOptional "key_path" security.keyPath ++
    tomlLine "max_connections" (tomlInteger security.maxConnections.toNat) ++
    tomlLine "connection_timeout" (tomlInteger security.connectionTimeout.toNat) ++
    tomlLine "idle_timeout" (tomlInteger security.idleTimeout.toNat)

def LoggingConfig.pretty (logging : LoggingConfig) : Text :=
  "\n[logging]\n".toList ++ tomlLine "log_dir" (tomlString logging.logDir) ++
    tomlLine "log_level" (tomlString logging.logLevel) ++
    tomlLine "max_log_size" (tomlInteger logging.maxLogSize.toNat) ++
    tomlLine "max_log_files" (tomlInteger logging.maxLogFiles.toNat) ++
    tomlLine "enable_json" (tomlBool logging.enableJson) ++
    tomlLine "enable_gui_logging" (tomlBool logging.enableGuiLogging)

def Config.pretty (config : Config) : Text :=
  config.ftp.pretty ++ config.sftp.pretty ++ config.security.pretty ++ config.logging.pretty

/-- The library, as far as it knows these configurations. -/
def Toml.knowing (known : List Config) : Toml where
  parse text :=
    match known.find? fun config => config.pretty = text with
    | some config => .ok config
    | none => .error "unexpected text".toList
  serialise config := if config ∈ known then some config.pretty else none

variable {known : List Config} {config : Config}

theorem Toml.knowing_serialise (member : config ∈ known) :
    (Toml.knowing known).serialise config = some config.pretty := if_pos member

theorem Toml.knowing_parse (member : config ∈ known) (apart : (known.map Config.pretty).Nodup) :
    (Toml.knowing known).parse config.pretty = .ok config := by
  simp only [knowing]
  cases found : known.find? fun other => other.pretty = config.pretty with
  | none =>
      have stranger := List.find?_eq_none.mp found config member
      simp at stranger
  | some other =>
      have text := List.find?_some found
      rw [decide_eq_true_eq] at text
      rw [List.inj_on_of_nodup_map apart (List.mem_of_find?_eq_some found) member text]

theorem Toml.knowing_read {text : Text} (read : (Toml.knowing known).parse text = .ok config) :
    config ∈ known ∧ config.pretty = text := by
  simp only [knowing] at read
  split at read
  · next found =>
      cases read
      have text := List.find?_some found
      exact ⟨List.mem_of_find?_eq_some found, of_decide_eq_true text⟩
  · cases read

theorem Toml.knowing_lossless (apart : (known.map Config.pretty).Nodup) (config : Config) (text : Text)
    (printed : (Toml.knowing known).serialise config = some text) : (Toml.knowing known).parse text = .ok config := by
  simp only [knowing, Option.ite_none_right_eq_some, Option.some.injEq] at printed
  obtain ⟨member, rfl⟩ := printed
  exact Toml.knowing_parse member apart

end Pretty

end Wftpd.Common
