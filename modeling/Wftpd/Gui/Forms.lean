import Wftpd.Common.AccessEntries
import Wftpd.Daemon.Convergence
import Wftpd.Library.Region

/-! The forms of the GUI that change the configuration, and the service page beside them.

The GUI has a copy of the configuration, read once from `config.toml`. A form changes that
copy and sends all of it to the daemon, and the GUI takes over what comes back. The main
thread waits for the reply; the buttons of the service page have threads of their own.
Starting and stopping the services themselves changes no configuration and is left out.
-/

set_option autoImplicit false

namespace Wftpd.Gui
open Wftpd.Posix Wftpd.Common Wftpd.Library Wftpd.Daemon

/-- What a form shows when it is saved. The numbers are those of the spin buttons. -/
structure FtpWidgets where
  enabled : Bool
  bindIp : Text
  port : UInt16
  passiveStart : UInt16
  passiveEnd : UInt16
  welcome : Text
  anon : Bool
  anonHome : Text
  maxSpeed : UInt64
  encoding : Option Text
  masqueradeIp : Text
  deriving DecidableEq, Repr

structure FtpsWidgets where
  requireSsl : Bool
  certPath : Text
  keyPath : Text
  deriving DecidableEq, Repr

structure SftpWidgets where
  enabled : Bool
  bindIp : Text
  port : UInt16
  hostKey : Text
  maxAuth : UInt32
  authTimeout : UInt64
  logLevel : Option Text
  deriving DecidableEq, Repr

inductive ListButton where
  | add (ip : Text)
  | delete (ip : Text)
  | clear
  deriving DecidableEq, Repr

inductive Form where
  | ftp (w : FtpWidgets)
  | ftps (w : FtpsWidgets)
  | sftp (w : SftpWidgets)
  | loginSecurity (maxAttempts : UInt32) (banDuration : UInt64)
  | whitelist (button : ListButton)
  | allowAll
  | blacklist (button : ListButton)
  deriving DecidableEq, Repr

def isFile (host : Host) (path : Text) : Bool :=
  match host.fs.metadata host.os (components path) with
  | .ok found => found.fileType = .file
  | .error _ => false

def ListButton.accepted (networks : Networks) : ListButton → Bool
  | .add ip => ip ≠ [] && validateIpOrCidr networks ip
  | .delete _ | .clear => true

/-- What a form checks itself; otherwise it saves nothing. -/
def Form.accepted (networks : Networks) (host : Host) : Form → Bool
  | .ftp w => !w.anon || (trim w.anonHome ≠ [] && host.fs.pathIsDir host.os (components (trim w.anonHome)))
  | .ftps w =>
      let certsReady := trim w.certPath ≠ [] && trim w.keyPath ≠ []
      !(w.requireSsl && !certsReady) &&
        !(certsReady && (!isFile host (trim w.certPath) || !isFile host (trim w.keyPath)))
  | .sftp w => trim w.hostKey ≠ []
  | .loginSecurity _ _ => true
  | .whitelist button | .blacklist button => button.accepted networks
  | .allowAll => true

def ListButton.applyTo (button : ListButton) (ips : List Text) : List Text :=
  match button with
  | .add ip => if ips.contains ip then ips else ips ++ [ip]
  | .delete ip => ips.filter fun x => x ≠ ip
  | .clear => []

def bindIpOf (text : Text) : Text := if trim text = [] then "0.0.0.0".toList else text

def filled (text : Text) : Option Text := if trim text = [] then none else some (trim text)

def Form.applyTo (form : Form) (cfg : Config) : Config :=
  match form with
  | .ftp w =>
      { cfg with
        ftp := { cfg.ftp with
          enabled := w.enabled
          allowAnonymous := w.anon
          bindIp := bindIpOf w.bindIp
          port := w.port
          passivePorts := (min w.passiveStart w.passiveEnd, max w.passiveStart w.passiveEnd)
          welcomeMessage := w.welcome
          anonymousHome := if trim w.anonHome = [] then none else some w.anonHome
          maxSpeedKbps := w.maxSpeed
          encoding := w.encoding.getD "UTF-8".toList
          masqueradeIp := filled w.masqueradeIp } }
  | .ftps w =>
      { cfg with
        security := { cfg.security with
          requireSsl := w.requireSsl
          certPath := filled w.certPath
          keyPath := filled w.keyPath } }
  | .sftp w =>
      { cfg with
        sftp := {
          enabled := w.enabled
          bindIp := bindIpOf w.bindIp
          port := w.port
          hostKeyPath := w.hostKey
          maxAuthAttempts := w.maxAuth
          authTimeout := w.authTimeout
          logLevel := w.logLevel.getD "info".toList } }
  | .loginSecurity maxAttempts banDuration =>
      { cfg with
        security := { cfg.security with
          maxLoginAttempts := maxAttempts
          banDuration := banDuration } }
  | .whitelist button =>
      { cfg with security := { cfg.security with allowedIps := button.applyTo cfg.security.allowedIps } }
  | .allowAll => { cfg with security := { cfg.security with allowedIps := ["0.0.0.0/0".toList] } }
  | .blacklist button =>
      { cfg with security := { cfg.security with deniedIps := button.applyTo cfg.security.deniedIps } }

/-! What a form may change. -/

inductive Fields where
  | ftp
  | ftps
  | sftp
  | loginSecurity
  | whitelist
  | blacklist
  deriving DecidableEq, Repr

def Form.fields : Form → Fields
  | .ftp _ => .ftp
  | .ftps _ => .ftps
  | .sftp _ => .sftp
  | .loginSecurity _ _ => .loginSecurity
  | .whitelist _ | .allowAll => .whitelist
  | .blacklist _ => .blacklist

namespace Fields

/-- All of the FTP section belongs to its form, but for the data timeout. -/
def copy (fields : Fields) (source target : Config) : Config :=
  match fields with
  | .ftp => { target with ftp := { source.ftp with dataTimeout := target.ftp.dataTimeout } }
  | .ftps =>
      { target with
        security := { target.security with
          requireSsl := source.security.requireSsl
          certPath := source.security.certPath
          keyPath := source.security.keyPath } }
  | .sftp => { target with sftp := source.sftp }
  | .loginSecurity =>
      { target with
        security := { target.security with
          maxLoginAttempts := source.security.maxLoginAttempts
          banDuration := source.security.banDuration } }
  | .whitelist => { target with security := { target.security with allowedIps := source.security.allowedIps } }
  | .blacklist => { target with security := { target.security with deniedIps := source.security.deniedIps } }

def region (fields : Fields) : Region Config where
  copy := fields.copy
  copy_self config := by cases fields <;> rfl
  copy_over first second target := by cases fields <;> rfl

def owns : Fields → Service → Bool
  | .ftp, .ftp | .sftp, .sftp => true
  | _, _ => false

theorem copy_enabled (fields : Fields) (source target : Config) (service : Service) :
    (fields.copy source target).enabled service =
      if fields.owns service then source.enabled service else target.enabled service := by
  cases fields <;> cases service <;> rfl

end Fields

theorem applyTo_sameOutside (form : Form) (cfg : Config) : form.fields.region.SameOutside cfg (form.applyTo cfg) := by
  cases form <;> rfl

/-- The configuration without the flags that the service page changes. -/
def unflagged (config : Config) : Config := (config.setEnabled .ftp false).setEnabled .sftp false

@[simp] theorem unflagged_setEnabled (config : Config) (service : Service) (enabled : Bool) :
    unflagged (config.setEnabled service enabled) = unflagged config := by
  cases service <;> rfl

theorem unflagged_copy (fields : Fields) (source target : Config) :
    unflagged (fields.copy source target) = fields.copy (unflagged source) (unflagged target) := by
  cases fields <;> rfl

theorem eq_of_unflagged {first second : Config} (same : unflagged first = unflagged second)
    (flags : ∀ service, first.enabled service = second.enabled service) : first = second := by
  have restored (config : Config) : config =
      ((unflagged config).setEnabled .ftp (config.enabled .ftp)).setEnabled .sftp (config.enabled .sftp) := rfl
  rw [restored first, restored second, same, flags, flags]

/-- The records agree outside the fields, and the flags apart. -/
def AgreesApart (fields : Fields) (first second : Config) : Prop :=
  fields.region.SameOutside (unflagged first) (unflagged second)

theorem AgreesApart.applyTo {form : Form} {backend gui : Config} (agrees : AgreesApart form.fields backend gui) :
    AgreesApart form.fields backend (form.applyTo gui) :=
  agrees.trans ((applyTo_sameOutside form gui).map (unflagged_copy form.fields))

theorem AgreesApart.sameOutside {fields : Fields} {first second : Config} (agrees : AgreesApart fields first second)
    (flags : ∀ service, fields.owns service = false → first.enabled service = second.enabled service) :
    fields.region.SameOutside first second := by
  refine eq_of_unflagged ?_ fun service => ?_
  · exact (unflagged_copy fields second first).trans agrees
  · refine (fields.copy_enabled second first service).trans ?_
    cases owned : fields.owns service with
    | true => rfl
    | false => exact flags service owned

end Wftpd.Gui
