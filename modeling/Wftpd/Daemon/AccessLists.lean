import Wftpd.Ftp.Auth
import Wftpd.Library.Runs
import Wftpd.Sftp.Handler

/-! Login attempts from one address through both front ends. -/

set_option autoImplicit false

namespace Wftpd.Daemon
open Wftpd.Posix Wftpd.Common Wftpd.Library Wftpd.Ftp Wftpd.Sftp

inductive Attempt (PublicKey : Type) where
  /-- A new SSH connection. -/
  | connect
  | ftp (username : Text) (password : Option Text)
  | password (user password : Text)
  | publickey (user : Text) (publicKey : PublicKey)
  deriving DecidableEq

inductive Answer where
  | accepted
  | rejected
  | none
  deriving DecidableEq, Repr

section Attempts
variable {PublicKey : Type} [DecidableEq PublicKey] (networks : Networks)
  (verifyPassword : Text → Text → Bool) (parsePublicKeyBase64 : Text → Option PublicKey)
  (config : Config) (ip : IpAddr)

def ftpAnswer (state : AuthState) :
    Outcome (Except AuthenticationError Principal × Accounts) → Answer × Option AuthState
  | .done (.ok _, accounts) => (.accepted, some { state with accounts := accounts })
  | .done (.error _, accounts) => (.rejected, some { state with accounts := accounts })
  | .crashed => (.none, none)

def sftpAnswer : Except Panic Auth × AuthState → Answer × Option AuthState
  | (.ok .accept, state) => (.accepted, some state)
  | (.ok .reject, state) => (.rejected, some state)
  | (.error .panicked, _) => (.none, none)

def attemptStep : Option AuthState → AuthEnv × Attempt PublicKey → Answer × Option AuthState
  | none, _ => (.none, none)
  | some state, (env, attempt) =>
      match attempt with
      | .connect =>
          (.none, some { state with handler := SftpHandler.newClient (some ip) state.handler.keysDir })
      | .ftp username password =>
          ftpAnswer state ((WftpdAuthenticator.new config).authenticate networks verifyPassword env.login username
            ⟨password, ip⟩ state.accounts)
      | .password user password => sftpAnswer (SftpHandler.authPassword verifyPassword env user password state)
      | .publickey user publicKey =>
          sftpAnswer (SftpHandler.authPublickey parsePublicKeyBase64 env user publicKey state)

def SftpCredentialsValid : Option AuthState → AuthEnv × Attempt PublicKey → Prop
  | some state, (env, .password user password) => SftpHandler.PasswordValid verifyPassword env state user password
  | some state, (env, .publickey user publicKey) =>
      SftpHandler.KeyValid parsePublicKeyBase64 env state user publicKey
  | _, _ => False

variable {networks verifyPassword parsePublicKeyBase64 config ip}

theorem sftpAnswer_accepted {result : Except Panic Auth × AuthState} :
    (sftpAnswer result).1 = .accepted ↔ result.1 = .ok .accept := by
  obtain ⟨answer | answer, state⟩ := result <;> cases answer <;> simp [sftpAnswer]

/-- From an address the lists reject, exactly the valid SFTP attempts are accepted. -/
theorem attemptStep_accepted_iff
    (rejected : isIpAllowedFor networks config.security.allowedIps config.security.deniedIps ip.toText = false)
    (front : Option AuthState) (input : AuthEnv × Attempt PublicKey) :
    (attemptStep networks verifyPassword parsePublicKeyBase64 config ip front input).1 = .accepted ↔
      SftpCredentialsValid verifyPassword parsePublicKeyBase64 front input := by
  obtain ⟨env, attempt⟩ := input
  cases front with
  | none => simp [attemptStep, SftpCredentialsValid]
  | some state =>
      cases attempt with
      | connect => simp [attemptStep, SftpCredentialsValid]
      | ftp username password =>
          have disallowed : (WftpdAuthenticator.new config).ipAllowed networks ip = false := rejected
          have refused := WftpdAuthenticator.authenticate_disallowed verifyPassword env.login username
            ⟨password, ip⟩ state.accounts disallowed
          simp [attemptStep, SftpCredentialsValid, refused, ftpAnswer]
      | password user password =>
          exact sftpAnswer_accepted.trans SftpHandler.authPassword_accept_iff
      | publickey user publicKey =>
          exact sftpAnswer_accepted.trans SftpHandler.authPublickey_accept_iff

end Attempts

/-- Every attempt of a sequence from a rejected address is refused if and only if
none of them brings valid credentials to the SFTP front end. -/
theorem attempts_refused_iff {PublicKey : Type} [DecidableEq PublicKey] (networks : Networks)
    (verifyPassword : Text → Text → Bool) (parsePublicKeyBase64 : Text → Option PublicKey) (config : Config)
    (ip : IpAddr)
    (rejected : isIpAllowedFor networks config.security.allowedIps config.security.deniedIps ip.toText = false)
    (start : AuthState) (attempts : List (AuthEnv × Attempt PublicKey)) :
    (∀ answer ∈ (run (attemptStep networks verifyPassword parsePublicKeyBase64 config ip) (some start) attempts).1,
      answer ≠ .accepted) ↔
    Along (attemptStep networks verifyPassword parsePublicKeyBase64 config ip)
      (fun front input => ¬ SftpCredentialsValid verifyPassword parsePublicKeyBase64 front input)
      (some start) attempts := by
  refine run_answers_iff ?_
  intro front input
  exact not_congr (attemptStep_accepted_iff rejected front input)

section Denied

def storedKey : Text := "AAAAC3NzaC1lZDI1NTE5AAAAIAAAAAAAAAAAAAAAAAAAAAAAAAAAAAAAAAAAAAAAAAAA".toList

def keyedEnv : AuthEnv :=
  ⟨⟨1, true, true⟩, .permissive, .empty, fun _ => some storedKey, fun _ => "os error".toList, true⟩

def denyingConfig : Config := .letting false none [] ["10.0.0.9".toList]

def deniedIp : IpAddr := .v4 ⟨#v[10, 0, 0, 9]⟩

def bob : User := ⟨"bob".toList, "hash".toList, "/".toList, .default, 0, none, true, false⟩

def bobOnly : AuthState :=
  ⟨.newClient (some deniedIp) (components "/etc/wftpd/keys".toList),
    ⟨.store ⟨AList.singleton "bob".toList bob⟩, .new⟩, []⟩

def plainAddresses : Networks := ⟨fun _ => none, fun _ => none⟩

theorem attempts_refused_iff_ftp :
    isIpAllowedFor plainAddresses [] ["10.0.0.9".toList] deniedIp.toText = false ∧
      ∀ answer ∈ (run (attemptStep plainAddresses (fun _ _ => true) (some : Text → Option Text) denyingConfig deniedIp)
        (some bobOnly) [(keyedEnv, .ftp "bob".toList (some "secret".toList))]).1, answer ≠ .accepted :=
  ⟨by decide, (attempts_refused_iff plainAddresses (fun _ _ => true) some denyingConfig deniedIp (by decide) bobOnly
    [(keyedEnv, .ftp "bob".toList (some "secret".toList))]).mpr ⟨id, trivial⟩⟩

theorem denied_address_accepted : ¬ ∀ (PublicKey : Type) (_ : DecidableEq PublicKey) (networks : Networks)
    (verifyPassword : Text → Text → Bool) (parsePublicKeyBase64 : Text → Option PublicKey) (config : Config)
    (ip : IpAddr) (start : AuthState) (attempts : List (AuthEnv × Attempt PublicKey)),
    isIpAllowedFor networks config.security.allowedIps config.security.deniedIps ip.toText = false →
    ∀ answer ∈ (run (attemptStep networks verifyPassword parsePublicKeyBase64 config ip) (some start) attempts).1,
      answer ≠ .accepted := by
  intro refused
  refine refused Text inferInstance plainAddresses (fun _ _ => false) some denyingConfig deniedIp bobOnly
    [(keyedEnv, .publickey "bob".toList storedKey)] (by decide) .accepted ?_ rfl
  have accepted : (attemptStep plainAddresses (fun _ _ => false) some denyingConfig deniedIp (some bobOnly)
      (keyedEnv, .publickey "bob".toList storedKey)).1 = .accepted := by decide
  exact List.mem_cons.mpr (.inl accepted.symm)

end Denied

end Wftpd.Daemon
