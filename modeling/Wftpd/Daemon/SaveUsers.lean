import Wftpd.Common.Users

/-! The control request that replaces the user store.

The content is written to a temporary file, loaded back as its validation,
renamed over `users.json`, and what was loaded is swapped in.
-/

set_option autoImplicit false

namespace Wftpd.Daemon
open Wftpd.Posix Wftpd.Common

inductive Readback where
  | intact
  | gone
  | unreadable
  deriving DecidableEq, Repr

def Readback.file (content : Text) : Readback → RawFile
  | .intact => .text content
  | .gone => .absent
  | .unreadable => .unreadable

structure SaveEnv where
  written : Bool
  readback : Readback
  renamed : Bool
  logsErrors : Bool
  deriving DecidableEq, Repr

structure DaemonState where
  usersJson : RawFile
  manager : UserManager
  deriving DecidableEq

inductive SaveReply where
  | users (content : Text)
  | internal
  /-- The daemon is gone. -/
  | none
  deriving DecidableEq, Repr

section Request
variable (parse : Text → Option UserManager)

/-- `ControlService::save_users`. `load` never returns an error, so the branch
that reports one and removes the temporary file is never taken. -/
def saveUsers (env : SaveEnv) (content : Text) (daemon : DaemonState) : SaveReply × DaemonState :=
  if !env.written then (.internal, daemon)
  else match UserManager.load env.logsErrors ((env.readback.file content).decode parse) with
    | .crashed => (.none, daemon)
    | .done validated =>
        if !env.renamed then (.internal, daemon)
        else (.users content, { usersJson := .text content, manager := validated })

/-- Validate before commit: a content that is no store is refused and nothing
changes; one that is a store becomes both copies, when the files can be written. -/
def ValidatesBeforeCommit (env : SaveEnv) (content : Text) (daemon : DaemonState) : Prop :=
  (parse content = none → saveUsers parse env content daemon = (.internal, daemon)) ∧
  ∀ store, parse content = some store → env.written = true → env.renamed = true →
    (saveUsers parse env content daemon).2.usersJson.decode parse = .store store ∧
      (saveUsers parse env content daemon).2.manager = store

def PreviewCrashes (env : SaveEnv) (content : Text) : Prop :=
  env.logsErrors = true ∧ env.readback = .intact ∧ trim content ≠ [] ∧ previewSplits content = true

def SafelyHandled (env : SaveEnv) (content : Text) : Prop :=
  env.written = false ∨
  match parse content with
  | none => env.renamed = false ∧ ¬ PreviewCrashes env content
  | some store => env.renamed = false ∨ (trim content ≠ [] ∧ (env.readback = .intact ∨ store = .new))

variable {parse}

theorem load_readback_malformed (env : SaveEnv) {content : Text} (malformed : parse content = none) :
    UserManager.load env.logsErrors ((env.readback.file content).decode parse) = .crashed ∧
        PreviewCrashes env content ∨
      UserManager.load env.logsErrors ((env.readback.file content).decode parse) = .done .new ∧
        ¬ PreviewCrashes env content := by
  cases back : env.readback with
  | gone => exact .inr ⟨rfl, by simp [PreviewCrashes, back]⟩
  | unreadable => exact .inr ⟨rfl, by simp [PreviewCrashes, back]⟩
  | intact =>
      by_cases blank : trim content = []
      · exact .inr ⟨by simp [Readback.file, RawFile.decode, blank, UserManager.load],
          by simp [PreviewCrashes, blank]⟩
      · cases logs : env.logsErrors <;> cases splits : previewSplits content <;>
          simp [Readback.file, RawFile.decode, blank, malformed, UserManager.load, PreviewCrashes, back,
            logs, splits]

theorem load_readback_store (env : SaveEnv) {content : Text} {store : UserManager}
    (parsed : parse content = some store) :
    UserManager.load env.logsErrors ((env.readback.file content).decode parse) =
      .done (if env.readback = .intact ∧ trim content ≠ [] then store else .new) := by
  cases back : env.readback with
  | gone => simp [Readback.file, RawFile.decode, UserManager.load]
  | unreadable => simp [Readback.file, RawFile.decode, UserManager.load]
  | intact =>
      by_cases blank : trim content = [] <;>
        simp [Readback.file, RawFile.decode, blank, parsed, UserManager.load]

/-- Nothing is committed unless the rename went through, and then the file
holds the content whatever the decoder said about it. -/
theorem saveUsers_commits (env : SaveEnv) (content : Text) (daemon : DaemonState) :
    (saveUsers parse env content daemon).2 = daemon ∨
      env.written = true ∧ env.renamed = true ∧
        (saveUsers parse env content daemon).2.usersJson = .text content := by
  unfold saveUsers
  cases written : env.written with
  | false => exact .inl rfl
  | true =>
      cases UserManager.load env.logsErrors ((env.readback.file content).decode parse) with
      | crashed => exact .inl rfl
      | done validated => cases renamed : env.renamed <;> simp

theorem decode_text_store {content : Text} {store : UserManager} (parsed : parse content = some store) :
    (RawFile.text content).decode parse = .store store ↔ trim content ≠ [] := by
  by_cases blank : trim content = [] <;> simp [RawFile.decode, blank, parsed]

theorem saveUsers_store {env : SaveEnv} {content : Text} {store : UserManager} (daemon : DaemonState)
    (parsed : parse content = some store) (written : env.written = true) (renamed : env.renamed = true) :
    (saveUsers parse env content daemon).2 =
      ⟨.text content, if env.readback = .intact ∧ trim content ≠ [] then store else .new⟩ := by
  simp [saveUsers, written, renamed, load_readback_store env parsed]

/-- The request meets the law exactly when it is safely handled: with working
files, every content that is no store is committed as the empty one. -/
theorem saveUsers_validates_iff (parse : Text → Option UserManager) (env : SaveEnv) (content : Text)
    (daemon : DaemonState) :
    ValidatesBeforeCommit parse env content daemon ↔ SafelyHandled parse env content := by
  cases written : env.written with
  | false => simp [ValidatesBeforeCommit, SafelyHandled, saveUsers, written]
  | true =>
      cases parsed : parse content with
      | none =>
          simp only [ValidatesBeforeCommit, SafelyHandled, parsed, written, forall_true_left]
          rcases load_readback_malformed env parsed with ⟨loaded, crashes⟩ | ⟨loaded, survives⟩
          · simp [saveUsers, written, loaded, crashes]
          · cases renamed : env.renamed <;> simp [saveUsers, written, loaded, survives, renamed]
      | some store =>
          cases renamed : env.renamed with
          | false => simp [ValidatesBeforeCommit, SafelyHandled, parsed, renamed]
          | true =>
              have saved := saveUsers_store daemon parsed written renamed
              have law : ValidatesBeforeCommit parse env content daemon ↔
                  trim content ≠ [] ∧ (if env.readback = .intact ∧ trim content ≠ [] then store else .new) = store := by
                simp only [ValidatesBeforeCommit, parsed, reduceCtorEq, false_implies, true_and, Option.some.injEq,
                  written, renamed, forall_true_left, forall_eq', saved, decode_text_store parsed]
              rw [law]
              simp only [SafelyHandled, parsed, written, renamed, reduceCtorEq, false_or]
              -- the swapped store is the loaded one, empty unless the file was read back
              by_cases blank : trim content = []
              · simp [blank]
              · by_cases intact : env.readback = .intact <;> simp [blank, intact, eq_comm]

end Request

/-- One account, a request that is not JSON: the reply is a success and the
account is gone. -/
theorem saveUsers_wipes : ¬ ∀ (parse : Text → Option UserManager) (env : SaveEnv) (content : Text)
    (daemon : DaemonState), ValidatesBeforeCommit parse env content daemon := by
  intro validates
  have refused := (validates (fun _ => none) ⟨true, .intact, true, true⟩ "not json".toList
    ⟨.absent, ⟨AList.singleton "ann".toList
      ⟨"ann".toList, "hash".toList, "/home/ann".toList, .default, 0, none, true, false⟩⟩⟩).1 rfl
  exact absurd (congrArg Prod.fst refused) (by decide)

end Wftpd.Daemon
