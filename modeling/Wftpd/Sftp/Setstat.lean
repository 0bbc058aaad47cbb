import Wftpd.Sftp.Changes

/-! What a SETSTAT that fails has done.

The mode is set before the file is opened for the size, so a failure of the second step comes
too late for the first.
-/

set_option autoImplicit false

namespace Wftpd.Sftp
open Wftpd.Posix Wftpd.Common Wftpd.Library

variable {env : RequestEnv} {session : Session}

theorem sys_bind {α β : Type} (first : Action FileSystem ErrorKind α) (next : α → Action FileSystem ErrorKind β)
    (session : Session) :
    sys (first >>= next) session = (sys first >>= fun value => sys (next value)) session := by
  simp only [sys, Action.zoom, Action.bind_run]
  cases first session.fs with
  | mk answer fs => cases answer <;> rfl

theorem sys_error {α : Type} {call : Action FileSystem ErrorKind α} {why : ErrorKind}
    (failed : call session.fs = (.error why, session.fs)) : sys call session = (.error (ioStatus why), session) := by
  simp only [sys, Action.zoom, failed]
  rfl

def modeBits (permissions : UInt32) : Nat := (permissions &&& 0o7777).toNat

/-- Mode and length of what the path leads to are still the same. -/
def KeepsTarget (env : RequestEnv) (session : Session) (path : Text) (after : Session) : Prop :=
  ∀ resolved loc node, resolve session.homeDir path = .ok resolved →
    session.fs.locate env.os true resolved = .ok loc → session.fs.tree.find loc = some node →
      (after.fs.inode node.ino).mode = (session.fs.inode node.ino).mode ∧
        (after.fs.data node.ino).length = (session.fs.data node.ino).length

/-- A SETSTAT that fails changes neither mode nor length. -/
def AtomicOnError (env : RequestEnv) (session : Session) (id : UInt32) (path : Text) (attrs : FileAttributes) : Prop :=
  ∀ why after, setstat env id path attrs session = (.error why, after) → KeepsTarget env session path after

/-- A SETSTAT that comes to set both: the mode is one the kernel sets. -/
structure SetsBoth (env : RequestEnv) (session : Session) (path : Text) (attrs : FileAttributes) (permissions : UInt32)
    (size : UInt64) (resolved : PathBuf) (loc : Loc) (node : Node) : Prop where
  mode : attrs.permissions = some permissions
  length : attrs.size = some size
  granted : (session.permissions env).canWrite = true
  accepted : resolve session.homeDir path = .ok resolved
  chmods : FileSystem.Chmods env.os session.fs resolved loc node

def Session.withMode (session : Session) (ino : Nat) (permissions : UInt32) : Session :=
  { session with fs := session.fs.withMode ino (modeBits permissions) }

theorem setSize_cases (resolved : PathBuf) (size : UInt64) (session : Session) :
    (∃ why, setSize env resolved (some size) session = (.error why, session)) ∨
      ∃ ino, FileSystem.Resizes env.os session.fs resolved size.toNat ino := by
  rcases FileSystem.resizeAt_cases env.os session.fs resolved size.toNat with ⟨why, failed⟩ | resizes
  · left
    have ran := sys_bind (FileSystem.openFile env.os { write := true } resolved)
      (fun f => FileSystem.setLen env.os f size.toNat) session
    rw [← FileSystem.resizeAt, sys_error failed] at ran
    exact ⟨ioStatus why, ran.symm⟩
  · exact .inr resizes

theorem setSize_resizes {resolved : PathBuf} {size : UInt64} {ino : Nat}
    (resizes : FileSystem.Resizes env.os session.fs resolved size.toNat ino) :
    (setSize env resolved (some size) session).1 = .ok () := by
  have ran := sys_bind (FileSystem.openFile env.os { write := true } resolved)
    (fun f => FileSystem.setLen env.os f size.toNat) session
  have answered := resizes.resizeAt
  rw [← FileSystem.resizeAt] at ran
  rw [setSize, ← ran, sys, Action.zoom, answered]
  rfl

theorem setMode_cases (resolved : PathBuf) (permissions : UInt32) (session : Session) :
    (∃ why, setMode env resolved (some permissions) session = (.error why, session)) ∨
      ∃ loc node, FileSystem.Chmods env.os session.fs resolved loc node := by
  rcases FileSystem.setPermissions_cases env.os session.fs resolved (modeBits permissions) with ⟨why, failed⟩ | chmods
  · exact .inl ⟨ioStatus why, sys_error failed⟩
  · exact .inr chmods

theorem setMode_chmods {resolved : PathBuf} {loc : Loc} {node : Node}
    (chmods : FileSystem.Chmods env.os session.fs resolved loc node) (permissions : UInt32) :
    setMode env resolved (some permissions) session = (.ok (), session.withMode node.ino permissions) := by
  have ran := chmods.setPermissions (modeBits permissions)
  rw [setMode, sys, Action.zoom, ← modeBits, ran]
  rfl

theorem setstat_run {id : UInt32} {path : Text} {attrs : FileAttributes} {resolved : PathBuf}
    (granted : (session.permissions env).canWrite = true) (accepted : resolve session.homeDir path = .ok resolved) :
    setstat env id path attrs session =
      (setMode env resolved attrs.permissions >>= fun _ => setSize env resolved attrs.size >>= fun _ =>
        audit env "SETSTAT".toList resolved.toText 0 true "设置属性成功".toList >>= fun _ =>
          pure (.status id .ok)) session := by
  have passed : requirePermission env Permissions.canWrite session = (.ok (), session) := by
    simp [requirePermission, granted]
  have led : resolvePath path session = (.ok resolved, session) := by
    rw [resolvePath, Action.query_run, accepted]
  rw [setstat, Action.bind_run_ok passed, Action.bind_run_ok led]

/-- A SETSTAT that fails has changed nothing, or it has set the mode and could not set the size. -/
theorem setstat_error {id : UInt32} {path : Text} {attrs : FileAttributes} {why : StatusCode} {after : Session}
    (failed : setstat env id path attrs session = (.error why, after)) :
    after = session ∨ ∃ permissions size resolved loc node,
      SetsBoth env session path attrs permissions size resolved loc node ∧ after = session.withMode node.ino permissions ∧
        ¬ ∃ ino, FileSystem.Resizes env.os (session.withMode node.ino permissions).fs resolved size.toNat ino := by
  rcases Action.Still.bind_failed (Action.still_query _) failed with same | ⟨_, passed, failed⟩
  · exact .inl same
  rcases Action.Still.bind_failed (Action.still_query _) failed with same | ⟨resolved, led, failed⟩
  · exact .inl same
  have granted := requirePermission_ok passed
  have accepted := resolvePath_ok led
  -- from any state, only the step that sets the size is left to fail
  have sized {middle : Session} (failed : (setSize env resolved attrs.size >>= fun _ =>
      audit env "SETSTAT".toList resolved.toText 0 true "设置属性成功".toList >>= fun _ =>
        pure (.status id .ok)) middle = ((.error why, after) : Except StatusCode Reply × Session)) :
      after = middle ∧ ∃ size, attrs.size = some size ∧ ¬ ∃ ino, FileSystem.Resizes env.os middle.fs resolved size.toNat ino := by
    rcases Action.bind_failed failed with failed | ⟨_, _, _, recorded⟩
    · cases wanted : attrs.size with
      | none =>
          rw [wanted] at failed
          cases failed
      | some size =>
          rw [wanted] at failed
          rcases setSize_cases resolved size middle with ⟨other, refused⟩ | ⟨ino, resizes⟩
          · rw [refused] at failed
            cases failed
            refine ⟨rfl, size, rfl, ?_⟩
            rintro ⟨ino, resizes⟩
            have done := setSize_resizes resizes
            rw [refused] at done
            cases done
          · have done := setSize_resizes resizes
            rw [failed] at done
            cases done
    · cases recorded
  cases wanted : attrs.permissions with
  | none =>
      rw [wanted] at failed
      exact .inl (sized failed).1
  | some permissions =>
      rw [wanted] at failed
      rcases setMode_cases resolved permissions session with ⟨other, refused⟩ | ⟨loc, node, chmods⟩
      · rw [Action.bind_run_error refused] at failed
        cases failed
        exact .inl rfl
      · rw [Action.bind_run_ok (setMode_chmods chmods permissions)] at failed
        obtain ⟨same, size, length, refused⟩ := sized failed
        exact .inr ⟨permissions, size, resolved, loc, node, ⟨wanted, length, granted, accepted, chmods⟩, same, refused⟩

/-- Where the size cannot be set after the mode, the request fails with the mode set. -/
theorem SetsBoth.setstat {id : UInt32} {path : Text} {attrs : FileAttributes} {permissions : UInt32} {size : UInt64}
    {resolved : PathBuf} {loc : Loc} {node : Node} (both : SetsBoth env session path attrs permissions size resolved loc node)
    (refused : ¬ ∃ ino, FileSystem.Resizes env.os (session.withMode node.ino permissions).fs resolved size.toNat ino) :
    ∃ why, setstat env id path attrs session = (.error why, session.withMode node.ino permissions) := by
  rcases setSize_cases resolved size (session.withMode node.ino permissions) with ⟨why, failed⟩ | resizes
  · refine ⟨why, ?_⟩
    rw [setstat_run both.granted both.accepted, both.mode, both.length,
      Action.bind_run_ok (setMode_chmods both.chmods permissions), Action.bind_run_error failed]
  · exact absurd resizes refused

/-- A SETSTAT is atomic on error exactly when, wherever it sets a mode and then a size, the mode
is the one the target has or the size can still be set under it. -/
theorem setstat_atomic_iff (env : RequestEnv) (session : Session) (id : UInt32) (path : Text) (attrs : FileAttributes) :
    AtomicOnError env session id path attrs ↔
      ∀ permissions size resolved loc node, SetsBoth env session path attrs permissions size resolved loc node →
        (session.fs.inode node.ino).mode = modeBits permissions ∨
          ∃ ino, FileSystem.Resizes env.os (session.fs.withMode node.ino (modeBits permissions)) resolved size.toNat ino := by
  constructor
  · intro atomic permissions size resolved loc node both
    by_cases refused : ∃ ino, FileSystem.Resizes env.os (session.withMode node.ino permissions).fs resolved size.toNat ino
    · exact .inr refused
    · obtain ⟨why, failed⟩ := both.setstat refused
      have kept := (atomic why _ failed resolved loc node both.accepted both.chmods.located both.chmods.found).1
      simp only [Session.withMode, FileSystem.withMode, Function.update_self] at kept
      exact .inl kept.symm
  · intro safe why after failed other loc node accepted located found
    rcases setstat_error failed with rfl | ⟨permissions, size, resolved, place, target, both, rfl, refused⟩
    · exact ⟨rfl, rfl⟩
    · -- the node whose mode was set is the one the path leads to
      rw [both.accepted] at accepted
      cases accepted
      rw [both.chmods.located] at located
      cases located
      rw [both.chmods.found] at found
      cases found
      rcases safe _ _ _ _ _ both with same | resizes
      · refine ⟨?_, rfl⟩
        simp only [Session.withMode, FileSystem.withMode, Function.update_self]
        exact same.symm
      · exact absurd resizes refused

/-- A kernel that looks at the owner's write bit. -/
def ownerBits : Os :=
  { Os.permissive with may := fun inode access => access ≠ .write || inode.mode &&& 0o200 ≠ 0 }

def oneByte : Session := sessionAt (FileSystem.empty.addFile "f".toList [97])

/-- To make a file read-only and empty it at once makes it read-only and fails. -/
theorem setstat_sets_mode : ¬ ∀ (env : RequestEnv) (session : Session) (id : UInt32) (path : Text) (attrs : FileAttributes),
    AtomicOnError env session id path attrs := by
  intro atomic
  let env : RequestEnv := { permissiveEnv .full with os := ownerBits }
  let attrs : FileAttributes := ⟨some 0, none, none, some 0o444, none, none⟩
  have failed : (setstat env 1 "/f".toList attrs oneByte).1 = .error .permissionDenied := by decide +kernel
  have changed : ((setstat env 1 "/f".toList attrs oneByte).2.fs.inode 1).mode = 0o444 := by decide +kernel
  have before : (oneByte.fs.inode 1).mode = 0o644 := by decide +kernel
  have accepted : resolve oneByte.homeDir "/f".toList = .ok (components "/f".toList) := by decide +kernel
  have located : oneByte.fs.locate env.os true (components "/f".toList) = .ok ["f".toList] := by decide +kernel
  have found : oneByte.fs.tree.find ["f".toList] = some (.file 1) := by decide +kernel
  have kept : KeepsTarget env oneByte "/f".toList (setstat env 1 "/f".toList attrs oneByte).2 :=
    atomic env oneByte 1 "/f".toList attrs .permissionDenied _ (Prod.ext failed rfl)
  have same := (kept _ _ _ accepted located found).1
  exact absurd (changed.symm.trans (same.trans before)) (by decide)

end Wftpd.Sftp
