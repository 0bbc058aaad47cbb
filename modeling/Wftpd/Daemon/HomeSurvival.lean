import Wftpd.Ftp.Changes
import Wftpd.Posix.Survival
import Wftpd.Sftp.Changes

/-! The home directory of a session, under everything a user can ask for.

Both front ends resolve several paths to home itself, and both remove directories with
all they hold.
-/

set_option autoImplicit false

namespace Wftpd.Sftp
open Wftpd.Posix Wftpd.Common Wftpd.Library

def Request.displaces : Request → List Text
  | .remove _ filename => [filename]
  | .rmdir _ path => [path]
  | .rename _ oldpath newpath => [oldpath, newpath]
  | _ => []

def StaysInside (home : Loc) (session : Session) (input : Input) : Prop :=
  ∀ path ∈ input.2.displaces, ∀ resolved loc, resolve session.homeDir path = .ok resolved →
    session.fs.locate input.1.os false resolved = .ok loc → home <+: loc

def WipesHome (home : Loc) (session : Session) (input : Input) : Prop :=
  ∃ id path resolved, input.2 = .rmdir id path ∧ (session.permissions input.1).canRmdir = true ∧
    resolve session.homeDir path = .ok resolved ∧ FileSystem.RemovesAll input.1.os session.fs resolved home

theorem onlyBelow_step (digests : Digests) {home : Loc} {session : Session} {input : Input}
    (dir : session.fs.tree.isDir home = true) (inside : StaysInside home session input)
    (spared : ¬ WipesHome home session input) :
    FileSystem.OnlyBelow home session.fs (sessionStep digests session input).2.fs := by
  obtain ⟨env, request⟩ := input
  have unchanged := FileSystem.OnlyBelow.refl home session.fs
  cases mutates : request.mutates with
  | false =>
      rw [sessionStep, handleRequest_leaves_fs digests env mutates session]
      exact unchanged
  | true =>
      cases request with
      | «open» id filename pflags =>
          -- entries may be added, none is taken away
          apply open_final (FileSystem.OnlyBelow home session.fs) id unchanged
          intro _ resolved _
          exact FileSystem.onlyBelow_openFile _ resolved
      | write id handle offset data =>
          apply write_final (FileSystem.OnlyBelow home session.fs) id unchanged
          intro _ f _
          exact FileSystem.onlyBelow_writeAll f.file _ data
      | setstat id path attrs =>
          apply setstat_final (FileSystem.OnlyBelow home session.fs) id unchanged
          -- modes and lengths are no part of the tree
          · intro inode
            exact .of_tree rfl
          · intro _ inode size resolved loc ino _ _ _ _ _ _
            exact .of_tree rfl
      | remove id filename =>
          apply remove_final (FileSystem.OnlyBelow home session.fs) id unchanged
          intro _ resolved accepted
          apply FileSystem.onlyBelow_removeFile dir
          intro loc located
          exact inside filename (by simp [Request.displaces]) resolved loc accepted located
      | mkdir id path =>
          apply mkdir_final (FileSystem.OnlyBelow home session.fs) id unchanged
          intro resolved _
          exact FileSystem.onlyBelow_createDir resolved
      | rmdir id path =>
          apply rmdir_final (FileSystem.OnlyBelow home session.fs) id unchanged
          intro granted resolved accepted
          apply FileSystem.onlyBelow_removeDirAll dir
          · intro loc located
            exact inside path (by simp [Request.displaces]) resolved loc accepted located
          · intro removes
            exact spared ⟨id, path, resolved, rfl, granted, accepted, removes⟩
      | rename id oldpath newpath =>
          apply rename_final (FileSystem.OnlyBelow home session.fs) id unchanged
          intro _ «from» «to» acceptedFrom acceptedTo _
          apply FileSystem.onlyBelow_rename
          · intro loc located
            exact inside oldpath (by simp [Request.displaces]) «from» loc acceptedFrom located
          · intro loc located
            exact inside newpath (by simp [Request.displaces]) «to» loc acceptedTo located
      | symlink id linkpath targetpath =>
          apply symlink_final (FileSystem.OnlyBelow home session.fs) id unchanged
          intro _ link _ _ _
          exact FileSystem.onlyBelow_symlink linkpath link
      | _ => cases mutates

end Wftpd.Sftp

namespace Wftpd.Ftp
open Wftpd.Posix Wftpd.Common Wftpd.Library

def Call.displaces : Call → List Text
  | .del path => [path]
  | .rmd path => [path]
  | .rename «from» «to» => [«from», «to»]
  | _ => []

def StaysInside (home : Loc) (state : WftpdFilesystem) (input : CallInput) : Prop :=
  ∀ path ∈ input.2.displaces, ∀ p loc, resolve state.root (components path) = .ok p →
    state.fs.locate input.1.os false p = .ok loc → home <+: loc

def WipesHome (user : WftpdUser) (home : Loc) (state : WftpdFilesystem) (input : CallInput) : Prop :=
  ∃ path p, input.2 = .rmd path ∧ user.permissions.canRmdir = true ∧ resolve state.root (components path) = .ok p ∧
    FileSystem.RemovesAll input.1.os state.fs p home

theorem onlyBelow_call {user : WftpdUser} {home : Loc} {state : WftpdFilesystem} {input : CallInput}
    (dir : state.fs.tree.isDir home = true) (inside : StaysInside home state input)
    (spared : ¬ WipesHome user home state input) :
    FileSystem.OnlyBelow home state.fs (callStep user state input).2.fs := by
  obtain ⟨env, call⟩ := input
  have unchanged := FileSystem.OnlyBelow.refl home state.fs
  cases reads : call.reads with
  | true =>
      rw [callStep, handleCall_fs reads state]
      exact unchanged
  | false =>
      cases call with
      | put input path startPos =>
          rw [callStep, handleCall, handleCall_before]
          -- directories and a file may be added, none is taken away
          apply put_final (FileSystem.OnlyBelow.refl home) (fun _ _ _ first second => first.trans second)
          · intro _ p parent _ _ _
            exact FileSystem.onlyBelow_createDirAll parent
          · intro fs p truncate
            exact FileSystem.onlyBelow_openFile _ p
          · intro fs file offset bytes
            exact FileSystem.onlyBelow_writeAll file offset bytes
      | del path =>
          rw [callStep, handleCall, handleCall_before]
          apply del_final (FileSystem.OnlyBelow home state.fs) unchanged
          intro _ p accepted
          apply FileSystem.onlyBelow_removeFile dir
          intro loc located
          exact inside path (by simp [Call.displaces]) p loc accepted located
      | mkd path =>
          rw [callStep, handleCall, handleCall_before]
          apply mkd_final (FileSystem.OnlyBelow home state.fs) unchanged
          intro _ p _
          exact FileSystem.onlyBelow_createDir p
      | rename «from» «to» =>
          rw [callStep, handleCall, handleCall_before]
          apply rename_final (FileSystem.OnlyBelow home state.fs) unchanged
          intro _ src dst acceptedFrom acceptedTo
          apply FileSystem.onlyBelow_rename
          · intro loc located
            exact inside «from» (by simp [Call.displaces]) src loc acceptedFrom located
          · intro loc located
            exact inside «to» (by simp [Call.displaces]) dst loc acceptedTo located
      | rmd path =>
          rw [callStep, handleCall, handleCall_before]
          apply rmd_final (FileSystem.OnlyBelow home state.fs) unchanged
          intro granted p accepted
          apply FileSystem.onlyBelow_removeDirAll dir
          · intro loc located
            exact inside path (by simp [Call.displaces]) p loc accepted located
          · intro removes
            exact spared ⟨path, p, rfl, granted, accepted, removes⟩
      | _ => cases reads

end Wftpd.Ftp

namespace Wftpd.Daemon
open Wftpd.Posix Wftpd.Common Wftpd.Library

structure HomeKept (home : Loc) (fs fs' : FileSystem) : Prop where
  dir : fs'.tree.isDir home = true
  others : FileSystem.OnlyBelow home fs fs'

section Runs
variable {σ ι ω : Type} {step : σ → ι → ω × σ} {view : σ → FileSystem} {condition : σ → ι → Prop} {home : Loc}

/-- A machine whose steps take away only what is strictly below home keeps home. -/
theorem run_homeKept (below : ∀ state input, (view state).tree.isDir home = true → condition state input →
      FileSystem.OnlyBelow home (view state) (view (step state input).2))
    {state : σ} {inputs : List ι} (dir : (view state).tree.isDir home = true)
    (along : Along step condition state inputs) : HomeKept home (view state) (view (run step state inputs).2) := by
  let invariant (later : σ) := HomeKept home (view state) (view later)
  have initial : invariant state := ⟨dir, .refl home _⟩
  have keeps : ∀ later input, invariant later → condition later input → invariant (step later input).2 := by
    intro later input ⟨dir, others⟩ holds
    have next := below later input dir holds
    exact ⟨next.isDir dir, others.trans next⟩
  have kept : invariant (run step state inputs).2 := run_invariant keeps initial along
  exact kept

end Runs

/-- Over both protocols home survives every run that stays inside, as long as no granted
RMDIR or RMD removes home itself. -/
theorem home_survives (digests : Sftp.Digests) (session : Sftp.Session) (user : Ftp.WftpdUser)
    (state : Ftp.WftpdFilesystem) (home : Loc) :
    (session.home = .ofNames home → session.fs.tree.isDir home = true → ∀ inputs : List Sftp.Input,
      Along (Sftp.sessionStep digests) (Sftp.StaysInside home) session inputs →
      Along (Sftp.sessionStep digests) (fun state input => ¬ Sftp.WipesHome home state input) session inputs →
      HomeKept home session.fs (run (Sftp.sessionStep digests) session inputs).2.fs) ∧
    (state.root = some (.ofNames home) → state.fs.tree.isDir home = true → ∀ inputs : List Ftp.CallInput,
      Along (Ftp.callStep user) (Ftp.StaysInside home) state inputs →
      Along (Ftp.callStep user) (fun state input => ¬ Ftp.WipesHome user home state input) state inputs →
      HomeKept home state.fs (run (Ftp.callStep user) state inputs).2.fs) := by
  constructor
  · intro _ dir inputs inside spared
    apply run_homeKept _ dir (Along.and inside spared)
    intro state input dir ⟨inside, spared⟩
    exact Sftp.onlyBelow_step digests dir inside spared
  · intro _ dir inputs inside spared
    apply run_homeKept _ dir (Along.and inside spared)
    intro state input dir ⟨inside, spared⟩
    exact Ftp.onlyBelow_call dir inside spared

section Samples

def homeWithDir : FileSystem :=
  (FileSystem.empty.create [] "h".toList .dir ⟨0o755, 0, 0, 0, 0⟩).create ["h".toList] "a".toList .dir ⟨0o755, 0, 0, 0, 0⟩

def sftpHome : Sftp.Session := { Sftp.sessionAt homeWithDir with homeDir := "/h".toList }

def rmdirOnly : Permissions := { Permissions.default with canRmdir := true }

def rmdirOf (path : Text) : List Sftp.Input := [(Sftp.permissiveEnv rmdirOnly, .rmdir 1 path)]

def rmdOf (path : Text) : List Ftp.CallInput := [(Ftp.permissiveCall, .rmd path)]

theorem rmdirOf_inside {path : Text} {loc : Loc} (resolved : ∃ p, Sftp.resolve "/h".toList path = .ok p ∧
    homeWithDir.locate .permissive false p = .ok loc) (inside : ["h".toList] <+: loc) (digests : Sftp.Digests) :
    Along (Sftp.sessionStep digests) (Sftp.StaysInside ["h".toList]) sftpHome (rmdirOf path) := by
  obtain ⟨p, accepted, located⟩ := resolved
  refine ⟨?_, trivial⟩
  intro other member resolved place same found
  obtain rfl : other = path := List.mem_singleton.mp member
  cases accepted.symm.trans same
  cases located.symm.trans found
  exact inside

theorem rmdOf_inside {path : Text} {loc : Loc} (resolved : ∃ p,
    Ftp.resolve (some (.ofNames ["h".toList])) (components path) = .ok p ∧
    homeWithDir.locate .permissive false p = .ok loc) (inside : ["h".toList] <+: loc) (user : Ftp.WftpdUser) :
    Along (Ftp.callStep user) (Ftp.StaysInside ["h".toList]) (Ftp.rootedAt ["h".toList] homeWithDir) (rmdOf path) := by
  obtain ⟨p, accepted, located⟩ := resolved
  refine ⟨?_, trivial⟩
  intro other member resolved place same found
  obtain rfl : other = path := List.mem_singleton.mp member
  cases accepted.symm.trans same
  cases located.symm.trans found
  exact inside

theorem home_survives_below :
    HomeKept ["h".toList] homeWithDir
        (run (Sftp.sessionStep Sftp.noDigests) sftpHome (rmdirOf "a".toList)).2.fs ∧
      HomeKept ["h".toList] homeWithDir
        (run (Ftp.callStep (Ftp.userWith rmdirOnly)) (Ftp.rootedAt ["h".toList] homeWithDir) (rmdOf "a".toList)).2.fs := by
  obtain ⟨sftp, ftp⟩ := home_survives Sftp.noDigests sftpHome (Ftp.userWith rmdirOnly)
    (Ftp.rootedAt ["h".toList] homeWithDir) ["h".toList]
  constructor
  · apply sftp rfl rfl (rmdirOf "a".toList)
    · exact rmdirOf_inside ⟨_, rfl, rfl⟩ (List.prefix_append _ _) Sftp.noDigests
    · refine ⟨?_, trivial⟩
      rintro ⟨id, path, resolved, same, -, accepted, removes⟩
      cases same
      cases accepted
      cases removes.located
  · apply ftp rfl rfl (rmdOf "a".toList)
    · exact rmdOf_inside ⟨_, rfl, rfl⟩ (List.prefix_append _ _) _
    · refine ⟨?_, trivial⟩
      rintro ⟨path, p, same, -, accepted, removes⟩
      cases same
      cases accepted
      cases removes.located

theorem home_wiped :
    (¬ ∀ (digests : Sftp.Digests) (session : Sftp.Session) (home : Loc) (inputs : List Sftp.Input),
      session.home = .ofNames home → session.fs.tree.isDir home = true →
      Along (Sftp.sessionStep digests) (Sftp.StaysInside home) session inputs →
      HomeKept home session.fs (run (Sftp.sessionStep digests) session inputs).2.fs) ∧
    (¬ ∀ (user : Ftp.WftpdUser) (state : Ftp.WftpdFilesystem) (home : Loc) (inputs : List Ftp.CallInput),
      state.root = some (.ofNames home) → state.fs.tree.isDir home = true →
      Along (Ftp.callStep user) (Ftp.StaysInside home) state inputs →
      HomeKept home state.fs (run (Ftp.callStep user) state inputs).2.fs) := by
  constructor
  · intro survives
    have kept := survives Sftp.noDigests sftpHome ["h".toList] (rmdirOf "/".toList) rfl rfl
      (rmdirOf_inside ⟨_, rfl, rfl⟩ (List.prefix_refl _) Sftp.noDigests)
    cases kept.dir
  · intro survives
    have kept := survives (Ftp.userWith rmdirOnly) (Ftp.rootedAt ["h".toList] homeWithDir) ["h".toList]
      (rmdOf "/".toList) rfl rfl (rmdOf_inside ⟨_, rfl, rfl⟩ (List.prefix_refl _) _)
    cases kept.dir

end Samples

end Wftpd.Daemon
