import Wftpd.Ftp.Changes
import Wftpd.Ftp.Resolve
import Wftpd.Posix.Confined

/-! Every storage call stays inside the root of its session. -/

set_option autoImplicit false

namespace Wftpd.Ftp
open Wftpd.Posix Wftpd.Posix.FileSystem Wftpd.Library

variable {env : CallEnv} {user : WftpdUser} {state : WftpdFilesystem} {home : Loc}

theorem resolve_names {path : Text} {p : PathBuf} (accepted : resolve (some (.ofNames home)) (components path) = .ok p) :
    ∃ below : List Name, p = .ofNames (home ++ below) := by
  rw [resolve_below (by simp [PathBuf.ofNames])] at accepted
  split at accepted
  · next below _ => exact ⟨below, by rw [← Except.ok.inj accepted]; simp [PathBuf.ofNames]⟩
  · cases accepted

section Upload
variable {file : OpenFile}

/-- What a piece of an upload does while its file is the session's own. -/
def Upholds (home : Loc) (file : OpenFile) (fs fs' : FileSystem) : Prop :=
  (file.write = true → Owns home fs file.ino) → Within home fs fs'

theorem Upholds.trans {fs fs' fs'' : FileSystem} (first : Upholds home file fs fs')
    (second : Upholds home file fs' fs'') : Upholds home file fs fs'' := by
  intro owns
  have start := first owns
  exact start.trans (second fun writes => start.owns (.inl rfl) (owns writes))

theorem within_upload (owns : file.write = true → Owns home state.fs file.ino) (p : PathBuf) (input : Upload)
    (startPos : UInt64) :
    Within home state.fs (finishPut env user input p startPos file state).2.fs := by
  have same : ∀ fs, Upholds home file fs fs := fun fs _ => .refl home fs
  have compose : ∀ a b c, Upholds home file a b → Upholds home file b c → Upholds home file a c :=
    fun _ _ _ first second => first.trans second
  exact finishPut_moves same compose (fun _ offset bytes owns => within_stored owns offset bytes) input p startPos state owns

end Upload

section Calls
variable (fenced : Fenced home state.fs) (rooted : state.root = some (.ofNames home))
include fenced rooted

theorem resolved_inside {os : Os} {follow : Bool} {path : Text} {p : PathBuf} {loc : Loc}
    (accepted : resolve state.root (components path) = .ok p) (located : state.fs.locate os follow p = .ok loc) :
    home <+: loc := by
  rw [rooted] at accepted
  obtain ⟨below, rfl⟩ := resolve_names accepted
  exact fenced.located located

omit rooted in
variable (env) in
theorem within_createParent (below : List Name) :
    Within home state.fs (createParent env (.ofNames (home ++ below)) state).2.fs := by
  unfold createParent
  cases above : PathBuf.parent (.ofNames (home ++ below)) with
  | none => exact .refl home state.fs
  | some parent =>
      unfold PathBuf.parent at above
      split at above
      · cases above
      · cases above
      · cases above
        exact within_createDirAll fenced (List.dropLast_prefix _)

theorem within_put (input : Upload) (path : Text) (startPos : UInt64) :
    Within home state.fs (put env user input path startPos state).2.fs := by
  let final (result : Except StorageError Nat × WftpdFilesystem) := Within home state.fs result.2.fs
  have failed : ∀ why, final (.error why, state) := fun _ => .refl home state.fs
  apply (still_require _).followed final failed
  intro _ _
  apply (still_resolvePath path).followed final failed
  intro p accepted
  apply (still_checkQuota p).followed final failed
  intro _ _
  have resolved := resolvePath_ok accepted
  rw [rooted] at resolved
  obtain ⟨below, rfl⟩ := resolve_names resolved
  have made := within_createParent env fenced below
  apply Action.bind_cases final
  · intro why after ran
    rw [ran] at made
    exact made
  intro _ after ran
  rw [ran] at made
  have fenced' := made.self fenced
  have inside : ∀ loc, after.fs.locate env.os true (.ofNames (home ++ below)) = .ok loc → home <+: loc :=
    fun _ located => fenced'.located located
  have opened : Within home after.fs (openOr env user "UPLOAD".toList "上传失败: ".toList
      { write := true, create := true, truncate := startPos = 0 } (.ofNames (home ++ below)) after).2.fs := by
    rw [openOr_fs]
    exact within_openFile fenced' inside
  apply Action.bind_cases final
  · intro why after' ran'
    rw [ran'] at opened
    exact made.trans opened
  intro file after' ran'
  rw [ran'] at opened
  have owns : file.write = true → Owns home after'.fs file.ino :=
    fun writes => openFile_owns fenced' inside (openOr_ok ran').1 writes
  exact (made.trans opened).trans (within_upload owns _ input startPos)

variable (user) in
theorem within_call (input : CallInput) : Within home state.fs (callStep user state input).2.fs := by
  obtain ⟨env, call⟩ := input
  have inside : ∀ {follow : Bool} {path : Text} {p : PathBuf}, resolve state.root (components path) = .ok p →
      ∀ loc, state.fs.locate env.os follow p = .ok loc → home <+: loc :=
    fun accepted _ located => resolved_inside fenced rooted accepted located
  by_cases reads : call.reads = true
  · rw [callStep, handleCall_fs reads state]
    exact .refl home state.fs
  cases call with
  | metadata path | list path | get path startPos | cwd path => exact absurd rfl reads
  | put input path startPos =>
      rw [callStep, handleCall, handleCall_before]
      exact within_put fenced rooted input path startPos
  | del path =>
      rw [callStep, handleCall, handleCall_before]
      exact del_final (Within home state.fs) (.refl home state.fs) path fun _ _ accepted =>
        within_removeFile (inside accepted)
  | mkd path =>
      rw [callStep, handleCall, handleCall_before]
      exact mkd_final (Within home state.fs) (.refl home state.fs) path fun _ _ accepted =>
        within_createDir (inside accepted)
  | rmd path =>
      rw [callStep, handleCall, handleCall_before]
      exact rmd_final (Within home state.fs) (.refl home state.fs) path fun _ _ accepted =>
        within_removeDirAll (inside accepted)
  | rename «from» «to» =>
      rw [callStep, handleCall, handleCall_before]
      exact rename_final (Within home state.fs) (.refl home state.fs) «from» «to» fun _ _ _ accepted accepted' =>
        within_rename (inside accepted) (inside accepted')

end Calls

section Enter
variable (fenced : Fenced home state.fs) (atHome : user.home = .ofNames home)
include fenced atHome

omit fenced atHome in
theorem enter_fs : (enter env user state).2.fs = (createDirAll env.os user.home state.fs).2 := by
  have rest : ∀ _ : Unit, Action.Leaves WftpdFilesystem.fs (do
      let canon ← Action.query fun state : WftpdFilesystem => state.fs.canonicalize env.os user.home
      Action.modify fun state => { state with root := some canon } : Action WftpdFilesystem ErrorKind Unit) :=
    fun _ => (Action.still_query _).leaves.bind fun _ _ => rfl
  exact Action.Leaves.before rest

variable (env) in
/-- A login may make its home, and nothing else. -/
theorem within_enter : Within home state.fs (enter env user state).2.fs := by
  rw [enter_fs, atHome]
  exact within_createDirAll fenced (by rw [List.append_nil])

theorem enter_root {after : WftpdFilesystem} (ran : enter env user state = (.ok (), after)) :
    after.root = some (.ofNames home) := by
  obtain ⟨_, middle, made, rest⟩ := Action.bind_ok ran
  obtain ⟨canon, canonical, finish⟩ := Action.Still.bind_ok (Action.still_query _) rest
  cases finish
  have within : Within home state.fs middle.fs := by
    rw [← (Prod.mk.inj made).2, atHome]
    exact within_createDirAll fenced (by rw [List.append_nil])
  have found : middle.fs.canonicalize env.os user.home = .ok canon := (Prod.mk.inj canonical).1
  unfold canonicalize at found
  cases located : middle.fs.locate env.os true user.home with
  | error why =>
      rw [located] at found
      cases found
  | ok loc =>
      simp only [located, bind, Except.bind] at found
      split at found
      · cases found
      · rw [atHome] at located
        rw [← Except.ok.inj found, (within.self fenced).located_home located]

end Enter

end Wftpd.Ftp
