import Wftpd.Ftp.Changes
import Wftpd.Posix.Survival

/-! What the rights of an FTP user protect over whole runs: the number of directories
below the root, and the contents stored there.

MKD asks for the right to make directories, but PUT makes those above its file without
it; RENAME replaces what is at its target.
-/

set_option autoImplicit false

namespace Wftpd.Ftp
open Wftpd.Posix Wftpd.Common Wftpd.Library

structure Moves (user : WftpdUser) (state : WftpdFilesystem) (input : CallInput) (source target : Loc) : Prop where
  granted : user.permissions.canRename = true
  paths : ∃ «from» «to» src dst, input.2 = .rename «from» «to» ∧ resolve state.root (components «from») = .ok src ∧
    resolve state.root (components «to») = .ok dst ∧ FileSystem.Renames input.1.os state.fs src dst source target

section Directories

/-- A PUT that is granted and makes a directory above its file. -/
def MakesParents (user : WftpdUser) (state : WftpdFilesystem) (input : CallInput) : Prop :=
  ∃ upload path startPos p parent above place name, input.2 = .put upload path startPos ∧
    user.permissions.canWrite = true ∧ resolve state.root (components path) = .ok p ∧
    QuotaAdmits input.1 user state.fs p ∧ p.parent = some parent ∧ above <+: parent ∧
    FileSystem.MakesDir input.1.os state.fs above place name

/-- A RENAME that moves a directory into the root from outside, through a link. -/
def BringsDirs (user : WftpdUser) (root : Loc) (state : WftpdFilesystem) (input : CallInput) : Prop :=
  ∃ source target rest ino, Moves user state input source target ∧
    state.fs.tree.find (source ++ rest) = some (.dir ino) ∧ root <+: target ++ rest ∧ ¬ root <+: source ++ rest

variable {user : WftpdUser} {root : Loc} {state : WftpdFilesystem} {input : CallInput}

theorem dirsUnder_put {env : CallEnv} (upload : Upload) (path : Text) (startPos : UInt64)
    (parents : ¬ MakesParents user state (env, .put upload path startPos)) :
    (put env user upload path startPos state).2.fs.dirsUnder root ≤ state.fs.dirsUnder root := by
  let fewer (fs fs' : FileSystem) := fs'.dirsUnder root ≤ fs.dirsUnder root
  have same : ∀ fs, fewer fs fs := fun fs => Nat.le_refl _
  have compose : ∀ a b c, fewer a b → fewer b c → fewer a c := fun a b c first second => Nat.le_trans second first
  apply put_final same compose upload path startPos
  · intro granted p parent accepted admitted isParent
    have none : ∀ above place name, above <+: parent → ¬ FileSystem.MakesDir env.os state.fs above place name :=
      fun above place name isPrefix makes => parents
        ⟨upload, path, startPos, p, parent, above, place, name, rfl, granted, accepted, admitted, isParent, isPrefix, makes⟩
    rw [FileSystem.createDirAll_none none]
  · intro fs p truncate
    apply FileSystem.openFile_final (fewer fs) _ p (same fs)
    · intro parent name _ _
      have notDir : ∀ ino other, NewNode.file.node ino ≠ .dir other := fun ino other isDir => by cases isDir
      have kept : ((fs.create parent name .file env.os.created).touchDir parent env.os.now).dirsUnder root =
          fs.dirsUnder root := by
        rw [FileSystem.dirsUnder_touchDir, FileSystem.dirsUnder_create notDir]
      exact Nat.le_of_eq kept
    · intro ino _ _
      exact Nat.le_of_eq (FileSystem.dirsUnder_congr rfl)
  · intro fs file offset bytes
    apply FileSystem.writeAll_final (fewer fs) file offset bytes (same fs)
    intro part _ _
    exact Nat.le_of_eq (FileSystem.dirsUnder_congr rfl)

theorem dirsUnder_swept (fs : FileSystem) (gone : Loc → Bool) (loc : Loc) (now : Int) :
    ((fs.sweep gone).touchDir loc now).dirsUnder root ≤ fs.dirsUnder root := by
  rw [FileSystem.dirsUnder_touchDir]
  exact FileSystem.dirsUnder_sweep gone

theorem dirsUnder_call (denied : user.permissions.canMkdir = false) (parents : ¬ MakesParents user state input)
    (brings : ¬ BringsDirs user root state input) :
    (callStep user state input).2.fs.dirsUnder root ≤ state.fs.dirsUnder root := by
  obtain ⟨env, call⟩ := input
  let fewer (fs : FileSystem) := fs.dirsUnder root ≤ state.fs.dirsUnder root
  have unchanged : fewer state.fs := Nat.le_refl _
  cases reads : call.reads with
  | true =>
      rw [callStep, handleCall_fs reads state]
  | false =>
      cases call with
      | put upload path startPos =>
          rw [callStep, handleCall, handleCall_before]
          -- the only directories it could make are those above its file
          exact dirsUnder_put upload path startPos parents
      | del path =>
          rw [callStep, handleCall, handleCall_before]
          apply del_final fewer unchanged
          intro _ p _
          apply FileSystem.removeFile_final fewer p unchanged
          intro loc _ _
          exact dirsUnder_swept state.fs _ _ _
      | mkd path =>
          rw [callStep, handleCall, handleCall_before]
          apply mkd_final fewer unchanged
          -- the right is missing
          intro granted
          rw [denied] at granted
          cases granted
      | rename «from» «to» =>
          rw [callStep, handleCall, handleCall_before]
          apply rename_final fewer unchanged
          intro granted src dst acceptedFrom acceptedTo
          apply FileSystem.rename_final fewer src dst unchanged
          intro source target renames
          have moves : Moves user state (env, .rename «from» «to») source target :=
            ⟨granted, «from», «to», src, dst, rfl, acceptedFrom, acceptedTo, renames⟩
          have moved : (state.fs.moveEntry source target).dirsUnder root ≤ state.fs.dirsUnder root := by
            apply FileSystem.dirsUnder_moveEntry
            intro rest ino found lands
            by_contra outside
            exact brings ⟨source, target, rest, ino, moves, found, lands, outside⟩
          simpa only [fewer, FileSystem.dirsUnder_touchDir] using moved
      | rmd path =>
          rw [callStep, handleCall, handleCall_before]
          apply rmd_final fewer unchanged
          intro _ p _
          apply FileSystem.removeDirAll_final fewer p unchanged
          · intro loc _ _
            exact dirsUnder_swept state.fs _ _ _
          · intro loc _
            exact FileSystem.dirsUnder_sweep _
          · intro loc _
            exact dirsUnder_swept state.fs _ _ _
          · intro loc _
            exact dirsUnder_swept state.fs _ _ _
      | _ => cases reads

/-- Without the right to make directories their number below the root never grows, as
long as no PUT makes one above its file and no RENAME brings one in. -/
theorem run_dirsUnder (user : WftpdUser) (state : WftpdFilesystem) (root : Loc) (inputs : List CallInput)
    (denied : user.permissions.canMkdir = false)
    (parents : Along (callStep user) (fun state input => ¬ MakesParents user state input) state inputs)
    (brings : Along (callStep user) (fun state input => ¬ BringsDirs user root state input) state inputs) :
    state.root = some (.ofNames root) →
      (run (callStep user) state inputs).2.fs.dirsUnder root ≤ state.fs.dirsUnder root := by
  intro _
  let invariant (later : WftpdFilesystem) := later.fs.dirsUnder root ≤ state.fs.dirsUnder root
  have initial : invariant state := Nat.le_refl _
  have keeps : ∀ later input, invariant later →
      ¬ MakesParents user later input ∧ ¬ BringsDirs user root later input →
      invariant (callStep user later input).2 :=
    fun later input few ⟨parents, brings⟩ => Nat.le_trans (dirsUnder_call denied parents brings) few
  have kept : invariant (run (callStep user) state inputs).2 := run_invariant keeps initial (Along.and parents brings)
  exact kept

section Samples

def writer : WftpdUser := userWith { Permissions.default with canWrite := true }

def putOf (path : Text) : List CallInput := [(permissiveCall, .put [] path 0)]

theorem putOf_brings (root : Loc) (state : WftpdFilesystem) (path : Text) :
    Along (callStep writer) (fun state input => ¬ BringsDirs writer root state input) state (putOf path) := by
  constructor
  · rintro ⟨source, target, rest, ino, moves, -⟩
    obtain ⟨«from», «to», src, dst, isRename, -⟩ := moves.paths
    cases isRename
  · trivial

theorem run_dirsUnder_flat :
    (run (callStep writer) (rootedAt [] .empty) (putOf "f".toList)).2.fs.dirsUnder [] ≤
      FileSystem.empty.dirsUnder [] := by
  apply run_dirsUnder writer (rootedAt [] .empty) [] (putOf "f".toList) rfl
  · constructor
    · rintro ⟨upload, path, startPos, p, parent, above, place, name, same, -, accepted, -, isParent, isPrefix, makes⟩
      cases same
      cases accepted
      cases isParent
      -- every path above the file leads to the root
      have located : FileSystem.locate .permissive FileSystem.empty false above = .ok [] := by
        have below : above <+: [.rootDir] := isPrefix
        rcases List.prefix_cons_iff.mp below with rfl | ⟨rest, rfl, nothing⟩
        · rfl
        · obtain rfl := List.prefix_nil.mp nothing
          rfl
      have here := makes.located.symm.trans located
      simp at here
    · trivial
  · exact putOf_brings [] _ _
  · rfl

theorem put_makes_dir : ¬ ∀ (user : WftpdUser) (state : WftpdFilesystem) (root : Loc) (inputs : List CallInput),
    user.permissions.canMkdir = false → state.root = some (.ofNames root) →
    (run (callStep user) state inputs).2.fs.dirsUnder root ≤ state.fs.dirsUnder root := by
  intro fewer
  have grown := fewer writer (rootedAt [] .empty) [] (putOf "d/f".toList) rfl rfl
  revert grown
  decide

end Samples

end Directories

section Contents

/-- A RENAME that replaces a regular file inside the root, or moves one over its border. -/
def LosesContent (user : WftpdUser) (root : Loc) (state : WftpdFilesystem) (input : CallInput) : Prop :=
  ∃ source target, Moves user state input source target ∧
    ((state.fs.ReplacesFile target ∧ root <+: target) ∨
      ∃ rest ino, state.fs.tree.find (source ++ rest) = some (.file ino) ∧
        ¬ (root <+: target ++ rest ↔ root <+: source ++ rest))

/-- Rights that write and remove nothing. -/
structure SparesContents (perms : Permissions) : Prop where
  write : perms.canWrite = false
  delete : perms.canDelete = false
  rmdir : perms.canRmdir = false

variable {user : WftpdUser} {root : Loc} {state : WftpdFilesystem} {input : CallInput}

theorem contentsUnder_rename {env : CallEnv} («from» «to» : Text)
    (keeps : ¬ LosesContent user root state (env, .rename «from» «to»)) :
    (rename env user «from» «to» state).2.fs.contentsUnder root = state.fs.contentsUnder root := by
  apply rename_final (fun fs => fs.contentsUnder root = state.fs.contentsUnder root) rfl
  intro granted src dst acceptedFrom acceptedTo
  apply FileSystem.rename_final (fun fs => fs.contentsUnder root = state.fs.contentsUnder root) src dst rfl
  intro source target renames
  have moves : Moves user state (env, .rename «from» «to») source target :=
    ⟨granted, «from», «to», src, dst, rfl, acceptedFrom, acceptedTo, renames⟩
  rw [FileSystem.contentsUnder_touchDir, FileSystem.contentsUnder_touchDir]
  apply FileSystem.contentsUnder_moveEntry
  · intro rest ino found inside
    by_cases replaces : state.fs.ReplacesFile target
    · -- below a regular file there is nothing
      obtain ⟨other, there⟩ := replaces
      by_cases here : rest = []
      · subst rest
        rw [List.append_nil] at inside
        exact keeps ⟨source, target, moves, .inl ⟨⟨other, there⟩, inside⟩⟩
      · obtain ⟨dir, isDir⟩ := Tree.isDir_iff.mp (Tree.isDir_of_below here found)
        rw [there] at isDir
        cases isDir
    · exact renames.no_file replaces rest ino found
  · intro rest ino found
    by_contra crosses
    exact keeps ⟨source, target, moves, .inr ⟨rest, ino, found, crosses⟩⟩

theorem contentsUnder_call (spares : SparesContents user.permissions) (keeps : ¬ LosesContent user root state input) :
    (callStep user state input).2.fs.contentsUnder root = state.fs.contentsUnder root := by
  obtain ⟨env, call⟩ := input
  let kept (fs : FileSystem) := fs.contentsUnder root = state.fs.contentsUnder root
  have unchanged : kept state.fs := rfl
  cases reads : call.reads with
  | true => rw [callStep, handleCall_fs reads state]
  | false =>
      cases call with
      | put upload path startPos =>
          -- without the right it fails before it resolves the path
          rw [callStep, handleCall, handleCall_before, put, spares.write]
          rfl
      | del path =>
          rw [callStep, handleCall, handleCall_before]
          apply del_final kept unchanged
          intro granted
          rw [spares.delete] at granted
          cases granted
      | mkd path =>
          rw [callStep, handleCall, handleCall_before]
          apply mkd_final kept unchanged
          intro _ p _
          apply FileSystem.createDir_final kept p unchanged
          intro parent name _
          have made : ((state.fs.create parent name .dir env.os.created).touchDir parent env.os.now).contentsUnder root =
              state.fs.contentsUnder root := by
            rw [FileSystem.contentsUnder_touchDir, FileSystem.contentsUnder_createDir]
          exact made
      | rename «from» «to» =>
          rw [callStep, handleCall, handleCall_before]
          exact contentsUnder_rename «from» «to» keeps
      | rmd path =>
          rw [callStep, handleCall, handleCall_before]
          apply rmd_final kept unchanged
          intro granted
          rw [spares.rmdir] at granted
          cases granted
      | _ => cases reads

/-- Without a destructive right the contents below the root stay, as long as no RENAME
replaces a regular file there or takes one over the border of the root. -/
theorem run_contentsUnder (user : WftpdUser) (state : WftpdFilesystem) (root : Loc) (inputs : List CallInput)
    (spares : SparesContents user.permissions)
    (keeps : Along (callStep user) (fun state input => ¬ LosesContent user root state input) state inputs) :
    state.root = some (.ofNames root) →
      (run (callStep user) state inputs).2.fs.contentsUnder root = state.fs.contentsUnder root := by
  intro _
  let invariant (later : WftpdFilesystem) := later.fs.contentsUnder root = state.fs.contentsUnder root
  have initial : invariant state := rfl
  have step : ∀ later input, invariant later → ¬ LosesContent user root later input →
      invariant (callStep user later input).2 :=
    fun later input same keeps => (contentsUnder_call spares keeps).trans same
  have kept : invariant (run (callStep user) state inputs).2 := run_invariant step initial keeps
  exact kept

section Samples

def renamer : WftpdUser := userWith { Permissions.default with canRename := true }

def twoFiles : FileSystem := (FileSystem.empty.addFile "a".toList [1]).addFile "b".toList [2]

def renameOf («to» : Text) : List CallInput := [(permissiveCall, .rename "a".toList «to»)]

theorem run_contentsUnder_renamed :
    (run (callStep renamer) (rootedAt [] twoFiles) (renameOf "c".toList)).2.fs.contentsUnder [] =
      twoFiles.contentsUnder [] := by
  apply run_contentsUnder renamer (rootedAt [] twoFiles) [] (renameOf "c".toList) ⟨rfl, rfl, rfl⟩
  · constructor
    · rintro ⟨source, target, moves, ⟨⟨ino, found⟩, -⟩ | ⟨rest, ino, -, crosses⟩⟩
      · obtain ⟨«from», «to», src, dst, same, -, accepted, renames⟩ := moves.paths
        cases same
        cases accepted
        cases renames.locatedTarget
        cases found
      · exact crosses ⟨fun _ => List.nil_prefix, fun _ => List.nil_prefix⟩
    · trivial
  · rfl

theorem rename_loses_content : ¬ ∀ (user : WftpdUser) (state : WftpdFilesystem) (root : Loc) (inputs : List CallInput),
    SparesContents user.permissions → state.root = some (.ofNames root) →
    (run (callStep user) state inputs).2.fs.contentsUnder root = state.fs.contentsUnder root := by
  intro same
  have kept := same renamer (rootedAt [] twoFiles) [] (renameOf "b".toList) ⟨rfl, rfl, rfl⟩ rfl
  revert kept
  decide

end Samples

end Contents

end Wftpd.Ftp
