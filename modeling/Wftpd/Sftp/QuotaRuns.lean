import Wftpd.Common.Quota
import Wftpd.Sftp.Changes

/-! The quota over the whole run of a session.

Only WRITE asks how much is stored. The other requests keep within the quota as far
as what they bring in fits.
-/

set_option autoImplicit false

namespace Wftpd.Sftp
open Wftpd.Posix Wftpd.Common Wftpd.Library

/-- The bytes stored at or below home are within the quota of so many megabytes. -/
def WithinQuota (home : Loc) (limit : UInt64) (fs : FileSystem) : Prop :=
  fs.usage home ≤ limit.toNat * 2 ^ 20

instance (home : Loc) (limit : UInt64) (fs : FileSystem) : Decidable (WithinQuota home limit fs) :=
  inferInstanceAs (Decidable (fs.usage home ≤ limit.toNat * 2 ^ 20))

def StartsWithin (session : Session) (input : Input) : Prop :=
  match input.2 with
  | .write _ handle offset _ => ∀ f, session.handles.lookup handle = some (.file f) →
      offset.toNat ≤ (session.fs.data f.file.ino).length
  | _ => True

/-- The scan sees all of home, and no sum of it wraps or saturates. -/
structure ScanSees (os : Os) (fs : FileSystem) (home : Loc) (limit : UInt64) : Prop where
  listable : Listable os fs home
  fits : scanSize os fs (scanFuel fs) (.ofNames home) < 2 ^ 64
  limitFits : limit.toNat * 2 ^ 20 < 2 ^ 64

/-- What a block reaches beyond the end of its file, as far as that file counts. -/
def growth (home : Loc) (fs : FileSystem) (file : FileSystem.OpenFile) (offset : Nat) (data : List UInt8) : Nat :=
  if data ≠ [] ∧ file.ino ∈ fs.filesUnder home then offset + data.length - (fs.data file.ino).length else 0

/-- The bytes of the files that a move brings into home. -/
def broughtIn (home : Loc) (fs : FileSystem) (source target : Loc) : Nat :=
  ∑ ino ∈ (fs.moveEntry source target).filesUnder home \ fs.filesUnder home, (fs.data ino).length

def HasRoom (home : Loc) (limit : UInt64) (fs : FileSystem) (extra : Nat) : Prop :=
  fs.usage home + extra ≤ limit.toNat * 2 ^ 20

/-- What keeps a request within the quota: the check of a WRITE sees everything, or the quota has room for
what it adds; and it has room for what SETSTAT makes a file in home longer, and for what RENAME brings in.
Nothing is asked of a request that is refused. -/
def Accounted (home : Loc) (limit : UInt64) (session : Session) (input : Input) : Prop :=
  match input.2 with
  | .write _ handle offset data => session.quotaOk input.1 data.length = true →
      ∀ f, session.handles.lookup handle = some (.file f) → f.file.write = true →
        ScanSees input.1.os session.fs home limit ∨
          HasRoom home limit session.fs (growth home session.fs f.file (f.file.start session.fs offset.toNat) data)
  | .setstat _ path attrs => (session.permissions input.1).canWrite = true → ∀ inode size resolved ino,
      attrs.size = some size → resolve session.homeDir path = .ok resolved →
      setMode input.1 resolved attrs.permissions session =
        (.ok (), { session with fs := { session.fs with inode := inode } }) →
      FileSystem.Resizes input.1.os { session.fs with inode := inode } resolved size.toNat ino →
      ino ∈ session.fs.filesUnder home → HasRoom home limit session.fs (size.toNat - (session.fs.data ino).length)
  | .rename _ oldpath newpath => (session.permissions input.1).canRename = true → ∀ «from» «to» source target,
      resolve session.homeDir oldpath = .ok «from» → resolve session.homeDir newpath = .ok «to» →
      session.fs.pathExists input.1.os «to» = false →
      FileSystem.Renames input.1.os session.fs «from» «to» source target →
      HasRoom home limit session.fs (broughtIn home session.fs source target)
  | _ => True

section Steps
variable {home : Loc} {limit : UInt64} {env : RequestEnv} {session : Session}

theorem quotaOk_fits (atHome : session.home = .ofNames home)
    (limited : (session.permissions env).quotaMb = some limit) (positive : 0 < limit)
    (sees : ScanSees env.os session.fs home limit) {additional : Nat} (asked : additional ≠ 0)
    (passed : session.quotaOk env additional = true) :
    session.fs.usage home + additional ≤ limit.toNat * 2 ^ 20 := by
  have counted := sees.listable.usage_le_dirSize sees.fits
  have limitFits := sees.limitFits
  have filtered : (some limit).filter (fun quota => decide (0 < quota)) = some limit := by simp [positive]
  unfold Session.quotaOk at passed
  rw [if_neg asked, limited, filtered, atHome] at passed
  have checked : min (dirSize env.os session.fs (.ofNames home) + additional) u64Max ≤ quotaBytes limit :=
    of_decide_eq_true passed
  simp only [quotaBytes, u64Max] at checked
  omega

theorem withinQuota_written (within : WithinQuota home limit session.fs) (atHome : session.home = .ofNames home)
    (limited : (session.permissions env).quotaMb = some limit) (positive : 0 < limit)
    (sees : ScanSees env.os session.fs home limit) {data : List UInt8}
    (passed : session.quotaOk env data.length = true) :
    session.fs.usage home + data.length ≤ limit.toNat * 2 ^ 20 := by
  by_cases asked : data.length = 0
  · rw [asked, Nat.add_zero]
    exact within
  · exact quotaOk_fits atHome limited positive sees asked passed

/-- A write that starts within the file adds at most its own length. -/
theorem usage_writeAll {os : Os} {fs : FileSystem} (file : FileSystem.OpenFile) {offset : Nat} (bytes : List UInt8)
    (starts : offset ≤ (fs.data file.ino).length) :
    (FileSystem.writeAll os file offset bytes fs).2.usage home ≤ fs.usage home + bytes.length := by
  apply FileSystem.writeAll_final fun after => after.usage home ≤ fs.usage home + bytes.length
  · exact Nat.le_add_right _ _
  · intro part _ short
    rw [FileSystem.usage_touch]
    have begins : file.start fs offset ≤ (fs.data file.ino).length := by
      unfold FileSystem.OpenFile.start
      split <;> omega
    exact Nat.le_trans (FileSystem.usage_setData_add (FileSystem.length_overwrite begins))
      (Nat.add_le_add_left short _)

theorem usage_writeAll_growth {os : Os} {fs : FileSystem} (file : FileSystem.OpenFile) (offset : Nat)
    (bytes : List UInt8) : (FileSystem.writeAll os file offset bytes fs).2.usage home ≤
      fs.usage home + growth home fs file (file.start fs offset) bytes := by
  let final (after : FileSystem) := after.usage home ≤ fs.usage home + growth home fs file (file.start fs offset) bytes
  apply FileSystem.writeAll_parts final
  · exact Nat.le_add_right _ _
  · intro part _ nonempty isPrefix
    have some : bytes ≠ [] := by
      rintro rfl
      exact nonempty (List.prefix_nil.mp isPrefix)
    have short := isPrefix.length_le
    simp only [final, FileSystem.usage_touch]
    by_cases listed : file.ino ∈ fs.filesUnder home
    · have total := FileSystem.usage_setData listed
        (FileSystem.overwrite (fs.data file.ino) (file.start fs offset) part)
      rw [FileSystem.length_overwrite_eq] at total
      rw [growth, if_pos ⟨some, listed⟩]
      omega
    · rw [FileSystem.usage_setData_elsewhere listed]
      exact Nat.le_add_right _ _

theorem usage_moveEntry_le (fs : FileSystem) (source target : Loc) :
    (fs.moveEntry source target).usage home ≤ fs.usage home + broughtIn home fs source target := by
  let came := (fs.moveEntry source target).filesUnder home \ fs.filesUnder home
  have covered : (fs.moveEntry source target).filesUnder home ⊆ fs.filesUnder home ∪ came := by
    intro ino member
    by_cases old : ino ∈ fs.filesUnder home
    · exact Finset.mem_union_left _ old
    · exact Finset.mem_union_right _ (Finset.mem_sdiff.mpr ⟨member, old⟩)
  calc (fs.moveEntry source target).usage home
      = ∑ ino ∈ (fs.moveEntry source target).filesUnder home, (fs.data ino).length := by
        rw [FileSystem.usage, FileSystem.moveEntry_data]
    _ ≤ ∑ ino ∈ fs.filesUnder home ∪ came, (fs.data ino).length := Finset.sum_le_sum_of_subset covered
    _ = fs.usage home + broughtIn home fs source target := Finset.sum_union Finset.disjoint_sdiff

variable (within : WithinQuota home limit session.fs)
include within

theorem withinQuota_open (id : UInt32) (filename : Text) (pflags : OpenFlags) :
    WithinQuota home limit («open» env id filename pflags session).2.fs := by
  apply open_final (WithinQuota home limit) id within
  intro _ resolved _
  apply FileSystem.openFile_final (WithinQuota home limit) _ resolved within
  · intro parent name _ _
    unfold WithinQuota
    rw [FileSystem.usage_touchDir]
    exact Nat.le_trans FileSystem.usage_create within
  · intro ino _ _
    unfold WithinQuota
    rw [FileSystem.usage_touch]
    exact Nat.le_trans (FileSystem.usage_setData_le fun _ => Nat.zero_le _) within

theorem withinQuota_write (id : UInt32) (handle : Text) (offset : UInt64) (data : List UInt8)
    (atHome : session.home = .ofNames home) (limited : (session.permissions env).quotaMb = some limit)
    (positive : 0 < limit) (starts : StartsWithin session (env, .write id handle offset data))
    (accounted : Accounted home limit session (env, .write id handle offset data)) :
    WithinQuota home limit (write env id handle offset data session).2.fs := by
  apply write_final (WithinQuota home limit) id within
  intro passed f found
  by_cases writes : f.file.write = true
  · rcases accounted passed f found writes with sees | room
    · have fits := withinQuota_written within atHome limited positive sees passed
      exact Nat.le_trans (usage_writeAll f.file data (starts f found)) fits
    · exact Nat.le_trans (usage_writeAll_growth f.file offset.toNat data) room
  · apply FileSystem.writeAll_final (WithinQuota home limit) f.file _ data within
    exact fun _ writable => absurd writable writes

theorem withinQuota_setstat (id : UInt32) (path : Text) (attrs : FileAttributes)
    (accounted : Accounted home limit session (env, .setstat id path attrs)) :
    WithinQuota home limit (setstat env id path attrs session).2.fs := by
  apply setstat_final (WithinQuota home limit) id within
  · intro inode
    exact within
  · intro granted inode size resolved loc ino asked accepted _ _ moded resizes
    let changed : FileSystem := { session.fs with inode := inode }
    have start : changed.usage home = session.fs.usage home := rfl
    unfold WithinQuota
    rw [FileSystem.usage_touch]
    show (changed.setData ino (FileSystem.resize (changed.data ino) size.toNat)).usage home ≤ _
    by_cases inside : ino ∈ changed.filesUnder home
    · have room : changed.usage home + (size.toNat - (changed.data ino).length) ≤ limit.toNat * 2 ^ 20 :=
        accounted granted inode size resolved ino asked accepted moded resizes inside
      have total := FileSystem.usage_setData inside (FileSystem.resize (changed.data ino) size.toNat)
      rw [FileSystem.length_resize] at total
      omega
    · rw [FileSystem.usage_setData_elsewhere inside, start]
      exact within

theorem withinQuota_rename (id : UInt32) (oldpath newpath : Text)
    (accounted : Accounted home limit session (env, .rename id oldpath newpath)) :
    WithinQuota home limit (rename env id oldpath newpath session).2.fs := by
  apply rename_final (WithinQuota home limit) id within
  intro granted «from» «to» acceptedFrom acceptedTo absent
  apply FileSystem.rename_final (WithinQuota home limit) «from» «to» within
  intro source target renames
  unfold WithinQuota
  rw [FileSystem.usage_touchDir, FileSystem.usage_touchDir]
  exact Nat.le_trans (usage_moveEntry_le session.fs source target)
    (accounted granted «from» «to» source target acceptedFrom acceptedTo absent renames)

theorem withinQuota_create (parent : Loc) (name : Name) (new : NewNode) (created : Inode) (now : Int) :
    WithinQuota home limit ((session.fs.create parent name new created).touchDir parent now) := by
  unfold WithinQuota
  rw [FileSystem.usage_touchDir]
  exact Nat.le_trans FileSystem.usage_create within

theorem withinQuota_mkdir (id : UInt32) (path : Text) :
    WithinQuota home limit (mkdir env id path session).2.fs := by
  apply mkdir_final (WithinQuota home limit) id within
  intro resolved _
  apply FileSystem.createDir_final (WithinQuota home limit) resolved within
  intro parent name _
  exact withinQuota_create within parent name .dir _ _

theorem withinQuota_symlink (id : UInt32) (linkpath targetpath : Text) :
    WithinQuota home limit (symlink env id linkpath targetpath session).2.fs := by
  apply symlink_final (WithinQuota home limit) id within
  intro _ link _ _ _
  apply FileSystem.symlink_final (WithinQuota home limit) linkpath link within
  intro parent name _
  exact withinQuota_create within parent name (.link linkpath) _ _

theorem withinQuota_sweep (gone : Loc → Bool) : WithinQuota home limit (session.fs.sweep gone) :=
  Nat.le_trans (FileSystem.usage_sweep gone) within

theorem withinQuota_swept (gone : Loc → Bool) (loc : Loc) (now : Int) :
    WithinQuota home limit ((session.fs.sweep gone).touchDir loc now) := by
  unfold WithinQuota
  rw [FileSystem.usage_touchDir]
  exact withinQuota_sweep within gone

theorem withinQuota_remove (id : UInt32) (filename : Text) :
    WithinQuota home limit (remove env id filename session).2.fs := by
  apply remove_final (WithinQuota home limit) id within
  intro _ resolved _
  apply FileSystem.removeFile_final (WithinQuota home limit) resolved within
  intro loc _ _
  exact withinQuota_swept within _ _ _

theorem withinQuota_rmdir (id : UInt32) (path : Text) :
    WithinQuota home limit (rmdir env id path session).2.fs := by
  apply rmdir_final (WithinQuota home limit) id within
  intro _ resolved _
  apply FileSystem.removeDirAll_final (WithinQuota home limit) resolved within
  · intro loc _ _
    exact withinQuota_swept within _ _ _
  · intro loc _
    exact withinQuota_sweep within _
  · intro loc _
    exact withinQuota_swept within _ _ _
  · intro loc _
    exact withinQuota_swept within _ _ _

theorem withinQuota_step (digests : Digests) {request : Request} (atHome : session.home = .ofNames home)
    (limited : (session.permissions env).quotaMb = some limit) (positive : 0 < limit)
    (starts : StartsWithin session (env, request)) (accounted : Accounted home limit session (env, request)) :
    WithinQuota home limit (handleRequest digests env request session).2.fs := by
  cases mutates : request.mutates with
  | false =>
      rw [handleRequest_leaves_fs digests env mutates session]
      exact within
  | true =>
      cases request with
      | «open» id filename pflags => exact withinQuota_open within id filename pflags
      | write id handle offset data =>
          exact withinQuota_write within id handle offset data atHome limited positive starts accounted
      | setstat id path attrs => exact withinQuota_setstat within id path attrs accounted
      | remove id filename => exact withinQuota_remove within id filename
      | mkdir id path => exact withinQuota_mkdir within id path
      | rmdir id path => exact withinQuota_rmdir within id path
      | rename id oldpath newpath => exact withinQuota_rename within id oldpath newpath accounted
      | symlink id linkpath targetpath => exact withinQuota_symlink within id linkpath targetpath
      | _ => cases mutates

end Steps

/-- A run whose requests are all accounted for stays within the quota. -/
theorem run_withinQuota (digests : Digests) (session : Session) (home : Loc) (limit : UInt64) (inputs : List Input)
    (atHome : session.home = .ofNames home) (positive : 0 < limit)
    (limited : ∀ input ∈ inputs, (input.1.permissionsOf session.username).quotaMb = some limit)
    (starts : Along (sessionStep digests) StartsWithin session inputs)
    (accounted : Along (sessionStep digests) (Accounted home limit) session inputs)
    (initial : WithinQuota home limit session.fs) :
    WithinQuota home limit (run (sessionStep digests) session inputs).2.fs := by
  let invariant (state : Session) := state.owner = session.owner ∧ WithinQuota home limit state.fs
  let condition (state : Session) (input : Input) :=
    (input.1.permissionsOf session.username).quotaMb = some limit ∧ StartsWithin state input ∧
      Accounted home limit state input
  have keeps : ∀ state input, invariant state → condition state input →
      invariant (sessionStep digests state input).2 := by
    intro state input ⟨owner, within⟩ ⟨limited, starts, accounted⟩
    obtain ⟨username, homeDir⟩ := Prod.mk.inj owner
    refine ⟨(handleRequest_leaves_owner digests input.1 input.2 state).trans owner, ?_⟩
    apply withinQuota_step within digests _ _ positive starts accounted
    · rw [Session.home, homeDir]
      exact atHome
    · rw [Session.permissions, username]
      exact limited
  have along : Along (sessionStep digests) condition session inputs :=
    Along.and (Along.of_forall limited) (Along.and starts accounted)
  have start : invariant session := ⟨rfl, initial⟩
  have kept : invariant (run (sessionStep digests) session inputs).2 := run_invariant keeps start along
  exact kept.2

section Samples

def oneMegabyte : Permissions := { Permissions.default with canWrite := true, quotaMb := some 1 }

theorem scanSees_permissive {fs : FileSystem} {home : Loc} {limit : UInt64}
    (plain : ∀ entry ∈ fs.tree.entries, ∀ name ∈ entry.1, '\x00' ∉ name)
    (fits : scanSize .permissive fs (scanFuel fs) (.ofNames home) < 2 ^ 64)
    (limitFits : limit.toNat * 2 ^ 20 < 2 ^ 64) : ScanSees .permissive fs home limit :=
  ⟨listable_permissive plain, fits, limitFits⟩

def writeRun : List Input :=
  [(permissiveEnv oneMegabyte, .open 1 "f".toList { write := true, create := true }),
    (permissiveEnv oneMegabyte, .write 2 "h1".toList 0 [115])]

theorem run_withinQuota_write :
    WithinQuota [] 1 (run (sessionStep noDigests) (sessionAt .empty) writeRun).2.fs := by
  apply run_withinQuota noDigests (sessionAt .empty) [] 1 writeRun rfl (by decide)
  · intro input member
    simp only [writeRun, List.mem_cons, List.not_mem_nil, or_false] at member
    rcases member with rfl | rfl <;> rfl
  · refine ⟨trivial, ?_, trivial⟩
    intro f _
    exact Nat.zero_le _
  · refine ⟨trivial, ?_, trivial⟩
    intro _ f _ _
    exact .inl (scanSees_permissive (by decide) (by decide) (by decide))
  · exact Nat.zero_le _

def smallHome : Session := sessionAt (FileSystem.empty.addFile "f".toList [115])

def growInput : Input :=
  (permissiveEnv oneMegabyte, .setstat 1 "f".toList ⟨some 2097152, none, none, none, none, none⟩)

theorem setstat_exceeds : ¬ ∀ (digests : Digests) (session : Session) (home : Loc) (limit : UInt64)
    (inputs : List Input), session.home = .ofNames home → 0 < limit →
    (∀ input ∈ inputs, (input.1.permissionsOf session.username).quotaMb = some limit) →
    (∀ input ∈ inputs, ∀ id linkpath targetpath, input.2 ≠ .symlink id linkpath targetpath) →
    Along (sessionStep digests) StartsWithin session inputs → WithinQuota home limit session.fs →
    WithinQuota home limit (run (sessionStep digests) session inputs).2.fs := by
  intro stays
  have kept := stays noDigests smallHome [] 1 [growInput] rfl (by decide) (by simp [growInput]; rfl)
    (by simp [growInput]) ⟨trivial, trivial⟩ (by decide)
  have stored : (run (sessionStep noDigests) smallHome [growInput]).2.fs.data 1 = FileSystem.resize [115] 2097152 := rfl
  have listed : 1 ∈ (run (sessionStep noDigests) smallHome [growInput]).2.fs.filesUnder [] :=
    FileSystem.mem_filesUnder.mpr ⟨["f".toList], rfl⟩
  have bytes := FileSystem.length_le_usage listed
  rw [stored, FileSystem.length_resize] at bytes
  have limit : (1 : UInt64).toNat = 1 := rfl
  unfold WithinQuota at kept
  omega

end Samples

end Wftpd.Sftp
