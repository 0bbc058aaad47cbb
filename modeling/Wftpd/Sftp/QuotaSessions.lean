import Wftpd.Library.Runs
import Wftpd.Sftp.QuotaRuns

/-! The quota over several sessions of one user.

The sessions share the file system. A WRITE first asks how much is stored and writes
some time later, and nothing is set aside in between.
-/

set_option autoImplicit false

namespace Wftpd.Sftp
open Wftpd.Posix Wftpd.Common Wftpd.Library

/-- A WRITE that has passed its check, with the kernel and the file system of the check. -/
structure Pending where
  id : UInt32
  handle : Text
  offset : UInt64
  data : List UInt8
  os : Os
  checked : FileSystem

structure Sessions where
  fs : FileSystem
  session : Nat → Session
  pending : Nat → Option Pending

inductive SessionsStep where
  | check (session : Nat) (env : RequestEnv) (id : UInt32) (handle : Text) (offset : UInt64) (data : List UInt8)
  | write (session : Nat) (env : RequestEnv)

namespace Sessions

def view (sessions : Sessions) (index : Nat) : Session := { sessions.session index with fs := sessions.fs }

def put (sessions : Sessions) (index : Nat) (after : Session) (pending : Option Pending) : Sessions where
  fs := after.fs
  session := Function.update sessions.session index after
  pending := Function.update sessions.pending index pending

/-- One half of a WRITE. A session takes its requests one after the other. -/
def step (sessions : Sessions) : SessionsStep → Option Sessions
  | .check index env id handle offset data =>
      match sessions.pending index with
      -- it has not answered its last WRITE yet
      | some _ => none
      | none =>
          match writeCheck env data (sessions.view index) with
          | (.ok _, after) => some (sessions.put index after (some ⟨id, handle, offset, data, env.os, sessions.fs⟩))
          | (.error _, after) => some (sessions.put index after none)
  | .write index env =>
      match sessions.pending index with
      | none => none
      | some half =>
          some (sessions.put index
            (writeData env half.id half.handle half.offset half.data (sessions.view index)).2 none)

/-- With nothing in between, the two halves are the handler. -/
theorem step_alone {sessions next : Sessions} {index : Nat} {env : RequestEnv} {id : UInt32} {handle : Text}
    {offset : UInt64} {data : List UInt8} (idle : sessions.pending index = none)
    (ran : exec step sessions [.check index env id handle offset data, .write index env] = some next) :
    next.fs = (write env id handle offset data (sessions.view index)).2.fs := by
  obtain ⟨middle, checked, ran⟩ := (exec_cons step).mp ran
  obtain ⟨final, written, ended⟩ := (exec_cons step).mp ran
  cases ended
  simp only [step, idle] at checked
  cases answered : writeCheck env data (sessions.view index) with
  | mk answer after =>
      rw [answered] at checked
      cases answer with
      | error why =>
          cases checked
          simp [step, put] at written
      | ok value =>
          cases checked
          have kept : after = sessions.view index := (gate_writeCheck data).passes _ _ _ answered
          subst after
          simp only [step, put, Function.update_self, Option.some.injEq] at written
          rw [write, Action.bind_run_ok answered, ← written]
          simp [view]

section Condition
variable (home : Loc) (limit : UInt64)

def AppendsAtEnd (sessions : Sessions) (label : SessionsStep) : Prop :=
  ∀ index env half f, label = .write index env → sessions.pending index = some half →
    (sessions.session index).handles.lookup half.handle = some (.file f) →
    half.offset.toNat = (sessions.fs.data f.file.ino).length

/-- A write comes before other sessions have stored more in home than its check saw, and that was
everything; or else the quota still has room for it. -/
def Undisturbed (sessions : Sessions) : SessionsStep → Prop
  | .check _ _ _ _ _ _ => True
  | .write index _ => ∀ half f, sessions.pending index = some half →
      (sessions.session index).handles.lookup half.handle = some (.file f) →
      ScanSees half.os half.checked home limit ∧ sessions.fs.usage home ≤ half.checked.usage home ∨
        HasRoom home limit sessions.fs (growth home sessions.fs f.file half.offset.toNat half.data)

/-- The sessions are of one user, whose quota this is at every check. -/
def Limited (username : Text) : SessionsStep → Prop
  | .check _ env _ _ _ _ => (env.permissionsOf username).quotaMb = some limit
  | .write _ _ => True

/-- Whatever has passed a check that sees everything fits on top of what was there. -/
structure Covered (username homeDir : Text) (sessions : Sessions) : Prop where
  owner : ∀ index, (sessions.session index).owner = (username, homeDir)
  within : WithinQuota home limit sessions.fs
  fits : ∀ index half, sessions.pending index = some half → ScanSees half.os half.checked home limit →
    half.checked.usage home + half.data.length ≤ limit.toNat * 2 ^ 20

end Condition

section Steps
variable {home : Loc} {limit : UInt64} {username homeDir : Text} {sessions next : Sessions}

theorem Covered.put (covered : Covered home limit username homeDir sessions) {index : Nat} {after : Session}
    {pending : Option Pending} (owner : after.owner = (username, homeDir)) (within : WithinQuota home limit after.fs)
    (fits : ∀ half, pending = some half → ScanSees half.os half.checked home limit →
      half.checked.usage home + half.data.length ≤ limit.toNat * 2 ^ 20) :
    Covered home limit username homeDir (sessions.put index after pending) := by
  refine ⟨fun other => ?_, within, fun other half found => ?_⟩
  · by_cases same : other = index
    · subst other
      simpa [Sessions.put] using owner
    · simpa [Sessions.put, same] using covered.owner other
  · by_cases same : other = index
    · subst other
      exact fits half (by simpa [Sessions.put] using found)
    · exact covered.fits other half (by simpa [Sessions.put, same] using found)

theorem Covered.check (covered : Covered home limit username homeDir sessions)
    (atHome : components homeDir = .ofNames home) (positive : 0 < limit) {index : Nat} {env : RequestEnv} {id : UInt32}
    {handle : Text} {offset : UInt64} {data : List UInt8}
    (limited : (env.permissionsOf username).quotaMb = some limit)
    (taken : sessions.step (.check index env id handle offset data) = some next) :
    Covered home limit username homeDir next := by
  obtain ⟨sameUser, sameHome⟩ := Prod.mk.inj (covered.owner index)
  have kept : Leaves Session.fs (writeCheck env data) := (gate_writeCheck data).leaves
  have keptOwner : Leaves Session.owner (writeCheck env data) := leaves_writeCheck (fun _ _ => rfl) data
  have fsAfter := kept (sessions.view index)
  have ownerAfter := keptOwner (sessions.view index)
  simp only [Sessions.step] at taken
  cases idle : sessions.pending index with
  | some half => simp [idle] at taken
  | none =>
      simp only [idle] at taken
      cases answered : writeCheck env data (sessions.view index) with
      | mk answer after =>
          rw [answered] at taken fsAfter ownerAfter
          have within : WithinQuota home limit after.fs := by
            rw [fsAfter]
            exact covered.within
          have owner : after.owner = (username, homeDir) := ownerAfter.trans (covered.owner index)
          cases answer with
          -- the check refused: nothing is left to write
          | error why =>
              cases taken
              exact covered.put owner within fun half none => by cases none
          | ok value =>
              cases taken
              apply covered.put owner within
              intro half same sees
              cases same
              have viewHome : (sessions.view index).home = .ofNames home := by
                simpa [Session.home, Sessions.view, sameHome] using atHome
              have viewLimited : ((sessions.view index).permissions env).quotaMb = some limit := by
                simpa [Session.permissions, Sessions.view, sameUser] using limited
              exact withinQuota_written covered.within viewHome viewLimited positive sees (writeCheck_ok answered).1

theorem Covered.write (covered : Covered home limit username homeDir sessions) {index : Nat} {env : RequestEnv}
    (appends : AppendsAtEnd sessions (.write index env)) (fresh : Undisturbed home limit sessions (.write index env))
    (taken : sessions.step (.write index env) = some next) : Covered home limit username homeDir next := by
  simp only [Sessions.step] at taken
  cases found : sessions.pending index with
  | none => simp [found] at taken
  | some half =>
      simp only [found, Option.some.injEq] at taken
      subst next
      apply covered.put
      · have kept : Leaves Session.owner (writeData env half.id half.handle half.offset half.data) :=
          leaves_writeData (fun _ _ => rfl) (fun _ _ => rfl) half.id half.handle half.offset half.data
        exact (kept (sessions.view index)).trans (covered.owner index)
      · apply writeData_final (WithinQuota home limit) half.id covered.within
        intro f listed
        have starts := appends index env half f rfl found listed
        rcases fresh half f found listed with ⟨sees, unseen⟩ | room
        · -- it adds to what is stored now, the check made room on top of what was stored then
          have grown : (FileSystem.writeAll env.os f.file half.offset.toNat half.data
              (sessions.view index).fs).2.usage home ≤ sessions.fs.usage home + half.data.length :=
            usage_writeAll f.file half.data (Nat.le_of_eq starts)
          have room := covered.fits index half found sees
          unfold WithinQuota
          omega
        · have begins : f.file.start sessions.fs half.offset.toNat = half.offset.toNat := by
            unfold FileSystem.OpenFile.start
            split
            · exact starts.symm
            · rfl
          have grown := @usage_writeAll_growth home env.os sessions.fs f.file half.offset.toNat half.data
          rw [begins] at grown
          exact Nat.le_trans grown room
      · intro half none
        cases none

end Steps

/-- In every interleaving whose writes come before the usage has grown past what
their checks saw, or find room left, the quota holds. -/
theorem exec_withinQuota (sessions final : Sessions) (home : Loc) (limit : UInt64) (username homeDir : Text)
    (labels : List SessionsStep) (atHome : components homeDir = .ofNames home) (positive : 0 < limit)
    (owner : ∀ index, (sessions.session index).owner = (username, homeDir))
    (idle : ∀ index, sessions.pending index = none)
    (limited : ∀ label ∈ labels, Limited limit username label)
    (appends : Guarded step AppendsAtEnd sessions labels)
    (undisturbed : Guarded step (Undisturbed home limit) sessions labels)
    (initial : WithinQuota home limit sessions.fs) (reached : exec step sessions labels = some final) :
    WithinQuota home limit final.fs := by
  have start : Covered home limit username homeDir sessions :=
    ⟨owner, initial, fun index half found => by simp [idle index] at found⟩
  have guarded := Guarded.and (Guarded.of_forall limited) (Guarded.and appends undisturbed)
  have kept : Covered home limit username homeDir final := by
    apply exec_invariant _ start guarded reached
    intro state label next covered ⟨limited, appends, undisturbed⟩ taken
    cases label with
    | check index env id handle offset data => exact covered.check atHome positive limited taken
    | write index env => exact covered.write appends undisturbed taken
  exact kept.within

section Samples

def twoFiles (bytes : List UInt8) : FileSystem := (FileSystem.empty.addFile "a".toList bytes).addFile "b".toList []

def appender (fs : FileSystem) (ino : Nat) : Session :=
  { sessionAt fs with handles := AList.singleton "h1".toList (.file ⟨⟨ino, false, false, true, false⟩, true⟩) }

def appending (bytes : List UInt8) : Sessions :=
  ⟨twoFiles bytes, fun index => appender (twoFiles bytes) (index + 1), fun _ => none⟩

def DistinctFiles (sessions : Sessions) : Prop :=
  ∀ index other, index ≠ other → ∀ handle handle' f f',
    (sessions.session index).handles.lookup handle = some (.file f) →
    (sessions.session other).handles.lookup handle' = some (.file f') → f.file.ino ≠ f'.file.ino

def appendEnv : RequestEnv := permissiveEnv oneMegabyte

theorem appender_file {fs : FileSystem} {ino : Nat} {handle : Text} {f : FileHandle}
    (found : (appender fs ino).handles.lookup handle = some (.file f)) : f.file.ino = ino := by
  by_cases same : handle = "h1".toList
  · subst handle
    cases found
    rfl
  · have absent : (appender fs ino).handles.lookup handle = none :=
      AList.lookup_eq_none.mpr fun member => same (List.mem_singleton.mp member)
    rw [absent] at found
    cases found

theorem appending_distinct (bytes : List UInt8) : DistinctFiles (appending bytes) := by
  intro index other apart handle handle' f f' found found' same
  rw [appender_file found, appender_file found'] at same
  omega

theorem step_check {sessions : Sessions} {index : Nat} {env : RequestEnv} {id : UInt32} {handle : Text}
    {offset : UInt64} {data : List UInt8} (idle : sessions.pending index = none)
    (fits : (sessions.view index).quotaOk env data.length = true) :
    sessions.step (.check index env id handle offset data) =
      some (sessions.put index (sessions.view index) (some ⟨id, handle, offset, data, env.os, sessions.fs⟩)) := by
  have passed : writeCheck env data (sessions.view index) = (.ok (), sessions.view index) := by
    rw [writeCheck, Action.bind_run_ok (Action.read_run _ _), fits]
    rfl
  simp only [step, idle, passed]

/-- A file of this length leaves room for one byte. -/
def almost : UInt64 := 1048575

def bothChecks : List SessionsStep :=
  [.check 0 appendEnv 1 "h1".toList almost [1], .check 1 appendEnv 1 "h1".toList 0 [1], .write 0 appendEnv,
    .write 1 appendEnv]

def half (bytes : List UInt8) (offset : UInt64) : Pending := ⟨1, "h1".toList, offset, [1], .permissive, twoFiles bytes⟩

def checkedOne (bytes : List UInt8) : Sessions :=
  (appending bytes).put 0 ((appending bytes).view 0) (some (half bytes almost))

def checkedBoth (bytes : List UInt8) : Sessions :=
  (checkedOne bytes).put 1 ((checkedOne bytes).view 1) (some (half bytes 0))

def wrote (sessions : Sessions) (index : Nat) (offset : UInt64) : Sessions :=
  sessions.put index (writeData appendEnv 1 "h1".toList offset [1] (sessions.view index)).2 none

def wroteBoth (bytes : List UInt8) : Sessions := wrote (wrote (checkedBoth bytes) 0 almost) 1 0

section Race
variable {bytes : List UInt8}

theorem quotaOk_twoFiles (short : bytes.length < 2 ^ 20) (session : Session) (files : session.fs = twoFiles bytes)
    (owner : session.owner = ("ann".toList, "/".toList)) : session.quotaOk appendEnv 1 = true := by
  obtain ⟨username, homeDir⟩ := Prod.mk.inj owner
  have counted : scanSize .permissive (twoFiles bytes) (scanFuel (twoFiles bytes)) (components "/".toList) =
      0 + (bytes.length + 0) := rfl
  have limited : (session.permissions appendEnv).quotaMb.filter (fun quota => decide (0 < quota)) = some 1 := by
    rw [Session.permissions, username]
    rfl
  have scanned : dirSize appendEnv.os session.fs session.home = bytes.length := by
    rw [files, Session.home, homeDir]
    show scanSize .permissive (twoFiles bytes) (scanFuel (twoFiles bytes)) (components "/".toList) % 2 ^ 64 = _
    rw [counted, Nat.zero_add, Nat.add_zero]
    exact Nat.mod_eq_of_lt (by omega)
  have quota : quotaBytes 1 = 2 ^ 20 := by decide
  unfold Session.quotaOk
  rw [if_neg (by decide), limited]
  simp only [scanned, quota, u64Max, decide_eq_true_eq]
  omega

theorem step_checkedOne (short : bytes.length < 2 ^ 20) :
    (appending bytes).step (.check 0 appendEnv 1 "h1".toList almost [1]) = some (checkedOne bytes) :=
  step_check rfl (quotaOk_twoFiles short _ rfl rfl)

theorem step_checkedBoth (short : bytes.length < 2 ^ 20) :
    (checkedOne bytes).step (.check 1 appendEnv 1 "h1".toList 0 [1]) = some (checkedBoth bytes) :=
  step_check rfl (quotaOk_twoFiles short _ rfl rfl)

theorem step_wroteOne :
    (checkedBoth bytes).step (.write 0 appendEnv) = some (wrote (checkedBoth bytes) 0 almost) := rfl

theorem exec_bothChecks (short : bytes.length < 2 ^ 20) :
    exec step (appending bytes) bothChecks = some (wroteBoth bytes) := by
  have last : (wrote (checkedBoth bytes) 0 almost).step (.write 1 appendEnv) = some (wroteBoth bytes) := rfl
  simp only [bothChecks, exec, step_checkedOne short, step_checkedBoth short, step_wroteOne, last, Option.bind_some]

theorem bothChecks_append (short : bytes.length < 2 ^ 20) (atEnd : almost.toNat = bytes.length) :
    Guarded step AppendsAtEnd (appending bytes) bothChecks := by
  refine ⟨fun _ _ _ _ isWrite _ _ => (by cases isWrite), fun next taken => ?_⟩
  rw [step_checkedOne short] at taken
  cases taken
  refine ⟨fun _ _ _ _ isWrite _ _ => (by cases isWrite), fun next taken => ?_⟩
  rw [step_checkedBoth short] at taken
  cases taken
  refine ⟨?_, fun next taken => ?_⟩
  · intro index env half f isWrite pending found
    cases isWrite
    cases pending
    have number : f.file.ino = 1 := appender_file found
    rw [number]
    exact atEnd
  · rw [step_wroteOne] at taken
    cases taken
    refine ⟨?_, fun _ _ => trivial⟩
    intro index env half f isWrite pending found
    cases isWrite
    cases pending
    have number : f.file.ino = 2 := appender_file found
    rw [number]
    rfl

theorem bothChecks_limited : ∀ label ∈ bothChecks, Limited 1 "ann".toList label := by
  intro label member
  simp only [bothChecks, List.mem_cons, List.not_mem_nil, or_false] at member
  rcases member with rfl | rfl | rfl | rfl
  · rfl
  · rfl
  · trivial
  · trivial

theorem usage_twoFiles : (twoFiles bytes).usage [] = bytes.length := by
  have files : (twoFiles bytes).filesUnder [] = {2, 1} := rfl
  have first : (twoFiles bytes).data 1 = bytes := rfl
  have second : (twoFiles bytes).data 2 = [] := rfl
  unfold FileSystem.usage
  rw [files, Finset.sum_pair (by decide), first, second]
  simp

theorem usage_wroteBoth (atEnd : almost.toNat = bytes.length) :
    (wroteBoth bytes).fs.usage [] = bytes.length + 2 := by
  have files : (wroteBoth bytes).fs.filesUnder [] = {2, 1} := rfl
  have first : (wroteBoth bytes).fs.data 1 = FileSystem.overwrite bytes almost.toNat [1] := rfl
  have second : (wroteBoth bytes).fs.data 2 = [1] := rfl
  unfold FileSystem.usage
  rw [files, Finset.sum_pair (by decide), first, second, atEnd]
  simp [FileSystem.overwrite]
  omega

end Race

theorem exec_withinQuota_one : WithinQuota [] 1
    (wrote ((appending []).put 1 ((appending []).view 1) (some (half [] 0))) 1 0).fs := by
  have checked : (appending []).step (.check 1 appendEnv 1 "h1".toList 0 [1]) =
      some ((appending []).put 1 ((appending []).view 1) (some (half [] 0))) :=
    step_check rfl (quotaOk_twoFiles (by decide) _ rfl rfl)
  apply exec_withinQuota (appending []) _ [] 1 "ann".toList "/".toList
    [.check 1 appendEnv 1 "h1".toList 0 [1], .write 1 appendEnv] rfl (by decide) (fun _ => rfl) (fun _ => rfl)
  · intro label member
    simp only [List.mem_cons, List.not_mem_nil, or_false] at member
    rcases member with rfl | rfl
    · rfl
    · trivial
  · refine ⟨fun _ _ _ _ isWrite _ _ => (by cases isWrite), fun next taken => ?_⟩
    rw [checked] at taken
    cases taken
    refine ⟨?_, fun _ _ => trivial⟩
    intro index env half f isWrite pending found
    cases isWrite
    cases pending
    have number : f.file.ino = 2 := appender_file found
    rw [number]
    rfl
  · refine ⟨trivial, fun next taken => ?_⟩
    rw [checked] at taken
    cases taken
    refine ⟨?_, fun _ _ => trivial⟩
    intro half f pending _
    cases pending
    exact .inl ⟨scanSees_permissive (by decide) (by decide) (by decide), Nat.le_refl _⟩
  · decide
  · simp only [exec, checked]
    rfl

/-- Two sessions check with one byte left, and both write. -/
theorem appends_exceed : ¬ ∀ (sessions final : Sessions) (home : Loc) (limit : UInt64) (username homeDir : Text)
    (labels : List SessionsStep), components homeDir = .ofNames home → 0 < limit →
    (∀ index, (sessions.session index).owner = (username, homeDir)) →
    (∀ index, sessions.pending index = none) → (∀ label ∈ labels, Limited limit username label) →
    DistinctFiles sessions → Guarded step AppendsAtEnd sessions labels → WithinQuota home limit sessions.fs →
    exec step sessions labels = some final → WithinQuota home limit final.fs := by
  intro stays
  let bytes : List UInt8 := List.replicate 1048575 0
  have length : bytes.length = 1048575 := List.length_replicate
  have short : bytes.length < 2 ^ 20 := by omega
  have atEnd : almost.toNat = bytes.length := length.symm
  have one : (1 : UInt64).toNat = 1 := rfl
  have initial : WithinQuota [] 1 (twoFiles bytes) := by
    rw [WithinQuota, usage_twoFiles]
    omega
  have kept := stays (appending bytes) _ [] 1 "ann".toList "/".toList bothChecks rfl (by decide)
    (fun _ => rfl) (fun _ => rfl) bothChecks_limited (appending_distinct bytes) (bothChecks_append short atEnd) initial
    (exec_bothChecks short)
  rw [WithinQuota, usage_wroteBoth atEnd] at kept
  omega

end Samples

end Sessions

end Wftpd.Sftp
