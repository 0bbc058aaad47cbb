import Wftpd.Sftp.Audit
import Wftpd.Sftp.QuotaRuns

/-! The quota over one WRITE, wherever its block begins.

The check adds the length of the block to what is stored. The file grows by what the block
reaches beyond its end, and that is more when the block leaves a hole.
-/

set_option autoImplicit false

namespace Wftpd.Sftp
open Wftpd.Posix Wftpd.Common Wftpd.Library

theorem growth_le {home : Loc} {fs : FileSystem} {file : FileSystem.OpenFile} {offset : Nat} {data : List UInt8}
    (starts : offset ≤ (fs.data file.ino).length) : growth home fs file offset data ≤ data.length := by
  unfold growth
  split
  · omega
  · exact Nat.zero_le _

theorem usage_writeAll_eq (home : Loc) {os : Os} {fs after : FileSystem} {file : FileSystem.OpenFile} {offset : Nat}
    {data : List UInt8} (overwrites : file.append = false)
    (written : FileSystem.writeAll os file offset data fs = (.ok (), after)) :
    after.usage home = fs.usage home + growth home fs file offset data := by
  rcases FileSystem.writeAll_ok written with ⟨rfl, rfl⟩ | ⟨stores, rfl⟩
  · simp [growth]
  · have begins : file.start fs offset = offset := by simp [FileSystem.OpenFile.start, overwrites]
    rw [FileSystem.usage_touch, begins]
    by_cases listed : file.ino ∈ fs.filesUnder home
    · have total := FileSystem.usage_setData listed (FileSystem.overwrite (fs.data file.ino) offset data)
      rw [FileSystem.length_overwrite_eq] at total
      rw [growth, if_pos ⟨stores.nonempty, listed⟩]
      omega
    · rw [FileSystem.usage_setData_elsewhere listed, growth, if_neg fun both => listed both.2, Nat.add_zero]

/-- The check counts all that is stored, and the block begins within its file. -/
def CheckCounts (env : RequestEnv) (session : Session) (home : Loc) (limit : UInt64) (file : FileSystem.OpenFile)
    (offset : UInt64) (data : List UInt8) : Prop :=
  ScanSees env.os session.fs home limit ∧ data ≠ [] ∧ offset.toNat ≤ (session.fs.data file.ino).length

/-- A WRITE that succeeds stays within the quota exactly when the check counts all and the block
begins within its file, or when what it reaches beyond the end of the file fits anyway. -/
theorem write_withinQuota_iff {env : RequestEnv} {session after : Session} {home : Loc} {limit : UInt64} {id : UInt32}
    {handle : Text} {offset : UInt64} {data : List UInt8} {f : FileHandle} {reply : Reply}
    (atHome : session.home = .ofNames home) (limited : (session.permissions env).quotaMb = some limit)
    (positive : 0 < limit) (opened : session.handles.lookup handle = some (.file f))
    (overwrites : f.file.append = false) (answered : write env id handle offset data session = (.ok reply, after)) :
    WithinQuota home limit after.fs ↔
      CheckCounts env session home limit f.file offset data ∨
        session.fs.usage home + growth home session.fs f.file offset.toNat data ≤ limit.toNat * 2 ^ 20 := by
  obtain ⟨passed, -, -, -, other, found, written⟩ := Audit.write_ok answered
  rw [opened] at found
  cases found
  have total := usage_writeAll_eq home overwrites written
  rw [WithinQuota, total]
  constructor
  · exact .inr
  · rintro (⟨sees, nonempty, starts⟩ | fits)
    · -- without a hole the file grows by no more than was asked for
      have asked : data.length ≠ 0 := by simpa using nonempty
      have room := quotaOk_fits atHome limited positive sees asked passed
      exact Nat.le_trans (Nat.add_le_add_left (growth_le starts) _) room
    · exact fits

section Samples

def openHome : Session :=
  { smallHome with handles := AList.singleton "h1".toList (.file ⟨⟨1, false, false, true, false⟩, true⟩) }

theorem write_withinQuota_overwrite :
    WithinQuota [] 1 (write (permissiveEnv oneMegabyte) 1 "h1".toList 0 [116] openHome).2.fs ↔
      CheckCounts (permissiveEnv oneMegabyte) openHome [] 1 ⟨1, false, false, true, false⟩ 0 [116] ∨
        openHome.fs.usage [] + growth [] openHome.fs ⟨1, false, false, true, false⟩ 0 [116] ≤ 1 * 2 ^ 20 := by
  have positive : (0 : UInt64) < 1 := by decide
  have opened : openHome.handles.lookup "h1".toList = some (.file ⟨⟨1, false, false, true, false⟩, true⟩) := rfl
  have answered : write (permissiveEnv oneMegabyte) 1 "h1".toList 0 [116] openHome =
      (.ok (.status 1 .ok), (write (permissiveEnv oneMegabyte) 1 "h1".toList 0 [116] openHome).2) := rfl
  exact write_withinQuota_iff rfl rfl positive opened rfl answered

/-- A byte at offset one megabyte leaves a hole that exceeds the quota of one. -/
theorem write_hole_exceeds : ¬ ∀ (env : RequestEnv) (session after : Session) (home : Loc) (limit : UInt64) (id : UInt32)
    (handle : Text) (offset : UInt64) (data : List UInt8) (f : FileHandle) (reply : Reply),
    session.home = .ofNames home → (session.permissions env).quotaMb = some limit → 0 < limit →
    (∀ rest ino target, session.fs.tree.find (home ++ rest) ≠ some (.link ino target)) →
    session.handles.lookup handle = some (.file f) → f.file.append = false →
    write env id handle offset data session = (.ok reply, after) → WithinQuota home limit after.fs := by
  intro stays
  have unlinked : ∀ rest ino target, openHome.fs.tree.find ([] ++ rest) ≠ some (.link ino target) := by
    intro rest ino target found
    have entries : openHome.fs.tree.entries = [(["f".toList], .file 1), ([], .dir 0)] := rfl
    have member := Tree.mem_iff_find.mpr found
    rw [entries] at member
    simp at member
  let after := (write (permissiveEnv oneMegabyte) 1 "h1".toList 1048576 [116] openHome).2
  have kept : WithinQuota [] 1 after.fs :=
    stays (permissiveEnv oneMegabyte) openHome after [] 1 1 "h1".toList 1048576 [116] _ (.status 1 .ok) rfl rfl
      (by decide) unlinked rfl rfl rfl
  have stored : after.fs.data 1 = FileSystem.overwrite [115] 1048576 [116] := rfl
  have listed : 1 ∈ after.fs.filesUnder [] := FileSystem.mem_filesUnder.mpr ⟨["f".toList], rfl⟩
  have bytes := FileSystem.length_le_usage listed
  rw [stored, FileSystem.length_overwrite_eq] at bytes
  have limit : (1 : UInt64).toNat = 1 := rfl
  unfold WithinQuota at kept
  simp at bytes
  omega

end Samples

end Wftpd.Sftp
