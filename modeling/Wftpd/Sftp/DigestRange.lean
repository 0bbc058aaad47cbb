import Wftpd.Posix.Effects
import Wftpd.Sftp.Frame

/-! Which bytes of a file a digest covers.

The kernel may split the reads as it likes; the pieces always make up the range asked for.
-/

set_option autoImplicit false

namespace Wftpd.Sftp
open Wftpd.Posix Wftpd.Common Wftpd.Library

/-- How the reading loop ends: with what was fed to the hash, where the remaining length would
fall below zero, or not yet. -/
inductive LoopEnd where
  | fed (bytes : List UInt8)
  | underflow
  | unfinished
  deriving DecidableEq, Repr

/-- The reading loop of `digest_file` with its subtraction checked. -/
def digestLoop (env : RequestEnv) (file : FileSystem.OpenFile) : Nat → Nat → Nat → Nat → List UInt8 →
    Action FileSystem ErrorKind LoopEnd
  | 0, _, _, _, _ => pure .unfinished
  | fuel + 1, count, pos, remaining, fed => do
      let want := if remaining = 0 then digestChunk else min digestChunk remaining
      let piece ← FileSystem.readAt env.os file count pos want
      if piece = [] then pure (.fed fed)
      else if remaining = 0 then digestLoop env file fuel (count + 1) (pos + piece.length) 0 (fed ++ piece)
      else if remaining < piece.length then pure .underflow
      else if remaining - piece.length = 0 then pure (.fed (fed ++ piece))
      else digestLoop env file fuel (count + 1) (pos + piece.length) (remaining - piece.length) (fed ++ piece)

/-- The bytes from a position on, so many of them; all the rest for a length of zero. -/
def digestRange (content : List UInt8) (offset length : Nat) : List UInt8 :=
  if length = 0 then content.drop offset else (content.drop offset).take length

structure Readable (os : Os) (file : FileSystem.OpenFile) : Prop where
  read : file.read = true
  regular : file.isDir = false
  completed : os.fault .read = none

variable {env : RequestEnv} {file : FileSystem.OpenFile} {fs : FileSystem}

theorem Readable.readAt (readable : Readable env.os file) (count pos want : Nat) :
    FileSystem.readAt env.os file count pos want fs =
      (.ok (((fs.data file.ino).drop pos).take (min want (env.os.chunk count + 1))), fs) := by
  unfold FileSystem.readAt
  split
  · next empty =>
      rw [empty, Nat.zero_min, List.take_zero]
      rfl
  · simp [FileSystem.attempt, Action.bind_run, Action.check_run, readable.read, readable.regular, readable.completed]

section Pieces
variable {content piece : List UInt8} {pos : Nat}

theorem drop_piece (isPrefix : piece <+: content.drop pos) :
    content.drop pos = piece ++ content.drop (pos + piece.length) := by
  rw [← List.drop_drop]
  exact List.prefix_iff_eq_append.mp isPrefix |>.symm

theorem digestRange_all (isPrefix : piece <+: content.drop pos) :
    digestRange content pos 0 = piece ++ digestRange content (pos + piece.length) 0 := by
  simp only [digestRange, if_true]
  exact drop_piece isPrefix

theorem digestRange_more {remaining : Nat} (isPrefix : piece <+: content.drop pos) (short : piece.length < remaining) :
    digestRange content pos remaining =
      piece ++ digestRange content (pos + piece.length) (remaining - piece.length) := by
  have more : remaining ≠ 0 := by omega
  have left : remaining - piece.length ≠ 0 := by omega
  rw [digestRange, if_neg more, digestRange, if_neg left, drop_piece isPrefix, List.take_append,
    List.take_of_length_le (Nat.le_of_lt short)]

theorem digestRange_last (isPrefix : piece <+: content.drop pos) (nonempty : piece ≠ []) :
    digestRange content pos piece.length = piece := by
  have some : piece.length ≠ 0 := mt List.eq_nil_of_length_eq_zero nonempty
  rw [digestRange, if_neg some, drop_piece isPrefix, List.take_left]

theorem digestRange_end (ended : content.drop pos = []) (remaining : Nat) : digestRange content pos remaining = [] := by
  simp [digestRange, ended]

end Pieces

/-- The invariant of the loop: what was fed and the range that remains are the range asked for.
Every piece but an empty one shortens what is left of the file, so the fuel suffices. -/
theorem digestLoop_run (readable : Readable env.os file) {fuel : Nat} (count : Nat) {pos : Nat} (remaining : Nat)
    (fed : List UInt8) (enough : (fs.data file.ino).length - pos < fuel) :
    digestLoop env file fuel count pos remaining fed fs =
      (.ok (.fed (fed ++ digestRange (fs.data file.ino) pos remaining)), fs) := by
  induction fuel generalizing count pos remaining fed with
  | zero => omega
  | succ fuel ih =>
      rw [digestLoop]
      generalize wanted : (if remaining = 0 then digestChunk else min digestChunk remaining) = want
      have positive : 0 < want := by
        rw [← wanted, digestChunk]
        split <;> omega
      have within : remaining ≠ 0 → want ≤ remaining := by
        intro limited
        rw [← wanted, if_neg limited]
        exact Nat.min_le_right _ _
      rw [Action.bind_run_ok (readable.readAt count pos want)]
      generalize pieced : ((fs.data file.ino).drop pos).take (min want (env.os.chunk count + 1)) = piece
      have isPrefix : piece <+: (fs.data file.ino).drop pos := pieced ▸ List.take_prefix _ _
      have length : piece.length ≤ want := by
        rw [← pieced, List.length_take]
        omega
      by_cases empty : piece = []
      · -- a read of nothing, although something was asked for, means the end of the file
        rw [if_pos empty]
        have ended : (fs.data file.ino).drop pos = [] := by
          rw [empty] at pieced
          rcases List.take_eq_nil_iff.mp pieced with none | ended
          · omega
          · exact ended
        rw [digestRange_end ended, List.append_nil]
        rfl
      · rw [if_neg empty]
        have some := List.length_pos_iff.mpr empty
        have inFile := isPrefix.length_le
        rw [List.length_drop] at inFile
        have next : (fs.data file.ino).length - (pos + piece.length) < fuel := by omega
        by_cases unlimited : remaining = 0
        · rw [if_pos unlimited, ih _ _ _ next, unlimited, digestRange_all isPrefix, List.append_assoc]
        · -- no read is asked for more than remains, so that the subtraction stays above zero
          have fits : ¬ remaining < piece.length := by
            have := within unlimited
            omega
          rw [if_neg unlimited, if_neg fits]
          by_cases done : remaining - piece.length = 0
          · have whole : remaining = piece.length := by omega
            rw [if_pos done, whole, digestRange_last isPrefix empty]
            rfl
          · rw [if_neg done, ih _ _ _ next, digestRange_more isPrefix (by omega), List.append_assoc]

/-- Where the checked loop ends, the loop of the code has fed the same bytes. -/
theorem digestRead_of_digestLoop {fuel count pos remaining : Nat} {fed bytes : List UInt8} {after : FileSystem}
    (ran : digestLoop env file fuel count pos remaining fed fs = (.ok (.fed bytes), after)) :
    digestRead env file fuel count pos remaining fed fs = (.ok bytes, after) := by
  induction fuel generalizing count pos remaining fed fs with
  | zero => cases ran
  | succ fuel ih =>
      obtain ⟨piece, middle, read, ran⟩ := Action.bind_ok ran
      rw [digestRead, Action.bind_run_ok read]
      by_cases empty : piece = []
      · rw [if_pos empty] at ran ⊢
        cases ran
        rfl
      · rw [if_neg empty] at ran ⊢
        by_cases unlimited : remaining = 0
        · subst remaining
          rw [if_pos rfl] at ran
          rw [if_neg (by simp), Nat.zero_sub]
          exact ih ran
        · rw [if_neg unlimited] at ran
          split at ran
          · cases ran
          · by_cases done : remaining - piece.length = 0
            · rw [if_pos done] at ran
              rw [if_pos ⟨Nat.pos_of_ne_zero unlimited, done⟩]
              cases ran
              rfl
            · rw [if_neg done] at ran
              rw [if_neg fun both => done both.2]
              exact ih ran

/-- However the reads are split, the digest is that of the range, and the loop ends without the
remaining length falling below zero. A place the file cannot be read from is refused before. -/
theorem digestFile_range (env : RequestEnv) (hash : List UInt8 → List UInt8) {path : PathBuf} (offset length : UInt64)
    {fs : FileSystem} {file : FileSystem.OpenFile}
    (opened : FileSystem.openFile env.os { read := true } path fs = (.ok file, fs)) (regular : file.isDir = false)
    (completed : env.os.fault .read = none) :
    digestFile env hash path offset.toNat length.toNat fs =
        ((FileSystem.seek env.os offset.toNat fs).1.map fun _ =>
          hexEncode (hash (digestRange (fs.data file.ino) offset.toNat length.toNat)), fs) ∧
      ∀ fuel, (fs.data file.ino).length < fuel →
        digestLoop env file fuel 0 offset.toNat length.toNat [] fs =
          (.ok (.fed (digestRange (fs.data file.ino) offset.toNat length.toNat)), fs) := by
  have readable : Readable env.os file := ⟨by rw [FileSystem.openFile_mode opened]; rfl, regular, completed⟩
  have loops : ∀ fuel, (fs.data file.ino).length < fuel →
      digestLoop env file fuel 0 offset.toNat length.toNat [] fs =
        (.ok (.fed (digestRange (fs.data file.ino) offset.toNat length.toNat)), fs) := by
    intro fuel enough
    exact digestLoop_run readable 0 length.toNat [] (by omega)
  refine ⟨?_, loops⟩
  -- the code's loop has fuel for one read a byte and one more
  have fed := digestRead_of_digestLoop (loops _ (Nat.lt_succ_self _))
  have still := FileSystem.readOnly_seek env.os offset.toNat fs
  rw [digestFile, Action.bind_run_ok opened]
  cases sought : FileSystem.seek env.os offset.toNat fs with
  | mk answer after =>
      rw [sought] at still
      simp only at still
      subst after
      cases answer with
      | error why =>
          rw [Action.bind_run_error sought]
          rfl
      | ok _ =>
          rw [Action.bind_run_ok sought, Action.bind_run_ok (Action.read_run _ _), Action.bind_run_ok fed]
          rfl

def threeBytes : FileSystem := FileSystem.empty.addFile "f".toList [97, 98, 99]

theorem digestFile_range_middle :
    (digestFile (permissiveEnv .default) id (components "/f".toList) 1 1 threeBytes).1 = .ok (hexEncode [98]) := by
  have opened : FileSystem.openFile .permissive { read := true } (components "/f".toList) threeBytes =
      (.ok ⟨1, false, true, false, false⟩, threeBytes) := rfl
  have whole := (digestFile_range (permissiveEnv .default) id 1 1 opened rfl rfl).1
  exact congrArg Prod.fst whole

end Wftpd.Sftp
