import Wftpd.Common.FileLogger
import Wftpd.Common.LogBuffer

/-! The ring of recent file operations, beside that of recent log entries. -/

set_option autoImplicit false

namespace Wftpd.Common
open Wftpd.Posix Wftpd.Library

structure FileLogEntry (DateTime : Type) where
  timestamp : DateTime
  username : Text
  clientIp : Text
  operation : Text
  filePath : Text
  fileSize : UInt64
  protocol : Text
  success : Bool
  message : Text
  deriving DecidableEq, Repr

structure FileLogEntryJson where
  timestamp : Text
  username : Text
  clientIp : Text
  operation : Text
  filePath : Text
  fileSize : UInt64
  protocol : Text
  success : Bool
  message : Text
  deriving DecidableEq, Repr

structure FileLogger (DateTime : Type) where
  buffer : List (FileLogEntry DateTime)
  maxBufferSize : Nat
  logSender : Option (List LogEntryJson)
  deriving DecidableEq, Repr

variable {DateTime : Type} (toRfc3339 : DateTime → Text)

def FileLogEntry.into (e : FileLogEntry DateTime) : FileLogEntryJson where
  timestamp := toRfc3339 e.timestamp
  username := e.username
  clientIp := e.clientIp
  operation := e.operation
  filePath := e.filePath
  fileSize := e.fileSize
  protocol := e.protocol
  success := e.success
  message := e.message

def FileLogEntry.logEntryJson (entry : FileLogEntry DateTime) : LogEntryJson where
  timestamp := toRfc3339 entry.timestamp
  level := "INFO".toList
  source := "文件操作".toList
  message := entry.username ++ " ".toList ++ entry.operation ++ " ".toList ++ entry.filePath
  clientIp := some entry.clientIp
  username := some entry.username
  action := some entry.operation

def FileLogInfo.entry (now : DateTime) (info : FileLogInfo) : FileLogEntry DateTime where
  timestamp := now
  username := info.username
  clientIp := info.clientIp
  operation := info.operation
  filePath := info.filePath
  fileSize := info.fileSize
  protocol := info.protocol
  success := info.success
  message := info.message

namespace FileLogger

def new : FileLogger DateTime := ⟨[], 2000, none⟩

def withLogSender : FileLogger DateTime := ⟨[], 2000, some []⟩

def log (logger : FileLogger DateTime) (now : DateTime) (info : FileLogInfo) : FileLogger DateTime :=
  let entry := info.entry now
  let buffer := if logger.buffer.length ≥ logger.maxBufferSize then logger.buffer.tail else logger.buffer
  { logger with
    logSender := logger.logSender.map fun sent => sent ++ [entry.logEntryJson toRfc3339]
    buffer := buffer ++ [entry] }

def getRecentLogs (logger : FileLogger DateTime) (count : Nat) : List (FileLogEntry DateTime) :=
  logger.buffer.reverse.take count

def logAll (logger : FileLogger DateTime) (logged : List (DateTime × FileLogInfo)) : FileLogger DateTime :=
  logged.foldl (fun logger operation => logger.log toRfc3339 operation.1 operation.2) logger

def entries (logged : List (DateTime × FileLogInfo)) : List (FileLogEntry DateTime) :=
  logged.map fun operation => operation.2.entry operation.1

variable {toRfc3339} {logger : FileLogger DateTime} (logged : List (DateTime × FileLogInfo))

@[simp] theorem entries_length : (entries logged).length = logged.length := List.length_map _

theorem logAll_buffer : (logger.logAll toRfc3339 logged).buffer =
    (entries logged).foldl (pushBounded logger.maxBufferSize) logger.buffer := by
  induction logged generalizing logger with
  | nil => rfl
  | cons operation rest ih => exact ih

def Fresh (logger : FileLogger DateTime) : Prop := logger = new ∨ logger = withLogSender

theorem Fresh.logAll_keeps (fresh : Fresh logger) :
    Keeps 2000 (entries logged) (logger.logAll toRfc3339 logged).buffer := by
  rw [logAll_buffer]
  rcases fresh with rfl | rfl
  · exact foldl_pushBounded_keeps (by decide) (entries logged)
  · exact foldl_pushBounded_keeps (by decide) (entries logged)

theorem Fresh.getRecentLogs (fresh : Fresh logger) (count : Nat) :
    (logger.logAll toRfc3339 logged).getRecentLogs count = ((entries logged).rtake (min count 2000)).reverse := by
  rw [FileLogger.getRecentLogs, reverse_take, (fresh.logAll_keeps logged).eq_rtake, rtake_rtake]

end FileLogger

theorem LogBuffer.ring_keeps {capacity : Nat} (positive : 1 ≤ capacity) (pushed : List LogEntryJson) :
    Keeps capacity pushed (ring capacity pushed).entries := by
  rw [ring_eq]
  exact foldl_pushBounded_keeps positive pushed

/-- Both rings keep what was put in last and no more, and answer with the end of that. -/
theorem log_rings_refine {capacity : Nat} (positive : 1 ≤ capacity) (pushed : List LogEntryJson)
    {logger : FileLogger DateTime} (fresh : logger.Fresh) (logged : List (DateTime × FileLogInfo)) (count : Nat) :
    (Keeps capacity pushed (LogBuffer.ring capacity pushed).entries ∧
      (LogBuffer.ring capacity pushed).recent count = pushed.rtake (min count (min capacity pushed.length))) ∧
    (Keeps 2000 (FileLogger.entries logged) (logger.logAll toRfc3339 logged).buffer ∧
      (logger.logAll toRfc3339 logged).getRecentLogs count =
        ((FileLogger.entries logged).rtake (min count (min 2000 logged.length))).reverse) := by
  refine ⟨⟨LogBuffer.ring_keeps positive pushed, ?_⟩, fresh.logAll_keeps logged, ?_⟩
  · rw [LogBuffer.recent_ring, Nat.max_eq_left positive, ← Nat.min_assoc, rtake_min_length]
    rfl
  · rw [fresh.getRecentLogs, ← Nat.min_assoc, ← FileLogger.entries_length, rtake_min_length]

section Samples

def bootEntry : LogEntryJson := ⟨"t1".toList, "INFO".toList, "wftpd".toList, "started".toList, none, none, none⟩

def haltEntry : LogEntryJson := { bootEntry with timestamp := "t2".toList, message := "stopped".toList }

def annUpload : FileLogInfo :=
  ⟨"ann".toList, "10.0.0.1".toList, "UPLOAD".toList, "/a".toList, 1, "FTP".toList, true, "文件上传成功".toList⟩

theorem log_rings_refine_two :
    (LogBuffer.ring 1 [bootEntry, haltEntry]).recent 5 = [haltEntry] ∧
      (FileLogger.withLogSender.logAll id [("t1".toList, annUpload)]).getRecentLogs 5 = [annUpload.entry "t1".toList] :=
  ⟨(log_rings_refine id (by decide) [bootEntry, haltEntry] (.inr rfl) [("t1".toList, annUpload)] 5).1.2,
    (log_rings_refine id (by decide : 1 ≤ 1) [bootEntry, haltEntry] (.inr rfl) [("t1".toList, annUpload)] 5).2.2⟩

end Samples

end Wftpd.Common
