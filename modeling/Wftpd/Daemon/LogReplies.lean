import Wftpd.Daemon.LogContents
import Wftpd.Daemon.SaveConfig
import Wftpd.Posix.Segments

/-! The log of file operations, asked for from memory or from a file.

The front end shows both replies in reverse.
-/

set_option autoImplicit false

namespace Wftpd.Daemon
open Wftpd.Posix Wftpd.Common Wftpd.Library

/-- The host during a request for a log: its files, the texts of its errors, and the lines of a
file that can be opened. -/
structure LogEnv where
  host : Host
  describe : ErrorKind → Text
  linesOf : Text → Option (List Logs.Line)

namespace Logs

def ensurePathInDir (env : LogEnv) (path dir : Text) : Except Text Unit := do
  let canonical ← (env.host.fs.canonicalize env.host.os (components path)).mapError env.describe
  let logDir ← (env.host.fs.canonicalize env.host.os (components dir)).mapError env.describe
  if logDir <+: canonical then return ()
  else throw ("path ".toList ++ path ++ " is outside log directory".toList)

section Replies
variable {DateTime : Type} (fromStr : Text → Option Value) (toRfc3339 : DateTime → Text)

def getFileOpLogContent (env : LogEnv) (config : Config) (logger : FileLogger DateTime) (path : Text)
    (count : UInt32) : Except Status (List FileOpLogEntry) :=
  if path = "current".toList then
    -- the newest first, where a file has the oldest first
    .ok (((logger.getRecentLogs count.toNat).map (·.into toRfc3339)).map into)
  else do
    (ensurePathInDir env path config.logging.logDir).mapError fun why => ⟨.invalidArgument, why⟩
    return (readFileOpLog fromStr (env.linesOf path) count.toNat).map into

def records (logged : List (DateTime × FileLogInfo)) : List FileLogEntryJson :=
  (FileLogger.entries logged).map (·.into toRfc3339)

structure Written (value fields : Value) (record : FileLogEntryJson) : Prop where
  timestamp : value.get "timestamp".toList = some (.string record.timestamp)
  hasFields : value.get "fields".toList = some fields
  username : fields.get "username".toList = some (.string record.username)
  clientIp : fields.get "client_ip".toList = some (.string record.clientIp)
  operation : fields.get "operation".toList = some (.string record.operation)
  filePath : fields.get "file_path".toList = some (.string record.filePath)
  fileSize : ∃ digits, fields.get "file_size".toList = some (.number digits (some record.fileSize))
  protocol : fields.get "protocol".toList = some (.string record.protocol)
  success : fields.get "success".toList = some (.bool record.success)
  message : fields.get "message".toList = some (.string record.message)

def Holds (line : Line) (record : FileLogEntryJson) : Prop :=
  ∃ text value fields, line = .text text ∧ fromStr (trim text) = some value ∧ Written value fields record

variable {fromStr} {toRfc3339}

theorem Written.parse {text : Text} {value fields : Value} {record : FileLogEntryJson}
    (decoded : fromStr (trim text) = some value) (written : Written value fields record) :
    parseFileOpLine fromStr text = some record := by
  obtain ⟨digits, fileSize⟩ := written.fileSize
  simp only [parseFileOpLine, fieldStr, decoded, written.timestamp, written.hasFields, written.username,
    written.clientIp, written.operation, written.filePath, fileSize, written.protocol, written.success,
    written.message, Value.asStr, Value.asU64, Value.asBool, Option.bind_eq_bind, Option.bind_some, Option.getD_some]
  rfl

theorem holds_parse {content : List Line} {held : List FileLogEntryJson}
    (holds : List.Forall₂ (Holds fromStr) content held) :
    (readable content).map (parseFileOpLine fromStr) = held.map some := by
  induction holds with
  | nil => rfl
  | cons first rest ih =>
      obtain ⟨text, value, fields, rfl, decoded, written⟩ := first
      rw [readable, List.map_cons, List.map_cons, written.parse decoded, ih]

theorem readFileOpLog_holds {content : List Line} {held : List FileLogEntryJson}
    (holds : List.Forall₂ (Holds fromStr) content held) (count : Nat) :
    readFileOpLog fromStr (some content) count = held.rtake count := by
  have last : ((readable content).rtake count).map (parseFileOpLine fromStr) = (held.rtake count).map some := by
    rw [map_rtake, holds_parse holds, map_rtake]
  calc readFileOpLog fromStr (some content) count
      = (((readable content).rtake count).map (parseFileOpLine fromStr)).filterMap id := by
        rw [readFileOpLog, tailLines_eq, List.filterMap_map, Function.id_comp]
    _ = held.rtake count := by
        rw [last, List.filterMap_map, Function.id_comp, List.filterMap_some]

theorem getRecentLogs_records {logger : FileLogger DateTime} (fresh : logger.Fresh)
    {logged : List (DateTime × FileLogInfo)} (few : logged.length ≤ 2000) (count : Nat) :
    ((logger.logAll toRfc3339 logged).getRecentLogs count).map (·.into toRfc3339) =
      ((records toRfc3339 logged).rtake count).reverse := by
  have whole : (FileLogger.entries logged).rtake 2000 = FileLogger.entries logged :=
    rtake_of_length_le (by rw [FileLogger.entries_length]; exact few)
  rw [fresh.getRecentLogs, ← rtake_rtake, whole, List.map_reverse, map_rtake, records]

theorem into_injective : Function.Injective into := by
  intro first second same
  cases first
  cases second
  simpa [into] using same

section Request
variable {env : LogEnv} {config : Config} {logger : FileLogger DateTime} {logged : List (DateTime × FileLogInfo)}
  {path : Text} {content : List Line}

theorem reply_current (fresh : logger.Fresh) (few : logged.length ≤ 2000) (count : UInt32) :
    getFileOpLogContent fromStr toRfc3339 env config (logger.logAll toRfc3339 logged) "current".toList count =
      .ok (((records toRfc3339 logged).rtake count.toNat).reverse.map into) := by
  rw [getFileOpLogContent, if_pos rfl, getRecentLogs_records fresh few]

theorem reply_file (named : path ≠ "current".toList) (inside : ensurePathInDir env path config.logging.logDir = .ok ())
    (opened : env.linesOf path = some content) (holds : List.Forall₂ (Holds fromStr) content (records toRfc3339 logged))
    (count : UInt32) :
    getFileOpLogContent fromStr toRfc3339 env config logger path count =
      .ok (((records toRfc3339 logged).rtake count.toNat).map into) := by
  rw [getFileOpLogContent, if_neg named, inside, opened, readFileOpLog_holds holds]
  rfl

end Request

/-- Both replies are the same exactly when the last records read the same backwards. -/
theorem replies_agree_iff (fromStr : Text → Option Value) (toRfc3339 : DateTime → Text) (env : LogEnv) (config : Config)
    {logger : FileLogger DateTime} (fresh : logger.Fresh) {logged : List (DateTime × FileLogInfo)}
    (few : logged.length ≤ 2000) {path : Text} {content : List Line} (named : path ≠ "current".toList)
    (inside : ensurePathInDir env path config.logging.logDir = .ok ()) (opened : env.linesOf path = some content)
    (holds : List.Forall₂ (Holds fromStr) content (records toRfc3339 logged)) (count : UInt32) :
    getFileOpLogContent fromStr toRfc3339 env config (logger.logAll toRfc3339 logged) "current".toList count =
        getFileOpLogContent fromStr toRfc3339 env config (logger.logAll toRfc3339 logged) path count ↔
      List.Palindrome ((records toRfc3339 logged).rtake count.toNat) := by
  rw [reply_current fresh few, reply_file named inside opened holds, Except.ok.injEq,
    into_injective.list_map.eq_iff, List.Palindrome.iff_reverse_eq]

end Replies

section Samples

def lineStart : Text := "\x7b\"timestamp\":\"".toList

def lineEnd : Text := "\",\"fields\":\x7b\"username\":\"ann\",\"client_ip\":\"10.0.0.1\",".toList ++
  "\"operation\":\"UPLOAD\",\"file_path\":\"/a\",\"file_size\":1,\"protocol\":\"FTP\",\"success\":true,".toList ++
  "\"message\":\"文件上传成功\"\x7d\x7d".toList

def uploadLine (time : Text) : Text := lineStart ++ time ++ lineEnd

def uploadFields : Value := .object [
  ("username".toList, .string "ann".toList), ("client_ip".toList, .string "10.0.0.1".toList),
  ("operation".toList, .string "UPLOAD".toList), ("file_path".toList, .string "/a".toList),
  ("file_size".toList, .number "1".toList (some 1)), ("protocol".toList, .string "FTP".toList),
  ("success".toList, .bool true), ("message".toList, .string "文件上传成功".toList)]

def uploadValue (time : Text) : Value :=
  .object [("timestamp".toList, .string time), ("fields".toList, uploadFields)]

def morning : Text := "2026-01-01T10:00:00+00:00".toList

def evening : Text := "2026-01-01T20:00:00+00:00".toList

def decodesUploads (text : Text) : Option Value :=
  if text = uploadLine morning then some (uploadValue morning)
  else if text = uploadLine evening then some (uploadValue evening)
  else none

theorem upload_written (time : Text) : Written (uploadValue time) uploadFields ((annUpload.entry time).into id) where
  timestamp := rfl
  hasFields := rfl
  username := rfl
  clientIp := rfl
  operation := rfl
  filePath := rfl
  fileSize := ⟨_, rfl⟩
  protocol := rfl
  success := rfl
  message := rfl

theorem uploadLine_tight (time : Text) : trim (uploadLine time) = uploadLine time := by
  have first : lineStart.head? = some '\x7b' := by decide +kernel
  have last : lineEnd.getLast? = some '\x7d' := by decide +kernel
  have plain : isWhitespace '\x7b' = false ∧ isWhitespace '\x7d' = false := by decide
  rw [trim_eq_self_iff]
  constructor
  · intro c found
    rw [uploadLine, List.append_assoc, List.head?_append, first, Option.some_or] at found
    exact Option.some.inj found ▸ plain.1
  · intro c found
    rw [uploadLine, List.getLast?_append, last, Option.some_or] at found
    exact Option.some.inj found ▸ plain.2

theorem morning_holds : Holds decodesUploads (.text (uploadLine morning)) ((annUpload.entry morning).into id) := by
  refine ⟨_, uploadValue morning, uploadFields, rfl, ?_, upload_written morning⟩
  rw [uploadLine_tight, decodesUploads, if_pos rfl]

theorem evening_holds : Holds decodesUploads (.text (uploadLine evening)) ((annUpload.entry evening).into id) := by
  have later : uploadLine evening ≠ uploadLine morning := by
    intro same
    have times : evening = morning := List.append_cancel_left (List.append_cancel_right same)
    revert times
    decide +kernel
  refine ⟨_, uploadValue evening, uploadFields, rfl, ?_, upload_written evening⟩
  rw [uploadLine_tight, decodesUploads, if_neg later, if_pos rfl]

def loggingEnv (content : List Line) : LogEnv :=
  ⟨⟨.permissive, FileSystem.empty.addFile "f.log".toList []⟩, fun _ => [], fun _ => some content⟩

def rootLogs : Config := { Config.sample with logging := { Config.sample.logging with logDir := "/".toList } }

theorem loggingEnv_inside (content : List Line) :
    ensurePathInDir (loggingEnv content) "/f.log".toList rootLogs.logging.logDir = .ok () := by rfl

theorem replies_agree_iff_one :
    getFileOpLogContent decodesUploads id (loggingEnv [.text (uploadLine morning)]) rootLogs
        (FileLogger.withLogSender.logAll id [(morning, annUpload)]) "current".toList 500 =
      getFileOpLogContent decodesUploads id (loggingEnv [.text (uploadLine morning)]) rootLogs
        (FileLogger.withLogSender.logAll id [(morning, annUpload)]) "/f.log".toList 500 :=
  (replies_agree_iff decodesUploads id (loggingEnv [.text (uploadLine morning)]) rootLogs (.inr rfl) (by decide)
    (by decide) (loggingEnv_inside _) rfl
    (show List.Forall₂ _ _ (records id [(morning, annUpload)]) from .cons morning_holds .nil) 500).mpr (.singleton _)

theorem uploads_disagree : ¬ ∀ (fromStr : Text → Option Value) (env : LogEnv) (config : Config)
    (logger : FileLogger Text) (logged : List (Text × FileLogInfo)) (path : Text) (content : List Line) (count : UInt32),
    logger.Fresh → logged.length ≤ 2000 → path ≠ "current".toList →
      ensurePathInDir env path config.logging.logDir = .ok () → env.linesOf path = some content →
      List.Forall₂ (Holds fromStr) content (records id logged) →
        getFileOpLogContent fromStr id env config (logger.logAll id logged) "current".toList count =
          getFileOpLogContent fromStr id env config (logger.logAll id logged) path count := by
  intro agree
  have holds : List.Forall₂ (Holds decodesUploads) [.text (uploadLine morning), .text (uploadLine evening)]
      (records id [(morning, annUpload), (evening, annUpload)]) := .cons morning_holds (.cons evening_holds .nil)
  have fresh : (FileLogger.withLogSender : FileLogger Text).Fresh := .inr rfl
  have same := agree decodesUploads (loggingEnv [.text (uploadLine morning), .text (uploadLine evening)]) rootLogs
    .withLogSender [(morning, annUpload), (evening, annUpload)] "/f.log".toList _ 500 fresh (by decide)
    (by decide) (loggingEnv_inside _) rfl holds
  rw [reply_current fresh (by decide), reply_file (by decide) (loggingEnv_inside _) rfl holds] at same
  have times := congrArg (List.map FileOpLogEntry.timestamp) (Except.ok.inj same)
  revert times
  decide +kernel

end Samples

end Logs

end Wftpd.Daemon
