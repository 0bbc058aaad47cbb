import Wftpd.Common.FileLogRing
import Wftpd.Library.Separated
import Wftpd.Posix.FileSystem

/-! Reading log files back for the control interface.

Program logs are lines of JSON or of text, the log of file operations is lines of JSON. The JSON
decoder is a parameter.
-/

set_option autoImplicit false

namespace Wftpd.Daemon
open Wftpd.Posix Wftpd.Common Wftpd.Library

/-- `serde_json::Value`. A number has its text, and its value where that is a `u64`. -/
inductive Value where
  | null
  | bool (value : Bool)
  | number (text : Text) (value : Option UInt64)
  | string (value : Text)
  | array (items : List Value)
  | object (members : List (Text × Value))

namespace Value

def get (name : Text) : Value → Option Value
  | object members => members.lookup name
  | _ => none

def asStr : Value → Option Text
  | string value => some value
  | _ => none

def asU64 : Value → Option UInt64
  | number _ value => value
  | _ => none

def asBool : Value → Option Bool
  | bool value => some value
  | _ => none

def isObject : Value → Bool
  | object _ => true
  | _ => false

end Value

structure FileOpLogEntry where
  timestamp : Text
  username : Text
  clientIp : Text
  operation : Text
  filePath : Text
  fileSize : UInt64
  protocol : Text
  success : Bool
  message : Text
  deriving DecidableEq, Repr

namespace Logs

def into (e : FileLogEntryJson) : FileOpLogEntry where
  timestamp := e.timestamp
  username := e.username
  clientIp := e.clientIp
  operation := e.operation
  filePath := e.filePath
  fileSize := e.fileSize
  protocol := e.protocol
  success := e.success
  message := e.message

inductive Line where
  | text (line : Text)
  | invalid
  deriving DecidableEq, Repr

/-- The lines up to the first that is not UTF-8. -/
def readable : List Line → List Text
  | .text line :: rest => line :: readable rest
  | .invalid :: _ | [] => []

/-- One line more in the buffer of `tail_lines`, where twice the count does not wrap. -/
def pushLine (count : Nat) (lines : List Text) (line : Text) : List Text :=
  let lines := lines ++ [line]
  -- the oldest lines go in one piece, when as many more are there as are asked for
  if lines.length > count * 2 then lines.drop (lines.length - count) else lines

/-- `tail_lines` for the counts of requests, which have 32 bits. -/
def tailLines (file : Option (List Line)) (count : Nat) : List Text :=
  match file with
  | none => []
  | some content =>
      let lines := (readable content).foldl (pushLine count) []
      if lines.length > count then lines.drop (lines.length - count) else lines

/-- One line more, in words of 64 bits: twice the count may wrap, and more than there is cannot be
drained. -/
def pushLineWord (count : UInt64) (lines : List Text) (line : Text) : Option (List Text) :=
  let lines := lines ++ [line]
  if lines.length > (count * 2).toNat then
    if count.toNat ≤ lines.length then some (lines.drop (lines.length - count.toNat)) else none
  else some lines

/-- `tail_lines` in words of 64 bits. -/
def tailLinesWord (file : Option (List Line)) (count : UInt64) : Option (List Text) :=
  match file with
  | none => some []
  | some content => do
      let lines ← (readable content).foldlM (pushLineWord count) []
      return if lines.length > count.toNat then lines.drop (lines.length - count.toNat) else lines

section Parse
variable (fromStr : Text → Option Value) (display : Value → Text)

def optToString : Value → Option Text
  | .string s => some s
  | .null => none
  | other => some (display other)

/-- A text at this name of the `fields` of a record. -/
def fieldStr (v : Value) (name : Text) : Option Text :=
  (v.get "fields".toList).bind fun f => (f.get name).bind Value.asStr

/-- The text format: `<time> <LEVEL> <target>: <message>`. -/
def parseTextLine (line : Text) : Option LogEntryJson := do
  let (timestamp, remainder) ← splitOnce [' '] line
  let (level, rest) ← splitOnce [' '] (remainder.dropWhile isWhitespace)
  let rest := rest.dropWhile isWhitespace
  let (source, message) := (splitOnce ": ".toList rest).getD ([], rest)
  return {
    timestamp := timestamp
    level := level
    source := source
    message := message
    clientIp := none
    username := none
    action := none }

def parseProgramLine (line : Text) : Option LogEntryJson :=
  let line := trim line
  if line = [] then none
  -- JSON that is no object is read as text
  else match (fromStr line).filter Value.isObject with
    | some v => some {
        timestamp := (optToString display ((v.get "timestamp".toList).getD .null)).getD []
        level := (optToString display ((v.get "level".toList).getD .null)).getD "INFO".toList
        source := (optToString display ((v.get "target".toList).getD .null)).getD []
        message := (fieldStr v "message".toList).getD []
        clientIp := fieldStr v "client_ip".toList
        username := fieldStr v "username".toList
        action := fieldStr v "action".toList }
    | none => parseTextLine line

def parseFileOpLine (line : Text) : Option FileLogEntryJson := do
  let v ← fromStr (trim line)
  -- every JSON value gives an entry, empty where it holds nothing
  let field (name : Text) : Text := (fieldStr v name).getD []
  return {
    timestamp := ((v.get "timestamp".toList).bind Value.asStr).getD []
    username := field "username".toList
    clientIp := field "client_ip".toList
    operation := field "operation".toList
    filePath := field "file_path".toList
    fileSize := ((v.get "fields".toList).bind fun f => (f.get "file_size".toList).bind Value.asU64).getD 0
    protocol := field "protocol".toList
    success := ((v.get "fields".toList).bind fun f => (f.get "success".toList).bind Value.asBool).getD false
    message := field "message".toList }

def readProgramLog (file : Option (List Line)) (count : Nat) : List LogEntryJson :=
  (tailLines file count).filterMap (parseProgramLine fromStr display)

def readFileOpLog (file : Option (List Line)) (count : Nat) : List FileLogEntryJson :=
  (tailLines file count).filterMap (parseFileOpLine fromStr)

end Parse

/-- The buffer holds the end of what was read, as much as is asked for and not much more. -/
structure Buffered (count : Nat) (read buffer : List Text) : Prop where
  recent : buffer <:+ read
  enough : min count read.length ≤ buffer.length
  bounded : buffer.length ≤ count * 2

theorem Buffered.push {count : Nat} {read buffer : List Text} (buffered : Buffered count read buffer) (line : Text) :
    Buffered count (read ++ [line]) (pushLine count buffer line) := by
  have enough := buffered.enough
  have bounded := buffered.bounded
  have recent : buffer ++ [line] <:+ read ++ [line] := by
    obtain ⟨before, same⟩ := buffered.recent
    exact ⟨before, by rw [← List.append_assoc, same]⟩
  unfold pushLine
  simp only [List.length_append, List.length_singleton]
  split
  · next full =>
      refine ⟨(List.drop_suffix _ _).trans recent, ?_, ?_⟩
      · simp only [List.length_drop, List.length_append, List.length_singleton]
        omega
      · simp only [List.length_drop, List.length_append, List.length_singleton]
        omega
  · next room =>
      refine ⟨recent, ?_, ?_⟩
      · simp only [List.length_append, List.length_singleton]
        omega
      · simp only [List.length_append, List.length_singleton]
        omega

theorem buffered_foldl (count : Nat) (lines : List Text) : Buffered count lines (lines.foldl (pushLine count) []) := by
  induction lines using List.reverseRecOn with
  | nil => exact ⟨List.suffix_rfl, by simp, Nat.zero_le _⟩
  | append_singleton lines line ih =>
      rw [List.foldl_append]
      exact ih.push line

theorem tailLines_eq (content : List Line) (count : Nat) :
    tailLines (some content) count = (readable content).rtake count := by
  have buffered := buffered_foldl count (readable content)
  have enough := buffered.enough
  have length := buffered.recent.length_le
  refine Keeps.eq_rtake ?_
  unfold tailLines
  simp only
  split
  · next full =>
      refine ⟨(List.drop_suffix _ _).trans buffered.recent, ?_⟩
      rw [List.length_drop]
      omega
  · next short =>
      refine ⟨buffered.recent, ?_⟩
      omega

section Reading
variable {count : Nat}

/-- What the buffer holds while lines are read: with each line put in, and with the oldest ones
gone. -/
def buffers (count : Nat) (buffer : List Text) : List Text → List (List Text)
  | [] => [buffer]
  | line :: rest => buffer :: (buffer ++ [line]) :: buffers count (pushLine count buffer line) rest

/-- The last of them is what the reading leaves. -/
theorem getLast_buffers (buffer lines : List Text) :
    (buffers count buffer lines).getLast? = some (lines.foldl (pushLine count) buffer) := by
  induction lines generalizing buffer with
  | nil => rfl
  | cons line rest ih =>
      rw [List.foldl_cons, ← ih, buffers, List.getLast?_cons_cons]
      -- one more at the front of a list that is not empty
      cases rest <;> rfl

theorem Buffered.buffers {read buffer lines held : List Text} (buffered : Buffered count read buffer)
    (member : held ∈ buffers count buffer lines) : held.length ≤ 2 * count + 1 := by
  have bounded := buffered.bounded
  induction lines generalizing read buffer with
  | nil =>
      rw [List.mem_singleton.mp member]
      omega
  | cons line rest ih =>
      rcases List.mem_cons.mp member with rfl | member
      · omega
      rcases List.mem_cons.mp member with rfl | later
      · rw [List.length_append, List.length_singleton]
        omega
      · exact ih (buffered.push line) later (buffered.push line).bounded

theorem readable_text (lines : List Text) : readable (lines.map .text) = lines := by
  induction lines with
  | nil => rfl
  | cons line rest ih => rw [List.map_cons, readable, ih]

theorem tailLines_last (lines : List Text) (count : Nat) :
    tailLines (some (lines.map .text)) count = lines.rtake (min count lines.length) ∧
      ∀ buffer ∈ buffers count [] lines, buffer.length ≤ 2 * count + 1 := by
  constructor
  · rw [tailLines_eq, readable_text, rtake_min_length]
  · intro buffer member
    exact (buffered_foldl count []).buffers member

/-- In words: nothing more is held after a drain that panics. -/
def buffersWord (count : UInt64) (buffer : List Text) : List Text → List (List Text)
  | [] => [buffer]
  | line :: rest =>
      buffer :: (buffer ++ [line]) ::
        match pushLineWord count buffer line with
        | some next => buffersWord count next rest
        | none => []

end Reading

section Words
variable {count : UInt64}

theorem pushLineWord_eq (fits : count.toNat * 2 < 2 ^ 64) (lines : List Text) (line : Text) :
    pushLineWord count lines line = some (pushLine count.toNat lines line) := by
  have twice : (count * 2).toNat = count.toNat * 2 := by
    rw [UInt64.toNat_mul]
    exact Nat.mod_eq_of_lt fits
  simp only [pushLineWord, pushLine, twice]
  split
  · next full => rw [if_pos (by omega)]
  · rfl

/-- A count that can be doubled, as every one of 32 bits can, makes no difference. -/
theorem tailLinesWord_eq (fits : count.toNat * 2 < 2 ^ 64) (file : Option (List Line)) :
    tailLinesWord file count = some (tailLines file count.toNat) := by
  cases file with
  | none => rfl
  | some content =>
      have folded (lines buffer : List Text) :
          lines.foldlM (pushLineWord count) buffer = some (lines.foldl (pushLine count.toNat) buffer) := by
        induction lines generalizing buffer with
        | nil => rfl
        | cons line rest ih =>
            rw [List.foldlM_cons, pushLineWord_eq fits, List.foldl_cons, ← ih]
            rfl
      simp only [tailLinesWord, folded]
      rfl

theorem buffersWord_eq (fits : count.toNat * 2 < 2 ^ 64) (buffer lines : List Text) :
    buffersWord count buffer lines = buffers count.toNat buffer lines := by
  induction lines generalizing buffer with
  | nil => rfl
  | cons line rest ih =>
      rw [buffersWord, pushLineWord_eq fits]
      simp only
      rw [ih, buffers]

theorem fits_request (count : UInt32) : count.toUInt64.toNat * 2 < 2 ^ 64 := by
  have small := count.toNat_lt
  rw [count.toNat_toUInt64]
  omega

theorem tailLinesWord_request (count : UInt32) (file : Option (List Line)) :
    tailLinesWord file count.toUInt64 = some (tailLines file count.toNat) := by
  rw [tailLinesWord_eq (fits_request count), count.toNat_toUInt64]

/-- Of a file of text the last lines are returned, and not many more are ever held, for the count of every
request. -/
theorem tailLines_exact (lines : List Text) (count : UInt32) :
    tailLinesWord (some (lines.map .text)) count.toUInt64 = some (lines.rtake (min count.toNat lines.length)) ∧
      ∀ buffer ∈ buffersWord count.toUInt64 [] lines, buffer.length ≤ 2 * count.toNat + 1 := by
  obtain ⟨returned, held⟩ := tailLines_last lines count.toNat
  constructor
  · rw [tailLinesWord_request, returned]
  · rw [buffersWord_eq (fits_request count), count.toNat_toUInt64]
    exact held

end Words

end Logs

end Wftpd.Daemon
