import Wftpd.Library.Separated
import Wftpd.Posix.Path

/-! The audit file of the control interface.

Each request appends a line. Its fields are written as they are, with a separator between them.
-/

set_option autoImplicit false

namespace Wftpd.Daemon
open Wftpd.Posix Wftpd.Library

structure WriteAuditLogRequest where
  user : Text
  action : Text
  target : Text
  details : Text
  deriving DecidableEq, Repr

/-- A time as RFC 3339 writes it, in which there are neither blanks nor line ends. -/
structure Rfc3339 where
  text : Text
  unbroken : ' ' ∉ text ∧ '\n' ∉ text
  deriving DecidableEq

namespace AuditLog

def separator : Text := " | ".toList

/-- `write_audit_log` on a file that can be appended to: the file after it and the message of the reply. -/
def writeAuditLog (timestamp : Rfc3339) (req : WriteAuditLogRequest) (file : Text) : Text × Text :=
  let line := timestamp.text ++ " | ".toList ++ req.user ++ " | ".toList ++ req.action ++ " | ".toList ++ req.target ++
    " | ".toList ++ req.details ++ "\n".toList
  (file ++ line, "审计日志已写入".toList)

def writeAll (file : Text) (written : List (Rfc3339 × WriteAuditLogRequest)) : Text :=
  written.foldl (fun file entry => (writeAuditLog entry.1 entry.2 file).1) file

def fields (entry : Rfc3339 × WriteAuditLogRequest) : List Text :=
  [entry.1.text, entry.2.user, entry.2.action, entry.2.target, entry.2.details]

/-- What is read in a text: the fields of each line that is ended. -/
def records (text : Text) : List (List Text) := (split ['\n'] text).dropLast.map (split separator)

def ReadsBack (file : Text) (written : List (Rfc3339 × WriteAuditLogRequest)) : Prop :=
  ∃ text, writeAll file written = file ++ text ∧ records text = written.map fields

/-- No field ends a line or holds a separator, and none but the last ends in the beginning of one. -/
structure Plain (req : WriteAuditLogRequest) : Prop where
  fields : ∀ part ∈ [req.user, req.action, req.target, req.details], '\n' ∉ part ∧ ¬ separator <:+: part
  ends : ∀ part ∈ [req.user, req.action, req.target], ¬ " |".toList <:+ part

def body (entry : Rfc3339 × WriteAuditLogRequest) : Text :=
  [entry.1.text, entry.2.user, entry.2.action, entry.2.target].flatMap (fun part => part ++ separator) ++ entry.2.details

theorem writeAuditLog_fst (entry : Rfc3339 × WriteAuditLogRequest) (file : Text) :
    (writeAuditLog entry.1 entry.2 file).1 = file ++ (body entry ++ ['\n']) := by
  simp [writeAuditLog, body, separator]

theorem writeAll_eq (file : Text) (written : List (Rfc3339 × WriteAuditLogRequest)) :
    writeAll file written = file ++ (written.map body).flatMap fun line => line ++ ['\n'] := by
  induction written generalizing file with
  | nil => simp [writeAll]
  | cons entry rest ih =>
      have first : writeAll file (entry :: rest) = writeAll (file ++ (body entry ++ ['\n'])) rest := by
        rw [← writeAuditLog_fst]
        rfl
      rw [first, ih, List.map_cons, List.flatMap_cons, List.append_assoc]

theorem unseparated_newline {line : Text} : Unseparated ['\n'] line ↔ '\n' ∉ line := by
  rw [Unseparated, List.dropLast_singleton, List.append_nil, List.singleton_infix_iff]

theorem unseparated_iff {part : Text} : Unseparated separator part ↔ ¬ separator <:+: part ∧ ¬ " |".toList <:+ part := by
  rw [Unseparated, ← not_or]
  refine not_congr ⟨?_, ?_⟩
  · rintro ⟨before, behind, same⟩
    rw [show separator.dropLast = [' ', '|'] from rfl] at same
    induction behind using List.reverseRecOn with
    | nil =>
        -- a separator does not end like its beginning
        have last := congrArg List.getLast? same
        simp [separator, List.getLast?_append] at last
    | append_singleton behind last _ =>
        have shorter : before ++ separator ++ behind = part ++ [' '] := by
          have dropped := congrArg List.dropLast same
          simpa [List.dropLast_append_of_ne_nil] using dropped
        induction behind using List.reverseRecOn with
        | nil =>
            right
            have dropped := congrArg List.dropLast shorter
            refine ⟨before, ?_⟩
            simpa [separator, List.dropLast_append_of_ne_nil] using dropped
        | append_singleton behind last _ =>
            left
            have dropped := congrArg List.dropLast shorter
            refine ⟨before, behind, ?_⟩
            simpa [List.dropLast_append_of_ne_nil] using dropped
  · rintro (inside | ⟨before, rfl⟩)
    · exact inside.trans (List.prefix_append part _).isInfix
    · exact ⟨before, ['|'], by simp [separator]⟩

theorem timestamp_unseparated (timestamp : Rfc3339) : Unseparated separator timestamp.text := by
  refine unseparated_iff.mpr ⟨fun inside => ?_, fun ends => ?_⟩
  · exact timestamp.unbroken.1 (inside.subset (by decide))
  · exact timestamp.unbroken.1 (ends.subset (by decide))

theorem split_body_iff {entry : Rfc3339 × WriteAuditLogRequest} : split separator (body entry) = fields entry ↔
    (∀ part ∈ [entry.1.text, entry.2.user, entry.2.action, entry.2.target], Unseparated separator part) ∧
      ¬ separator <:+: entry.2.details :=
  split_joined_iff (by decide) _ _

theorem newline_body {entry : Rfc3339 × WriteAuditLogRequest} :
    '\n' ∉ body entry ↔ ∀ part ∈ fields entry, '\n' ∉ part := by
  have none : '\n' ∉ separator := by decide
  simp [body, fields, none]

theorem plain_iff {entry : Rfc3339 × WriteAuditLogRequest} :
    Plain entry.2 ↔ '\n' ∉ body entry ∧ split separator (body entry) = fields entry := by
  have timestamp := timestamp_unseparated entry.1
  have unbroken := entry.1.unbroken.2
  rw [newline_body, split_body_iff]
  constructor
  · intro plain
    have parts := plain.fields
    have ends := plain.ends
    simp only [fields, List.forall_mem_cons, unseparated_iff] at parts ends timestamp ⊢
    tauto
  · rintro ⟨whole, parts, last⟩
    simp only [fields, List.forall_mem_cons, unseparated_iff] at whole parts
    constructor
    · simp only [List.forall_mem_cons]
      tauto
    · simp only [List.forall_mem_cons]
      tauto

theorem lines_eq {written : List (Rfc3339 × WriteAuditLogRequest)} (unbroken : ∀ entry ∈ written, '\n' ∉ body entry) :
    (split ['\n'] ((written.map body).flatMap fun line => line ++ ['\n'])).dropLast = written.map body := by
  have each : ∀ line ∈ written.map body, Unseparated ['\n'] line := by
    intro line member
    obtain ⟨entry, written, rfl⟩ := List.mem_map.mp member
    exact unseparated_newline.mpr (unbroken entry written)
  have splits := (split_joined_iff (by decide) (written.map body) []).mpr ⟨each, not_infix_nil (by decide)⟩
  rw [List.append_nil] at splits
  rw [splits, List.dropLast_concat]

/-- What is appended is read as the requests it was written for exactly when they are plain. -/
theorem reads_back_iff (file : Text) (written : List (Rfc3339 × WriteAuditLogRequest)) :
    ReadsBack file written ↔ ∀ entry ∈ written, Plain entry.2 := by
  have appended : ReadsBack file written ↔
      records ((written.map body).flatMap fun line => line ++ ['\n']) = written.map fields := by
    constructor
    · rintro ⟨text, same, read⟩
      rw [writeAll_eq] at same
      rwa [List.append_cancel_left same]
    · exact fun read => ⟨_, writeAll_eq file written, read⟩
  rw [appended]
  constructor
  · intro read
    have unbroken : ∀ entry ∈ written, '\n' ∉ body entry := by
      intro entry member
      refine newline_body.mpr fun part inside broken => ?_
      have row : fields entry ∈ written.map fields := List.mem_map_of_mem member
      rw [← read] at row
      obtain ⟨line, isLine, splits⟩ := List.mem_map.mp row
      have whole := (split_parts (by decide) (List.dropLast_subset _ isLine)).1
      rw [← splits] at inside
      exact whole ((List.singleton_infix_iff _ _).mpr ((split_parts (by decide) inside).2.subset broken))
    rw [records, lines_eq unbroken, List.map_map] at read
    intro entry member
    exact plain_iff.mpr ⟨unbroken entry member, List.map_inj_left.mp read entry member⟩
  · intro plain
    rw [records, lines_eq fun entry member => (plain_iff.mp (plain entry member)).1, List.map_map]
    exact List.map_inj_left.mpr fun entry member => (plain_iff.mp (plain entry member)).2

theorem writeAll_injective {file : Text} {written other : List (Rfc3339 × WriteAuditLogRequest)}
    (plain : ∀ entry ∈ written, Plain entry.2) (otherPlain : ∀ entry ∈ other, Plain entry.2)
    (same : writeAll file written = writeAll file other) : written = other := by
  obtain ⟨text, appended, read⟩ := (reads_back_iff file written).mpr plain
  obtain ⟨otherText, otherAppended, otherRead⟩ := (reads_back_iff file other).mpr otherPlain
  have sameText : text = otherText := by
    rw [appended, otherAppended] at same
    exact List.append_cancel_left same
  rw [← sameText, read] at otherRead
  refine List.map_injective_iff.mpr ?_ otherRead
  rintro ⟨⟨timestamp, _⟩, ⟨user, action, target, details⟩⟩ ⟨⟨otherTimestamp, _⟩, ⟨otherUser, otherAction, _, _⟩⟩ fields
  cases fields
  rfl

section Forged

def morning : Rfc3339 := ⟨"2026-09-08T10:00:00+08:00".toList, by decide⟩

def createUser : WriteAuditLogRequest := ⟨"ann".toList, "create_user".toList, "bob".toList, "ok".toList⟩

def deleteUser : WriteAuditLogRequest := ⟨"root".toList, "delete_user".toList, "eve".toList, "ok".toList⟩

/-- Details that go on as the line of another request. -/
def forging : WriteAuditLogRequest :=
  { createUser with details := "ok\n2026-09-08T10:00:00+08:00 | root | delete_user | eve | ok".toList }

theorem audit_forged : ¬ ∀ (file : Text) (written : List (Rfc3339 × WriteAuditLogRequest)), ReadsBack file written := by
  intro faithful
  obtain ⟨text, appended, read⟩ := faithful [] [(morning, forging)]
  obtain ⟨otherText, otherAppended, otherRead⟩ := faithful [] [(morning, createUser), (morning, deleteUser)]
  have forged : writeAll [] [(morning, forging)] = writeAll [] [(morning, createUser), (morning, deleteUser)] := by
    decide +kernel
  rw [appended, otherAppended, List.nil_append, List.nil_append] at forged
  rw [forged, otherRead] at read
  exact absurd (congrArg List.length read) (by decide)

end Forged

end AuditLog

end Wftpd.Daemon
