import Wftpd.Library.Ring
import Wftpd.Posix.Path

/-! The ring of recent log entries that the back end keeps in memory. -/

set_option autoImplicit false

namespace Wftpd.Common
open Wftpd.Posix Wftpd.Library

structure LogEntryJson where
  timestamp : Text
  level : Text
  source : Text
  message : Text
  clientIp : Option Text
  username : Option Text
  action : Option Text
  deriving DecidableEq, Repr

/-- The entry on the wire, where an absent text is an empty one. -/
structure LogEntry where
  timestamp : Text
  level : Text
  source : Text
  message : Text
  clientIp : Text
  username : Text
  action : Text
  deriving DecidableEq, Repr

def optToStr (v : Option Text) : Text := v.getD []

def LogEntryJson.into (e : LogEntryJson) : LogEntry where
  timestamp := e.timestamp
  level := e.level
  source := e.source
  message := e.message
  clientIp := optToStr e.clientIp
  username := optToStr e.username
  action := optToStr e.action

structure LogBuffer where
  capacity : Nat
  entries : List LogEntryJson
  deriving DecidableEq, Repr

namespace LogBuffer

def new (capacity : Nat) : LogBuffer := ⟨capacity, []⟩

/-- The section of `push` under the lock. The entry is broadcast after it. -/
def append (buffer : LogBuffer) (entry : LogEntryJson) : LogBuffer :=
  -- nothing is popped from an empty ring, so that one of capacity 0 holds an entry too
  let entries := if buffer.entries.length ≥ buffer.capacity then buffer.entries.tail else buffer.entries
  { buffer with entries := entries ++ [entry] }

def recent (buffer : LogBuffer) (count : Nat) : List LogEntryJson :=
  buffer.entries.drop (buffer.entries.length - count)

def ring (capacity : Nat) (pushed : List LogEntryJson) : LogBuffer := pushed.foldl append (new capacity)

variable (capacity : Nat) (pushed : List LogEntryJson)

theorem ring_append (entry : LogEntryJson) : ring capacity (pushed ++ [entry]) = (ring capacity pushed).append entry := by
  simp [ring]

theorem ring_eq : ring capacity pushed = ⟨capacity, pushed.foldl (pushBounded capacity) []⟩ := by
  induction pushed using List.reverseRecOn with
  | nil => rfl
  | append_singleton pushed entry ih =>
      rw [ring_append, ih, List.foldl_append]
      rfl

@[simp] theorem ring_capacity : (ring capacity pushed).capacity = capacity := by
  rw [ring_eq]

@[simp] theorem recent_zero (buffer : LogBuffer) : buffer.recent 0 = [] := by
  simp [recent]

theorem ring_entries : (ring capacity pushed).entries = pushed.drop (pushed.length - max capacity 1) := by
  rw [ring_eq]
  exact foldl_pushBounded pushed

theorem recent_ring (count : Nat) :
    (ring capacity pushed).recent count = pushed.drop (pushed.length - min count (max capacity 1)) := by
  rw [recent, ring_entries, List.length_drop, List.drop_drop]
  congr 1
  omega

end LogBuffer

end Wftpd.Common
