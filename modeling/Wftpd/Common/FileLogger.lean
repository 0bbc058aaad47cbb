import Wftpd.Posix.Path

/-! The audit records of both front ends. -/

set_option autoImplicit false

namespace Wftpd.Common
open Wftpd.Posix

structure FileLogInfo where
  username : Text
  clientIp : Text
  operation : Text
  filePath : Text
  fileSize : UInt64
  protocol : Text
  success : Bool
  message : Text
  deriving DecidableEq, Repr

/-- The records written so far. A record is dropped while another holds the logger. -/
def logIfFree (free : Bool) (info : FileLogInfo) (log : List FileLogInfo) : List FileLogInfo :=
  if free then log ++ [info] else log

end Wftpd.Common
