import Wftpd.Library.Runs
import Wftpd.Library.Action
import Wftpd.Posix.Path
import Wftpd.Posix.Lexical
import Wftpd.Sftp.Resolve
import Wftpd.Posix.FileSystem
import Wftpd.Common.SpeedLimiter
import Wftpd.Common.Users
import Wftpd.Daemon.SaveUsers
import Wftpd.Daemon.LoginRace
import Wftpd.Common.Config
import Wftpd.Common.FileLogger
import Wftpd.Ftp.Auth
import Wftpd.Sftp.Handler
import Wftpd.Daemon.AccessLists
import Wftpd.Common.Quota
import Wftpd.Sftp.Session
import Wftpd.Sftp.Protocol
import Wftpd.Sftp.Frame
import Wftpd.Sftp.ReadProtection
import Wftpd.Posix.Contents
import Wftpd.Sftp.Secrecy
import Wftpd.Posix.Effects
import Wftpd.Sftp.Changes
import Wftpd.Sftp.Links
import Wftpd.Posix.Usage
import Wftpd.Sftp.QuotaRuns
import Wftpd.Sftp.QuotaSessions
import Wftpd.Common.UserOperations
import Wftpd.Ftp.Storage
import Wftpd.Posix.Survival
import Wftpd.Sftp.WriteProtection
import Wftpd.Ftp.Changes
import Wftpd.Daemon.HomeSurvival
import Wftpd.Ftp.Rights
import Wftpd.Daemon.FrontEnds
import Wftpd.Daemon.PathAgreement
import Wftpd.Sftp.Connection
import Wftpd.Sftp.Revocation
import Wftpd.Common.ConfigFile
import Wftpd.Daemon.Convergence
import Wftpd.Posix.Replace
import Wftpd.Daemon.ConfigWrites
import Wftpd.Daemon.SaveUsersRace
import Wftpd.Daemon.Services
import Wftpd.Common.LogBuffer
import Wftpd.Daemon.WatchLogs
import Wftpd.Sftp.Audit
import Wftpd.Ftp.Audit
import Wftpd.Gui.Forms
import Wftpd.Gui.Saves
import Wftpd.Common.Tracing
import Wftpd.Common.UsersFile
import Wftpd.Ftp.Resolve
import Wftpd.Sftp.WriteQuota
import Wftpd.Ftp.UploadQuota
import Wftpd.Posix.Segments
import Wftpd.Sftp.Names
import Wftpd.Sftp.Targets
import Wftpd.Library.BigEndian
import Wftpd.Sftp.DigestRequest
import Wftpd.Sftp.DigestRange
import Wftpd.Sftp.Listing
import Wftpd.Sftp.Setstat
import Wftpd.Sftp.OpenFlags
import Wftpd.Common.Digits
import Wftpd.Sftp.HandleTable
import Wftpd.Posix.Routes
import Wftpd.Common.Scan
import Wftpd.Common.ScanOverflow
import Wftpd.Common.AddressTexts
import Wftpd.Common.AccessEntries
import Wftpd.Library.Ring
import Wftpd.Common.FileLogRing
import Wftpd.Common.LoginTracker
import Wftpd.Common.LoginBans
import Wftpd.Common.LoginWindow
import Wftpd.Library.Separated
import Wftpd.Daemon.AuditLog
import Wftpd.Daemon.Logs
import Wftpd.Daemon.LogContents
import Wftpd.Daemon.LogReplies
import Wftpd.Sftp.KeyFiles
import Wftpd.Posix.Confined
import Wftpd.Ftp.Confined
import Wftpd.Sftp.Confined
import Wftpd.Daemon.Server
import Wftpd.Daemon.ReadOnly
import Wftpd.Daemon.Attribution
import Wftpd.Posix.Blocks
import Wftpd.Posix.Agreement
import Wftpd.Sftp.Transfers
import Wftpd.Ftp.Transfers
import Wftpd.Daemon.Transfers
import Wftpd.Daemon.Resume
import Wftpd.Daemon.Lives
import Wftpd.Sftp.HostKey
import Wftpd.Daemon.Rights
