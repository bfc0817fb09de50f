import Linux011.Sched.Timers
import Linux011.Fs.PipeWaits
import Linux011.Fs.PipeCopy
import Linux011.Fs.InodeIdentity
import Linux011.Fs.EntryRemovals
import Linux011.Fs.Elevator
import Linux011.Fs.RequestSlots
import Linux011.Lib.LiveObjects
import Linux011.Chr.ConsoleScroll
import Linux011.Chr.TtyReads
import Linux011.Chr.TtyWrites
import Linux011.Proc.FailedFork
import Linux011.Fs.SuperblockFormat
import Linux011.Proc.HeaderSizes
import Linux011.Proc.ArgumentOverrun
import Linux011.Proc.Scripts
import Linux011.Fs.InodeNumbers
import Linux011.Fs.MountSessions
import Linux011.Fs.NullLinks
import Linux011.Fs.InodeStorage
import Linux011.Fs.ReadAhead
import Linux011.Mm.VerifyArea
import Linux011.Proc.ArgumentAccounts
import Linux011.Proc.UserIds
import Linux011.Proc.Kill
import Linux011.Proc.Pids
import Linux011.Sched.Selection
import Linux011.Chr.SavedCursor
import Linux011.Fs.Access
import Linux011.Fs.Duplicates
import Linux011.Chr.ReadAlarms
import Linux011.Time.Mktime
import Linux011.Print.Vsprintf
import Linux011.Fs.Geometry
import Linux011.Proc.Descriptors
import Linux011.Boot.Bootsect
import Linux011.Fs.BufferLayout
import Linux011.Chr.TtyTable
import Linux011.Fs.FileSessions
