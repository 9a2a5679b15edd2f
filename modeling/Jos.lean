import Jos.Kern.Cputs
import Jos.Kern.BigLock
import Jos.Kern.Unprivileged
import Jos.Fs.Access
import Jos.Lib.Pipe
import Jos.Lib.PipeClosed
import Jos.Fs.FormatImage
import Jos.Kern.RoundRobin
import Jos.Kern.PageInsert
import Jos.Kern.EnvFree
import Jos.Fs.Truncate
import Jos.Lib.File
import Jos.Lib.Upcall
import Jos.User.Shell
import Jos.Fs.Request
import Jos.Lib.Fd
import Jos.Lib.SpawnRun
import Jos.Fs.Flushed
import Jos.Kern.FreePages
import Jos.Lib.Numbers
import Jos.Lib.Sprintf
import Jos.Lib.Memmove
import Jos.Lib.FormatScan
import Jos.Kern.Console
import Jos.Lib.Args
import Jos.Lib.Cow
import Jos.Kern.Blocking
import Jos.Kern.FailedCalls
import Jos.Kern.Isolation
