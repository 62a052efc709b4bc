/-!
# Errors of the operating system

Most errors of the operating system are numbers with a fixed wording; some
are noticed before the system is asked and have only a text.
-/

namespace JobShell

/-- The wordings of the error numbers from 0 on; unused numbers are
`Unknown error` with the number. -/
def errorTexts : Array String := #[
  "Success", "Operation not permitted", "No such file or directory",
  "No such process", "Interrupted system call", "Input/output error",
  "No such device or address", "Argument list too long", "Exec format error",
  "Bad file descriptor", "No child processes",
  "Resource temporarily unavailable", "Cannot allocate memory",
  "Permission denied", "Bad address", "Block device required",
  "Device or resource busy", "File exists", "Invalid cross-device link",
  "No such device", "Not a directory", "Is a directory", "Invalid argument",
  "Too many open files in system", "Too many open files",
  "Inappropriate ioctl for device", "Text file busy", "File too large",
  "No space left on device", "Illegal seek", "Read-only file system",
  "Too many links", "Broken pipe", "Numerical argument out of domain",
  "Numerical result out of range", "Resource deadlock avoided",
  "File name too long", "No locks available", "Function not implemented",
  "Directory not empty", "Too many levels of symbolic links",
  "Unknown error 41", "No message of desired type", "Identifier removed",
  "Channel number out of range", "Level 2 not synchronized", "Level 3 halted",
  "Level 3 reset", "Link number out of range", "Protocol driver not attached",
  "No CSI structure available", "Level 2 halted", "Invalid exchange",
  "Invalid request descriptor", "Exchange full", "No anode",
  "Invalid request code", "Invalid slot", "Unknown error 58",
  "Bad font file format", "Device not a stream", "No data available",
  "Timer expired", "Out of streams resources",
  "Machine is not on the network", "Package not installed",
  "Object is remote", "Link has been severed", "Advertise error",
  "Srmount error", "Communication error on send", "Protocol error",
  "Multihop attempted", "RFS specific error", "Bad message",
  "Value too large for defined data type", "Name not unique on network",
  "File descriptor in bad state", "Remote address changed",
  "Can not access a needed shared library",
  "Accessing a corrupted shared library", ".lib section in a.out corrupted",
  "Attempting to link in too many shared libraries",
  "Cannot exec a shared library directly",
  "Invalid or incomplete multibyte or wide character",
  "Interrupted system call should be restarted", "Streams pipe error",
  "Too many users", "Socket operation on non-socket",
  "Destination address required", "Message too long",
  "Protocol wrong type for socket", "Protocol not available",
  "Protocol not supported", "Socket type not supported",
  "Operation not supported", "Protocol family not supported",
  "Address family not supported by protocol", "Address already in use",
  "Cannot assign requested address", "Network is down",
  "Network is unreachable", "Network dropped connection on reset",
  "Software caused connection abort", "Connection reset by peer",
  "No buffer space available", "Transport endpoint is already connected",
  "Transport endpoint is not connected",
  "Cannot send after transport endpoint shutdown",
  "Too many references: cannot splice", "Connection timed out",
  "Connection refused", "Host is down", "No route to host",
  "Operation already in progress", "Operation now in progress",
  "Stale file handle", "Structure needs cleaning",
  "Not a XENIX named type file", "No XENIX semaphores available",
  "Is a named type file", "Remote I/O error", "Disk quota exceeded",
  "No medium found", "Wrong medium type", "Operation canceled",
  "Required key not available", "Key has expired", "Key has been revoked",
  "Key was rejected by service", "Owner died", "State not recoverable",
  "Operation not possible due to RF-kill", "Memory page has hardware error"]

/-- The wording of an error number. -/
def errorText (number : Int) : String :=
  if number < 0 then s!"Unknown error {number}"
  else (errorTexts[number.toNat]?).getD s!"Unknown error {number}"

/-- Why an operation on the system failed. -/
inductive OsError
  | code (number : Int)
  | custom (text : String)
  deriving DecidableEq, Repr

namespace OsError

def notPermitted : OsError := .code 1
def noEntry : OsError := .code 2
def noProcess : OsError := .code 3
def interrupted : OsError := .code 4
def noDevice : OsError := .code 6
def argumentListTooLong : OsError := .code 7
def notExecutable : OsError := .code 8
def badDescriptor : OsError := .code 9
def noChild : OsError := .code 10
def accessDenied : OsError := .code 13
def busy : OsError := .code 16
def fileExists : OsError := .code 17
def notDirectory : OsError := .code 20
def isDirectory : OsError := .code 21
def invalidArgument : OsError := .code 22
def tooManyOpenFiles : OsError := .code 24
def notTerminal : OsError := .code 25
def textBusy : OsError := .code 26
def noSpace : OsError := .code 28
def illegalSeek : OsError := .code 29
def brokenPipe : OsError := .code 32
def notEmpty : OsError := .code 39
def nameTooLong : OsError := .code 36
def tooManyLinks : OsError := .code 40

/-- A path that holds the byte zero is refused before it is looked up. -/
def nulInPath : OsError := .custom "file name contained an unexpected NUL byte"

/-- An argument or an environment entry that holds the byte zero. -/
def nulInData : OsError := .custom "nul byte found in provided data"

/-- A line of input that is no UTF-8. -/
def invalidInput : OsError := .custom "stream did not contain valid UTF-8"

/-- A redirection of a descriptor that cannot be redirected. -/
def unredirectable (fd : Int) : OsError := .custom s!"bad file descriptor {fd}"

/-- The wording of an error. -/
def message : OsError → String
  | code number => s!"{errorText number} (os error {number})"
  | custom text => text

/-- Whether the operation was interrupted by a signal and can be retried. -/
def isInterrupted (e : OsError) : Bool := e = interrupted

end OsError

/-- The result of a system call: a returned `-1` is a failure whose cause is
the error number left behind. -/
def callResult (value errorNumber : Int) : Except OsError Int :=
  if value = -1 then .error (.code errorNumber) else .ok value

end JobShell
