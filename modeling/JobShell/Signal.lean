/-!
# Signals

Signals are numbers. This module knows their names, what they do to a
process that did nothing about them, and which of them a shell ignores to
keep control of its terminal.
-/

namespace JobShell

/-- The number of a signal. -/
abbrev Signal := Int

namespace Signal

def hangup : Signal := 1
def interrupt : Signal := 2
def quit : Signal := 3
def abort : Signal := 6
def arithmetic : Signal := 8
def kill : Signal := 9
def brokenPipe : Signal := 13
def terminate : Signal := 15
def child : Signal := 17
def continue_ : Signal := 18
def stop : Signal := 19
def terminalStop : Signal := 20
def terminalInput : Signal := 21
def terminalOutput : Signal := 22
def processorLimit : Signal := 24

/-- The signals that have a name, without the part they all begin with. -/
def names : List (Signal × String) :=
  [(1, "HUP"), (2, "INT"), (3, "QUIT"), (4, "ILL"), (5, "TRAP"), (6, "ABRT"), (7, "BUS"),
   (8, "FPE"), (9, "KILL"), (10, "USR1"), (11, "SEGV"), (12, "USR2"), (13, "PIPE"),
   (14, "ALRM"), (15, "TERM"), (17, "CHLD"), (18, "CONT"), (19, "STOP"), (20, "TSTP"),
   (21, "TTIN"), (22, "TTOU"), (23, "URG"), (24, "XCPU"), (25, "XFSZ"), (26, "VTALRM"),
   (27, "PROF"), (28, "WINCH"), (29, "IO"), (31, "SYS")]

/-- The signal as messages name it. -/
def render (s : Signal) : String :=
  match names.lookup s with
  | some name => "SIG" ++ name
  | none => s!"unknown signal #{s}"

/-- What happened to a process that the signal ended, in words. -/
def descriptions : List (Signal × String) :=
  [(1, "Hangup"), (2, "Interrupt"), (3, "Quit"), (4, "Illegal instruction"),
   (5, "Trace/breakpoint trap"), (6, "Aborted"), (7, "Bus error"),
   (8, "Floating point exception"), (9, "Killed"), (10, "User defined signal 1"),
   (11, "Segmentation fault"), (12, "User defined signal 2"), (13, "Broken pipe"),
   (14, "Alarm clock"), (15, "Terminated"), (16, "Stack fault"), (17, "Child exited"),
   (18, "Continued"), (19, "Stopped (signal)"), (20, "Stopped"), (21, "Stopped (tty input)"),
   (22, "Stopped (tty output)"), (23, "Urgent I/O condition"), (24, "CPU time limit exceeded"),
   (25, "File size limit exceeded"), (26, "Virtual timer expired"),
   (27, "Profiling timer expired"), (28, "Window changed"), (29, "I/O possible"),
   (30, "Power failure"), (31, "Bad system call")]

/-- The end of a process by the signal, in words. -/
def describe (s : Signal) : String := (descriptions.lookup s).getD s!"Unknown signal {s}"

/-- The signals by which a terminal controls jobs. A shell ignores them so
that it can hand the terminal over and take it back. -/
def jobControl : List Signal := [terminalStop, terminalInput, terminalOutput]

/-- Ignores these signals besides those that are ignored already. -/
def ignoreJobControl (ignored : List Signal) : List Signal :=
  jobControl ++ ignored.filter (· ∉ jobControl)

/-- Gives these signals their usual effect again. -/
def restoreJobControl (ignored : List Signal) : List Signal :=
  ignored.filter (· ∉ jobControl)

/-- What a signal does to a process that neither ignores nor handles it. -/
inductive Effect
  | terminates
  | stops
  | nothing
  deriving DecidableEq, Repr

/-- The effect of a signal that is left at its default. -/
def defaultEffect (s : Signal) : Effect :=
  if s ∈ [17, 18, 23, 28] then .nothing
  else if s ∈ [19, 20, 21, 22] then .stops
  else .terminates

/-- Whether a process can ignore the signal. -/
def isIgnorable (s : Signal) : Bool := s ≠ kill && s ≠ stop

end Signal

end JobShell
