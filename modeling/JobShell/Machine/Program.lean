import JobShell.Environment
import JobShell.Machine.Slots
import JobShell.Machine.Tree
import JobShell.Status

/-!
# Programs

A program is what a process still has to do: end, or make a call to the
machine and go on with the reply, or split off another process. Programs are
finite in every run; nothing is said about how they compute between calls.

`Action` is the monad in which programs are written. An action that ends the
process never hands over a value.
-/

namespace JobShell.Machine

/-- The number of a process. -/
abbrev Pid := Nat

/-- What a file turns out to be. -/
inductive FileKind
  | regular
  | directory
  | link
  | device
  | pipe
  deriving DecidableEq, Repr

/-- What can be asked about a file. -/
structure Facts where
  kind : FileKind
  size : Nat
  executable : Bool
  /-- Equal for two files only if they are the same. -/
  identity : Nat
  /-- Whether every write goes to the end. This is known of open files only. -/
  appends : Bool := false
  deriving DecidableEq, Repr

/-- What a process does about a signal. -/
inductive Disposition
  | usual
  | ignored
  | caught
  deriving DecidableEq, Repr

/-- What a process can ask of the machine. -/
inductive Call
  | openFile (path : Bytes) (mode : OpenMode)
  | close (fd : Fd)
  | read (fd : Fd) (count : Nat)
  | write (fd : Fd) (data : Bytes)
  /-- Moves the offset of an open file by `by_` bytes. -/
  | seek (fd : Fd) (by_ : Int)
  | duplicate (fd least : Fd) (closeOnExec : Bool)
  | duplicateOnto (fd target : Fd)
  | makePipe
  | isTerminal (fd : Fd)
  | facts (path : Bytes) (follow : Bool)
  | factsOf (fd : Fd)
  | names (path : Bytes)
  | linkTarget (path : Bytes)
  | enterDirectory (path : Bytes)
  | currentDirectory
  | makeDirectory (path : Bytes)
  | removeDirectory (path : Bytes)
  | remove (path : Bytes)
  | rename (source target : Bytes)
  | makeLink (target path : Bytes)
  /-- Gives a file a second name. -/
  | share (source path : Bytes) (follow : Bool)
  | setExecutable (path : Bytes) (executable : Bool)
  | execute (path : Bytes) (arguments : List Bytes) (environment : Environment)
  /-- Waits for one child, or for any, to end; without `block` only if one
  has. -/
  | wait (pid : Option Pid) (block : Bool := true)
  /-- Sends a signal to a process, or to a group if the target is negative. -/
  | send (target : Int) (signal : Signal)
  | handle (signal : Signal) (disposition : Disposition)
  /-- Takes up the signals that were caught. -/
  | takeCaught
  | ownNumbers
  /-- Begins a process group. -/
  | leadGroup
  | sleep (microseconds : Nat)
  | time

/-- What the machine answers. -/
inductive Reply
  | done
  | failed (cause : OsError)
  | number (n : Int)
  | two (first second : Int)
  | data (bytes : Bytes)
  | names (names : List Bytes)
  | facts (facts : Facts)
  | ended (pid : Pid) (status : WaitStatus)
  | signals (signals : List Signal)

/-- What a process still has to do. -/
inductive Program
  | exit (status : Nat)
  | call (call : Call) (next : Reply → Program)
  /-- Splits off a process that does `child`; `next` gets its number. -/
  | fork (child : Program) (next : Pid → Program)

/-- A part of a program that hands over a value. -/
def Action (α : Type) : Type := (α → Program) → Program

namespace Action

instance : Monad Action where
  pure a := fun next => next a
  bind m f := fun next => m fun a => f a next

/-- Makes a call. -/
def call (c : Call) : Action Reply := fun next => .call c next

/-- Ends the process. -/
def exit (status : Nat) : Action α := fun _ => .exit status

/-- Splits off a process; the value is its number. -/
def fork (child : Action Unit) : Action Pid := fun next => .fork (child fun _ => .exit 0) next

/-- The program that does an action and then ends with status zero. -/
def program (a : Action Unit) : Program := a fun _ => .exit 0

/-! ## Calls with their replies -/

/-- Why a call failed that was answered with `r` instead of what it asks. -/
def causeOf : Reply → OsError
  | .failed cause => cause
  | _ => .invalidArgument

/-- A call that only succeeds or fails. -/
def ask (c : Call) : Action (Except OsError Unit) := do
  match ← call c with
  | .done => return .ok ()
  | r => return .error (causeOf r)

/-- A call that is answered with a number. -/
def askNumber (c : Call) : Action (Except OsError Int) := do
  match ← call c with
  | .number n => return .ok n
  | r => return .error (causeOf r)

/-- A call that is answered with bytes. -/
def askData (c : Call) : Action (Except OsError Bytes) := do
  match ← call c with
  | .data bytes => return .ok bytes
  | r => return .error (causeOf r)

def openFile (path : Bytes) (mode : OpenMode) : Action (Except OsError Fd) :=
  askNumber (.openFile path mode)

def close (fd : Fd) : Action Unit := do
  let _ ← call (.close fd)

def read (fd : Fd) (count : Nat) : Action (Except OsError Bytes) := askData (.read fd count)

def facts (path : Bytes) (follow : Bool := true) : Action (Except OsError Facts) := do
  match ← call (.facts path follow) with
  | .facts facts => return .ok facts
  | r => return .error (causeOf r)

def factsOf (fd : Fd) : Action (Except OsError Facts) := do
  match ← call (.factsOf fd) with
  | .facts facts => return .ok facts
  | r => return .error (causeOf r)

def names (path : Bytes) : Action (Except OsError (List Bytes)) := do
  match ← call (.names path) with
  | .names names => return .ok names
  | r => return .error (causeOf r)

/-- The read end and the write end of a new pipe. -/
def makePipe : Action (Except OsError (Fd × Fd)) := do
  match ← call .makePipe with
  | .two reader writer => return .ok (reader, writer)
  | r => return .error (causeOf r)

/-- Waits for a child to end. -/
def wait (pid : Option Pid) : Action (Except OsError (Pid × WaitStatus)) := do
  match ← call (.wait pid) with
  | .ended pid status => return .ok (pid, status)
  | r => return .error (causeOf r)

/-- How a child ended, if it has. -/
def endingOf (pid : Pid) : Action (Option WaitStatus) := do
  match ← call (.wait (some pid) false) with
  | .ended _ status => return some status
  | _ => return none

def takeCaught : Action (List Signal) := do
  match ← call .takeCaught with
  | .signals signals => return signals
  | _ => return []

/-- The number of the process and that of its parent. -/
def ownNumbers : Action (Pid × Pid) := do
  match ← call .ownNumbers with
  | .two own parent => return (own.toNat, parent.toNat)
  | _ => return (0, 0)

def isTerminal (fd : Fd) : Action Bool := do
  match ← call (.isTerminal fd) with
  | .done => return true
  | _ => return false

/-- How many bytes are asked for at a time. -/
def blockSize : Nat := 65536

/-- How often a program repeats a step whose repetition the input decides. -/
def manyTimes : Nat := 1000000000

/-- Writes all of `data`, in as many calls as it takes. -/
def writeAll (fd : Fd) (data : Bytes) : Action (Except OsError Unit) :=
  go data.length data
where
  /-- Every call takes at least one byte, or fails. -/
  go : Nat → Bytes → Action (Except OsError Unit)
    | _, [] => return .ok ()
    | 0, _ :: _ => return .ok ()
    | calls + 1, data => do
      match ← askNumber (.write fd data) with
      | .ok n => go calls (data.drop n.toNat)
      | .error e => if e.isInterrupted then go calls data else return .error e

/-- Hands over what can be read from `fd` block by block, together with a
state, until the end or until `step` says that it has enough. -/
def foldBlocks (fd : Fd) (step : σ → Bytes → Action (σ × Bool)) (start : σ) :
    Action (Except OsError σ) :=
  go manyTimes start
where
  go : Nat → σ → Action (Except OsError σ)
    | 0, s => return .ok s
    | blocks + 1, s => do
      match ← read fd blockSize with
      | .error e => if e.isInterrupted then go blocks s else return .error e
      | .ok [] => return .ok s
      | .ok block => do
        let (s, more) ← step s block
        if more then go blocks s else return .ok s

/-- Everything that can be read from `fd`. -/
def readAll (fd : Fd) : Action (Except OsError Bytes) := do
  match ← foldBlocks fd (fun blocks block => return (block :: blocks, true)) [] with
  | .ok blocks => return .ok blocks.reverse.flatten
  | .error e => return .error e

/-- The next bytes that can be read from `fd`, at most `count`; none at the
end or if they can not be read. -/
def readSome (fd : Fd) (count : Nat) : Action Bytes :=
  go manyTimes
where
  go : Nat → Action Bytes
    | 0 => return []
    | times + 1 => do
      match ← read fd count with
      | .error e => if e.isInterrupted then go times else return []
      | .ok block => return block

end Action

end JobShell.Machine
