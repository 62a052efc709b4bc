import JobShell.Machine.World

/-!
# Files that describe processes

Below `/proc` every process has files that tell its group, its signals and
its descriptors. They are nodes that are made up whenever a path is followed
by some process: `World.seenBy` is the tree with those nodes in it.
-/

namespace JobShell.Machine

/-- What is found below `/proc`. -/
inductive InfoEntry
  | top
  /-- A link to the directory of whoever looks. -/
  | self
  | directory (pid : Pid)
  | command (pid : Pid)
  | descriptors (pid : Pid)
  | stat (pid : Pid)
  | status (pid : Pid)
  | workingDirectory (pid : Pid)
  | descriptor (pid : Pid) (fd : Nat)
  deriving DecidableEq, Repr

namespace InfoEntry

/-- The numbers of one process's nodes lie this far from those of the next. -/
def span : Nat := 4096

/-- The number of the first descriptor's node, counted from that of the
process. -/
def firstDescriptor : Nat := 16

/-- The number of a node. -/
def toNode : InfoEntry → NodeId
  | top => Tree.firstMadeUp
  | self => Tree.firstMadeUp + 1
  | directory pid => Tree.firstMadeUp + pid * span
  | command pid => Tree.firstMadeUp + pid * span + 1
  | descriptors pid => Tree.firstMadeUp + pid * span + 2
  | stat pid => Tree.firstMadeUp + pid * span + 3
  | status pid => Tree.firstMadeUp + pid * span + 4
  | workingDirectory pid => Tree.firstMadeUp + pid * span + 5
  | descriptor pid fd => Tree.firstMadeUp + pid * span + firstDescriptor + fd

/-- What the number of a made-up node stands for. -/
def ofNode (id : NodeId) : InfoEntry :=
  let place := (id - Tree.firstMadeUp) % span
  match (id - Tree.firstMadeUp) / span with
  | 0 => if place = 1 then self else top
  | pid =>
    match place with
    | 0 => directory pid
    | 1 => command pid
    | 2 => descriptors pid
    | 3 => stat pid
    | 4 => status pid
    | 5 => workingDirectory pid
    | _ => descriptor pid (place - firstDescriptor)

end InfoEntry

/-- What can be told about a process. -/
structure ProcessView where
  pid : Pid
  parent : Pid
  group : Pid
  name : String
  state : String
  slots : Slots
  ignored : List Signal
  caught : List Signal

namespace ProcessView

/-- Sixteen digits in which bit `n - 1` stands for signal `n`. -/
def signalMask (signals : List Signal) : String :=
  let mask := (signals.eraseDups.map fun s => 2 ^ (s.toNat - 1)).sum
  let digits := String.ofList (Nat.toDigits 16 mask)
  "".pushn '0' (16 - digits.length) ++ digits

/-- The numbers of a process on one line. Of interest are the fifth, its
group, and the eighth, the group that has the terminal. -/
def stat (v : ProcessView) (session : Pid) (foreground : Option Pid) : String :=
  let terminal := match foreground with
    | some group => ["34816", toString group]
    | none => ["0", "-1"]
  let letter := String.ofList (v.state.toList.take 1)
  let fields := [toString v.pid, "(" ++ v.name ++ ")", letter, toString v.parent,
    toString v.group, toString session] ++ terminal ++ ["4194304"] ++ List.replicate 43 "0"
  " ".intercalate fields ++ "\n"

/-- The named facts about a process, one on each line. -/
def status (v : ProcessView) : String :=
  let lines := ["Name:\t" ++ v.name, "Umask:\t0022", "State:\t" ++ v.state,
    "Tgid:\t" ++ toString v.pid, "Pid:\t" ++ toString v.pid, "PPid:\t" ++ toString v.parent,
    "TracerPid:\t0", "Uid:\t0\t0\t0\t0", "Gid:\t0\t0\t0\t0", "FDSize:\t64", "Threads:\t1",
    "SigPnd:\t" ++ signalMask [], "ShdPnd:\t" ++ signalMask [], "SigBlk:\t" ++ signalMask [],
    "SigIgn:\t" ++ signalMask v.ignored, "SigCgt:\t" ++ signalMask v.caught]
  String.join (lines.map (· ++ "\n"))

end ProcessView

namespace World

/-- What can be told about the process `pid`, which may be the shell. -/
def view? (w : World) (outside : Outside) (pid : Pid) : Option ProcessView :=
  if pid = outside.pid then
    some { pid, parent := adopter, group := outside.group, name := "jobsh", state := "S (sleeping)",
           slots := outside.slots, ignored := outside.ignored, caught := [] }
  else
    (w.process? pid).map fun p =>
      let state := match p.activity with
        | .running .. => "R (running)"
        | .stopped .. => "T (stopped)"
        | .ended _ => "Z (zombie)"
      { pid, parent := p.parent, group := p.group, name := p.name.lossy, state,
        slots := p.slots, ignored := p.ignored, caught := p.caught }

/-- The node of an open file: that of the tree, if it is one of the tree. -/
def fileNode? (w : World) (file : FileId) : Option Node :=
  ((w.file? file).map OpenFile.endpoint).map fun
    | .node id => .alias id
    | _ => .opened file

/-- A directory of entries. -/
def infoDirectory (parent : NodeId) (entries : List (String × InfoEntry)) : Node :=
  .directory parent
    (entries.foldl (fun names (name, entry) => names.insert (.ofString name) entry.toNode) ∅)

/-- The directory that a process is in; that of whoever looks is given. -/
def directoryOf? (w : World) (self : Pid) (here : NodeId) (pid : Pid) : Option NodeId :=
  if pid = self then some here else (w.process? pid).map (·.directory)

/-- The node made up for an entry, as the process `self` finds it. -/
def infoNode? (w : World) (outside : Outside) (self : Pid) (here : NodeId) (entry : InfoEntry) :
    Option Node :=
  let text (render : ProcessView → String) (pid : Pid) : Option Node :=
    (w.view? outside pid).map fun v => .notes (.ofString (render v))
  match entry with
  | .top =>
    let pids := outside.pid :: w.processes.keys
    some (infoDirectory Tree.root
      (("self", .self) :: pids.map fun pid => (toString pid, .directory pid)))
  | .self => some (.link (.ofString (toString self)))
  | .directory pid =>
    (w.view? outside pid).map fun _ => infoDirectory InfoEntry.top.toNode
      [("comm", .command pid), ("cwd", .workingDirectory pid), ("fd", .descriptors pid),
       ("stat", .stat pid), ("status", .status pid)]
  | .command pid => text (·.name ++ "\n") pid
  | .stat pid => text (·.stat outside.group outside.foreground) pid
  | .status pid => text (·.status) pid
  | .workingDirectory pid => (w.directoryOf? self here pid).map .alias
  | .descriptors pid =>
    (w.view? outside pid).map fun v => infoDirectory (InfoEntry.directory pid).toNode
      (v.slots.keys.map fun fd => (toString fd, .descriptor pid fd.toNat))
  | .descriptor pid fd =>
    ((w.view? outside pid).bind fun v => v.slots[(fd : Fd)]?).bind fun slot => w.fileNode? slot.file

/-- The tree as the process `self` finds it, which is in the directory
`here`. -/
def seenBy (w : World) (outside : Outside) (self : Pid) (here : NodeId) : Tree :=
  { w.tree with madeUp := fun id => w.infoNode? outside self here (InfoEntry.ofNode id) }

end World

end JobShell.Machine
