import JobShell.Machine.Image
import JobShell.Machine.ProcessInfo

/-!
# What calls do

`World.perform` carries out one call of one process. A call is answered,
begins another program, or cannot be answered yet; a process whose call
cannot be answered yet makes it again later. A call may end its own process,
so the answer is for the process as it is found afterwards.
-/

namespace JobShell.Machine

/-- What becomes of a call. -/
inductive Outcome
  | answered (reply : Reply) (w : World)
  | became (program : Program) (w : World)
  | blocked (w : World)

/-- How many bytes a pipe holds. -/
def pipeCapacity : Nat := 65536

/-- Writes of at most this size enter a pipe whole. -/
def pipeAtom : Nat := 4096

namespace World

/-- The answer to a call that succeeds or fails. -/
def settle (w : World) : Except OsError World → Outcome
  | .ok w => .answered .done w
  | .error e => .answered (.failed e) w

/-- The answer to a call that changes the tree. -/
def settleTree (w : World) : Except OsError Tree → Outcome
  | .ok tree => .answered .done { w with tree := tree.kept }
  | .error e => .answered (.failed e) w

/-- The tree as a process finds it. -/
def treeOf (w : World) (outside : Outside) (pid : Pid) (p : Process) : Tree :=
  w.seenBy outside pid p.directory

/-! ## Opening -/

/-- Opens an open file once more, by a name that leads to it. -/
def reopen (w : World) (id : FileId) (mode : OpenMode) : Except OsError OpenFile :=
  match (w.file? id).map OpenFile.endpoint with
  | some (.pipeReader pipe) | some (.pipeWriter pipe) =>
    .ok { endpoint := if mode.writes then .pipeWriter pipe else .pipeReader pipe, mode }
  | some endpoint => .ok { endpoint, mode }
  | none => .error .noEntry

/-- The file that opening a path gives to the process `pid`, which is in the
directory `here`. -/
def openEndpoint (w : World) (outside : Outside) (pid : Pid) (here : NodeId) (path : Bytes)
    (mode : OpenMode) : Except OsError (OpenFile × World) := do
  let (id, tree) ← (w.seenBy outside pid here).openPath here path mode
  match tree.node? id with
  | some (.notes text) => .ok ({ endpoint := .snapshot text, mode }, w)
  | some (.opened file) => do return (← w.reopen file mode, w)
  | some (.device .terminal) =>
    if outside.foreground.isNone then .error .noDevice
    else .ok ({ endpoint := .node id, mode }, w)
  | _ => .ok ({ endpoint := .node id, mode }, { w with tree := tree.kept })

def performOpen (w : World) (outside : Outside) (pid : Pid) (p : Process) (path : Bytes)
    (mode : OpenMode) : Outcome :=
  if p.slotLimit ≤ p.slots.firstFree 0 then .answered (.failed .tooManyOpenFiles) w
  else
    match w.openEndpoint outside pid p.directory path mode with
    | .error e => .answered (.failed e) w
    | .ok (file, w) =>
      let (id, w) := w.addFile file
      match p.slots.allocate p.slotLimit 0 ⟨id, false⟩ with
      | .error e => .answered (.failed e) w
      | .ok (fd, slots) => .answered (.number fd) (w.setProcess pid { p with slots })

def performPipe (w : World) (pid : Pid) (p : Process) : Outcome :=
  let (reader, writer, changed) := w.addPipe
  let both := do
    let (readFd, slots) ← p.slots.allocate p.slotLimit 0 ⟨reader, false⟩
    let (writeFd, slots) ← Slots.allocate slots p.slotLimit 0 ⟨writer, false⟩
    return (readFd, writeFd, slots)
  match both with
  | .error e => .answered (.failed e) w
  | .ok (readFd, writeFd, slots) =>
    .answered (.two readFd writeFd) (changed.setProcess pid { p with slots })

/-! ## Reading and writing -/

/-- The file behind a descriptor. -/
def fileAt? (w : World) (p : Process) (fd : Fd) : Option (FileId × OpenFile) :=
  (p.slots[fd]?).bind fun slot => (w.file? slot.file).map fun file => (slot.file, file)

/-- Reads from the terminal: one line at a time, and only for the group it
belongs to. Any other group is stopped. -/
def readTerminal (w : World) (outside : Outside) (p : Process) (count : Nat) : Outcome :=
  match outside.foreground with
  | none => .answered (.failed (.code 5)) w
  | some group =>
    if group ≠ p.group then
      if Signal.terminalInput ∈ p.ignored then .answered (.failed (.code 5)) w
      else
        match w.signalGroup outside p.group Signal.terminalInput with
        | .ok w => .blocked w
        | .error e => .answered (.failed e) w
    else
      match w.keyboard with
      | [] => .blocked w
      | line :: rest =>
        let keyboard := if line.length ≤ count then rest else line.drop count :: rest
        .answered (.data (line.take count)) { w with keyboard }

/-- Reads from what holds `data`, at the offset of the file. -/
def readData (w : World) (id : FileId) (file : OpenFile) (data : Bytes) (count : Nat) : Outcome :=
  let block := (data.drop file.offset).take count
  .answered (.data block) (w.setOffset id (file.offset + block.length))

def performRead (w : World) (outside : Outside) (pid : Pid) (p : Process) (fd : Fd) (count : Nat) :
    Outcome :=
  match w.fileAt? p fd with
  | none => .answered (.failed .badDescriptor) w
  | some (id, file) =>
    if !file.mode.reads then .answered (.failed .badDescriptor) w
    else
      match file.endpoint with
      | .node node =>
        match (w.treeOf outside pid p).node? node with
        | some (.file data _) => w.readData id file data count
        | some (.directory ..) => .answered (.failed .isDirectory) w
        | some (.device .terminal) => w.readTerminal outside p count
        | some (.device .null) => .answered (.data []) w
        | some (.device _) => .answered (.data (List.replicate count 0)) w
        | some (.tool _) => .answered (.data []) w
        | _ => .answered (.failed .badDescriptor) w
      | .snapshot data => w.readData id file data count
      | .pipeReader pipe =>
        match (w.pipes[pipe]?).getD [] with
        | [] =>
          if w.isHeld outside (.pipeWriter pipe) then .blocked w else .answered (.data []) w
        | held =>
          .answered (.data (held.take count))
            { w with pipes := w.pipes.setIfInBounds pipe (held.drop count) }
      | .pipeWriter _ | .report => .answered (.failed .badDescriptor) w

/-- Writes into a pipe what fits. Without a reader the writer gets a signal,
and an error if it goes on. -/
def writePipe (w : World) (outside : Outside) (pid : Pid) (pipe : Nat) (data : Bytes) : Outcome :=
  if !w.isHeld outside (.pipeReader pipe) then
    .answered (.failed .brokenPipe) (w.deliver outside pid Signal.brokenPipe)
  else
    let held := (w.pipes[pipe]?).getD []
    let room := pipeCapacity - held.length
    if room = 0 ∨ (data.length ≤ pipeAtom ∧ room < data.length) then .blocked w
    else
      let part := data.take room
      .answered (.number part.length)
        { w with pipes := w.pipes.setIfInBounds pipe (held ++ part) }

def performWrite (w : World) (outside : Outside) (pid : Pid) (p : Process) (fd : Fd)
    (data : Bytes) : Outcome :=
  match w.fileAt? p fd with
  | none => .answered (.failed .badDescriptor) w
  | some (id, file) =>
    if !file.mode.writes then .answered (.failed .badDescriptor) w
    else
      match file.endpoint with
      | .node node =>
        match w.tree.node? node with
        | some (.file old _) =>
          let offset := if file.mode.appends then old.length else file.offset
          let w := { w with tree := w.tree.write node offset data }
          .answered (.number data.length) (w.setOffset id (offset + data.length))
        | some (.device .full) => .answered (.failed .noSpace) w
        | some (.device _) => .answered (.number data.length) w
        | _ => .answered (.failed .badDescriptor) w
      | .pipeWriter pipe => w.writePipe outside pid pipe data
      | _ => .answered (.failed .badDescriptor) w

def performSeek (w : World) (p : Process) (fd : Fd) (by_ : Int) : Outcome :=
  match w.fileAt? p fd with
  | none => .answered (.failed .badDescriptor) w
  | some (id, file) =>
    let move (_ : Unit) : Outcome :=
      let offset : Int := file.offset + by_
      if offset < 0 then .answered (.failed .invalidArgument) w
      else .answered (.number offset) (w.setOffset id offset.toNat)
    match file.endpoint with
    | .node node =>
      match w.tree.node? node with
      | some (.device .terminal) => .answered (.failed .illegalSeek) w
      | _ => move ()
    | .snapshot _ => move ()
    | _ => .answered (.failed .illegalSeek) w

def performIsTerminal (w : World) (p : Process) (fd : Fd) : Outcome :=
  match w.fileAt? p fd with
  | none => .answered (.failed .badDescriptor) w
  | some (_, file) =>
    match file.endpoint with
    | .node node =>
      match w.tree.node? node with
      | some (.device .terminal) => .answered .done w
      | _ => .answered (.failed .notTerminal) w
    | _ => .answered (.failed .notTerminal) w

/-! ## Asking about files -/

/-- What a node of a tree turns out to be. -/
def nodeFacts (w : World) (t : Tree) (id : NodeId) : Except OsError Facts :=
  let facts (kind : FileKind) (size : Nat) (executable : Bool) : Except OsError Facts :=
    .ok { kind, size, executable, identity := id }
  match t.node? id with
  | some (.file data executable) => facts .regular data.length executable
  | some (.tool _) => facts .regular 0 true
  | some (.directory ..) => facts .directory 4096 true
  | some (.link target) => facts .link target.length true
  | some (.device _) => facts .device 0 false
  | some (.notes _) => facts .regular 0 false
  | some (.alias _) => facts .link 64 true
  | some (.opened file) =>
    match (w.file? file).map OpenFile.endpoint with
    | some (.snapshot _) => facts .regular 0 false
    | _ => facts .pipe 0 false
  | none => .error .noEntry

def answerFacts (w : World) : Except OsError Facts → Outcome
  | .ok facts => .answered (.facts facts) w
  | .error e => .answered (.failed e) w

def performFacts (w : World) (outside : Outside) (pid : Pid) (p : Process) (path : Bytes)
    (purpose : Purpose) : Outcome :=
  let t := w.treeOf outside pid p
  w.answerFacts (t.find p.directory path purpose >>= w.nodeFacts t)

def performFactsOf (w : World) (outside : Outside) (pid : Pid) (p : Process) (fd : Fd) : Outcome :=
  match w.fileAt? p fd with
  | none => .answered (.failed .badDescriptor) w
  | some (_, file) =>
    let other (kind : FileKind) : Outcome :=
      .answered (.facts { kind, size := 0, executable := false, identity := 0 }) w
    match file.endpoint with
    | .node node =>
      let facts := w.nodeFacts (w.treeOf outside pid p) node
      w.answerFacts (facts.map fun facts => { facts with appends := file.mode.appends })
    | .snapshot _ => other .regular
    | _ => other .pipe

/-- The names in a directory. To look at them a process opens one descriptor
more, which it finds among its own. -/
def performNames (w : World) (outside : Outside) (pid : Pid) (p : Process) (path : Bytes) :
    Outcome :=
  let looking := { p with slots := p.slots.insert (p.slots.firstFree 0) ⟨0, true⟩ }
  let t := (w.setProcess pid looking).treeOf outside pid p
  match t.find p.directory path with
  | .error e => .answered (.failed e) w
  | .ok id =>
    match t.node? id with
    | some (.directory _ entries) => .answered (.names entries.keys) w
    | _ => .answered (.failed .notDirectory) w

/-- What a link holds. For a node under a second name that is the path of
the node, if it has one. -/
def performLinkTarget (w : World) (outside : Outside) (pid : Pid) (p : Process) (path : Bytes) :
    Outcome :=
  let t := w.treeOf outside pid p
  match t.find p.directory path .entry with
  | .error e => .answered (.failed e) w
  | .ok id =>
    match t.node? id with
    | some (.link target) => .answered (.data target) w
    | some (.alias target) =>
      match t.pathOf? target with
      | some path => .answered (.data path) w
      | none => .answered (.failed .noEntry) w
    | _ => .answered (.failed .invalidArgument) w

def performEnterDirectory (w : World) (outside : Outside) (pid : Pid) (p : Process)
    (path : Bytes) : Outcome :=
  let t := w.treeOf outside pid p
  match t.find p.directory path with
  | .error e => .answered (.failed e) w
  | .ok id =>
    if t.isDirectory id then .answered .done (w.setProcess pid { p with directory := id })
    else .answered (.failed .notDirectory) w

/-! ## Processes -/

def performExecute (w : World) (outside : Outside) (pid : Pid) (p : Process) (path : Bytes)
    (arguments : List Bytes) (environment : Environment) : Outcome :=
  match w.execute (w.treeOf outside pid p) p.directory path arguments environment with
  | .error e => .answered (.failed e) w
  | .ok image =>
    .became image.program (w.setProcess pid
      { p with name := image.name, slots := p.slots.afterExec, caught := [], arrived := [] })

/-- Takes the status of a child that has ended. -/
def performWait (w : World) (pid : Pid) (wanted : Option Pid) (block : Bool) : Outcome :=
  let children := (w.processes.filter fun child p =>
    p.parent = pid && (wanted.isNone || wanted = some child)).keys
  match children with
  | [] => .answered (.failed .noChild) w
  | _ =>
    match children.findSome? fun child => (w.ending? child).map fun status => (child, status) with
    | some (child, status) => .answered (.ended child status) (w.removeProcess child)
    | none => if block then .blocked w else .answered .done w

def performHandle (w : World) (pid : Pid) (p : Process) (signal : Signal)
    (disposition : Disposition) : Outcome :=
  if !signal.isIgnorable || signal < 1 || 64 < signal then .answered (.failed .invalidArgument) w
  else
    let p := { p with ignored := p.ignored.filter (· ≠ signal),
                      caught := p.caught.filter (· ≠ signal) }
    let p := match disposition with
      | .usual => p
      | .ignored => { p with ignored := signal :: p.ignored }
      | .caught => { p with caught := signal :: p.caught }
    .answered .done (w.setProcess pid p)

/-- Sleeps until `microseconds` after the call was first made. -/
def performSleep (w : World) (pid : Pid) (p : Process) (microseconds : Nat) : Outcome :=
  match p.activity with
  | .running program none =>
    if microseconds = 0 then .answered .done w
    else
      .blocked (w.setProcess pid
        { p with activity := .running program (some (w.clock + microseconds)) })
  | .running program (some wake) =>
    if wake ≤ w.clock then
      .answered .done (w.setProcess pid { p with activity := .running program none })
    else .blocked w
  | _ => .blocked w

/-- Carries out a call of the process `pid`. -/
def perform (w : World) (outside : Outside) (pid : Pid) (p : Process) : Call → Outcome
  | .openFile path mode => w.performOpen outside pid p path mode
  | .close fd =>
    if p.slots.contains fd then
      .answered .done (w.setProcess pid { p with slots := p.slots.erase fd })
    else .answered (.failed .badDescriptor) w
  | .read fd count => w.performRead outside pid p fd count
  | .write fd data => w.performWrite outside pid p fd data
  | .seek fd by_ => w.performSeek p fd by_
  | .duplicate fd least closeOnExec =>
    match p.slots.duplicate p.slotLimit fd least closeOnExec with
    | .ok (fd, slots) => .answered (.number fd) (w.setProcess pid { p with slots })
    | .error e => .answered (.failed e) w
  | .duplicateOnto fd target =>
    match p.slots.duplicateOnto p.slotLimit fd target with
    | .ok slots => .answered .done (w.setProcess pid { p with slots })
    | .error e => .answered (.failed e) w
  | .makePipe => w.performPipe pid p
  | .isTerminal fd => w.performIsTerminal p fd
  | .facts path follow =>
    w.performFacts outside pid p path (if follow then .target else .entry)
  | .factsOf fd => w.performFactsOf outside pid p fd
  | .names path => w.performNames outside pid p path
  | .linkTarget path => w.performLinkTarget outside pid p path
  | .enterDirectory path => w.performEnterDirectory outside pid p path
  | .currentDirectory =>
    match (w.treeOf outside pid p).pathTo p.directory with
    | .ok path => .answered (.data path) w
    | .error e => .answered (.failed e) w
  | .makeDirectory path => w.settleTree ((w.treeOf outside pid p).makeDirectory p.directory path)
  | .removeDirectory path =>
    w.settleTree ((w.treeOf outside pid p).removeDirectory p.directory path)
  | .remove path => w.settleTree ((w.treeOf outside pid p).remove p.directory path)
  | .rename source target =>
    w.settleTree ((w.treeOf outside pid p).rename p.directory source target)
  | .makeLink target path =>
    w.settleTree ((w.treeOf outside pid p).makeLink p.directory target path)
  | .share source path follow =>
    w.settleTree ((w.treeOf outside pid p).share p.directory source path follow)
  | .setExecutable path executable =>
    w.settleTree ((w.treeOf outside pid p).setExecutable p.directory path executable)
  | .execute path arguments environment => w.performExecute outside pid p path arguments environment
  | .wait wanted block => w.performWait pid wanted block
  | .send target signal => w.settle (w.send outside p target signal)
  | .handle signal disposition => w.performHandle pid p signal disposition
  | .takeCaught => .answered (.signals p.arrived) (w.setProcess pid { p with arrived := [] })
  | .ownNumbers => .answered (.two pid p.parent) w
  | .leadGroup => .answered .done (w.setProcess pid { p with group := pid })
  | .sleep microseconds => w.performSleep pid p microseconds
  | .time => .answered (.number w.clock) w

end World

end JobShell.Machine
