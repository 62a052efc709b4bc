import JobShell.Host

/-!
# Fresh machines

The files every machine has, and a shell that was just started on it: with
its standard streams and nothing else open.
-/

namespace JobShell.Machine

namespace Tree

/-- The accounts of a machine, one on each line. -/
def accounts : String :=
  "root:x:0:0:root:/root:/bin/bash\ndaemon:x:1:1:daemon:/usr/sbin:/usr/sbin/nologin\n" ++
  "bin:x:2:2:bin:/bin:/usr/sbin/nologin\nsys:x:3:3:sys:/dev:/usr/sbin/nologin\n" ++
  "nobody:x:65534:65534:nobody:/nonexistent:/usr/sbin/nologin\n"

/-- The directories of a machine. -/
def systemDirectories : List String :=
  ["/usr/bin", "/usr/sbin", "/usr/lib", "/usr/local/bin", "/usr/local/sbin", "/dev", "/etc",
   "/home", "/root", "/run", "/tmp", "/var/tmp"]

/-- The links of a machine. -/
def systemLinks : List (String × String) :=
  [("/bin", "usr/bin"), ("/sbin", "usr/sbin"), ("/lib", "usr/lib"),
   ("/dev/fd", "/proc/self/fd"), ("/dev/stdin", "/proc/self/fd/0"),
   ("/dev/stdout", "/proc/self/fd/1"), ("/dev/stderr", "/proc/self/fd/2")]

/-- The devices of a machine. -/
def systemDevices : List (String × Device) :=
  [("/dev/null", .null), ("/dev/zero", .zero), ("/dev/full", .full), ("/dev/tty", .terminal)]

/-- The tree of a machine that brings along the given programs. -/
def system (tools : List String) : Tree :=
  let t := systemDirectories.foldl (fun t path => t.makeDirectories root (.ofString path)) empty
  let nodes : List (String × Node) :=
    systemLinks.map (fun (path, target) => (path, .link (.ofString target))) ++
    systemDevices.map (fun (path, device) => (path, .device device)) ++
    [("/etc/passwd", .file (.ofString accounts) false)] ++
    tools.map (fun name => ("/usr/bin/" ++ name, .tool name))
  let t := nodes.foldl (fun t (path, node) => t.put root (.ofString path) node) t
  t.enter root (.ofString "proc") InfoEntry.top.toNode

end Tree

/-- The number of the first process of a fresh machine, its shell. -/
def firstPid : Pid := 2000

/-- A machine with the given programs on which nothing runs yet. -/
def World.fresh (tools : List (String × (List Bytes → Environment → Program))) : World where
  library := fun name => tools.lookup name
  tree := Tree.system (tools.map (·.1))
  nextPid := firstPid + 1

end JobShell.Machine

namespace JobShell.Host

open Machine (World OpenFile Node)

/-- A shell that was just started on a machine, with these files as its
standard streams. -/
def ofStreams (w : World) (stdin stdout stderr : OpenFile) : Host :=
  let (input, w) := w.addFile stdin
  let (output, w) := w.addFile stdout
  let (errors, w) := w.addFile stderr
  let slots : Machine.Slots :=
    ((∅ : Machine.Slots).insert 0 ⟨input, false⟩).insert 1 ⟨output, false⟩
  { world := w
    shell :=
      { pid := Machine.firstPid, group := Machine.firstPid,
        slots := slots.insert 2 ⟨errors, false⟩, foreground := none, ignored := [] } }

end JobShell.Host
