import JobShell.Proofs.Launching

/-!
# Jobs that fail

What keeps the shell from running a pipeline, said without running it: the
terminal does not say whom it belongs to, the job can not be built, or the
machine does not start one of its stages (`Supervisor.Refuses`). A pipeline
is run to a failure in these cases (`fst_runPipeline`) and in no others, and
the failure is the one of the first thing that went wrong.
-/

namespace JobShell

open Machine (NodeId Pid)

namespace Supervisor

variable {directory : NodeId} {environment : Environment} {failure : Failure}

/-- What the machine is asked for to start a stage. -/
def wanted (s : Supervisor) (environment : Environment) (e : Execution) (p : PreparedStage) :
    StartRequest :=
  { request e environment p with takesTerminal := e.nextTakesTerminal && s.terminal.isAttached }

/-- Of the stages that a job still has to start, one is refused by the
machine; those in front of it are started. -/
inductive Refuses (directory : NodeId) (environment : Environment) :
    Supervisor → Execution → Failure → Prop
  | here {s : Supervisor} {e : Execution} {next : StageRun} {cause : OsError} {host : Host}
      (hnext : e.next? = some next)
      (hstart : s.host.start directory (s.wanted environment e next.prepared)
        = (.error cause, host)) :
      Refuses directory environment s e (.spawn next.prepared.path cause)
  | later {s : Supervisor} {e : Execution} {next : StageRun} {pid : Pid} {host : Host}
      {failure : Failure} (hnext : e.next? = some next)
      (hstart : s.host.start directory (s.wanted environment e next.prepared) = (.ok pid, host))
      (hrest : Refuses directory environment ({ s with host }.apply e (.started pid)).2
        ({ s with host }.apply e (.started pid)).1 failure) :
      Refuses directory environment s e failure

/-- What goes wrong with a pipeline: it is not asked for, it is not built, or
it is not started. -/
inductive Fails (s : Supervisor) (directory : NodeId) (environment : Environment)
    (p : Pipeline) : Failure → Prop
  | terminal {cause : OsError} (hterminal : s.terminal.fault? s.host = some cause) :
      Fails s directory environment p (.terminal cause)
  | build {failure : Failure} (hterminal : s.terminal.fault? s.host = none)
      (hbuild : (s.host.buildJob directory environment.searchPath p).1 = .error failure) :
      Fails s directory environment p failure
  | start {failure : Failure} {job : Job} {host : Host}
      (hterminal : s.terminal.fault? s.host = none)
      (hbuild : s.host.buildJob directory environment.searchPath p = (.ok job, host))
      (hrefuses : Refuses directory environment
        ({ s with host, terminal := (s.terminal.foregroundGroup s.host).2 }.perform
          ((Execution.ofJob job (s.terminal.foregroundGroup s.host).1).transition .created
            .started))
        (.ofJob job (s.terminal.foregroundGroup s.host).1) failure) :
      Fails s directory environment p failure

end Supervisor

end JobShell
