import JobShell.Machine.Calls

/-!
# Running processes

Processes take turns in the order of their numbers, one call at a turn. When
none of them can go on, the clock moves to the next time at which a sleeping
one wakes up: what processes compute takes no time.
-/

namespace JobShell.Machine.World

/-- Hands the answer of a call to the process that made it, wherever it is
now. -/
def resume (w : World) (pid : Pid) (next : Program) : World :=
  match w.process? pid with
  | none => w
  | some p =>
    match p.activity with
    | .running .. => w.setProcess pid { p with activity := .running next none }
    | .stopped .. => w.setProcess pid { p with activity := .stopped next none }
    | .ended _ => w

/-- One turn of a process, and whether it did anything. -/
def turn (w : World) (outside : Outside) (pid : Pid) : Bool × World :=
  match w.process? pid with
  | none => (false, w)
  | some p =>
    match p.activity with
    | .ended _ | .stopped .. => (false, w)
    | .running program _ =>
      match program with
      | .exit status => (true, w.finish outside pid (.ofExit status))
      | .fork child next =>
        let (childPid, w) := w.addProcess
          { p with parent := pid, arrived := [], activity := .running child none }
        (true, w.resume pid (next childPid))
      | .call call next =>
        match w.perform outside pid p call with
        | .answered reply w => (true, w.resume pid (next reply))
        | .became program w => (true, w.resume pid program)
        | .blocked w =>
          if p.arrived = [] then (false, w)
          else (true, w.resume pid (next (.failed .interrupted)))

/-- One turn of every process, and whether any of them did anything. -/
def round (w : World) (outside : Outside) : Bool × World :=
  w.processes.keys.foldl (fun (any, w) pid =>
    let (did, w) := w.turn outside pid
    (any || did, w)) (false, w)

/-- The next time at which a sleeping process wakes up. -/
def nextWake? (w : World) : Option Nat :=
  (w.processes.toList.filterMap fun (_, p) =>
    match p.activity with
    | .running _ wake => wake
    | _ => none).min?

/-- A round, or a step of the clock if nobody can go on. Nothing is left to
be done if there is no time to go on to either. -/
def advance (w : World) (outside : Outside) : Option World :=
  match w.round outside with
  | (true, w) => some w
  | (false, w) =>
    match w.nextWake? with
    | some wake => if w.clock < wake then some { w with clock := wake } else none
    | none => none

/-- How many rounds a world gets to reach what is waited for. -/
def patience : Nat := 100000000

/-- Advances until `enough` holds; false if it never comes to hold. -/
def runUntil (outside : Outside) (enough : World → Bool) : Nat → World → Bool × World
  | 0, w => (enough w, w)
  | rounds + 1, w =>
    if enough w then (true, w)
    else
      match w.advance outside with
      | some w => runUntil outside enough rounds w
      | none => (false, w)

end JobShell.Machine.World
